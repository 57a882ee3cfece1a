import Curation.Proofs.Disclosure
import Curation.Proofs.Generations
import Curation.Proofs.Judging

/-! What a deletion does. It is refused for the first of several reasons, or it takes the collection out of the tables
    with all of its memberships, and nothing else. The commit drops what the cache holds of it and moves its generation
    on, so that a load that began before, in whatever session, brings nothing of it back. -/

namespace Curation

open Act (Ends Judged ends_bind ends_pure ends_throw)
open Catalog (Plan)

/-! ### The tables after a deletion -/

namespace Tables

variable {t v : Tables} {id : String}

/-- What a deletion makes of the tables: the row of the collection and its memberships are gone. All other rows, all
    other memberships and all projects are there as before. -/
structure Loses (t : Tables) (id : String) (v : Tables) : Prop where
  rows : ∀ r, r ∈ v.collections ↔ r ∈ t.collections ∧ r.id ≠ id
  links : ∀ l, l ∈ v.links ↔ l ∈ t.links ∧ l.collection ≠ id
  projects : v.projects = t.projects

theorem loses_deleteRow : t.Loses id ((t.deleteLinks id).2.deleteRow true id).2 where
  rows r := by simp [deleteRow, deleteLinks]
  links l := by simp [deleteRow, deleteLinks]
  projects := rfl

theorem Loses.row (h : t.Loses id v) : v.row? id = none := row?_eq_none_iff.mpr fun r hr => ((h.rows r).mp hr).2

/-- There are no memberships of a collection without a row. -/
theorem Intact.ne_of_mem_links (h : t.Intact) (hrow : t.row? id = none) {l : Link} (hl : l ∈ t.links) :
    l.collection ≠ id := by
  rintro rfl
  have hmem : l.project ∈ t.membersOf l.collection := mem_membersOf.mpr hl
  rw [h.membersOf_eq_nil hrow] at hmem
  cases hmem

end Tables

/-! ### Committing -/

/-- A block whose work leaves a database that answers and takes writes leaves it so itself. -/
theorem Act.atomically_serves {α : Type} {a : Act α} {s : State} {ok : α → Prop}
    (ha : Ends a s (fun x t => ok x ∧ t.Serves) fun _ _ => False) :
    Ends (Act.atomically a) s (fun x t => ok x ∧ t.Serves) fun _ _ => False := by
  rw [Act.atomically_ends]
  refine ha.mono (fun x t ht => ?_) fun _ _ hfalse => hfalse
  obtain ⟨hx, h⟩ := ht
  refine Act.commit_serves h.toAnswers ⟨⟨hx, ⟨h.stuck, h.present, h.outages⟩, h.writable⟩, hx, ⟨h.stuck, h.present, ?_⟩,
    h.writable⟩
  exact fun o ho => h.outages o (List.mem_of_mem_tail ho)

/-- When a transaction is committed that erases a collection and does nothing else, the cache is told. -/
theorem Catalog.erase_invalidates {s : State} {id : String} (h : s.Settled) :
    Ends (Act.atomically (Catalog.erase id)) s (fun _ t => t.cache = s.cache.invalidate id) fun _ _ => True := by
  rw [Act.atomically_ends]
  refine Catalog.erase_ends (fun _ _ _ => trivial) fun t ht => ?_
  have hwaits : t.session.pending = [(id, none)] := by
    rw [ht.pending, h.nothing]
    rfl
  have htold : t.session.pending.apply true t.now t.cache = s.cache.invalidate id := by
    rw [hwaits, ht.cache]
    rfl
  exact Act.commit_ends (ht.stuck.trans h.unstuck) ⟨htold, htold⟩ fun _ => trivial

namespace Service

variable {s t u : State} {actor : Option Actor} {id : String}

/-! ### The checks -/

/-- What may be the matter with a deletion. It fails for the first of these that is given. -/
def deletionReasons (t : Tables) (actor : Option Actor) (id : String) : List (Option Failure) := [
  Reason.unknownActor actor, Reason.unscoped actor .delete, Reason.missing t id, Reason.foreign t id actor]

/-- The checks of a deletion come in the order of the reasons. -/
theorem delete_prepare_judged (h : s.Settled) (hlegible : s.db.committed.Legible) (ha : s.Answers)
    (actor : Option Actor) (id : String) :
    Judged (Operation.delete actor id).prepare s (deletionReasons s.db.committed actor id)
      (fun j t => s.Still t ∧ j = .delete id id ∧ (s.db.committed.row? id).isSome) fun t => s.Still t := by
  -- the reasons in groups, one for each check
  show Judged _ s ([_, _] ++ ([_, _] ++ [])) _ _
  refine (writer_judged (.refl s)).bind fun a _ hactor => ?_
  obtain ⟨rfl, -, rfl⟩ := hactor
  refine (fetchMaintained_judged h hlegible ha fun _ ht => .of_reads ht).bind fun c t hfetched => ?_
  obtain ⟨hreads, hheld, -⟩ := hfetched
  obtain ⟨r, hrow, -⟩ := Tables.held?_eq_some.mp hheld
  exact Act.judged_pure ⟨.of_reads hreads, by rw [Tables.id_of_held? hheld], Option.isSome_of_mem hrow⟩

/-- Whoever may delete the collection has no reason to be refused. -/
theorem first_deletionReasons {a : Actor} {c : Collection} {t : Tables} (h : t.Grants a .delete id c) :
    Reason.first (deletionReasons t (some a) id) = none := by
  obtain ⟨r, hrow, howner, -⟩ := h.row
  have hunscoped : Reason.unscoped (some a) .delete = none := by simp [Reason.unscoped, h.scope]
  have hforeign : Reason.foreign t id (some a) = none := by
    rw [Reason.foreign_of_row hrow howner.symm, if_pos h.maintains]
  rw [deletionReasons, hunscoped, Reason.missing_of_row hrow, hforeign]
  rfl

/-! ### The transaction -/

/-- The work of a deletion succeeds where the database answers and takes writes, and leaves it so. -/
theorem delete_finish_serves (h : u.Serves) (hrow : (u.tables.row? id).isSome) :
    Ends (Transaction.delete id id).finish u (fun _ v => v.Serves) fun _ _ => False := by
  unfold Transaction.finish
  rw [ends_bind]
  refine (Act.atomically_serves (Catalog.erase_serves h hrow fun t ht => ⟨rfl, h.gives ht⟩)).mono (fun found v hv => ?_)
    fun _ _ hfalse => hfalse.elim
  obtain ⟨rfl, hv⟩ := hv
  exact ends_pure.mpr hv

/-- What comes after the checks of a deletion is done where the collection is there. -/
theorem delete_judged_of {ok : Unit → State → Prop} (hs : Served s) (ha : s.Answers) (actor : Option Actor)
    (id : String) (hfinish : ∀ t, s.Still t → (s.db.committed.row? id).isSome →
      Ends (Transaction.delete id id).finish t ok fun _ _ => False) :
    Judged (Service.delete actor id) s (deletionReasons s.db.committed actor id) ok fun t => s.Still t := by
  show Judged (Operation.delete actor id).run s _ _ _
  rw [Operation.run_eq_finish, ← List.append_nil (deletionReasons _ _ _)]
  refine (delete_prepare_judged hs.settled hs.legible ha actor id).bind fun j t hprepared => ?_
  obtain ⟨hstill, rfl, hrow⟩ := hprepared
  exact (hfinish t hstill hrow).mono (fun _ _ hv => ⟨rfl, hv⟩) fun _ _ hfalse => hfalse.elim

/-- A deletion fails for the first of the reasons, or succeeds. -/
theorem delete_judged (hs : Served s) (hserves : s.Serves) (actor : Option Actor) (id : String) :
    Judged (Service.delete actor id) s (deletionReasons s.db.committed actor id) (fun _ t => t.Serves)
      fun t => s.Still t := by
  refine delete_judged_of hs hserves.toAnswers actor id fun t ht hrow => delete_finish_serves (hserves.still ht) ?_
  rw [ht.tables, hs.settled.seen]
  exact hrow

/-- What a deletion that succeeds commits, and whose it is. -/
theorem delete_ends (h : s.Settled) (actor : Option Actor) (id : String) :
    Ends (Service.delete actor id) s
      (fun _ t => Reason.first (deletionReasons s.db.committed actor id) = none ∧
        s.db.committed.Loses id t.db.committed)
      fun _ t => t.db.committed = s.db.committed := by
  refine ((Operation.delete actor id).run_ends h).mono (fun _ t ht => ?_) fun _ _ ht => ht.committed
  obtain ⟨-, heffect⟩ := ht
  generalize t.db.committed = v at heffect ⊢
  cases heffect with
  | delete grants => exact ⟨first_deletionReasons grants, Tables.loses_deleteRow⟩

/-- The commit drops the entry of the collection, and moves its generation on. -/
theorem delete_moves (h : s.Settled) (actor : Option Actor) (id : String) :
    Ends (Service.delete actor id) s (fun _ t => s.cache.generation id < t.cache.generation id) fun _ _ => True := by
  show Ends (Operation.delete actor id).run s _ _
  rw [Operation.run_eq_finish, ends_bind]
  refine (Operation.delete actor id).prepare_prepared.mono (fun j u hj => ?_) fun _ _ _ => trivial
  cases hj with
  | delete scope fetched =>
    obtain ⟨hreads, hgrants⟩ := fetchMaintained_ok h scope fetched
    rw [hgrants.id]
    unfold Transaction.finish
    rw [ends_bind]
    refine (Catalog.erase_invalidates (h.reads hreads)).mono (fun found v hv => ?_) fun _ _ _ => trivial
    have hmoved : s.cache.generation id < v.cache.generation id := by
      rw [hv]
      exact Generation.lt_of_le_of_lt (hreads.generation id) (Cache.generation_lt_bump u.cache id)
    cases found with
    | true => exact ends_pure.mpr hmoved
    | false => exact ends_throw.mpr trivial

/-! ### What is found afterwards -/

/-- Nothing is found under an id: neither in the cache nor by anyone who asks for it, alone or among others, or who
    would delete it. -/
structure Omits (s : State) (id : String) : Prop where
  entry : s.cache.entries.get? id = none
  get : ∀ viewer, (Service.get viewer id s).1 = .error (.notFound id) ∨ s.Refuses (.get viewer id)
  list : ∀ viewer ids, (∃ cs, (Service.list viewer ids s).1 = .ok cs ∧ ∀ c ∈ cs, c.id ≠ id) ∨
    s.Refuses (.list viewer ids)
  delete : s.Answers → ∀ a : Actor, a.hasScope .delete = true →
    (Service.delete (some a) id s).1 = .error (.notFound id)

theorem delete_missing (h : Served s) (hrow : s.db.committed.row? id = none) (ha : s.Answers) {a : Actor}
    (hscope : a.hasScope .delete = true) : (Service.delete (some a) id s).1 = .error (.notFound id) := by
  have hjudged : Judged (Service.delete (some a) id) s (deletionReasons s.db.committed (some a) id)
      (fun _ _ => False) fun t => s.Still t :=
    delete_judged_of h ha (some a) id fun _ _ hthere => absurd hthere (by simp [hrow])
  have hfirst : Reason.first (deletionReasons s.db.committed (some a) id) = some (.notFound id) := by
    simp [Reason.first, deletionReasons, Reason.unknownActor, Reason.unscoped, Reason.missing, hscope, hrow]
  rcases hjudged.result with ⟨_, _, _, -, hfalse⟩ | ⟨e, t, hrun, hsome, -⟩
  · exact hfalse.elim
  · rw [hfirst] at hsome
    rw [hrun, Option.some.inj hsome]

theorem Served.omits (h : Served s) (hrow : s.db.committed.row? id = none) : Omits s id := by
  have hheld : s.db.committed.held? id = none := by simp [Tables.held?, Tables.collection?, hrow]
  refine ⟨?_, fun viewer => ?_, fun viewer ids => ?_, fun ha a hscope => ?_⟩
  · cases he : s.cache.entries.get? id with
    | none => rfl
    | some e => exact absurd (h.settled.entries id e he) (by simp [hheld])
  · refine (get_fst h viewer id).imp_left fun hget => hget.trans ?_
    simp [Tables.shown, Tables.seen?, hheld]
  · refine (list_fst h viewer ids).imp_left fun hlist => ⟨_, hlist, fun c hc heq => ?_⟩
    obtain ⟨id', -, hseen⟩ := List.mem_filterMap.mp hc
    have hc : s.db.committed.held? id' = some c := Option.eq_some_of_filter_eq_some hseen
    obtain rfl : c.id = id' := Tables.id_of_held? hc
    rw [heq, hheld] at hc
    cases hc
  · exact delete_missing h hrow ha hscope

/-- The id is not in use: no collection has it. -/
def unused (id : String) (_ : Option Operation) (_ t : State) : Prop := t.db.committed.row? id = none

theorem Runs.unused (hruns : Runs (unused id) s t) (hs : s.db.committed.row? id = none) :
    t.db.committed.row? id = none := by
  cases hruns with
  | refl => exact hs
  | step _ _ ho => exact ho

/-- What a deletion that succeeds leads to. Nothing else is gone from the tables than the collection. Nothing is found
    of it until one is created under the same id, and no load that began before brings it back into the cache. -/
structure Deleted (s t : State) (id : String) : Prop where
  loses : s.db.committed.Loses id t.db.committed
  omits : ∀ u, Runs (unused id) t u → Omits u id
  barred : ∀ r ids plan r', Runs anything r s → Catalog.lookUp ids r = (.ok plan, r') →
    ∀ u, Runs anything t u → plan.Barred id u.cache

/-- The generation that a load noted for a collection before its deletion has passed. -/
theorem delete_bars {r r' : State} {ids : List String} {plan : Plan} (hs : s.Settled)
    (hrun : Service.delete actor id s = (.ok (), t)) (hr : Runs anything r s)
    (hplan : Catalog.lookUp ids r = (.ok plan, r')) (hu : Runs anything t u) : plan.Barred id u.cache := by
  refine Plan.barred_of_lt fun g hg => ?_
  obtain ⟨-, -, -, hmade, -⟩ := Catalog.lookUp_ok hplan
  rw [hmade.generations] at hg
  split at hg
  · cases hg
    have hmoved := (delete_moves hs actor id).of_ok hrun
    exact Generation.lt_of_lt_of_le (Generation.lt_of_le_of_lt (hr.ages id) hmoved) (hu.ages id)
  · cases hg

theorem deleted_of_run (hs : Served s) (hrun : Service.delete actor id s = (.ok (), t)) : Deleted s t id := by
  obtain ⟨-, hloses⟩ := (delete_ends hs.settled actor id).of_ok hrun
  have ht : Served t := hs.runs (.step .refl (.operation (.delete actor id) hrun) trivial : Runs anything s t)
  exact ⟨hloses, fun u hu => (ht.runs hu).omits (hu.unused hloses.row),
    fun r ids plan r' hr hplan u hu => delete_bars hs.settled hrun hr hplan hu⟩

end Service

/-! ### Other sessions meanwhile -/

namespace Sessions

open Catalog (Work)

variable {S T U : System} {i : Nat} {id : String}

/-- A session has erased a collection in its transaction, as a deletion does. The transaction may be committed by now,
    and others may have gone on. -/
inductive Erased (i : Nat) (id : String) : System → Prop
  | erase {S T : System} {v : Tables} {s t : State} (hs : S.Shows i v s)
    (h : (Work.erase id).run s = (.ok (), t)) (hstep : Step S T) (hT : (T.workers i).session = t.session) :
    Erased i id T
  | beside {S T : System} (hS : Erased i id S) (hstep : Step S T)
    (hT : (T.workers i).session.pending = (S.workers i).session.pending) : Erased i id T

/-- The system after a commit has done to the cache what waited for it. -/
def System.told (S : System) (i : Nat) : System :=
  S.put i {} ((S.workers i).session.pending.apply true S.now S.cache)

/-- The cache has forgotten an id, and no load that is under way brings it back. -/
structure System.Forgets (S : System) (id : String) (T : System) : Prop where
  entry : T.cache.entries.get? id = none
  barred : ∀ j plan, (S.workers j).task.plan? = some plan → ∀ U, Steps T U → plan.Barred id U.cache

/-- The cache is to be told to forget what has been erased. -/
theorem Erased.waits (h : Erased i id S) : (S.workers i).session.pending.get? id = some none := by
  induction h with
  | @erase S T v s t hs hrun _ hT =>
    have hends : Ends (Work.erase id).run s (fun _ t => t.session.pending = s.session.pending.put id none)
        fun _ _ => True := by
      unfold Work.run
      simp only [ends_bind, ends_pure]
      exact Catalog.erase_ends (fun _ _ _ => trivial) fun t ht => ht.pending
    rw [hT, hends.of_ok hrun, Keyed.get?_put, if_pos rfl]
  | beside _ _ hT ih => rw [hT, ih]

/-- When a commit that erases a collection has reached the cache, the collection is forgotten there. -/
theorem Erased.forgets (hS : Reached S) (h : Erased i id S) : S.Forgets id (S.told i) := by
  obtain ⟨hinv, -⟩ := hS.inv
  have hsound := hinv.workers i
  have hkey : id ∈ (S.workers i).session.pending.keys := by
    refine Decidable.not_not.mp fun hid => ?_
    rw [← Keyed.get?_eq_none_iff, h.waits] at hid
    cases hid
  have hmoved : S.cache.generation id < (S.told i).cache.generation id :=
    Pending.generation_lt_apply hsound.named hkey S.cache
  refine ⟨?_, fun j plan hplan U hU => Plan.barred_of_lt fun g hg => ?_⟩
  · cases he : (S.told i).cache.entries.get? id with
    | none => rfl
    | some e =>
      rcases Pending.get?_apply hsound.named he with ⟨hid, -⟩ | hmem
      · exact absurd hkey hid
      · have hwaits := Keyed.get?_of_mem hsound.waiting hmem
        rw [h.waits] at hwaits
        cases hwaits
  · have hnoted : g ≤ S.cache.generation id := (hinv.workers j).planned plan hplan id g hg
    exact Generation.lt_of_le_of_lt hnoted (Generation.lt_of_lt_of_le hmoved (hU.generation id))

end Sessions

namespace Service

variable {s : State}

/-- In every state of the service each membership is of a collection that has a row. Where the database answers and
    takes writes, a deletion is refused for the first reason that there is, by what is committed, and if there is none
    it succeeds. Wherever one fails it commits nothing, and wherever one succeeds it takes the collection out of the
    tables and nothing else. From then on nothing is found under its id until a collection is created under it, and no
    load that began before stores it in the cache, nor does one that began in another session at any moment before the
    commit has reached the cache. -/
theorem deleted_completely (hs : Served s) (actor : Option Actor) (id : String) :
    (∀ id', s.db.committed.row? id' = none → ∀ l ∈ s.db.committed.links, l.collection ≠ id') ∧
    (s.Serves → match Reason.first (deletionReasons s.db.committed actor id) with
      | some cause => (Service.delete actor id s).1 = .error cause
      | none => ∃ t, Service.delete actor id s = (.ok (), t) ∧ t.Serves) ∧
    (∀ e t, Service.delete actor id s = (.error e, t) → t.db.committed = s.db.committed) ∧
    (∀ t, Service.delete actor id s = (.ok (), t) →
      Reason.first (deletionReasons s.db.committed actor id) = none ∧ Deleted s t id) ∧
    ∀ S i, Sessions.Reached S → Sessions.Erased i id S → (S.workers i).task = .committed →
      Sessions.Step S (S.told i) ∧ S.Forgets id (S.told i) := by
  have hends := delete_ends hs.settled actor id
  refine ⟨fun id' hrow l hl => hs.settled.committed.ne_of_mem_links hrow hl, fun hserves => ?_,
    fun e t hrun => hends.of_error hrun, fun t hrun => ⟨(hends.of_ok hrun).1, deleted_of_run hs hrun⟩,
    fun S i hS herased htask => ⟨.apply htask, herased.forgets hS⟩⟩
  rcases (delete_judged hs hserves actor id).result with ⟨_, t, hrun, hnone, ht⟩ | ⟨cause, t, hrun, hsome, -⟩
  · rw [hnone]
    exact ⟨t, hrun, ht⟩
  · rw [hsome, hrun]

end Service

namespace Sessions

/-- A session has erased and committed the only collection, while another one is about to load it. -/
theorem erased_beside_load : ∃ S plan, Reached S ∧ Erased 0 "c" S ∧ (S.workers 0).task = .committed ∧
    (S.workers 1).task.plan? = some plan ∧ plan.generations.get? "c" = some ⟨0, 0⟩ := by
  let v := State.lone.db.committed
  let s : State := { State.lone with session := { view := some v } }
  let t : State := ((Catalog.Work.erase "c").run s).2
  let plan : Plan := { ids := ["c"], found := [], misses := ["c"], generations := [("c", ⟨0, 0⟩)] }
  let S₀ : System := { now := 0, committed := v, cache := {} }
  let S₁ := S₀.put 1 { task := .planned plan } {}
  let S₂ := S₁.put 0 { session := t.session, changed := fun id => False ∨ ¬ t.tables.AgreeAt v id } t.cache
  let S₃ : System :=
    { S₂.put 0 { session := { t.session with view := none }, task := .committed } S₂.cache with committed := t.tables }
  have hwaits : t.session.pending = [("c", none)] := rfl
  have hnone : ∀ {w : Worker}, w.session.pending = [] ∨ w.session.pending = [("c", none)] → ∀ id, ¬ w.Owns id := by
    rintro w hw id ⟨c, hc⟩
    rcases hw with hw | hw
    · rw [hw] at hc
      cases hc
    · rw [hw, Keyed.get?_cons] at hc
      split at hc
      · cases hc
      · cases hc
  have h₀ : ∀ j id, ¬ (S₀.workers j).Owns id := fun _ => hnone (Or.inl rfl)
  have h₁ : ∀ j id, ¬ (S₁.workers j).Owns id := System.put_owns_none (hnone (Or.inl rfl)) h₀
  have h₂ : ∀ j id, ¬ (S₂.workers j).Owns id := System.put_owns_none (hnone (Or.inr hwaits)) h₁
  have h₃ : ∀ j id, ¬ (S₃.workers j).Owns id := System.put_owns_none (c := S₂.cache) (hnone (Or.inr hwaits)) h₂
  have hshows : S₁.Shows 0 v s := ⟨rfl, rfl, rfl, rfl⟩
  have hplan : Catalog.lookUp ["c"] s = (.ok plan, s) := rfl
  have hlook : Step S₀ S₁ := .look (i := 1) (v := v) rfl ⟨rfl, rfl, rfl, rfl⟩ hplan
  have herase : Step S₁ S₂ := by
    refine .write (i := 0) (.erase "c") rfl rfl ⟨?_, fun id _ => .refl _ id, fun id _ => .refl _ id⟩ hshows rfl ?_
    · exact State.intact_lone.rows
    · exact fun _ _ _ _ => Tables.membersOf_eq_nil fun l hl => nomatch hl
  have hcommit : Step S₂ S₃ := by
    refine .commit (i := 0) rfl ⟨?_, fun id hid => ?_, fun id _ => .refl _ id⟩
    · exact List.nodup_nil
    · exact not_not.mp fun hne => hid (Or.inr hne)
  have hreached : Reached S₃ :=
    .step (.step (.step (.start (by decide) rfl) hlook (System.apart_of_none h₁)) herase (System.apart_of_none h₂))
      hcommit (System.apart_of_none h₃)
  exact ⟨S₃, plan, hreached, .beside (.erase hshows rfl herase rfl) hcommit rfl, rfl, rfl, rfl⟩

end Sessions

namespace Service

/-- A stranger may not delete the only collection. Its owner may, but not a second time; and a load that is under way in
    another session when the deletion is committed brings nothing back. -/
theorem deleted_completely_lone :
    let owner : Option Actor := some { userId := "u" }
    Served .lone ∧ State.lone.Serves ∧
      (Service.delete (some { userId := "v" }) "c" .lone).1 = .error (.forbidden .notOwner) ∧
      (∃ t, Service.delete owner "c" .lone = (.ok (), t) ∧ t.db.committed.row? "c" = none ∧
        (Service.delete owner "c" t).1 = .error (.notFound "c")) ∧
      ∃ S plan, Sessions.Reached S ∧ (S.workers 1).task.plan? = some plan ∧ plan.Barred "c" (S.told 0).cache := by
  intro owner
  obtain ⟨-, hrefused, -⟩ := deleted_completely served_lone (some { userId := "v" }) "c"
  obtain ⟨-, hsucceeds, -, hdeleted, hforgets⟩ := deleted_completely served_lone owner "c"
  have hforeign : Reason.first (deletionReasons State.lone.db.committed (some { userId := "v" }) "c") =
      some (.forbidden .notOwner) := by decide +kernel
  have hnone : Reason.first (deletionReasons State.lone.db.committed owner "c") = none := by decide +kernel
  rw [hforeign] at hrefused
  rw [hnone] at hsucceeds
  obtain ⟨t, hrun, ht⟩ := hsucceeds serves_lone
  obtain ⟨-, hdeleted⟩ := hdeleted t hrun
  obtain ⟨S, plan, hreached, herased, htask, hplan, -⟩ := Sessions.erased_beside_load
  obtain ⟨-, hforgets⟩ := hforgets S 0 hreached herased htask
  exact ⟨served_lone, serves_lone, hrefused serves_lone,
    ⟨t, hrun, hdeleted.loses.row, (hdeleted.omits t .refl).delete ht.toAnswers _ rfl⟩,
    S, plan, hreached, hplan, hforgets.barred 1 plan hplan _ .refl⟩

end Service

end Curation
