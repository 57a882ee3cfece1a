import Curation.Proofs.Interleaving
import Curation.Proofs.Outcomes

/-! Generations in the course of time. Whatever is done to the catalog, in one session after another or in many at once,
    no id goes back to an earlier generation. A load that has fallen behind, because the generation that it noted for an
    id has passed, thus stays behind: nothing that it has read is stored under that id any more. -/

namespace Curation

open Act (Ends ends_bind ends_pure ends_throw ends_get ends_update ends_ite)
open Catalog (check_ends)

namespace State

variable {s t u : State}

/-- From the first state to the second no id has gone back to an earlier generation. -/
def Ages (s t : State) : Prop := ∀ id, s.cache.generation id ≤ t.cache.generation id

namespace Ages

theorem refl (s : State) : s.Ages s := fun _ => Generation.le_refl _

theorem trans (h₁ : s.Ages t) (h₂ : t.Ages u) : s.Ages u := fun id => Generation.le_trans (h₁ id) (h₂ id)

theorem of_cache (h : t.cache = s.cache) : s.Ages t := fun _ => Generation.le_of_eq (by rw [h])

theorem of_reads (h : s.Reads t) : s.Ages t := h.generation

theorem of_works (h : s.Works t) : s.Ages t := h.cache.generation

theorem of_gives {v : Tables} {p : Pending} (h : s.Gives t v p) : s.Ages t := of_cache h.cache

theorem committed (h : s.Ages t) : s.Ages t.committed := fun id =>
  Generation.le_trans (h id) (Pending.generation_le_apply id t.cache)

theorem rolledBack (h : s.Ages t) : s.Ages t.rolledBack := fun id =>
  Generation.le_trans (h id) ((State.sheds_rolledBack t).generation id)

end Ages

end State

/-! ### One session after another -/

section Ages

variable {s : State}

/-- However a block ends, what waited in it moves generations on, if anything. -/
theorem Act.atomically_ages {α : Type} {a : Act α} (ha : Ends a s (fun _ t => s.Ages t) fun _ t => s.Ages t) :
    Ends (atomically a) s (fun _ t => s.Ages t) fun _ t => s.Ages t := by
  rw [atomically_ends]
  refine ha.mono (fun _ t ht => ?_) fun _ t ht => ht.rolledBack
  have hpass : s.Ages t.passOutage := ht
  unfold commit unstuck
  simp only [ends_bind, ends_get, ends_update, ends_ite, ends_throw, ends_pure]
  exact ⟨fun _ => ht.rolledBack, fun _ => ⟨fun _ => ⟨fun _ => hpass.rolledBack, fun _ => hpass.committed⟩,
    fun _ => ht.committed⟩⟩

theorem Catalog.fetchAll_ages {ids : List String} :
    Ends (Catalog.fetchAll ids) s (fun _ t => s.Ages t) fun _ t => s.Ages t := by
  unfold Catalog.fetchAll
  simp only [ends_bind]
  refine Catalog.lookUp_ends fun plan c hc _ _ => Catalog.load_ends (fun loaded t ht _ => ?_) fun e t ht _ => ?_
  · have ht : s.Ages t := .of_reads ((State.Reads.sheds hc).trans ht)
    exact Catalog.finish_ends fun u hu => ht.trans hu.generation
  · exact .of_reads ((State.Reads.sheds hc).trans ht)

theorem Catalog.fetch_ages {id : String} : Ends (Catalog.fetch id) s (fun _ t => s.Ages t) fun _ t => s.Ages t := by
  unfold Catalog.fetch
  simp only [ends_bind, ends_pure]
  exact Catalog.fetchAll_ages

theorem Query.run_ages (q : Query) : Ends q.run s (fun _ t => s.Ages t) fun _ t => s.Ages t := by
  cases q with
  | get actor id =>
    simp only [run, Service.get, ends_bind, ends_pure]
    exact Catalog.fetch_ages.mono (fun _ _ ht => check_ends (fun _ _ => ht) fun _ _ => ht) fun _ _ ht => ht
  | list actor ids =>
    simp only [run, Service.list, ends_bind, ends_pure]
    exact Catalog.fetchAll_ages

theorem fetchMaintained_ages {a : Actor} {id : String} :
    Ends (Service.fetchMaintained a id) s (fun _ t => s.Ages t) fun _ t => s.Ages t := by
  unfold Service.fetchMaintained
  rw [ends_bind]
  exact Catalog.fetch_ages.mono (fun _ _ ht => check_ends (fun _ _ => ht) fun _ _ => ht) fun _ _ ht => ht

theorem Operation.prepare_ages (o : Operation) : Ends o.prepare s (fun _ t => s.Ages t) fun _ t => s.Ages t := by
  have hfetch : ∀ {a id c t}, Service.fetchMaintained a id s = (.ok c, t) → s.Ages t := fun h =>
    fetchMaintained_ages.of_ok h
  refine o.prepare_prepared.mono (fun j u hj => ?_) fun _ u hu => ?_
  · cases hj with
    | create => exact .refl s
    | edit _ _ _ fetched _ _ resolved => exact (hfetch fetched).trans (.of_gives resolved)
    | setIcon _ _ fetched => exact (hfetch fetched).trans (.of_cache rfl)
    | clearIcon _ fetched => exact (hfetch fetched).trans (.of_cache rfl)
    | delete _ fetched => exact hfetch fetched
  · cases hu with
    | unread => exact .refl s
    | fetch failed => exact fetchMaintained_ages.of_error failed
    | read fetched given => exact (hfetch fetched).trans (.of_gives given)
    | pull fetched => exact (hfetch fetched).trans (.of_cache rfl)
    | upload _ _ fetched => exact (hfetch fetched).trans (.of_cache rfl)

theorem Transaction.Checked.work_ages {j : Transaction} (h : j.Checked) :
    Ends j.work s (fun _ t => s.Ages t) fun _ t => s.Ages t := by
  cases h with
  | create =>
    unfold Transaction.create
    rw [Act.ends_map, ends_bind]
    refine Catalog.knownProjects_ends (fun t ht => ?_) fun _ t ht => .of_gives ht
    exact Catalog.add_ends (fun _ u hu => .of_works (ht.works.trans hu)) fun _ _ u _ _ _ _ hu => .of_gives (ht.trans hu)
  | edit =>
    unfold Transaction.edit
    rw [Act.ends_map, ends_bind]
    refine Catalog.revise_ends (fun _ t ht => .of_works ht) fun t _ _ _ ht => ?_
    refine Act.option_ends (fun _ => .of_gives ht) fun ps _ => ?_
    simp only [ends_bind, ends_pure]
    exact Catalog.replaceMembers_ends (fun _ u hu => .of_works (ht.works.trans hu)) fun _ u _ hu =>
      .of_gives (ht.trans hu)
  | setIcon =>
    unfold Transaction.setIcon
    rw [Act.ends_map]
    exact Catalog.writeIcon_ends (fun _ t ht => .of_works ht) fun t _ ht => .of_gives ht
  | clearIcon =>
    unfold Transaction.clearIcon
    rw [Act.ends_map]
    exact Catalog.writeIcon_ends (fun _ t ht => .of_works ht) fun t _ ht => .of_gives ht
  | delete => exact Catalog.erase_ends (fun _ t ht => .of_works ht) fun t ht => .of_gives ht

theorem Operation.run_ages (o : Operation) : Ends o.run s (fun _ t => s.Ages t) fun _ t => s.Ages t := by
  rw [run_eq, ends_bind]
  refine (o.prepare_ages.and o.prepare_still).mono (fun j t ht => ?_) fun _ _ ht => ht.1
  obtain ⟨ht, -, hj⟩ := ht
  rw [ends_bind]
  refine (Act.atomically_ages hj.work_ages).mono (fun found u hu => ?_) fun _ u hu => ht.trans hu
  refine (hj.after_ends found).mono (fun _ v hv => ?_) fun _ v hv => ?_
  · exact (ht.trans hu).trans (.of_cache (by rw [hv]))
  · exact hv ▸ ht.trans hu

end Ages

namespace Service

variable {s t : State} {o : Option Operation} {allowed : Option Operation → State → State → Prop}

theorem Step.ages (hstep : Step o s t) : s.Ages t := by
  cases hstep with
  | @operation _ _ r op hrun =>
    cases r with
    | ok x => exact op.run_ages.of_ok hrun
    | error e => exact op.run_ages.of_error hrun
  | @query _ _ r q hq =>
    cases r with
    | ok cs => exact q.run_ages.of_ok hq
    | error e => exact q.run_ages.of_error hq
  | cache c hc => exact hc.generation
  | session | clock | beside => exact .of_cache rfl

theorem Runs.ages (hruns : Runs allowed s t) : s.Ages t := by
  induction hruns with
  | refl => exact .refl s
  | step _ hstep _ ih => exact ih.trans hstep.ages

end Service

/-! ### Many sessions at once -/

namespace Sessions

open Catalog (Work)

variable {S T U : System}

/-- Any number of steps. -/
inductive Steps (S : System) : System → Prop
  | refl : Steps S S
  | step {T U : System} (hT : Steps S T) (h : Step T U) : Steps S U

theorem Step.generation (hstep : Step S T) (id : String) : S.cache.generation id ≤ T.cache.generation id := by
  cases hstep with
  | look _ hs hl =>
    obtain ⟨c, hc, -, -, rfl⟩ := Catalog.lookUp_ok hl
    exact hs.cache ▸ hc.generation id
  | rows _ _ hs hl => exact hs.cache ▸ State.Ages.of_gives (Catalog.loadRows_ok hl).2 id
  | members _ _ hs hl => exact hs.cache ▸ State.Ages.of_gives (Catalog.loadMembers_ok hl).2 id
  | finish _ hs hl => exact hs.cache ▸ (Catalog.finish_ok hl).generation id
  | write w hw _ _ hs hl =>
    obtain ⟨_, _, -, ht⟩ := (Work.writes_ends hw).of_ok hl
    exact hs.cache ▸ State.Ages.of_gives ht id
  | fail w hw _ _ hs hl =>
    exact hs.cache ▸ (State.Ages.of_works ((Work.writes_ends hw).of_error hl)).rolledBack id
  | rollback => exact Pending.generation_le_apply id S.cache
  | apply => exact Pending.generation_le_apply id S.cache
  | giveUp | close | commit | clock => exact Generation.le_refl _
  | get id' => exact (Cache.sheds_get S.cache S.now id').generation id
  | getAll ids => exact (Cache.sheds_getAll S.now ids S.cache).generation id
  | invalidate id' => exact Cache.generation_le_bump S.cache id' id
  | invalidateAll => exact (Cache.sheds_invalidateAll S.cache).generation id
  | sweep => exact Generation.le_refl _

theorem Steps.generation (hsteps : Steps S T) (id : String) : S.cache.generation id ≤ T.cache.generation id := by
  induction hsteps with
  | refl => exact Generation.le_refl _
  | step _ hstep ih => exact Generation.le_trans ih (hstep.generation id)

end Sessions

/-! ### Loads that have fallen behind -/

namespace Catalog

variable {plan : Plan} {id : String} {c : Cache}

/-- A load with this plan, in whatever session and whatever it has read, stores nothing under an id in the cache. -/
def Plan.Barred (plan : Plan) (id : String) (c : Cache) : Prop :=
  ∀ s loaded, s.cache = c → ∀ e, (finish plan loaded s).2.cache.entries.get? id = some e → c.entries.get? id = some e

theorem Plan.barred_of_lt (h : ∀ g, plan.generations.get? id = some g → g < c.generation id) : plan.Barred id c := by
  rintro s loaded rfl e he
  have hends : Ends (finish plan loaded) s (fun _ t => plan.Filled loaded s t) fun _ _ => False :=
    finish_ends fun _ ht => ht
  obtain ⟨_, t, hrun, ht⟩ := hends.exists_ok
  rw [hrun] at he
  rcases ht.entries id e he with hold | ⟨-, -, -, g, hg, hle⟩
  · exact hold
  · exact absurd rfl (Generation.ne_of_lt (Generation.lt_of_le_of_lt hle (h g hg)))

end Catalog

end Curation
