import Curation.Proofs.Outcomes

/-! What the cache of a service that is alone with its database holds, whether references are enforced or not: every
    entry is of a collection whose row is committed, if not of one with the same members. An operation that fails has
    then committed nothing, and every colour that anyone is given is a number. -/

namespace Curation

open Act (Ends ends_bind ends_pure ends_get ends_throw ends_update ends_ite)
open Catalog (check check_ends)
open Time (Instant)

/-- A colour is a number, if there is one. -/
def Painted (color : Option Cell) : Prop := ∀ cell, color = some cell → ∃ n, cell = .integer n

theorem Painted.none : Painted none := fun _ h => nomatch h

theorem Painted.ofNumber (n : Option Int) : Painted (n.map Cell.integer) := by
  rintro cell h
  obtain ⟨n, -, rfl⟩ := Option.map_eq_some_iff.mp h
  exact ⟨n, rfl⟩

/-! ### Rows that the program writes -/

namespace Tables

variable {t v : Tables} {now : Instant} {id : String} {c : Collection}

/-- Each id has one row at most, and every colour is a number. -/
structure Plain (t : Tables) : Prop where
  distinct : t.Distinct
  painted : ∀ r ∈ t.collections, Painted r.color

theorem Derives.painted {r : Row} (h : t.Derives now r) (ht : ∀ r ∈ t.collections, Painted r.color) :
    Painted r.color := by
  induction h with
  | kept hr => exact ht _ hr
  | new => exact .none
  | changed _ hf ih =>
    cases hf with
    | title | description | status => exact ih
    | setIcon => exact .ofNumber _
    | clearIcon => exact .ofNumber none

theorem Changes.plain (h : t.Changes now v) (ht : t.Plain) : v.Plain where
  distinct := h.rows ht.distinct
  painted r hr := (h.derives r hr).painted ht.painted

/-- The collection is one whose row is there, and its colour is a number. -/
structure Backs (t : Tables) (c : Collection) : Prop where
  row : (t.row? c.id).isSome
  painted : Painted c.color

theorem Plain.backs (ht : t.Plain) (h : t.held? id = some c) : t.Backs c := by
  obtain ⟨r, hr, hc⟩ := held?_eq_some.mp h
  refine ⟨?_, ?_⟩
  · rw [id_of_held? h, hr]
    rfl
  · obtain ⟨_, _, _, _, -, -, rfl⟩ := Row.toCollection_eq_ok hc
    exact ht.painted r (row?_eq_some hr).1

theorem Backs.mono (h : t.Backs c) (hrow : (t.row? c.id).isSome → (v.row? c.id).isSome) : v.Backs c :=
  ⟨hrow h.row, h.painted⟩

end Tables

namespace State

variable {s t u : State}

/-! ### The invariant -/

/-- No transaction has left anything behind, the committed rows are such as the program writes, and every entry of the
    cache is of a collection that is there. -/
structure Grounded (s : State) : Prop where
  unstuck : s.session.stuck = false
  nothing : s.session.pending = []
  seen : s.tables = s.db.committed
  plain : s.db.committed.Plain
  entries : ∀ id e, s.cache.entries.get? id = some e → e.value.id = id ∧ s.db.committed.Backs e.value

namespace Grounded

/-- The invariant is about the committed tables, the session and the cache only, which may lose entries. -/
theorem alike (h : s.Grounded) (hcom : t.db.committed = s.db.committed) (hses : t.session = s.session)
    (hcache : s.cache.Sheds t.cache) : t.Grounded where
  unstuck := hses ▸ h.unstuck
  nothing := hses ▸ h.nothing
  seen := by
    rw [State.tables, hses, hcom]
    exact h.seen
  plain := hcom ▸ h.plain
  entries id e he := hcom ▸ h.entries id e (hcache.entries id e he)

theorem reads (h : s.Grounded) (hst : s.Reads t) : t.Grounded where
  unstuck := hst.stuck.trans h.unstuck
  nothing := hst.pending.trans h.nothing
  seen := hst.tables.trans (h.seen.trans hst.toWithin.committed.symm)
  plain := hst.toWithin.committed ▸ h.plain
  entries id e he := by
    rw [hst.toWithin.committed]
    rcases hst.entries id e he with he | ⟨-, hheld⟩
    · exact h.entries id e he
    · rw [h.seen] at hheld
      exact ⟨Tables.id_of_held? hheld, h.plain.backs hheld⟩

/-- A new session sees what is committed. -/
theorem closed (h : s.Grounded) : s.closed.Grounded where
  unstuck := rfl
  nothing := rfl
  seen := rfl
  plain := h.plain
  entries := h.entries

end Grounded

/-- What is needed of work for the entries of the cache to be of collections that are there after its commit: a row that
    nothing waits for is kept, and what is to be stored has its row. -/
structure Grounds (s t : State) : Prop extends s.Works t where
  unstuck : t.session.stuck = s.session.stuck
  kept : ∀ id, id ∉ t.session.pending.keys → (s.tables.row? id).isSome → (t.tables.row? id).isSome
  stored : ∀ id c, (id, some c) ∈ t.session.pending → c.id = id ∧ t.tables.Backs c

theorem Gives.grounds {v : Tables} {p : Pending} (h : s.Gives t v p)
    (kept : ∀ id, id ∉ p.keys → (s.tables.row? id).isSome → (v.row? id).isSome)
    (stored : ∀ id c, (id, some c) ∈ p → c.id = id ∧ v.Backs c) : s.Grounds t where
  toWorks := h.works
  unstuck := h.stuck
  kept id hid hrow := by
    rw [h.pending] at hid
    exact h.tables ▸ kept id hid hrow
  stored id c hc := by
    rw [h.pending] at hc
    exact h.tables ▸ stored id c hc

/-- The same of work that loses no row and has nothing to be stored. -/
theorem Gives.grounds_of_rows {v : Tables} {p : Pending} (h : s.Gives t v p)
    (rows : ∀ id, (s.tables.row? id).isSome → (v.row? id).isSome) (drops : ∀ e ∈ p, e.2 = none) : s.Grounds t :=
  h.grounds (fun id _ => rows id) fun _ _ hc => nomatch drops _ hc

namespace Grounded

/-- A commit after such work. -/
theorem commit (h : s.Grounded) (hst : s.Grounds t) (hplain : t.tables.Plain) : t.committed.Grounded where
  unstuck := hst.unstuck.trans h.unstuck
  nothing := rfl
  seen := rfl
  plain := hplain
  entries id e he := by
    rcases Pending.get?_apply (fun id c hc => (hst.stored id c hc).1) he with ⟨hid, he⟩ | hc
    · -- Nothing waited for the id, so that its entry is an old one and its row has been kept.
      obtain ⟨hvalue, hbacks⟩ := h.entries id e (hst.cache.entries id e he)
      refine ⟨hvalue, hbacks.mono fun hrow => ?_⟩
      rw [hvalue, ← h.seen] at hrow
      rw [hvalue]
      exact hst.kept id hid hrow
    · exact hst.stored id e.value hc

/-- A rollback after any work. -/
theorem rolledBack (h : s.Grounded) (hst : s.Works t) :
    t.rolledBack.Grounded ∧ t.rolledBack.db.committed = s.db.committed := by
  unfold State.rolledBack
  split
  · refine ⟨⟨rfl, rfl, rfl, hst.committed ▸ h.plain, fun id e he => ?_⟩, hst.committed⟩
    have hsheds : t.cache.Sheds (t.session.pending.apply false t.now t.cache) := Pending.sheds_apply_false _
    change e.value.id = id ∧ t.db.committed.Backs e.value
    rw [hst.committed]
    exact h.entries id e (hst.cache.entries id e (hsheds.entries id e he))
  · rename_i hin
    have hview : t.session.view = none := by simpa [State.inTransaction] using hin
    exact ⟨h.alike hst.committed (hst.closed hview) hst.cache, hst.committed⟩

end Grounded

end State

/-- A block that grounds what it commits commits it, or nothing. -/
theorem Act.atomically_grounded {α : Type} {s : State} {a : Act α} {out : α → Prop} (h : s.Grounded)
    (ha : Ends a s (fun x t => s.Grounds t ∧ t.tables.Plain ∧ out x) fun _ t => s.Works t) :
    Ends (atomically a) s (fun x t => t.Grounded ∧ out x)
      fun _ t => t.Grounded ∧ t.db.committed = s.db.committed := by
  rw [atomically_ends]
  refine ha.mono ?_ fun e t ht => h.rolledBack ht
  rintro x t ⟨ht, hplain, hx⟩
  have hpass : s.Works t.passOutage := ht.toWorks.trans
    ⟨⟨rfl, rfl, List.tail_suffix _⟩, .refl _, fun _ => rfl, Or.inl⟩
  have hground : s.Grounds t.passOutage := ⟨hpass, ht.unstuck, ht.kept, ht.stored⟩
  refine commit_ends (ht.unstuck.trans h.unstuck) ⟨⟨h.commit ht hplain, hx⟩, ?_⟩ fun r => h.rolledBack hpass
  exact ⟨h.commit hground hplain, hx⟩

/-! ### Reading -/

namespace Catalog

variable {s : State} {ids : List String}

theorem fetchAll_grounded (h : s.Grounded) :
    Ends (fetchAll ids) s (fun cs t => t.Grounded ∧ ∀ c ∈ cs, t.db.committed.Backs c)
      fun _ t => t.Grounded := by
  unfold fetchAll
  simp only [ends_bind]
  refine lookUp_ends fun plan c hc _ hplan => load_ends (fun loaded t ht hl => ?_) fun e t ht _ => ?_
  · have hreads : s.Reads t := (State.Reads.sheds hc).trans ht
    have hread : s.db.committed.read plan.misses = .ok loaded := h.seen ▸ hl
    have hloaded : ∀ e ∈ loaded, s.db.committed.held? e.1 = some e.2 := fun e he =>
      (h.plain.distinct.mem_read hread he).2
    refine finish_ends fun u hu => ⟨?_, fun c hc => ?_⟩
    · refine h.reads (hreads.trans (hu.reads fun e he => ?_))
      rw [hreads.tables, h.seen]
      exact hloaded e he
    · have hcommitted : u.db.committed = s.db.committed := by
        rw [hu.rest]
        exact hreads.toWithin.committed
      rw [hcommitted]
      obtain ⟨id, -, hid⟩ := List.mem_filterMap.mp hc
      rcases Option.or_eq_some_iff.mp hid with hfound | ⟨-, hl⟩
      · rw [hplan.found] at hfound
        split at hfound
        · obtain ⟨e, he, rfl⟩ := Cache.live_eq_some hfound
          exact (h.entries id e he).2
        · cases hfound
      · exact h.plain.backs (hloaded _ (Keyed.mem_of_get? hl))
  · exact h.reads ((State.Reads.sheds hc).trans ht)

theorem fetch_grounded {id : String} (h : s.Grounded) :
    Ends (fetch id) s (fun found t => t.Grounded ∧ ∀ c, found = some c → t.db.committed.Backs c)
      fun _ t => t.Grounded := by
  unfold fetch
  simp only [ends_bind, ends_pure]
  refine (fetchAll_grounded h).mono (fun cs t ht => ⟨ht.1, fun c hc => ?_⟩) fun _ _ ht => ht
  exact ht.2 c (List.mem_of_head? hc)

end Catalog

section Parts

variable {s : State}

theorem shown_eq_ok {id : String} {found : Option Collection} {viewer : Option Actor} {c : Collection}
    (h : Gate.shown id found viewer = .ok c) : found = some c := by
  unfold Gate.shown at h
  cases found with
  | none => cases h
  | some d =>
    dsimp only at h
    split at h
    · cases h
      rfl
    · cases h

theorem fetchMaintained_grounded {a : Actor} {id : String} (h : s.Grounded) :
    Ends (Service.fetchMaintained a id) s (fun c t => t.Grounded ∧ (t.db.committed.row? c.id).isSome)
      fun _ t => t.Grounded := by
  unfold Service.fetchMaintained
  rw [ends_bind]
  refine (Catalog.fetch_grounded h).mono (fun found t ht => ?_) fun _ _ ht => ht
  refine check_ends (fun c hc => ⟨ht.1, ?_⟩) fun _ _ => ht.1
  exact (ht.2 c (maintained_eq_ok hc).1).row

/-- What is shown has a colour that can be shown. -/
theorem Service.get_grounded {actor : Option Actor} {id : String} (h : s.Grounded) :
    Ends (Service.get actor id) s (fun c t => t.Grounded ∧ Painted c.color)
      fun _ t => t.Grounded ∧ t.db.committed = s.db.committed := by
  unfold Service.get
  rw [ends_bind]
  refine ((Catalog.fetch_grounded h).and Catalog.fetch_still).mono (fun found t ht => ?_) fun _ t ht =>
    ⟨ht.1, ht.2.1.committed⟩
  obtain ⟨⟨hground, hbacks⟩, hstill, -⟩ := ht
  exact check_ends (fun c hc => ⟨hground, (hbacks c (shown_eq_ok hc)).painted⟩) fun _ _ => ⟨hground, hstill.committed⟩

theorem Query.run_grounded (h : s.Grounded) (q : Query) :
    Ends q.run s (fun _ t => t.Grounded) fun _ t => t.Grounded := by
  cases q with
  | get actor id =>
    simp only [run, ends_bind, ends_pure]
    exact (Service.get_grounded h).mono (fun _ _ ht => ht.1) fun _ _ ht => ht.1
  | list actor ids =>
    simp only [run, Service.list, ends_bind, ends_pure]
    exact (Catalog.fetchAll_grounded h).mono (fun _ _ ht => ht.1) fun _ _ ht => ht

end Parts

/-! ### Operations -/

namespace Transaction

variable {s : State} {j : Transaction}

/-- The work finds what it is about, and grounds what it commits. -/
def Finds (s : State) (j : Transaction) : Prop :=
  Ends j.work s (fun found t => found = true ∧ s.Grounds t) fun _ t => s.Works t

theorem finds_create {a : Actor} {title description : String} {projects : List String} (h : s.Grounded) :
    (Transaction.create a title description projects).Finds s := by
  unfold Finds Transaction.create
  rw [Act.ends_map, ends_bind]
  refine Catalog.knownProjects_ends (fun t ht => ?_) fun e t ht => ht.works
  refine Catalog.add_ends (fun e u hu => ht.works.trans hu) fun id c u hid hc _ _ hu => ⟨rfl, ?_⟩
  rw [ht.tables] at hid hu
  rw [ht.pending, h.nothing] at hu
  have hrow : ∀ id', ((s.tables.withRow (Catalog.newRow id a.userId title description .initial t.now)).addLinks id
      (distinct (s.tables.knownProjects projects))).row? id' = if id' = id then some _ else s.tables.row? id' :=
    Tables.row?_withRow hid
  refine (ht.trans hu).grounds (fun id' _ hold => ?_) fun id' c' hc' => ?_
  · rw [hrow]
    split
    · rfl
    · exact hold
  · cases List.mem_singleton.mp hc'
    rw [hc]
    refine ⟨rfl, ?_, .none⟩
    rw [show (Catalog.newCollection _ _ _ _ _ _ _).id = id from rfl, hrow, if_pos rfl]
    rfl

theorem finds_edit {id : String} {title description : Option String} {status : Option Status}
    {projects : Option (List String)} (h : s.Grounded) :
    (Transaction.edit id title description status projects).Finds s := by
  unfold Finds Transaction.edit
  rw [Act.ends_map, ends_bind]
  refine Catalog.revise_ends (fun e t ht => ht) fun t st _ _ ht => ?_
  have hrows : ∀ id', (s.tables.row? id').isSome →
      ((s.tables.updateRows s.now id (Catalog.revisions title description st)).row? id').isSome := fun _ hrow =>
    (Tables.isSome_row?_updateRows Catalog.id_of_mem_revisions).trans hrow
  rw [h.nothing] at ht
  have hdrops : ∀ e ∈ t.session.pending, e.2 = none := by
    intro e he
    rw [ht.pending] at he
    split at he
    · cases he
    · rw [List.mem_singleton.mp he]
  refine Act.option_ends (fun _ => ⟨rfl, ?_⟩) fun ps _ => ?_
  · exact ht.grounds_of_rows hrows (ht.pending ▸ hdrops)
  · simp only [ends_bind, ends_pure]
    refine Catalog.replaceMembers_ends (fun e u hu => ht.works.trans hu) fun r u _ hu => ⟨trivial, ?_⟩
    refine (ht.trans hu).grounds_of_rows (fun id' hrow => ?_) fun e he => ?_
    · rw [ht.tables]
      exact hrows id' hrow
    · rcases Keyed.mem_put he with rfl | he
      · rfl
      · exact hdrops e he

theorem finds_writeIcon {id : String} {url : Option String} {color : Option Int} {after : Bool → Act Unit}
    (h : s.Grounded) : Finds s { work := (fun _ => true) <$> Catalog.writeIcon id url color, after } := by
  unfold Finds
  rw [Act.ends_map]
  refine Catalog.writeIcon_ends (fun e t ht => ht) fun t _ ht => ⟨rfl, ?_⟩
  rw [h.nothing] at ht
  refine ht.grounds_of_rows (fun id' hrow => ?_) fun e he => ?_
  · exact (Tables.isSome_row?_updateRow Catalog.id_withIcon).trans hrow
  · rw [List.mem_singleton.mp he]

/-- The row of a collection that is deleted must be there, or its members would go without it. -/
theorem finds_delete {id asked : String} (h : s.Grounded) (hrow : (s.db.committed.row? id).isSome) :
    (Transaction.delete id asked).Finds s := by
  refine Catalog.erase_ends (fun e t ht => ht) fun t ht => ⟨h.seen ▸ hrow, ?_⟩
  rw [h.nothing] at ht
  refine ht.grounds (fun id' hid' hold => ?_) fun id' c hc => ?_
  · have hne : id' ≠ id := by simpa [Keyed.put, Keyed.keys] using hid'
    rw [((Tables.deleteRow_agreeAt hne).trans (Tables.deleteLinks_agreeAt hne)).row]
    exact hold
  · cases List.mem_singleton.mp hc

end Transaction

namespace Operation

variable {s : State}

theorem prepare_grounded (h : s.Grounded) (o : Operation) :
    Ends o.prepare s (fun j t => t.Grounded ∧ j.Finds t) fun _ t => t.Grounded := by
  have hfetch : ∀ {a id c t}, Service.fetchMaintained a id s = (.ok c, t) →
      t.Grounded ∧ (t.db.committed.row? c.id).isSome := fun hfetched => (fetchMaintained_grounded h).of_ok hfetched
  refine o.prepare_prepared.mono (fun j u hj => ?_) fun _ u hu => ?_
  · cases hj with
    | create => exact ⟨h, Transaction.finds_create h⟩
    | edit _ _ _ fetched _ _ resolved =>
      have hu := (hfetch fetched).1.reads (.of_gives resolved)
      exact ⟨hu, Transaction.finds_edit hu⟩
    | @setIcon _ _ _ _ _ _ t _ pulled blobs _ _ fetched =>
      have hu : { t with pulled, blobs }.Grounded := (hfetch fetched).1.alike rfl rfl (.refl _)
      exact ⟨hu, Transaction.finds_writeIcon hu⟩
    | @clearIcon _ _ c t _ fetched =>
      generalize (c.iconUrl.bind t.place.pathOfUrl?).elim t.blobs _ = blobs
      have hu : { t with blobs }.Grounded := (hfetch fetched).1.alike rfl rfl (.refl _)
      exact ⟨hu, Transaction.finds_writeIcon hu⟩
    | delete _ fetched =>
      obtain ⟨ht, hrow⟩ := hfetch fetched
      exact ⟨ht, Transaction.finds_delete ht hrow⟩
  · cases hu with
    | unread => exact h
    | fetch failed => exact (fetchMaintained_grounded h).of_error failed
    | read fetched given => exact (hfetch fetched).1.reads (.of_gives given)
    | pull fetched => exact (hfetch fetched).1.alike rfl rfl (.refl _)
    | upload _ _ fetched => exact (hfetch fetched).1.alike rfl rfl (.refl _)

end Operation

/-- What comes after a transaction that found what it is about does not fail. -/
theorem Transaction.Checked.after_found {s : State} {j : Transaction} (h : j.Checked) :
    Ends (j.after true) s (fun _ t => t = { s with cleanups := t.cleanups }) fun _ _ => False := by
  cases h with
  | create | edit | clearIcon | delete => exact ends_pure.mpr rfl
  | setIcon =>
    simp only [Transaction.setIcon]
    split
    · rw [ends_ite]
      exact ⟨fun _ => ends_update.mpr rfl, fun _ => ends_pure.mpr rfl⟩
    · exact ends_pure.mpr rfl

/-- An operation that fails has committed nothing, and whatever it does, every entry of the cache is of a collection
    that is there. -/
theorem Operation.run_grounded {s : State} (h : s.Grounded) (o : Operation) :
    Ends o.run s (fun _ t => t.Grounded) fun _ t => t.Grounded ∧ t.db.committed = s.db.committed := by
  rw [run_eq, ends_bind]
  refine (o.prepare_still.and (o.prepare_grounded h)).mono (fun j t ht => ?_) fun _ t ht => ⟨ht.2, ht.1.committed⟩
  obtain ⟨⟨hstill, hchecked⟩, hground, hfinds⟩ := ht
  have hwork : Ends j.work t (fun found u => t.Grounds u ∧ u.tables.Plain ∧ found = true) fun _ u => t.Works u := by
    refine (hfinds.and hchecked.work_ends).mono (fun found u hu => ?_) fun _ u hu => hu.1
    obtain ⟨⟨hfound, hu⟩, -, hchanges, -⟩ := hu
    exact ⟨hu, hchanges.plain (hground.seen ▸ hground.plain), hfound⟩
  rw [ends_bind]
  refine (Act.atomically_grounded hground hwork).mono (fun found u hu => ?_) fun _ u hu => ?_
  · obtain ⟨hu, rfl⟩ := hu
    refine hchecked.after_found.mono (fun _ v hv => ?_) fun _ _ hfalse => hfalse.elim
    rw [hv]
    exact hu.alike rfl rfl (.refl _)
  · exact ⟨hu.1, hu.2.trans hstill.committed⟩

/-- A collection is created without a colour. -/
theorem Service.create_painted {s : State} {actor : Option Actor} {title description : String}
    {projects : List String} :
    Ends (Service.create actor title description projects) s (fun c _ => Painted c.color) fun _ _ => True := by
  have hcommit : ∀ c : Collection, Painted c.color → ∀ t : State,
      Ends Act.commit t (fun _ _ => Painted c.color) fun _ _ => True := fun c hc t =>
    Act.ends_iff.mpr ⟨fun _ _ _ => hc, fun _ _ _ => trivial⟩
  unfold Service.create
  rw [ends_bind]
  refine writer_ends (fun a _ _ => ?_) fun _ => trivial
  rw [ends_bind]
  refine check_ends (fun _ _ => ?_) fun _ _ => trivial
  rw [Act.atomically_ends, ends_bind]
  refine Catalog.knownProjects_ends (fun t _ => ?_) fun _ _ _ => trivial
  refine Catalog.add_ends (fun _ _ _ => trivial) fun id c u _ hc _ _ _ => hcommit c ?_ u
  rw [hc]
  exact .none

end Curation
