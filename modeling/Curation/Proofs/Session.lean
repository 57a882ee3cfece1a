import Curation.Proofs.Work

/-! A session between its transactions and inside one. What the session sees differs from what is committed only
    where something waits for the end of the transaction, so that whatever the cache is given in between is true
    of the committed tables. -/

namespace Curation

open Act (Ends ends_bind ends_pure ends_throw ends_get ends_update ends_ite)

namespace Act

variable {α : Type} {s : State} {a : Act α} {ok : α → State → Prop} {err : Failure → State → Prop}

/-- A commit succeeds with what waited for it done, or the database refuses it. -/
theorem commit_ends {ok : Unit → State → Prop} (h : s.session.stuck = false)
    (hok : ok () s.committed ∧ ok () s.passOutage.committed)
    (herr : ∀ r, err (.database r) s.passOutage) : Ends commit s ok err := by
  unfold commit unstuck
  simp only [ends_bind, ends_get, ends_update, ends_ite, ends_throw, ends_pure, h]
  exact ⟨fun hs => (nomatch hs), fun _ => ⟨fun _ => ⟨fun _ => herr _, fun _ => hok.2⟩, fun _ => hok.1⟩⟩

/-- A block ends as its operation and the commit after it do; what fails is undone. -/
theorem atomically_ends : Ends (atomically a) s ok err ↔
    Ends a s (fun x t => Ends commit t (fun _ => ok x) fun e t => err e.aborted t.rolledBack)
      fun e t => err e.aborted t.rolledBack := by
  have h : Ends (do let x ← a; commit; return x : Act α) s ok (fun e t => err e.aborted t.rolledBack) ↔
      Ends a s (fun x t => Ends commit t (fun _ => ok x) fun e t => err e.aborted t.rolledBack)
        fun e t => err e.aborted t.rolledBack := by
    simp only [ends_bind, ends_pure]
  rw [← h]
  unfold Ends atomically
  rcases (do let x ← a; commit; return x : Act α) s with ⟨_ | x, t⟩
  · exact Iff.rfl
  · exact Iff.rfl

end Act

namespace State

variable {s t : State} {id : String}

/-! ### The invariant -/

/-- What a session can fall back on whatever it has done: every entry of the cache is of what is committed, and
    nothing waits outside a transaction. -/
structure Recoverable (s : State) : Prop where
  enforce : s.db.enforce = true
  dated : Time.inRange s.now = true
  committed : s.db.committed.Intact
  keyed : s.cache.entries.keys.Nodup
  entries : ∀ id e, s.cache.entries.get? id = some e → s.db.committed.held? id = some e.value
  idle : s.session.view = none → s.session.pending = []
  stuck : s.session.stuck = true → s.session.view ≠ none

/-- What holds as long as nothing fails: the session sees what is committed, except for ids that something waits
    for; a collection that is to be stored is one that the session sees. -/
structure Coherent (s : State) : Prop extends s.Recoverable where
  unstuck : s.session.stuck = false
  view : s.tables.Intact
  waiting : s.session.pending.keys.Nodup
  untouched : ∀ id, s.session.pending.get? id = none → s.tables.AgreeAt s.db.committed id
  created : ∀ id c, s.session.pending.get? id = some (some c) → s.tables.held? id = some c

theorem tables_of_closed (h : s.session.view = none) : s.tables = s.db.committed := by simp [State.tables, h]

namespace Recoverable

theorem works (h : s.Recoverable) (hst : s.Works t) : t.Recoverable where
  enforce := hst.enforce.trans h.enforce
  dated := hst.now ▸ h.dated
  committed := hst.committed ▸ h.committed
  keyed := hst.cache.keyed h.keyed
  entries id e he := hst.committed ▸ h.entries id e (hst.cache.entries id e he)
  idle hv := by
    have heq := hst.closed hv
    rw [heq]
    exact h.idle (heq ▸ hv)
  stuck hs := by
    rcases hst.stuck hs with hs | hv
    · intro hv
      exact h.stuck hs (hst.closed hv ▸ hv)
    · exact hv

/-- A rollback leaves what is committed. -/
theorem rolledBack (h : s.Recoverable) : s.rolledBack.Coherent ∧ s.rolledBack.db = s.db ∧
    s.rolledBack.session.view = none := by
  unfold State.rolledBack
  split
  · have hsheds : s.cache.Sheds (s.session.pending.apply false s.now s.cache) := Pending.sheds_apply_false _
    refine ⟨⟨⟨h.enforce, h.dated, h.committed, hsheds.keyed h.keyed, fun id e he => ?_, fun _ => rfl, ?_⟩,
      rfl, h.committed, List.nodup_nil, fun _ _ => .refl _ _, ?_⟩, rfl, rfl⟩
    · exact h.entries id e (hsheds.entries id e he)
    · exact fun hs => nomatch hs
    · exact fun _ _ hc => nomatch hc
  · rename_i hin
    have hview : s.session.view = none := by simpa [State.inTransaction] using hin
    have htables := tables_of_closed hview
    have hunstuck : s.session.stuck = false := by
      cases hs : s.session.stuck with
      | false => rfl
      | true => exact absurd hview (h.stuck hs)
    refine ⟨⟨h, hunstuck, htables ▸ h.committed, ?_, fun id _ => htables ▸ .refl _ id, fun id c hc => ?_⟩, rfl, hview⟩
    · rw [h.idle hview]
      exact List.nodup_nil
    · rw [h.idle hview] at hc
      cases hc

end Recoverable

namespace Coherent

/-- Under ids that nothing waits for, the cache is fit to answer for the session. -/
theorem fit (h : s.Coherent) : s.Fit := by
  intro id c hid hc
  obtain ⟨e, he, rfl⟩ := Cache.live_eq_some hc
  rw [(h.untouched id hid).held?]
  exact h.entries id e he

theorem reads (h : s.Coherent) (hst : s.Reads t) : t.Coherent where
  enforce := hst.enforce.trans h.enforce
  dated := hst.now ▸ h.dated
  committed := hst.toWithin.committed ▸ h.committed
  keyed := hst.keyed h.keyed
  entries id e he := by
    rw [hst.toWithin.committed]
    rcases hst.entries id e he with he | ⟨hid, he⟩
    · exact h.entries id e he
    · -- Nothing waits for what was stored, so that the session sees what is committed.
      rw [← (h.untouched id hid).held?]
      exact he
  idle hv := hst.pending ▸ h.idle (hst.closed hv)
  stuck hs := by
    rw [hst.stuck, h.unstuck] at hs
    cases hs
  unstuck := hst.stuck ▸ h.unstuck
  view := hst.tables ▸ h.view
  waiting := hst.pending ▸ h.waiting
  untouched id hid := by
    rw [hst.tables, hst.toWithin.committed]
    exact h.untouched id (hst.pending ▸ hid)
  created id c hc := by
    rw [hst.tables]
    exact h.created id c (hst.pending ▸ hc)

theorem marks (h : s.Coherent) {v : Tables} {p : Pending} (hm : s.Marks v p) (hst : s.Gives t v p) : t.Coherent := by
  have hrec : t.Recoverable := h.toRecoverable.works hst.works
  have hunstuck : t.session.stuck = false := hst.stuck ▸ h.unstuck
  cases hm with
  | same =>
    refine ⟨hrec, hunstuck, hst.tables ▸ h.view, hst.pending ▸ h.waiting, fun id hid => ?_, fun id c hc => ?_⟩
    · rw [hst.tables, hst.toWithin.committed]
      exact h.untouched id (hst.pending ▸ hid)
    · rw [hst.tables]
      exact h.created id c (hst.pending ▸ hc)
  | one id w agree intact created =>
    refine ⟨hrec, hunstuck, hst.tables ▸ intact h.enforce h.view, ?_, fun id' hid => ?_, fun id' c hc => ?_⟩
    · exact hst.pending ▸ Keyed.nodup_keys_put h.waiting id w
    · rw [hst.pending, Keyed.get?_put] at hid
      split at hid
      · cases hid
      · rename_i hne
        rw [hst.tables, hst.toWithin.committed]
        exact (agree id' (Ne.symm hne)).trans (h.untouched id' hid)
    · rw [hst.pending, Keyed.get?_put] at hc
      rw [hst.tables]
      split at hc
      · rename_i heq
        cases hc
        obtain ⟨hid, hheld⟩ := created c rfl
        exact heq ▸ hheld (h.view.membersOf_eq_nil hid) h.dated
      · rename_i hne
        rw [(agree id' (Ne.symm hne)).held?]
        exact h.created id' c hc

theorem named (h : s.Coherent) : s.session.pending.Named := fun id c hc =>
  Tables.id_of_held? (h.created id c (Keyed.get?_of_mem h.waiting hc))

/-- The invariant is about the clock, the committed tables, the session and the cache only. -/
theorem alike (h : s.Coherent) (hnow : t.now = s.now) (henf : t.db.enforce = s.db.enforce)
    (hcom : t.db.committed = s.db.committed) (hses : t.session = s.session) (hcache : t.cache = s.cache) :
    t.Coherent := by
  have htables : t.tables = s.tables := by rw [State.tables, State.tables, hses, hcom]
  refine ⟨⟨henf.trans h.enforce, hnow ▸ h.dated, hcom ▸ h.toRecoverable.committed, hcache ▸ h.keyed, ?_, hses ▸ h.idle,
    hses ▸ h.stuck⟩, hses ▸ h.unstuck, htables ▸ h.view, hses ▸ h.waiting, ?_, ?_⟩
  · rw [hcache, hcom]
    exact h.entries
  · rw [hses, htables, hcom]
    exact h.untouched
  · rw [hses, htables]
    exact h.created

theorem passOutage (h : s.Coherent) : s.passOutage.Coherent := h.alike rfl rfl rfl rfl rfl

/-- After a commit the cache holds what is committed then. -/
theorem commit (h : s.Coherent) : s.committed.Coherent where
  enforce := h.enforce
  dated := h.dated
  committed := h.view
  keyed := Pending.keyed_apply h.keyed
  entries id e he := by
    rcases Pending.get?_apply h.named he with ⟨hid, he⟩ | hc
    · have hid := Keyed.get?_eq_none_iff.mpr hid
      exact (h.untouched id hid).held?.trans (h.entries id e he)
    · exact h.created id e.value (Keyed.get?_of_mem h.waiting hc)
  idle _ := rfl
  stuck hs := by
    have hs : s.session.stuck = true := hs
    rw [h.unstuck] at hs
    cases hs
  unstuck := h.unstuck
  view := h.view
  waiting := List.nodup_nil
  untouched id _ := .refl _ id
  created _ _ hc := nomatch hc

end Coherent

/-! ### Between transactions -/

/-- Nothing waits, and the session sees what is committed. -/
structure Settled (s : State) : Prop extends s.Coherent where
  nothing : s.session.pending = []
  seen : s.tables = s.db.committed

/-- What a rollback leaves behind is settled. -/
theorem Recoverable.settled (h : s.Recoverable) : s.rolledBack.Settled ∧ s.rolledBack.session = {} := by
  obtain ⟨hc, -, hview⟩ := h.rolledBack
  have hpending := hc.idle hview
  refine ⟨⟨hc, hpending, tables_of_closed hview⟩, ?_⟩
  rw [← hview, ← hpending, ← hc.unstuck]

/-- What a commit leaves behind is settled. -/
theorem Coherent.settled (h : s.Coherent) : s.committed.Settled ∧ s.committed.session = {} := by
  refine ⟨⟨h.commit, rfl, rfl⟩, ?_⟩
  show Session.mk none [] s.session.stuck = {}
  rw [h.unstuck]

/-- A new session sees what is committed. -/
theorem Recoverable.closed (h : s.Recoverable) : s.closed.Settled where
  enforce := h.enforce
  dated := h.dated
  committed := h.committed
  keyed := h.keyed
  entries := h.entries
  idle _ := rfl
  stuck hs := nomatch hs
  unstuck := rfl
  view := h.committed
  waiting := List.nodup_nil
  untouched id _ := .refl _ id
  created _ _ hc := nomatch hc
  nothing := rfl
  seen := rfl

theorem Settled.reads (h : s.Settled) (hst : s.Reads t) : t.Settled where
  toCoherent := h.toCoherent.reads hst
  nothing := hst.pending.trans h.nothing
  seen := hst.tables.trans (h.seen.trans hst.toWithin.committed.symm)

theorem Settled.alike (h : s.Settled) (hnow : t.now = s.now) (henf : t.db.enforce = s.db.enforce)
    (hcom : t.db.committed = s.db.committed) (hses : t.session = s.session) (hcache : t.cache = s.cache) :
    t.Settled where
  toCoherent := h.toCoherent.alike hnow henf hcom hses hcache
  nothing := hses ▸ h.nothing
  seen := by
    rw [State.tables, hses, hcom]
    exact h.seen

/-- From the first state to the second nothing has changed outside of the database, the session and the cache. -/
structure Outside (s t : State) : Prop where
  now : t.now = s.now
  place : t.place = s.place
  blobs : t.blobs = s.blobs
  cleanups : t.cleanups = s.cleanups

theorem Outside.of_within (h : s.Within t) : s.Outside t := ⟨h.now, h.place, h.blobs, h.cleanups⟩

/-- A transaction is over that was begun in the first state: the session is in none, and what is beside the database
    and the cache is as the transaction found it. -/
structure Over (s t : State) : Prop extends s.Outside t where
  db : t.db = { s.db with committed := t.db.committed, outages := t.db.outages }
  view : t.session.view = none

theorem Over.seen (h : s.Over t) : t.tables = t.db.committed := tables_of_closed h.view

/-- From one settled state to another in which the same is committed, at the same time and with the same settings. -/
structure Stays (s t : State) : Prop where
  settled : t.Settled
  now : t.now = s.now
  place : t.place = s.place
  committed : t.db.committed = s.db.committed

namespace Stays

variable {u : State}

theorem refl (h : s.Settled) : s.Stays s := ⟨h, rfl, rfl, rfl⟩

theorem trans (h₁ : s.Stays t) (h₂ : t.Stays u) : s.Stays u :=
  ⟨h₂.settled, h₂.now.trans h₁.now, h₂.place.trans h₁.place, h₂.committed.trans h₁.committed⟩

theorem reads (h : s.Stays t) (hst : t.Reads u) : s.Stays u :=
  ⟨h.settled.reads hst, hst.now.trans h.now, hst.place.trans h.place, hst.toWithin.committed.trans h.committed⟩

/-- Blobs, and what else is beside the database and the cache, make no difference. -/
theorem beside (h : s.Stays t) (hu : u = { t with blobs := u.blobs, cleanups := u.cleanups, pulled := u.pulled }) :
    s.Stays u := by
  rw [hu]
  exact ⟨h.settled.alike rfl rfl rfl rfl rfl, h.now, h.place, h.committed⟩

end Stays

end State

namespace Act

variable {α : Type} {s : State} {a : Act α}

/-- A block on a settled state: if it succeeds, what its work gives is committed, and if not, what was committed
    before. The transaction is over in either case. -/
theorem atomically_settled (out : α → Tables → Prop) (h : s.Settled)
    (ha : Ends a s (fun x t => t.Coherent ∧ s.Within t ∧ out x t.tables) (fun _ t => s.Works t)) :
    Ends (atomically a) s
      (fun x t => t.Settled ∧ t.session = {} ∧ out x t.db.committed)
      (fun _ t => s.Stays t ∧ t.session = {}) := by
  rw [atomically_ends]
  have hundone : ∀ t, t.Recoverable → s.Within t → s.Stays t.rolledBack ∧ t.rolledBack.session = {} := by
    intro t ht hst
    have hdb : t.rolledBack.db = t.db := ht.rolledBack.2.1
    have hsame : t.rolledBack.now = t.now ∧ t.rolledBack.place = t.place := by
      unfold State.rolledBack
      split
      · exact ⟨rfl, rfl⟩
      · exact ⟨rfl, rfl⟩
    exact ⟨⟨ht.settled.1, hsame.1.trans hst.now, hsame.2.trans hst.place, hdb ▸ hst.committed⟩, ht.settled.2⟩
  refine ha.mono ?_ fun e t ht => hundone t (h.toRecoverable.works ht) ht.toWithin
  rintro x t ⟨ht, hst, hx⟩
  have hpass : s.Within t.passOutage := hst.trans ⟨rfl, rfl, List.tail_suffix _⟩
  refine commit_ends ht.unstuck ⟨?_, ?_⟩ fun r => hundone _ ht.passOutage.toRecoverable hpass
  · exact ⟨ht.settled.1, ht.settled.2, hx⟩
  · exact ⟨ht.passOutage.settled.1, ht.passOutage.settled.2, hx⟩

/-- A block ends with no transaction open. It commits what its work gives, or nothing. -/
theorem atomically_over (out : α → Tables → Prop)
    (ha : Ends a s (fun x t => s.Within t ∧ out x t.tables) fun _ t => s.Within t) :
    Ends (atomically a) s (fun x t => s.Over t ∧ out x t.db.committed)
      fun _ t => s.Over t ∧ t.db.committed = s.db.committed := by
  rw [atomically_ends]
  have hundone : ∀ t, s.Within t → s.Over t.rolledBack ∧ t.rolledBack.db.committed = s.db.committed := by
    intro t ht
    unfold State.rolledBack
    split
    · exact ⟨⟨⟨ht.now, ht.place, ht.blobs, ht.cleanups⟩, by rw [ht.db]; rfl, rfl⟩, ht.committed⟩
    · rename_i hin
      exact ⟨⟨.of_within ht, by rw [ht.db], by simpa [State.inTransaction] using hin⟩, ht.committed⟩
  refine ha.mono (fun x t ht => ?_) fun e t ht => hundone t ht
  obtain ⟨ht, hx⟩ := ht
  have hpass : s.Within t.passOutage := ht.trans ⟨rfl, rfl, List.tail_suffix _⟩
  have hdone : ∀ u : State, s.Within u → u.tables = t.tables → s.Over u.committed ∧ out x u.committed.db.committed := by
    intro u hu heq
    refine ⟨⟨⟨hu.now, hu.place, hu.blobs, hu.cleanups⟩, ?_, rfl⟩, ?_⟩
    · show { u.db with committed := u.tables } = _
      rw [hu.db]
      rfl
    · show out x u.tables
      rw [heq]
      exact hx
  unfold commit unstuck
  simp only [ends_bind, ends_get, ends_update, ends_ite, ends_throw, ends_pure]
  exact ⟨fun _ => hundone t ht, fun _ => ⟨fun _ => ⟨fun _ => hundone _ hpass, fun _ => hdone _ hpass rfl⟩,
    fun _ => hdone t ht rfl⟩⟩

/-- A block commits what its work gives, or nothing, and touches nothing else unless its work does. -/
theorem atomically_commits (out : α → Tables → Prop)
    (ha : Ends a s (fun x t => s.Within t ∧ out x t.tables) fun _ t => s.Within t) :
    Ends (atomically a) s (fun x t => s.Outside t ∧ out x t.db.committed)
      fun _ t => s.Outside t ∧ t.db.committed = s.db.committed :=
  (atomically_over out ha).mono (fun _ _ ht => ⟨ht.1.toOutside, ht.2⟩) fun _ _ ht => ⟨ht.1.toOutside, ht.2⟩

/-- The failure of a block is that of its work or of the commit after it, as the block passes it on. -/
theorem atomically_error {e : Failure} {t : State} (h : atomically a s = (.error e, t)) :
    ∃ cause u, (do let x ← a; commit; return x : Act α) s = (.error cause, u) ∧ e = cause.aborted := by
  unfold atomically at h
  split at h
  · cases h
  · rename_i cause u heq
    cases h
    exact ⟨cause, u, heq, rfl⟩

theorem atomically_map {β : Type} (f : α → β) : atomically (f <$> a) = f <$> atomically a := by
  have h : (do let x ← f <$> a; commit; return x : Act β) = f <$> (do let x ← a; commit; return x : Act α) := by
    simp
  funext s
  unfold atomically
  rw [h]
  generalize (do let x ← a; commit; return x : Act α) = b
  simp only [Functor.map, ExceptT.map, ExceptT.mk, bind, StateT.bind]
  rcases b s with ⟨_ | x, t⟩ <;> rfl

end Act

namespace State

/-! ### States to compare with -/

/-- The same with a database that is there and answers every statement. -/
def answering (s : State) : State := { s with db := { s.db with absent := false, outages := [] } }

/-- A catalog of a single collection, of which nothing is cached. -/
def lone : State where
  now := 0
  db := {
    committed := {
      collections := [{
        id := "c", owner := "u", title := "Tools", description := "Things to work with", status := "listed"
        iconUrl := none, color := none, created := .stamp (.exact 0), updated := .stamp (.exact 0) }] } }

theorem intact_lone : lone.db.committed.Intact where
  rows := List.nodup_singleton _
  links := List.nodup_nil
  projects := List.nodup_nil
  references l hl := by cases hl

end State

end Curation
