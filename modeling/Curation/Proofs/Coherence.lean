import Curation.Proofs.Session

/-! One session and one cache. Whatever is done in the session, in whatever order, and however its transactions end,
    the cache holds only what is committed, and a fetch gives what a load would give that goes past the cache and
    sees the writes of the session. -/

namespace Curation.Catalog

open Act (Ends ends_bind ends_pure ends_iff)

/-- Work that succeeds keeps the invariant; work that fails leaves what a rollback can fall back on. -/
theorem Work.run_ends {s : State} {w : Work} (h : s.Coherent) :
    Ends w.run s (fun _ t => t.Coherent) (fun _ t => t.Recoverable) := by
  cases hw : w.reads with
  | true =>
    refine (Work.reads_ends h.view.rows h.fit hw).mono (fun _ t ht => ?_) fun _ t ht => ?_
    · exact h.reads ht
    · exact (h.reads ht).toRecoverable
  | false =>
    refine (Work.writes_ends hw).mono (fun _ t ht => ?_) fun _ t ht => h.toRecoverable.works ht
    obtain ⟨v, p, hm, ht⟩ := ht
    exact h.marks hm ht

/-! ### Runs -/

/-- One step of a client with its session, its cache and its clock. The truth value tells whether the client is inside
    a transaction block, which a failure ends. -/
inductive Step : Bool × State → Bool × State → Prop
  | enter {s} : Step (false, s) (true, s)
  | work {s t} (w : Work) (h : w.run s = (.ok (), t)) : Step (true, s) (true, t)
  | fail {s t e} (w : Work) (h : w.run s = (.error e, t)) : Step (true, s) (false, t.rolledBack)
  | commit {s t} (h : Act.commit s = (.ok (), t)) : Step (true, s) (false, t)
  | refuse {s t e} (h : Act.commit s = (.error e, t)) : Step (true, s) (false, t.rolledBack)
  | abort {s} : Step (true, s) (false, s.rolledBack)
  | read {s t r} (w : Work) (hw : w.reads) (h : w.run s = (r, t)) : Step (false, s) (false, t)
  | clock {b s} (now : Time.Instant) (h : Time.inRange now = true) : Step (b, s) (b, { s with now })
  | get {b s} (id : String) : Step (b, s) (b, { s with cache := (s.cache.get s.now id).2 })
  | getAll {b s} (ids : List String) : Step (b, s) (b, { s with cache := (s.cache.getAll s.now ids).2 })
  | invalidate {b s} (id : String) : Step (b, s) (b, { s with cache := s.cache.invalidate id })
  | invalidateAll {b s} : Step (b, s) (b, { s with cache := s.cache.invalidateAll })
  | sweep {b s} : Step (b, s) (b, { s with cache := (s.cache.sweep s.now).2 })
  /-- How the database will answer changes. -/
  | answers {b s} (readOnly absent : Bool) (outages : List Bool) :
    Step (b, s) (b, { s with db := { s.db with readOnly, absent, outages } })

/-- A client that has done nothing yet, whose cache is empty. References are enforced, and the clock shows a time that
    can be written. -/
structure Start (s : State) : Prop where
  enforce : s.db.enforce = true
  dated : Time.inRange s.now = true
  committed : s.db.committed.Intact
  session : s.session = {}
  cache : s.cache.entries = []

/-- Any number of steps, in any order. -/
inductive Steps (c : Bool × State) : Bool × State → Prop
  | refl : Steps c c
  | step {d e : Bool × State} (hd : Steps c d) (h : Step d e) : Steps c e

variable {s t : State} {c d : Bool × State}

theorem Start.coherent (h : Start s) : s.Coherent := by
  have htables : s.tables = s.db.committed := by simp [State.tables, h.session]
  refine ⟨⟨h.enforce, h.dated, h.committed, ?_, fun id e he => ?_, fun _ => ?_, fun hs => ?_⟩, ?_, ?_, ?_,
    fun id _ => ?_, fun id c hc => ?_⟩
  · simp [h.cache, Keyed.keys]
  · simp [h.cache] at he
  · rw [h.session]
  · simp [h.session] at hs
  · rw [h.session]
  · exact htables ▸ h.committed
  · simp [h.session, Keyed.keys]
  · exact htables ▸ .refl _ id
  · simp [h.session] at hc

/-- A commit that the database refuses leaves what a rollback can fall back on. -/
theorem commit_coherent (h : s.Coherent) :
    Ends Act.commit s (fun _ t => t.Coherent) (fun _ t => t.Recoverable) :=
  Act.commit_ends h.unstuck ⟨h.commit, h.passOutage.commit⟩ fun _ => h.passOutage.toRecoverable

/-- Every step keeps the invariant. -/
theorem Step.coherent (h : c.2.Coherent) (hstep : Step c d) : d.2.Coherent := by
  have hsheds : ∀ {c : Cache} {s : State}, s.Coherent → s.cache.Sheds c → ({ s with cache := c } : State).Coherent :=
    fun hs hc => hs.reads (.sheds hc)
  cases hstep with
  | enter => exact h
  | work w hw => exact (Work.run_ends h).of_ok hw
  | fail w hw => exact ((Work.run_ends h).of_error hw).rolledBack.1
  | commit hc => exact (commit_coherent h).of_ok hc
  | refuse hc => exact ((commit_coherent h).of_error hc).rolledBack.1
  | abort => exact h.toRecoverable.rolledBack.1
  | @read s t r w hw hr =>
    cases r with
    | ok x => exact h.reads ((Work.reads_ends h.view.rows h.fit hw).of_ok hr)
    | error e => exact h.reads ((Work.reads_ends h.view.rows h.fit hw).of_error hr)
  | clock now hnow => exact { h with dated := hnow }
  | get id => exact hsheds h (Cache.sheds_get _ _ _)
  | getAll ids => exact hsheds h (Cache.sheds_getAll _ _ _)
  | invalidate id => exact hsheds h (Cache.sheds_invalidate _ _)
  | invalidateAll => exact hsheds h (Cache.sheds_invalidateAll _)
  | sweep => exact hsheds h (Cache.sheds_sweep _ h.keyed _)
  | answers => exact { h with }

theorem Steps.coherent (h : c.2.Coherent) (hsteps : Steps c d) : d.2.Coherent := by
  induction hsteps with
  | refl => exact h
  | step _ hstep ih => exact hstep.coherent ih

theorem Steps.trans {e : Bool × State} (h₁ : Steps c d) (h₂ : Steps d e) : Steps c e := by
  induction h₂ with
  | refl => exact h₁
  | step _ h ih => exact .step ih h

/-- A transaction block of the program goes by these steps, however it ends. -/
theorem steps_atomically {ws : List Work} {r : Except Failure PUnit}
    (h : Act.atomically (ws.forM Work.run) s = (r, t)) : Steps (false, s) (false, t) := by
  have hwork : ∀ ws : List Work, ∀ s, Ends (ws.forM Work.run) s (fun _ t => Steps (true, s) (true, t))
      (fun _ t => Steps (true, s) (false, t.rolledBack)) := by
    intro ws
    induction ws with
    | nil => exact fun s => ends_pure.mpr .refl
    | cons w ws ih =>
      intro s
      change Ends (w.run >>= fun _ => ws.forM Work.run) s _ _
      rw [ends_bind, ends_iff]
      refine ⟨fun _ u hu => ?_, fun e u hu => .step .refl (.fail w hu)⟩
      have hstep : Steps (true, s) (true, u) := .step .refl (.work w hu)
      exact (ih u).mono (fun _ v hv => hstep.trans hv) fun _ v hv => hstep.trans hv
  have hends : Ends (Act.atomically (ws.forM Work.run)) s (fun _ t => Steps (true, s) (false, t))
      (fun _ t => Steps (true, s) (false, t)) := by
    rw [Act.atomically_ends]
    refine (hwork ws s).mono (fun _ u hu => ?_) fun _ u hu => hu
    rw [ends_iff]
    exact ⟨fun _ v hv => .step hu (.commit hv), fun e v hv => .step hu (.refuse hv)⟩
  refine Steps.trans (.step .refl .enter) ?_
  cases r with
  | ok x => exact hends.of_ok h
  | error e => exact hends.of_error h

/-! ### What the cache holds and what a fetch gives -/

/-- In every state that a client can come to from an empty cache, every entry of the cache, dead ones included, is what
    a load gives for its id that goes by the committed tables; and a fetch gives each collection once, in the order of
    the first appearance of the ids, as a load gives them that sees the writes of the session. Where the load fails
    the fetch fails alike, and besides it can only fail because the database does not answer. -/
theorem cache_coherent (hs : Start s) (h : Steps (false, s) c) :
    (∀ e ∈ c.2.cache.entries, (load [e.1] c.2.closed.answering).1 = .ok [(e.1, e.2.value)]) ∧
    ∀ ids, (fetchAll ids c.2).1 =
        (load (distinct ids) c.2.answering).1.map (fun found => (distinct ids).filterMap found.get?) ∨
      ¬ c.2.Answers ∧ ∃ r, (fetchAll ids c.2).1 = .error (.database r) := by
  have hc := h.coherent hs.coherent
  refine ⟨fun e he => ?_, fun ids => ?_⟩
  · have hanswers : c.2.closed.answering.Answers := ⟨rfl, rfl, fun _ h => nomatch h⟩
    rw [load_fst hanswers]
    exact hc.committed.rows.read_singleton (hc.entries _ _ (Keyed.get?_of_mem hc.keyed he))
  · have hanswers : c.2.answering.Answers := ⟨hc.unstuck, rfl, fun _ h => nomatch h⟩
    have hload : (load (distinct ids) c.2.answering).1.map (fun found => (distinct ids).filterMap found.get?) =
        c.2.tables.answer ids := by
      rw [load_fst hanswers]
      show (c.2.tables.read (distinct ids)).map _ = _
      rw [Tables.answer]
      cases c.2.tables.read (distinct ids) with
      | error e => rfl
      | ok found => rfl
    rw [hload]
    have hends : Ends (fetchAll ids) c.2 (fun cs _ => c.2.tables.answer ids = .ok cs) (fun e _ =>
        c.2.tables.answer ids = .error e ∨ ¬ c.2.Answers ∧ ∃ r, e = .database r) :=
      fetchAll_ends hc.view.rows hc.fit (fun _ _ _ hcs => hcs) fun _ _ _ he => he
    rcases hends.result with ⟨cs, t, hf, hcs⟩ | ⟨e, t, hf, he | ⟨ha, r, rfl⟩⟩
    · exact Or.inl (by rw [hf, hcs])
    · exact Or.inl (by rw [hf, he])
    · exact Or.inr ⟨ha, r, by rw [hf]⟩

/-- A collection is read, and then gets a new title inside of a transaction. While this is open the cache has the entry
    with the old title, which waits to be dropped. -/
theorem cache_coherent_revised :
    let s := ((Work.fetch "c").run .lone).2
    let t := ((Work.revise "c" (some "Toolbox") none none).run s).2
    Start .lone ∧ Steps (false, .lone) (true, t) ∧ t.cache.entries.map (·.2.value.title) = ["Tools"] ∧
      t.session.pending.keys = ["c"] ∧
      (∀ e ∈ t.cache.entries, (load [e.1] t.closed.answering).1 = .ok [(e.1, e.2.value)]) ∧
      ∀ ids, (fetchAll ids t).1 =
          (load (distinct ids) t.answering).1.map (fun found => (distinct ids).filterMap found.get?) ∨
        ¬ t.Answers ∧ ∃ r, (fetchAll ids t).1 = .error (.database r) := by
  intro s t
  have hs : Start .lone := ⟨rfl, by decide, State.intact_lone, rfl, rfl⟩
  have hdone : ((Work.revise "c" (some "Toolbox") none none).run s).1 = .ok () := by decide +kernel
  have h : Steps (false, .lone) (true, t) :=
    .step (.step (.step .refl (.read (.fetch "c") rfl rfl)) .enter) (.work _ (Prod.ext hdone rfl))
  exact ⟨hs, h, by decide +kernel, by decide +kernel, cache_coherent hs h⟩

end Curation.Catalog
