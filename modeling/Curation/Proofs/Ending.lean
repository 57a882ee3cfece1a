import Curation.Proofs.Cache

/-! How an operation ends. `Act.Ends` says what holds at the end of an operation that starts in a given state,
    whether it ends with a value or with a failure; each way to build an operation has a rule for it. The
    statements of a session commit nothing and leave most of the state alone (`State.Works`). -/

namespace Curation

open Time (Instant)

namespace State

variable {s t u : State}

/-- The state after a statement that changes no table. -/
def ran (s : State) : State := s.begin.passOutage

/-- From the first state to the second nothing was committed, and besides the session, the cache and the supply
    of ids nothing but the answers of the database that are still to come has changed. -/
structure Within (s t : State) : Prop where
  rest : t = { s with ids := t.ids, db := t.db, session := t.session, cache := t.cache }
  db : t.db = { s.db with outages := t.db.outages }
  outages : t.db.outages <:+ s.db.outages

namespace Within

theorem refl (s : State) : s.Within s := ⟨rfl, rfl, List.suffix_refl _⟩

theorem trans (h₁ : s.Within t) (h₂ : t.Within u) : s.Within u where
  rest := by
    rw [h₂.rest, h₁.rest]
  db := by
    rw [h₂.db, h₁.db]
  outages := h₂.outages.trans h₁.outages

theorem now (h : s.Within t) : t.now = s.now := by rw [h.rest]
theorem place (h : s.Within t) : t.place = s.place := by rw [h.rest]
theorem blobs (h : s.Within t) : t.blobs = s.blobs := by rw [h.rest]
theorem cleanups (h : s.Within t) : t.cleanups = s.cleanups := by rw [h.rest]
theorem committed (h : s.Within t) : t.db.committed = s.db.committed := by rw [h.db]
theorem enforce (h : s.Within t) : t.db.enforce = s.db.enforce := by rw [h.db]
theorem absent (h : s.Within t) : t.db.absent = s.db.absent := by rw [h.db]

theorem ran (s : State) : s.Within s.ran := ⟨rfl, rfl, List.tail_suffix _⟩

end Within

/-- Work in a session, whether it succeeds or not: nothing is committed, the cache only sheds entries, and a
    session that is in no transaction afterwards was not touched. -/
structure Works (s t : State) : Prop extends s.Within t where
  cache : s.cache.Sheds t.cache
  closed : t.session.view = none → t.session = s.session
  stuck : t.session.stuck = true → s.session.stuck = true ∨ t.session.view ≠ none

namespace Works

theorem refl (s : State) : s.Works s := ⟨.refl s, .refl _, fun _ => rfl, Or.inl⟩

theorem trans (h₁ : s.Works t) (h₂ : t.Works u) : s.Works u where
  toWithin := h₁.toWithin.trans h₂.toWithin
  cache := h₁.cache.trans h₂.cache
  closed hu := by
    have heq := h₂.closed hu
    rw [heq, h₁.closed (heq ▸ hu)]
  stuck hu := by
    rcases h₂.stuck hu with ht | hv
    · rcases h₁.stuck ht with hs | hv
      · exact Or.inl hs
      · refine Or.inr fun hnone => hv ?_
        rw [← h₂.closed hnone]
        exact hnone
    · exact Or.inr hv

theorem ran (s : State) : s.Works s.ran := ⟨.ran s, .refl _, fun h => (nomatch h), Or.inl⟩

/-- A session that lost its transaction stays in what is left of it. -/
theorem lost (s : State) : s.Works s.lost where
  toWithin := ⟨rfl, rfl, List.suffix_refl _⟩
  cache := show s.cache.Sheds (s.session.pending.apply false s.now s.cache) from Pending.sheds_apply_false _
  closed h := nomatch h
  stuck _ := Or.inr fun h => nomatch h

end Works

/-- A rollback drops from the cache whatever something waited for. -/
theorem sheds_rolledBack (s : State) : s.cache.Sheds s.rolledBack.cache := by
  unfold State.rolledBack
  split
  · exact (Pending.sheds_apply_false s.cache : s.cache.Sheds (s.session.pending.apply false s.now s.cache))
  · exact .refl _

/-- What work that succeeds gives: the tables that the session sees after it, and what then waits for the end of its
    transaction. A session that is in no transaction afterwards was not touched. -/
structure Gives (s t : State) (v : Tables) (p : Pending) : Prop extends s.Within t where
  cache : t.cache = s.cache
  tables : t.tables = v
  pending : t.session.pending = p
  stuck : t.session.stuck = s.session.stuck
  closed : t.session.view = none → t.session = s.session

namespace Gives

variable {v w : Tables} {p q : Pending}

theorem refl (s : State) : s.Gives s s.tables s.session.pending := ⟨.refl s, rfl, rfl, rfl, rfl, fun _ => rfl⟩

theorem trans (h₁ : s.Gives t v p) (h₂ : t.Gives u w q) : s.Gives u w q where
  toWithin := h₁.toWithin.trans h₂.toWithin
  cache := h₂.cache.trans h₁.cache
  tables := h₂.tables
  pending := h₂.pending
  stuck := h₂.stuck.trans h₁.stuck
  closed hu := by
    have heq := h₂.closed hu
    rw [heq, h₁.closed (heq ▸ hu)]

theorem works (h : s.Gives t v p) : s.Works t where
  toWithin := h.toWithin
  cache := h.cache ▸ .refl _
  closed := h.closed
  stuck hs := Or.inl (h.stuck ▸ hs)

end Gives

/-- The same of work that leaves the session inside a transaction. -/
structure Wrote (s t : State) (v : Tables) (p : Pending) : Prop extends s.Within t where
  cache : t.cache = s.cache
  session : t.session = { view := some v, pending := p, stuck := s.session.stuck }

namespace Wrote

variable {v w : Tables} {p q : Pending}

theorem gives (h : s.Wrote t v p) : s.Gives t v p where
  toWithin := h.toWithin
  cache := h.cache
  tables := by simp [State.tables, h.session]
  pending := by rw [h.session]
  stuck := by rw [h.session]
  closed hn := by
    rw [h.session] at hn
    cases hn

theorem inTransaction (h : s.Wrote t v p) : t.inTransaction = true := by simp [State.inTransaction, h.session]

theorem ran (s : State) : s.Wrote s.ran s.tables s.session.pending := ⟨.ran s, rfl, rfl⟩

theorem execute (s : State) (v : Tables) : s.Wrote (s.ran.withTables v) v s.session.pending :=
  ⟨⟨rfl, rfl, List.tail_suffix _⟩, rfl, rfl⟩

end Wrote

theorem Gives.trans_wrote {v w : Tables} {p q : Pending} (h₁ : s.Gives t v p) (h₂ : t.Wrote u w q) :
    s.Wrote u w q where
  toWithin := h₁.toWithin.trans h₂.toWithin
  cache := h₂.cache.trans h₁.cache
  session := by rw [h₂.session, h₁.stuck]

theorem Wrote.trans_gives {v w : Tables} {p q : Pending} (h₁ : s.Wrote t v p) (h₂ : t.Gives u w q) :
    s.Wrote u w q where
  toWithin := h₁.toWithin.trans h₂.toWithin
  cache := h₂.cache.trans h₁.cache
  session := by
    have hview : u.session.view = some w := by
      cases hu : u.session.view with
      | none =>
        have := h₂.closed hu ▸ hu
        rw [h₁.session] at this
        cases this
      | some x =>
        have := h₂.tables
        rw [State.tables, hu] at this
        exact congrArg some this
    have hstuck : u.session.stuck = s.session.stuck := by rw [h₂.stuck, h₁.session]
    rw [← hview, ← h₂.pending, ← hstuck]

/-- The session may use the database, which is there and answers every statement to come. -/
structure Answers (s : State) : Prop where
  stuck : s.session.stuck = false
  present : s.db.absent = false
  outages : ∀ o ∈ s.db.outages, o = false

namespace Answers

theorem outage (h : s.Answers) : s.outage = false := by
  unfold State.outage
  have ho := h.outages
  cases hout : s.db.outages with
  | nil => rfl
  | cons o os => exact ho o (hout ▸ List.mem_cons_self)

theorem within (h : s.Answers) (hst : s.Within t) (hstuck : t.session.stuck = s.session.stuck) : t.Answers where
  stuck := hstuck.trans h.stuck
  present := hst.absent.trans h.present
  outages o ho := h.outages o (hst.outages.subset ho)

end Answers

end State

namespace Act

variable {α β : Type} {s : State}

/-- Started in a state the operation ends, either with a value, and then `ok` holds of it and of the state
    after it, or with a failure, and then `err` does. -/
@[irreducible] def Ends (a : Act α) (s : State) (ok : α → State → Prop) (err : Failure → State → Prop) : Prop :=
  match a s with
  | (.ok x, t) => ok x t
  | (.error e, t) => err e t

variable {a : Act α} {ok : α → State → Prop} {err : Failure → State → Prop}

theorem Ends.mono {ok' : α → State → Prop} {err' : Failure → State → Prop} (h : Ends a s ok err)
    (hok : ∀ x t, ok x t → ok' x t) (herr : ∀ e t, err e t → err' e t) : Ends a s ok' err' := by
  unfold Ends at h ⊢
  split
  · rename_i x t heq
    rw [heq] at h
    exact hok x t h
  · rename_i e t heq
    rw [heq] at h
    exact herr e t h

theorem Ends.and {ok' : α → State → Prop} {err' : Failure → State → Prop} (h : Ends a s ok err)
    (h' : Ends a s ok' err') : Ends a s (fun x t => ok x t ∧ ok' x t) fun e t => err e t ∧ err' e t := by
  unfold Ends at h h' ⊢
  split
  · rename_i x t heq
    rw [heq] at h h'
    exact ⟨h, h'⟩
  · rename_i e t heq
    rw [heq] at h h'
    exact ⟨h, h'⟩

theorem Ends.of_ok (h : Ends a s ok err) {x : α} {t : State} (heq : a s = (.ok x, t)) : ok x t := by
  unfold Ends at h
  rwa [heq] at h

theorem Ends.of_error (h : Ends a s ok err) {e : Failure} {t : State} (heq : a s = (.error e, t)) : err e t := by
  unfold Ends at h
  rwa [heq] at h

theorem ends_iff : Ends a s ok err ↔
    (∀ x t, a s = (.ok x, t) → ok x t) ∧ (∀ e t, a s = (.error e, t) → err e t) := by
  constructor
  · exact fun h => ⟨fun _ _ heq => h.of_ok heq, fun _ _ heq => h.of_error heq⟩
  · rintro ⟨hok, herr⟩
    unfold Ends
    split
    · exact hok _ _ ‹_›
    · exact herr _ _ ‹_›

/-- The value or the failure that an operation ends with. -/
theorem Ends.result (h : Ends a s ok err) :
    (∃ x t, a s = (.ok x, t) ∧ ok x t) ∨ ∃ e t, a s = (.error e, t) ∧ err e t := by
  cases heq : a s with
  | mk r t =>
    cases r with
    | ok x => exact Or.inl ⟨x, t, rfl, h.of_ok heq⟩
    | error e => exact Or.inr ⟨e, t, rfl, h.of_error heq⟩

/-- What is sure not to fail ends with a value. -/
theorem Ends.exists_ok (h : Ends a s ok fun _ _ => False) : ∃ x t, a s = (.ok x, t) ∧ ok x t :=
  h.result.resolve_right fun ⟨_, _, _, hfalse⟩ => hfalse

/-- What is sure to fail ends with a failure. -/
theorem Ends.exists_error (h : Ends a s (fun _ _ => False) err) : ∃ e t, a s = (.error e, t) ∧ err e t :=
  h.result.resolve_left fun ⟨_, _, _, hfalse⟩ => hfalse

/-! ### Rules -/

theorem ends_bind {f : α → Act β} {ok : β → State → Prop} :
    Ends (a >>= f) s ok err ↔ Ends a s (fun x t => Ends (f x) t ok err) err := by
  unfold Ends
  change (match ExceptT.bind a f s with | (.ok x, t) => ok x t | (.error e, t) => err e t) ↔ _
  simp only [ExceptT.bind, ExceptT.mk, bind, StateT.bind]
  rcases a s with ⟨_ | x, t⟩ <;> rfl

theorem ends_pure {x : α} : Ends (pure x) s ok err ↔ ok x s := by
  unfold Ends
  exact Iff.rfl

theorem ends_throw {e : Failure} : Ends (throw e : Act α) s ok err ↔ err e s := by
  unfold Ends
  exact Iff.rfl

theorem ends_get {ok : State → State → Prop} : Ends (get : Act State) s ok err ↔ ok s s := by
  unfold Ends
  exact Iff.rfl

theorem ends_set {t : State} {ok : PUnit → State → Prop} : Ends (set t : Act PUnit) s ok err ↔ ok ⟨⟩ t := by
  unfold Ends
  exact Iff.rfl

theorem ends_update {f : State → State} {ok : Unit → State → Prop} : Ends (update f) s ok err ↔ ok () (f s) := by
  unfold Ends
  exact Iff.rfl

theorem ends_map {f : α → β} {ok : β → State → Prop} :
    Ends (f <$> a) s ok err ↔ Ends a s (fun x t => ok (f x) t) err := by
  simp only [map_eq_pure_bind, ends_bind, ends_pure]

theorem ends_ite {c : Prop} [Decidable c] {b : Act α} :
    Ends (if c then a else b) s ok err ↔ (c → Ends a s ok err) ∧ (¬c → Ends b s ok err) := by
  split <;> simp_all

/-- What each round keeps holds at the end of a loop. -/
theorem forM_ends (inv : State → Prop) {f : β → Act PUnit} {l : List β} {ok : PUnit → State → Prop} (hs : inv s)
    (hstep : ∀ b ∈ l, ∀ t, inv t → Ends (f b) t (fun _ => inv) err) (hok : ∀ t, inv t → ok ⟨⟩ t) :
    Ends (l.forM f) s ok err := by
  induction l generalizing s with
  | nil => exact ends_pure.mpr (hok s hs)
  | cons b l ih =>
    change Ends (f b >>= fun _ => l.forM f) s ok err
    rw [ends_bind]
    exact (hstep b List.mem_cons_self s hs).mono
      (fun _ t ht => ih ht fun b hb => hstep b (List.mem_cons_of_mem _ hb)) fun _ _ h => h

/-- What is done with a value if there is one. -/
theorem option_ends {o : Option β} {f : β → Act PUnit} {ok : PUnit → State → Prop} (hnone : o = none → ok ⟨⟩ s)
    (hsome : ∀ b, o = some b → Ends (f b) s ok err) : Ends (o.forM f) s ok err := by
  cases o with
  | none => exact ends_pure.mpr (hnone rfl)
  | some b => exact hsome b rfl

/-- A statement that reads gives what it reads of the tables that the session sees, unless the database or the
    session refuses it. -/
theorem query_ends {f : Tables → α} (hok : ok (f s.tables) s.ran)
    (herr : ∀ r, ¬ s.Answers → err (.database r) s ∧ err (.database r) s.ran) : Ends (query f) s ok err := by
  unfold query begin unstuck
  simp only [ends_bind, ends_get, ends_update, ends_ite, ends_throw, ends_pure]
  refine ⟨fun hs => (herr _ fun h => ?_).1, fun _ => ⟨fun ho => (herr _ fun h => ?_).2, fun _ => hok⟩⟩
  · exact absurd hs (by simp [h.stuck])
  · have : s.begin.outage = false := h.outage
    have : s.begin.db.absent = false := h.present
    simp_all

theorem execute_ends {f : Tables → Except Refusal (α × Tables)}
    (hok : ∀ x v, f s.tables = .ok (x, v) → ok x (s.ran.withTables v))
    (herr : ∀ r, err (.database r) s ∧ err (.database r) s.ran) : Ends (execute f) s ok err := by
  unfold execute begin unstuck
  simp only [ends_bind, ends_get, ends_update, ends_ite, ends_throw, ends_pure]
  refine ⟨fun _ => (herr _).1, fun _ => ⟨fun _ => (herr _).2, fun _ => ?_⟩⟩
  split
  · exact ends_throw.mpr (herr _).2
  · rename_i x v hf
    rw [ends_bind, ends_update, ends_pure]
    exact hok x v hf

theorem flush_ends {f : Tables → Except Refusal (α × Tables)}
    (hok : ∀ x v, f s.tables = .ok (x, v) → ok x (s.ran.withTables v))
    (herr : ∀ r, err (.database r) s.lost ∧ err (.database r) s.ran.lost) : Ends (flush f) s ok err := by
  have h : Ends (execute f) s ok fun e t => err e t.lost := execute_ends hok herr
  unfold Ends at h ⊢
  unfold flush
  revert h
  rcases execute f s with ⟨_ | x, t⟩
  · exact id
  · exact id

section Waiting

variable {v : Tables} {p : Pending} {t : State} {ok : Unit → State → Prop}

theorem forget_ends {id : String} (ht : s.Wrote t v p) (hok : ∀ u, s.Wrote u v (p.put id none) → ok () u) :
    Ends (forget id) t ok err := by
  unfold forget
  rw [ends_update, if_pos ht.inTransaction]
  refine hok _ (ht.gives.trans_wrote ⟨⟨rfl, rfl, List.suffix_refl _⟩, rfl, ?_⟩)
  rw [ht.session]

theorem remember_ends {c : Collection} (ht : s.Wrote t v p) (hok : ∀ u, s.Wrote u v (p.put c.id (some c)) → ok () u) :
    Ends (remember c) t ok err := by
  unfold remember
  rw [ends_update, if_pos ht.inTransaction]
  refine hok _ (ht.gives.trans_wrote ⟨⟨rfl, rfl, List.suffix_refl _⟩, rfl, ?_⟩)
  rw [ht.session]

end Waiting

end Act

end Curation
