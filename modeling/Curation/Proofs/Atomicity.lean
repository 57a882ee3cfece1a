import Curation.Proofs.Serving

/-! An operation that fails has done nothing, wherever it failed: nothing is committed, nothing waits any more, and no
    answer is other than it would have been. -/

namespace Curation

open Act (Ends ends_bind ends_iff)

/-- A refusal by the database becomes a failure to persist, any other failure stays what it is. -/
theorem Failure.aborted_cases (cause : Failure) : (∃ r, cause = .database r ∧ cause.aborted = .persistence r.message) ∨
    (∀ r, cause ≠ .database r) ∧ cause.aborted = cause := by
  cases cause with
  | database r => exact Or.inl ⟨r, rfl, rfl⟩
  | _ =>
    refine Or.inr ⟨fun _ h => ?_, rfl⟩
    cases h

namespace Operation

variable {s t : State} {o : Operation} {e : Failure}

/-- An operation fails before its transaction or in it, and not after it. -/
theorem run_error (h : s.Settled) (hrun : o.run s = (.error e, t)) :
    o.prepare s = (.error e, t) ∨
      ∃ j u, o.prepare s = (.ok j, u) ∧ Act.atomically j.work u = (.error e, t) := by
  have hends : Ends o.run s (fun _ _ => True) (fun e t => o.prepare s = (.error e, t) ∨
      ∃ j u, o.prepare s = (.ok j, u) ∧ Act.atomically j.work u = (.error e, t)) := by
    rw [run_eq, ends_bind, ends_iff]
    refine ⟨fun j u hj => ?_, fun e t he => Or.inl he⟩
    obtain ⟨hstays, hready⟩ := (prepare_ends h o).of_ok hj
    rw [ends_bind, ends_iff]
    refine ⟨fun found v hv => ?_, fun e t he => Or.inr ⟨j, u, hj, he⟩⟩
    obtain ⟨-, -, rfl, -⟩ := (hready.atomically_ends hstays).of_ok hv
    exact (hready.after v).mono (fun _ _ _ => trivial) fun _ _ hfalse => hfalse.elim
  exact hends.of_error hrun

end Operation

namespace Service

/-- An operation that fails in a state that the service can come to leaves what is committed as it was, and nothing that
    waits. The cache holds nothing but what was committed before, and whatever happens afterwards, every query is
    answered as it would be without the operation. If the operation came to its transaction, the transaction is over,
    and a refusal by the database has become a failure to persist, while any other failure is passed on as it is. -/
theorem failed_unchanged {s t : State} {o : Operation} {e : Failure} (hs : Reached s) (h : o.run s = (.error e, t)) :
    t.db.committed = s.db.committed ∧ t.session.pending = [] ∧
      (∀ id entry, t.cache.entries.get? id = some entry → s.db.committed.held? id = some entry.value) ∧
      (∀ s' t', Runs quiet s s' → Runs quiet t t' → s'.AnswersAs t') ∧
      (∀ s' t', Runs anything s s' → Runs anything t t' → s'.db.committed = t'.db.committed → s'.AnswersAs t') ∧
      (o.prepare s = (.error e, t) ∨ t.session = {} ∧ ∃ j u cause v, o.prepare s = (.ok j, u) ∧
        (do let found ← j.work; Act.commit; return found : Act Bool) u = (.error cause, v) ∧
        ((∃ r, cause = .database r ∧ e = .persistence r.message) ∨ (∀ r, cause ≠ .database r) ∧ e = cause)) := by
  have hsettled := hs.settled
  have hstays : s.Stays t := (o.run_ends hsettled).of_error h
  have hcommitted := hstays.committed
  refine ⟨hcommitted, hstays.settled.nothing, fun id entry hentry => ?_, fun s' t' hs' ht' => ?_,
    fun s' t' hs' ht' heq => ?_, ?_⟩
  · exact hcommitted ▸ hstays.settled.entries id entry hentry
  · refine (hs'.settled hsettled).answersAs (ht'.settled hstays.settled) ?_
    rw [hs'.committed hsettled, ht'.committed hstays.settled, hcommitted]
  · exact (hs'.settled hsettled).answersAs (ht'.settled hstays.settled) heq
  · refine (Operation.run_error hsettled h).imp_right ?_
    rintro ⟨j, u, hj, hwork⟩
    obtain ⟨hu, hready⟩ := (o.prepare_ends hsettled).of_ok hj
    obtain ⟨cause, v, hv, rfl⟩ := Act.atomically_error hwork
    exact ⟨((hready.atomically_ends hu).of_error hwork).2, j, u, cause, v, hj, hv, cause.aborted_cases⟩

theorem failed_unchanged_create :
    let s := { State.lone with db.outages := [false, false, true] }
    let o := Operation.create (some { userId := "u" }) "Tools" "Things to work with" []
    let t := (o.run s).2
    Reached s ∧ o.run s = (.error (.persistence Refusal.operational.message), t) ∧ t.db.committed = s.db.committed ∧
      t.session.pending = [] := by
  intro s o t
  have hs : Reached s := ⟨s, ⟨rfl, by decide, State.intact_lone, rfl, rfl⟩, .refl⟩
  have hrun : o.run s = (.error (.persistence Refusal.operational.message), t) := rfl
  have h := failed_unchanged hs hrun
  exact ⟨hs, hrun, h.1, h.2.1⟩

end Service

end Curation
