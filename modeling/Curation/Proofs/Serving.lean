import Curation.Proofs.Coherence
import Curation.Proofs.Operations

/-! The service in the course of time: operations and queries one after another, each with whatever outcome, while the
    clock moves, sessions are opened, the cache loses entries and the database comes and goes. Between them the session
    sees what is committed, and a query is answered by the committed tables. -/

namespace Curation

open Act (Ends ends_bind ends_pure)
open Catalog (check_ends)

/-- What callers may ask for that changes nothing. -/
inductive Query where
  | get (actor : Option Actor) (id : String)
  | list (actor : Option Actor) (ids : List String)

namespace Query

/-- Answers a query with the collections that it gives. -/
def run : Query → Act (List Collection)
  | get actor id => do return [← Service.get actor id]
  | list actor ids => Service.list actor ids

/-- The answer to a query, by the tables alone. -/
def answer (t : Tables) : Query → Except Failure (List Collection)
  | get actor id => do
    let found ← t.answer [id]
    return [← Gate.shown id found.head? (Gate.reader actor)]
  | list actor ids => do
    let found ← t.answer ids
    return Gate.visible found (Gate.reader actor)

/-- A query is answered by the tables that the session sees, unless the database does not answer. -/
theorem run_ends {s : State} (h : s.Coherent) (q : Query) :
    Ends q.run s (fun cs t => s.Reads t ∧ q.answer s.tables = .ok cs)
      (fun e t => s.Reads t ∧ (q.answer s.tables = .error e ∨ ¬ s.Answers ∧ ∃ r, e = .database r)) := by
  cases q with
  | get actor id =>
    simp only [run, Service.get, Catalog.fetch, ends_bind, ends_pure, answer]
    refine Catalog.fetchAll_ends h.view.rows h.fit (fun cs t ht hcs => ?_) fun e t ht he => ?_
    · refine check_ends (fun c hc => ⟨ht, ?_⟩) fun e he => ⟨ht, Or.inl ?_⟩
      · rw [hcs, bind_eq_ok]
        exact ⟨cs, rfl, by rw [hc]; rfl⟩
      · rw [hcs, bind_eq_error]
        exact Or.inr ⟨cs, rfl, by rw [he]; rfl⟩
    · exact ⟨ht, he.imp_left fun he => by rw [he]; rfl⟩
  | list actor ids =>
    simp only [run, Service.list, ends_bind, ends_pure, answer]
    refine Catalog.fetchAll_ends h.view.rows h.fit (fun cs t ht hcs => ⟨ht, ?_⟩) fun e t ht he => ⟨ht, ?_⟩
    · rw [hcs]
      rfl
    · exact he.imp_left fun he => by rw [he]; rfl

end Query

/-- The database does not answer, and a query fails of that. -/
def State.Refuses (s : State) (q : Query) : Prop := ¬ s.Answers ∧ ∃ r, (q.run s).1 = .error (.database r)

/-- Two states give the same answer to every query, unless the database of one of them does not answer. -/
def State.AnswersAs (s t : State) : Prop := ∀ q : Query, (q.run s).1 = (q.run t).1 ∨ s.Refuses q ∨ t.Refuses q

theorem State.Coherent.query {s : State} (h : s.Coherent) (q : Query) :
    (q.run s).1 = q.answer s.tables ∨ s.Refuses q := by
  rcases (q.run_ends h).result with ⟨cs, t, hq, -, hcs⟩ | ⟨e, t, hq, -, he | ⟨ha, r, rfl⟩⟩
  · exact Or.inl (by rw [hq, hcs])
  · exact Or.inl (by rw [hq, he])
  · exact Or.inr ⟨ha, r, by rw [hq]⟩

/-- The answers depend on nothing but the tables that are committed. -/
theorem State.Settled.answersAs {s t : State} (hs : s.Settled) (ht : t.Settled)
    (h : s.db.committed = t.db.committed) : s.AnswersAs t := by
  intro q
  rcases hs.query q with hq | hq
  · rcases ht.query q with hq' | hq'
    · exact Or.inl (by rw [hq, hq', hs.seen, ht.seen, h])
    · exact Or.inr (Or.inr hq')
  · exact Or.inr (Or.inl hq)

namespace Service

/-! ### Runs -/

/-- What may happen to the service: an operation is carried out, or something else that changes nothing which is
    committed. -/
inductive Step : Option Operation → State → State → Prop
  | operation {s t r} (o : Operation) (h : o.run s = (r, t)) : Step (some o) s t
  | query {s t r} (q : Query) (h : q.run s = (r, t)) : Step none s t
  /-- A request comes with a session of its own. -/
  | session {s} : Step none s s.closed
  | clock {s} (now : Time.Instant) (h : Time.inRange now = true) : Step none s { s with now }
  /-- Entries of the cache are dropped, be it because they are too old or for any other reason. -/
  | cache {s} (c : Cache) (h : s.cache.Sheds c) : Step none s { s with cache := c }
  /-- How the database will answer, what ids will be drawn, and what becomes of the blobs. -/
  | beside {s} (readOnly absent : Bool) (outages : List Bool) (ids : IdSource) (blobs : Blobs)
      (cleanups : List String) :
    Step none s { s with db := { s.db with readOnly, absent, outages }, ids, blobs, cleanups }

/-- Any number of steps, each of which is allowed as such. -/
inductive Runs (allowed : Option Operation → State → State → Prop) (s : State) : State → Prop
  | refl : Runs allowed s s
  | step {t u : State} {o : Option Operation} (ht : Runs allowed s t) (h : Step o t u) (ho : allowed o t u) :
    Runs allowed s u

/-- All steps are allowed. -/
def anything (_ : Option Operation) (_ _ : State) : Prop := True

/-- No operation is carried out. -/
def quiet (o : Option Operation) (_ _ : State) : Prop := o = none

/-- A state that the service can come to from an empty cache. -/
def Reached (s : State) : Prop := ∃ s₀, Catalog.Start s₀ ∧ Runs anything s₀ s

variable {s t : State} {o : Option Operation} {allowed : Option Operation → State → State → Prop}

/-- A step is an operation that succeeds, or commits nothing. -/
theorem Step.ok_or_stays (h : s.Settled) (hstep : Step o s t) : (∃ op, o = some op ∧ op.run s = (.ok (), t)) ∨
    t.Settled ∧ t.db.committed = s.db.committed ∧ t.place = s.place := by
  have hreads : s.Reads t → t.Settled ∧ t.db.committed = s.db.committed ∧ t.place = s.place := fun ht =>
    ⟨h.reads ht, ht.toWithin.committed, ht.toWithin.place⟩
  cases hstep with
  | @operation _ _ r op hrun =>
    cases r with
    | ok x => exact Or.inl ⟨op, rfl, hrun⟩
    | error e =>
      have hstays := (op.run_ends h).of_error hrun
      exact Or.inr ⟨hstays.settled, hstays.committed, hstays.place⟩
  | @query _ _ r q hq =>
    have hends := q.run_ends h.toCoherent
    cases r with
    | ok cs => exact Or.inr (hreads (hends.of_ok hq).1)
    | error e => exact Or.inr (hreads (hends.of_error hq).1)
  | session => exact Or.inr ⟨h.toRecoverable.closed, rfl, rfl⟩
  | clock now hnow => exact Or.inr ⟨{ h with dated := hnow }, rfl, rfl⟩
  | cache c hc => exact Or.inr (hreads (.sheds hc))
  | beside => exact Or.inr ⟨{ h with }, rfl, rfl⟩

/-- Between two operations nothing is committed. -/
theorem Step.committed (h : s.Settled) (hstep : Step none s t) : t.db.committed = s.db.committed := by
  rcases hstep.ok_or_stays h with ⟨op, hop, -⟩ | ⟨-, hcommitted, -⟩
  · cases hop
  · exact hcommitted

/-- What changes what is committed is an operation that succeeds. -/
theorem Step.effect (h : s.Settled) (hstep : Step o s t) :
    t.db.committed = s.db.committed ∨ ∃ op, o = some op ∧ op.Effect s t.db.committed := by
  rcases hstep.ok_or_stays h with ⟨op, rfl, hrun⟩ | ⟨-, hcommitted, -⟩
  · exact Or.inr ⟨op, rfl, ((op.run_ends h).of_ok hrun).2⟩
  · exact Or.inl hcommitted

theorem Step.settled (h : s.Settled) (hstep : Step o s t) : t.Settled := by
  rcases hstep.ok_or_stays h with ⟨op, -, hrun⟩ | ⟨hsettled, -, -⟩
  · exact ((op.run_ends h).of_ok hrun).1
  · exact hsettled

theorem Step.place (h : s.Settled) (hstep : Step o s t) : t.place = s.place := by
  rcases hstep.ok_or_stays h with ⟨op, -, hrun⟩ | ⟨-, -, hplace⟩
  · exact ((op.run_spec h).of_ok hrun).2.2.1
  · exact hplace

theorem Runs.settled (h : s.Settled) (hruns : Runs allowed s t) : t.Settled := by
  induction hruns with
  | refl => exact h
  | step _ hstep _ ih => exact hstep.settled ih

theorem Runs.place (h : s.Settled) (hruns : Runs allowed s t) : t.place = s.place := by
  induction hruns with
  | refl => rfl
  | step ht hstep _ ih => exact (hstep.place (ht.settled h)).trans ih

/-- A run goes on with an operation. -/
theorem Runs.operate (hruns : Runs allowed s t) (op : Operation) (ho : allowed (some op) t (op.run t).2) :
    Runs allowed s (op.run t).2 := .step hruns (.operation op rfl) ho

theorem Runs.mono {allowed' : Option Operation → State → State → Prop} (hruns : Runs allowed s t)
    (h : ∀ o s t, allowed o s t → allowed' o s t) : Runs allowed' s t := by
  induction hruns with
  | refl => exact .refl
  | step _ hstep ho ih => exact .step ih hstep (h _ _ _ ho)

theorem Runs.committed (h : s.Settled) (hruns : Runs quiet s t) : t.db.committed = s.db.committed := by
  induction hruns with
  | refl => rfl
  | step ht hstep ho ih =>
    subst ho
    exact (hstep.committed (ht.settled h)).trans ih

theorem start_lone : Catalog.Start .lone := ⟨rfl, by decide, State.intact_lone, rfl, rfl⟩

theorem Reached.of_start (h : Catalog.Start s) : Reached s := ⟨s, h, .refl⟩

theorem Reached.settled (h : Reached s) : s.Settled := by
  obtain ⟨s₀, hs₀, hruns⟩ := h
  refine hruns.settled ⟨hs₀.coherent, ?_, ?_⟩
  · rw [hs₀.session]
  · simp [State.tables, hs₀.session]

end Service

end Curation
