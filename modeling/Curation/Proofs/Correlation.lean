import Curation.Http.App
import Curation.Proofs.Loading

/-! Correlation ids. While a request is handled the log is bound to one id, which every entry carries that is written
    then; the answer takes the same id back to the client. An answer is marked with it last of all, on the way out of
    the part of the application that expects failures, so that the answer to an unexpected failure, which does not come
    that way, is not. -/

namespace Curation

open Json (Value)

namespace Keyed

theorem get?_put_of_ne {α : Type} {m : Keyed α} {key key' : String} {v : α} (h : key ≠ key') :
    (m.put key v).get? key' = m.get? key' := by rw [get?_put, if_neg h]

theorem get?_drop_of_ne {α : Type} {m : Keyed α} {key key' : String} (h : key ≠ key') :
    (m.drop key).get? key' = m.get? key' := by rw [get?_drop, if_neg h]

/-- Values that are put under other keys change nothing about the value under a key. -/
theorem get?_foldl_put {α : Type} {given m : Keyed α} {key : String} (h : key ∉ given.keys) :
    (given.foldl (fun (m : Keyed α) (k, v) => m.put k v) m).get? key = m.get? key := by
  induction given generalizing m with
  | nil => rfl
  | cons e given ih =>
    obtain ⟨hne, hrest⟩ := not_or.mp (mt List.mem_cons.mpr h)
    rw [List.foldl_cons, ih hrest]
    exact get?_put_of_ne (Ne.symm hne)

end Keyed

/-! ### The entries of the log -/

namespace Log

theorem get?_renameEvent {fields : Keyed Value} {key : String} (hevent : "event" ≠ key) (hmessage : "message" ≠ key) :
    (renameEvent fields).get? key = fields.get? key := by
  unfold renameEvent
  split
  · rw [Keyed.get?_put_of_ne hmessage, Keyed.get?_drop_of_ne hevent]
  · rfl

/-- An entry that is written while an id is bound carries that id, unless another one is given for it. -/
theorem get?_entry {c : Context} {id : String} (hbound : c.bound = some id) {given : Keyed Value}
    (hgiven : "correlation_id" ∉ given.keys) (now : Time.Instant) (l : Level) (event : Value) :
    (entry c now l event given).1.get? "correlation_id" = some (.text id) := by
  -- every field of an entry is put under a name of its own, on top of what the context holds
  have hlast : ∀ fields : Keyed Value, fields.get? "correlation_id" = some (.text id) →
      (renameEvent (addCorrelationId c fields).1).get? "correlation_id" = some (.text id) := fun fields h => by
    have hkept : (addCorrelationId c fields).1 = fields := by
      unfold addCorrelationId
      rw [h]
    rw [get?_renameEvent (by decide) (by decide), hkept, h]
  refine hlast _ ?_
  rw [Keyed.get?_drop_of_ne (by decide), Keyed.get?_drop_of_ne (by decide), Keyed.get?_put_of_ne (by decide), addName,
    Keyed.get?_put_of_ne (by decide), Keyed.get?_put_of_ne (by decide), Keyed.get?_foldl_put, hbound]
  · rfl
  · split
    · exact hgiven
    · rw [← Keyed.get?_eq_none_iff] at hgiven ⊢
      rw [Keyed.get?_put_of_ne (by decide), hgiven]

end Log

namespace Http

/-- The ids that an answer takes back to the client. -/
def Answer.correlations (a : Answer) : List String :=
  (a.headers.filter fun h => h.1 = App.correlationHeader).map (·.2)

/-! ### Answers before they are marked -/

namespace Answer

theorem correlations_ofValue (status : Nat) (v : Value) : (ofValue status v).correlations = [] := by
  simp [ofValue, correlations, App.correlationHeader]

theorem correlations_ofMismatches (ms : List Schema.Mismatch) : (ofMismatches ms).correlations = [] :=
  correlations_ofValue _ _

theorem correlations_ofFailure (debug : Bool) (e : Failure) : (ofFailure debug e).correlations = [] :=
  correlations_ofValue _ _

theorem correlations_unexpected (debug : Bool) (e : Failure) : (unexpected debug e).correlations = [] :=
  correlations_ofValue _ _

theorem correlations_wrongMethod (allowed : List String) : (wrongMethod allowed).correlations = [] := by
  simp [wrongMethod, detail, ofValue, correlations, App.correlationHeader]

end Answer

namespace App

variable {app : App} {r : Request}

theorem correlations_redirection (r : Request) (path : String) : (redirection r path).correlations = [] := by
  simp [redirection, Answer.correlations, correlationHeader]

/-- What a part of the application comes to: it goes on with the same settings and the same log, and its answer, if
    there is one, is not marked yet. -/
structure Unmarked (app : App) (out : Except Failure Answer × App) : Prop where
  log : out.2.log = app.log
  settings : out.2.settings = app.settings
  answer : ∀ a, out.1 = .ok a → a.correlations = []

theorem unmarked_answer {a : Answer} (h : a.correlations = []) : app.Unmarked (.ok a, app) where
  log := rfl
  settings := rfl
  answer a' ha := by
    cases ha
    exact h

theorem unmarked_promised {reading : Schema.Reading Value} {a : Answer} (h : promised reading = .ok a) :
    a.correlations = [] := by
  cases reading with
  | value v =>
    cases h
    exact Answer.correlations_ofValue _ _
  | mismatches => cases h

theorem unmarked_serve {α : Type} {a : Act α} {answer : α → Except Failure Answer}
    (h : ∀ x b, answer x = .ok b → b.correlations = []) : app.Unmarked (app.serve a answer) where
  log := rfl
  settings := rfl
  answer b hb := by
    obtain ⟨x, -, hx⟩ := bind_eq_ok.mp hb
    exact h x b hx

theorem unmarked_done {α : Type} {a : Act α} : app.Unmarked (app.serve a fun _ => .ok .done) :=
  unmarked_serve fun _ b hb => by
    cases hb
    rfl

theorem unmarked_withService {run : App → Except Failure Answer × App} (h : ∀ app : App, app.Unmarked (run app)) :
    app.Unmarked (app.withService run) := by
  unfold withService
  split
  · exact ⟨rfl, rfl, fun _ ha => nomatch ha⟩
  · have hrun := h { app with prepared := true }
    exact ⟨hrun.log, hrun.settings, hrun.answer⟩

theorem unmarked_withReading {α : Type} {reading : Schema.Reading α} {run : α → Except Failure Answer × App}
    (h : ∀ x, app.Unmarked (run x)) : app.Unmarked (app.withReading reading run) := by
  cases reading with
  | value x => exact h x
  | mismatches ms => exact unmarked_answer (Answer.correlations_ofMismatches ms)

theorem unmarked_readBody {a : Answer} (h : readBody r = .error a) : a.correlations = [] := by
  unfold readBody at h
  repeat' split at h
  all_goals cases h
  all_goals exact Answer.correlations_ofValue _ _

theorem unmarked_withBody {α : Type} {read : Keyed Value → Schema.Reading α}
    {run : App → α → Except Failure Answer × App} (h : ∀ (app : App) x, app.Unmarked (run app x)) :
    app.Unmarked (app.withBody r read run) := by
  unfold withBody
  split
  · rename_i a ha
    exact unmarked_answer (unmarked_readBody ha)
  · exact unmarked_withService fun app => unmarked_withReading (h app)

/-- Whatever a request asks for. -/
theorem unmarked_perform (e : Endpoint) : app.Unmarked (app.perform r e) := by
  cases e with
  | openApi | docs | docsReturn | redoc =>
    exact unmarked_answer (by simp [Answer.correlations, htmlPage, correlationHeader])
  | health | root => exact unmarked_answer (Answer.correlations_ofValue _ _)
  | ready =>
    refine unmarked_answer ?_
    cases app.connected with
    | true => exact Answer.correlations_ofValue 200 _
    | false => exact Answer.correlations_ofValue 503 _
  | list =>
    rw [perform]
    refine unmarked_withService fun app => unmarked_withReading fun ids => unmarked_serve fun cs b => ?_
    exact unmarked_promised
  | create =>
    rw [perform]
    exact unmarked_withBody fun app c => unmarked_serve fun c b => unmarked_promised
  | get id =>
    rw [perform]
    exact unmarked_withService fun app => unmarked_serve fun c b => unmarked_promised
  | edit id =>
    rw [perform]
    exact unmarked_withBody fun app e => unmarked_done
  | setIcon id =>
    rw [perform]
    exact unmarked_withService fun app => unmarked_withReading fun extension => unmarked_done
  | clearIcon id | delete id =>
    rw [perform]
    exact unmarked_withService fun app => unmarked_done

/-! ### Requests -/

/-- The application does not expect how a request ends: it goes to an endpoint, and what it asks for there fails with a
    failure that is not of the domain. -/
def Breaks (app : App) (r : Request) (e : Failure) : Prop :=
  e.isDomain = false ∧
    ∃ endpoint, destination (routes app.settings) r.method r.path = .endpoint endpoint ∧
      (app.perform r endpoint).1 = .error e

theorem unmarked_respond : app.Unmarked (app.respond r) := by
  unfold respond
  split
  · exact unmarked_answer (Answer.correlations_ofValue _ _)
  · exact unmarked_answer (Answer.correlations_wrongMethod _)
  · exact unmarked_answer (correlations_redirection _ _)
  · rename_i endpoint _
    have hperform : app.Unmarked (app.perform r endpoint) := unmarked_perform endpoint
    split
    · rename_i a app' heq
      rw [heq] at hperform
      exact hperform
    · rename_i e app' heq
      rw [heq] at hperform
      split
      · exact ⟨hperform.log, hperform.settings, fun a ha => by
          cases ha
          exact Answer.correlations_ofFailure _ _⟩
      · exact ⟨hperform.log, hperform.settings, fun _ ha => nomatch ha⟩

theorem respond_eq_error {e : Failure} : (app.respond r).1 = .error e ↔ app.Breaks r e := by
  unfold respond Breaks
  rcases destination (routes app.settings) r.method r.path with endpoint | _ | _ | _
  · simp only [Destination.endpoint.injEq, exists_eq_left']
    rcases app.perform r endpoint with ⟨e' | a, app'⟩
    · simp only [Except.error.injEq]
      cases hdomain : e'.isDomain with
      | true =>
        simp only [if_true, reduceCtorEq, false_iff]
        rintro ⟨he, rfl⟩
        rw [hdomain] at he
        cases he
      | false =>
        simp only [Bool.false_eq_true, if_false, Except.error.injEq]
        exact ⟨fun h => ⟨h ▸ hdomain, h⟩, fun h => h.2⟩
    · simp
  · simp
  · simp
  · simp

/-- The correlation id of a request: the one that the client sends, or else the next one that is generated. -/
def correlationOf (app : App) (r : Request) : String :=
  (r.header? correlationHeader).getD (Log.correlationId (app.log.generated + 1))

/-- The application while it handles a request. -/
def handling (app : App) (r : Request) : App := { app with log := app.log.next.2.bind (app.correlationOf r) }

/-- An answer goes back with the correlation id of its request. -/
theorem handle_of_ok {a : Answer} {app' : App} (h : (app.handling r).respond r = (.ok a, app')) :
    app.handle r = ({ answer := { a with headers := a.headers ++ [(correlationHeader, app.correlationOf r)] } },
      { app' with log := app'.log.clear }) := by
  unfold handling correlationOf at h
  simp only [Log.Context.next] at h
  simp only [handle, Log.Context.next, h]
  rfl

theorem handle_of_error {e : Failure} {app' : App} (h : (app.handling r).respond r = (.error e, app')) :
    app.handle r = ({ answer := .unexpected app'.settings.debug e, raised := some e },
      { app' with log := app'.log.clear }) := by
  unfold handling correlationOf at h
  simp only [Log.Context.next] at h
  simp only [handle, Log.Context.next, h]

end App

end Http

end Curation
