import Curation.Http.Start
import Curation.Proofs.Decoding
import Curation.Proofs.Grounding

/-! Requests about single collections, one after another, beside the calls of the service that they ask for. The
    application leaves behind whatever the service alone would, and the status of an answer tells how the call ended. -/

namespace Curation

open Act (Ends ends_bind ends_pure)

/-- The status for a failure: one of the domain has a status of its own. -/
def Failure.status (e : Failure) : Nat := if e.isDomain then e.httpStatus else 500

namespace Call

/-- Makes a call; what it gives is of no interest here. -/
def run : Call → Act Unit
  | get actor id => do let _ ← Service.get actor id
  | change o => o.run

/-- The status for a call that returns. -/
def success : Call → Nat
  | get .. | change (.create ..) => 200
  | _ => 204

/-- A call in a session of its own: the status for the way it ends, and what it leaves once the cleanups have run. -/
def carriedOut (c : Call) (s : State) : Nat × State :=
  match c.run s with
  | (.ok _, t) => (c.success, Icon.runCleanups t.closed)
  | (.error e, t) => (e.status, Icon.runCleanups t.closed)

/-- What there is to be answered: a call, or that a request asks for none. -/
def answered (c : Option Call) (s : State) : Nat × State := c.elim (400, s) (·.carriedOut s)

end Call

/-! ### Between two sessions -/

namespace State

variable {s t : State}

/-- What may happen between two requests: the clock goes on, the cache loses entries, the database and the blobs come
    and go, and so do projects with the memberships that they have. -/
structure Meanwhile (s t : State) : Prop where
  session : t.session = s.session
  rows : t.db.committed.collections = s.db.committed.collections
  cache : s.cache.Sheds t.cache

/-- No session is open, and every entry of the cache is of a collection that is there. -/
structure Rests (s : State) : Prop extends s.Grounded where
  closed : s.session = {}

theorem Rests.of_closed (hsession : s.session = {}) (plain : s.db.committed.Plain)
    (entries : ∀ id e, s.cache.entries.get? id = some e → e.value.id = id ∧ s.db.committed.Backs e.value) :
    s.Rests where
  unstuck := by rw [hsession]
  nothing := by rw [hsession]
  seen := by simp [State.tables, hsession]
  plain := plain
  entries := entries
  closed := hsession

theorem Rests.meanwhile (h : s.Rests) (hst : s.Meanwhile t) : t.Rests := by
  refine .of_closed (hst.session.trans h.closed) ⟨?_, ?_⟩ fun id e he => ?_
  · rw [Tables.Distinct, hst.rows]
    exact h.plain.distinct
  · rw [hst.rows]
    exact h.plain.painted
  · obtain ⟨hid, hrow, hpainted⟩ := h.entries id e (hst.cache.entries id e he)
    refine ⟨hid, ?_, hpainted⟩
    rw [Tables.row?, hst.rows]
    exact hrow

theorem Grounded.rests (h : s.Grounded) : (Icon.runCleanups s.closed).Rests := by
  rw [Icon.runCleanups_eq]
  exact .of_closed rfl h.plain h.entries

/-- A rollback before the session is closed makes no difference where nothing waits. -/
theorem Grounded.closed_rolledBack (h : s.Grounded) : s.rolledBack.closed = s.closed := by
  unfold State.rolledBack
  split
  · simp [State.flush, State.closed, h.nothing, Pending.apply]
  · rfl

end State

/-! ### Calls -/

namespace Call

variable {s : State} {α : Type}

theorem run_grounded (h : s.Grounded) (c : Call) :
    Ends c.run s (fun _ t => t.Grounded) fun _ t => t.Grounded ∧ t.db.committed = s.db.committed := by
  cases c with
  | get actor id =>
    simp only [run, ends_bind, ends_pure]
    exact (Service.get_grounded h).mono (fun _ _ ht => ht.1) fun _ _ ht => ht
  | change o => exact o.run_grounded h

/-- After a call that fails everything is committed as before. -/
theorem answered_spec (h : s.Rests) (c : Option Call) : (answered c s).2.Rests ∧
    (400 ≤ (answered c s).1 → (answered c s).2.db.committed = s.db.committed) := by
  cases c with
  | none => exact ⟨h, fun _ => rfl⟩
  | some c =>
    have hends := c.run_grounded h.toGrounded
    show (c.carriedOut s).2.Rests ∧ (400 ≤ (c.carriedOut s).1 → (c.carriedOut s).2.db.committed = _)
    unfold carriedOut
    rcases hrun : c.run s with ⟨e | x, t⟩
    · obtain ⟨ht, hcommitted⟩ := hends.of_error hrun
      refine ⟨ht.rests, fun _ => ?_⟩
      show (Icon.runCleanups t.closed).db.committed = _
      rw [Icon.runCleanups_eq]
      exact hcommitted
    · refine ⟨(hends.of_ok hrun).rests, fun hstatus => ?_⟩
      have hsuccess : c.success < 400 := by
        unfold success
        split <;> decide
      exact absurd hstatus (Nat.not_le.mpr hsuccess)

/-- A call is the operation that it makes, without what that gives. -/
theorem run_discarded {c : Call} {a : Act α} (h : c.run = a >>= fun _ => pure ()) (s : State) :
    c.run s = ((a s).1.map fun _ => (), (a s).2) := by
  rw [h]
  change ExceptT.bind a _ s = _
  simp only [ExceptT.bind, ExceptT.mk, bind, StateT.bind]
  rcases a s with ⟨_ | x, t⟩ <;> rfl

end Call

namespace Http

variable {app : App} {r : Request} {x : Nat × State}

def statusOf : Except Failure Answer → Nat
  | .ok a => a.status
  | .error e => e.status

/-- A collection without a colour, or with a number for it, can be shown. -/
theorem collectionAnswer_ok {c : Collection} (h : Painted c.color) :
    ∃ a, App.collectionAnswer c = .ok a ∧ a.status = 200 := by
  unfold App.collectionAnswer Request.ofCollection
  cases hcolor : c.color with
  | none => exact ⟨_, rfl, rfl⟩
  | some cell =>
    obtain ⟨n, rfl⟩ := h cell hcolor
    exact ⟨_, rfl, rfl⟩

namespace App

/-- What the application comes to: the status and the state, and that it goes on as before. -/
structure Yields (app : App) (out : Except Failure Answer × App) (x : Nat × State) : Prop where
  status : statusOf out.1 = x.1
  state : out.2.state = x.2
  settings : out.2.settings = app.settings
  available : out.2.unavailable = app.unavailable

/-! ### The parts of a request -/

/-- An operation in a session, and the call that is the same but for what is answered. -/
theorem yields_serve {α : Type} {a : Act α} {c : Call} {answer : α → Except Failure Answer}
    (hs : app.state.Grounded) (hrun : c.run = a >>= fun _ => pure ())
    (ha : Ends a app.state (fun x _ => ∃ b, answer x = .ok b ∧ b.status = c.success) fun _ _ => True) :
    app.Yields (app.serve a answer) (c.carriedOut app.state) := by
  have hends := c.run_grounded hs
  have hcall := Call.run_discarded hrun app.state
  unfold serve runSession Call.carriedOut
  rcases heq : a app.state with ⟨e | y, t⟩
  · rw [heq] at hcall
    rw [hcall]
    have ht : t.Grounded := (hends.of_error hcall).1
    refine ⟨rfl, ?_, rfl, rfl⟩
    -- the session of the request rolls back once more, the one of the call does not
    show Icon.runCleanups t.rolledBack.closed = Icon.runCleanups t.closed
    rw [ht.closed_rolledBack]
  · rw [heq] at hcall
    rw [hcall]
    obtain ⟨b, hb, hstatus⟩ := ha.of_ok heq
    refine ⟨?_, rfl, rfl, rfl⟩
    show statusOf (answer y) = c.success
    rw [hb]
    exact hstatus

theorem yields_done {α : Type} {a : Act α} {c : Call} (hs : app.state.Grounded)
    (hrun : c.run = a >>= fun _ => pure ()) (hc : c.success = 204) :
    app.Yields (app.serve a fun _ => .ok .done) (c.carriedOut app.state) :=
  yields_serve hs hrun <| Act.ends_iff.mpr ⟨fun _ _ _ => ⟨_, rfl, hc.symm⟩, fun _ _ _ => trivial⟩

theorem yields_refused {a : Answer} (h : a.status = 400) : app.Yields (.ok a, app) (400, app.state) :=
  ⟨h, rfl, rfl, rfl⟩

theorem withService_eq {run : App → Except Failure Answer × App} (hav : app.unavailable = none) :
    app.withService run = run { app with prepared := true } := by
  unfold withService
  split
  · rename_i e he
    rw [hav] at he
    cases he
  · rfl

/-- That the service has been set up makes no difference. -/
theorem Yields.prepared {out : Except Failure Answer × App} (h : { app with prepared := true }.Yields out x) :
    app.Yields out x := ⟨h.status, h.state, h.settings, h.available⟩

theorem yields_withReading {α : Type} {reading : Schema.Reading α} {run : α → Except Failure Answer × App}
    {call : α → Call} (h : ∀ a, app.Yields (run a) ((call a).carriedOut app.state)) :
    app.Yields (app.withReading reading run) (Call.answered (reading.value?.map call) app.state) := by
  cases reading with
  | value a => exact h a
  | mismatches ms => exact yields_refused rfl

theorem yields_withBody {α : Type} {read : Keyed Json.Value → Schema.Reading α} {form : Keyed Json.Value → Option α}
    {run : App → α → Except Failure Answer × App} {call : α → Call} (hav : app.unavailable = none)
    (hform : ∀ fields, (read fields).value? = form fields)
    (h : ∀ a, { app with prepared := true }.Yields (run { app with prepared := true } a)
      ((call a).carriedOut app.state)) :
    app.Yields (app.withBody r read run) (Call.answered ((r.fields?.bind form).map call) app.state) := by
  have hread : ∀ body : Body, app.Yields (app.withService fun app => app.withReading (body.read read) (run app))
      (Call.answered ((body.read read).value?.map call) app.state) := fun body => by
    rw [withService_eq hav]
    exact (yields_withReading h).prepared
  unfold withBody
  -- a record, bytes that are not even read as a value, or a value that is no record, which every reading rejects
  rcases r.readBody_cases with ⟨fields, hfields, hbody⟩ | ⟨hfields, ⟨a, hbody, ha⟩ | ⟨body, hbody, hnone⟩⟩
  · rw [hbody, hfields, Option.bind_some, ← hform]
    exact hread (.value (.record fields))
  · rw [hbody, hfields]
    exact yields_refused ha
  · have hread := hread body
    rw [hnone read] at hread
    rw [hbody, hfields]
    exact hread

theorem value?_queryText (r : Request) (name : String) :
    (queryText r name).value? = Text.queryValue? r.query name := by
  unfold queryText
  cases Text.queryValue? r.query name <;> rfl

end App

/-! ### Whole requests -/

/-- The endpoint is one for single collections. -/
def Endpoint.calls : Endpoint → Bool
  | .create | .get _ | .edit _ | .setIcon _ | .clearIcon _ | .delete _ => true
  | _ => false

namespace App

/-- The service can be had, and nobody is at it. -/
structure Waits (app : App) : Prop where
  state : app.state.Rests
  available : app.unavailable = none

/-- At an endpoint for single collections a request comes to what it calls for. -/
theorem perform_yields (h : app.Waits) {e : Endpoint} (he : e.calls = true) :
    app.Yields (app.perform r e) (Call.answered (r.call? e) app.state) := by
  have hs : { app with prepared := true }.state.Grounded := h.state.toGrounded
  have hav := h.available
  cases e with
  | create =>
    refine yields_withBody hav value?_creation fun c => yields_serve hs ?_ ?_
    · rfl
    · exact Service.create_painted.mono (fun _ _ => collectionAnswer_ok) fun _ _ _ => trivial
  | get id =>
    rw [perform, withService_eq hav]
    refine (yields_serve (c := .get r.actor id) hs ?_ ?_).prepared
    · rfl
    · exact (Service.get_grounded hs).mono (fun _ _ ht => collectionAnswer_ok ht.2) fun _ _ _ => trivial
  | edit id =>
    refine yields_withBody hav value?_edit fun e => yields_done hs ?_ ?_
    · exact bind_pure_unit.symm
    · rfl
  | setIcon id =>
    rw [perform, withService_eq hav, Request.call?, ← value?_queryText]
    refine (yields_withReading fun extension => yields_done hs ?_ ?_).prepared
    · rfl
    · rfl
  | clearIcon id =>
    rw [perform, withService_eq hav]
    refine (yields_done (c := .change (.clearIcon r.actor id)) hs ?_ ?_).prepared
    · exact bind_pure_unit.symm
    · rfl
  | delete id =>
    rw [perform, withService_eq hav]
    refine (yields_done (c := .change (.delete r.actor id)) hs ?_ ?_).prepared
    · exact bind_pure_unit.symm
    · rfl
  | _ => cases he

theorem serve_waits {α : Type} {a : Act α} {answer : α → Except Failure Answer} (hav : app.unavailable = none)
    (ha : Ends a app.state (fun _ t => t.Grounded) fun _ t => t.Grounded) : (app.serve a answer).2.Waits := by
  unfold serve runSession
  rcases heq : a app.state with ⟨e | y, t⟩
  · refine ⟨?_, hav⟩
    show (Icon.runCleanups t.rolledBack.closed).Rests
    have ht := ha.of_error heq
    rw [ht.closed_rolledBack]
    exact ht.rests
  · exact ⟨(ha.of_ok heq).rests, hav⟩

/-- Whatever a request asks for, nobody is at the service after it. -/
theorem perform_waits (h : app.Waits) (e : Endpoint) : (app.perform r e).2.Waits := by
  have hav := h.available
  by_cases he : e.calls = true
  · -- what the call leaves is at rest
    have hyields := perform_yields (r := r) h he
    exact ⟨hyields.state ▸ (Call.answered_spec h.state _).1, hyields.available.trans hav⟩
  · cases e with
    | list =>
      rw [perform, withService_eq hav]
      cases queryText r "ids" with
      | mismatches ms => exact ⟨h.state, hav⟩
      | value raw =>
        refine serve_waits hav ?_
        rw [ends_bind]
        refine Catalog.check_ends (fun ids _ => ?_) fun _ _ => h.state.toGrounded
        exact (Query.list r.actor ids).run_grounded h.state.toGrounded
    | create | get | edit | setIcon | clearIcon | delete => exact absurd rfl he
    | _ => exact h

theorem Waits.logged (h : app.Waits) (log : Log.Context) : { app with log }.Waits := ⟨h.state, h.available⟩

/-- On its way to the client an answer keeps its status, and a failure gets the one that it has. -/
theorem handle_yields (h : app.Waits) {e : Endpoint}
    (hr : destination (routes app.settings) r.method r.path = .endpoint e) (he : e.calls = true) :
    app.Yields (.ok (app.handle r).1.answer, (app.handle r).2) (Call.answered (r.call? e) app.state) := by
  have hyields := perform_yields (r := r)
    (h.logged (app.log.next.2.bind ((r.header? correlationHeader).getD app.log.next.1))) he
  unfold handle respond
  simp only [hr]
  rcases hperform : perform _ r e with ⟨f | a, app'⟩
  -- failures of the domain and all others have handlers of their own
  · rw [hperform] at hyields
    have hstatus : f.status = _ := hyields.status
    unfold Failure.status at hstatus
    dsimp only
    split at hstatus
    · rename_i hdomain
      rw [if_pos hdomain]
      exact ⟨hstatus, hyields.state, hyields.settings, hyields.available⟩
    · rename_i hdomain
      rw [if_neg hdomain]
      exact ⟨hstatus, hyields.state, hyields.settings, hyields.available⟩
  · rw [hperform] at hyields
    exact ⟨hyields.status, hyields.state, hyields.settings, hyields.available⟩

theorem handle_waits (h : app.Waits) (r : Request) : (app.handle r).2.Waits := by
  have h := h.logged (app.log.next.2.bind ((r.header? correlationHeader).getD app.log.next.1))
  have hrespond : ∀ app : App, app.Waits → (app.respond r).2.Waits := by
    intro app h
    unfold respond
    split
    · exact h
    · exact h
    · exact h
    · rename_i e _
      have hperform : (app.perform r e).2.Waits := perform_waits h e
      split
      · rename_i heq
        rw [heq] at hperform
        exact hperform
      · rename_i heq
        rw [heq] at hperform
        split <;> exact hperform
  have h := hrespond _ h
  unfold handle
  dsimp only
  split
  · exact h.logged _
  · exact h.logged _

/-! ### One request after another -/

/-- An application that can be come to from an empty cache and rows such as the program writes, whatever requests it got
    and whatever happened in between. -/
inductive Reached : App → Prop
  | start {app : App} (closed : app.state.session = {}) (empty : app.state.cache.entries = [])
    (plain : app.state.db.committed.Plain) (available : app.unavailable = none) : Reached app
  | handled {app : App} (h : Reached app) (r : Request) : Reached (app.handle r).2
  | meanwhile {app : App} {state : State} (h : Reached app) (hs : app.state.Meanwhile state) :
    Reached { app with state }

/-- An application that has just been started on such rows, if it can come to its database. -/
theorem Reached.of_start {o : StartOptions} {i : Installation} (h : App.start o i = .ok app)
    (plain : app.state.db.committed.Plain) (available : app.unavailable = none) : app.Reached := by
  obtain ⟨_, -, h⟩ := bind_eq_ok.mp h
  split at h
  · cases h
  · cases h
    exact .start rfl rfl plain available

theorem Reached.waits (h : Reached app) : app.Waits := by
  induction h with
  | start closed empty plain available =>
    refine ⟨.of_closed closed plain fun id e he => ?_, available⟩
    rw [empty] at he
    cases he
  | handled _ r ih => exact handle_waits ih r
  | meanwhile _ hs ih => exact ⟨ih.state.meanwhile hs, ih.available⟩

end App

/-- A request, and what happens between the last one and it. -/
structure Turn where
  before : State → State
  request : Request

namespace Turn

/-- The call that a request is for. -/
def call? (settings : Settings) (t : Turn) : Option Call :=
  match destination (routes settings) t.request.method t.request.path with
  | .endpoint e => t.request.call? e
  | _ => none

/-- The request goes to an endpoint for single collections. -/
structure Fits (settings : Settings) (t : Turn) : Prop where
  meanwhile : ∀ s : State, s.Meanwhile (t.before s)
  endpoint : ∃ e : Endpoint,
    destination (routes settings) t.request.method t.request.path = .endpoint e ∧ e.calls = true

end Turn

/-- The state that a request finds, the status of its answer, and the state that it leaves. -/
structure Exchange where
  found : State
  status : Nat
  left : State

/-- The application as the request of a turn finds it. -/
def App.before (app : App) (t : Turn) : App := { app with state := t.before app.state }

def App.exchange (app : App) (t : Turn) : Exchange × App :=
  let (o, left) := (app.before t).handle t.request
  (⟨t.before app.state, o.answer.status, left.state⟩, left)

/-- A turn of the service alone: no application, only the call, which has a session of its own. -/
def Turn.exchange (settings : Settings) (s : State) (t : Turn) : Exchange :=
  let (status, left) := Call.answered (t.call? settings) (t.before s)
  ⟨t.before s, status, left⟩

def App.exchanges (app : App) : List Turn → List Exchange
  | [] => []
  | t :: ts => (app.exchange t).1 :: (app.exchange t).2.exchanges ts

def Turn.exchanges (settings : Settings) (s : State) : List Turn → List Exchange
  | [] => []
  | t :: ts => t.exchange settings s :: exchanges settings (t.exchange settings s).left ts

namespace App

variable {t : Turn}

theorem Waits.before (h : app.Waits) (ht : t.Fits app.settings) : (app.before t).Waits :=
  ⟨h.state.meanwhile (ht.meanwhile _), h.available⟩

theorem exchange_spec (h : app.Waits) (ht : t.Fits app.settings) :
    (app.exchange t).1 = t.exchange app.settings app.state ∧ (app.exchange t).2.Waits ∧
      (app.exchange t).2.settings = app.settings := by
  obtain ⟨e, hr, he⟩ := ht.endpoint
  have hyields := handle_yields (h.before ht) hr he
  have hcall : t.call? app.settings = t.request.call? e := by
    unfold Turn.call?
    rw [hr]
  refine ⟨?_, handle_waits (h.before ht) t.request, hyields.settings⟩
  show Exchange.mk _ _ _ = Exchange.mk _ _ _
  rw [hcall]
  exact congrArg₂ (Exchange.mk _) hyields.status hyields.state

theorem committed_exchange (h : app.Waits) (ht : t.Fits app.settings)
    (hstatus : 400 ≤ (t.exchange app.settings app.state).status) :
    (t.exchange app.settings app.state).left.db.committed = (t.exchange app.settings app.state).found.db.committed :=
  (Call.answered_spec (h.before ht).state _).2 hstatus

end App

end Http

end Curation
