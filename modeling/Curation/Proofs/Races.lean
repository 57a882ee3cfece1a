import Curation.Proofs.Authority

/-! Edits that race for a collection. Each one reads the collection and checks what is asked for, and writes later in a
    transaction of its own, while others write in between. What was checked is not looked at again: the status that an
    edit sets was allowed from the status that the edit has read, which need not be the one that it replaces. -/

namespace Curation

open Act (Ends ends_bind ends_pure ends_iff)
open Catalog (check check_ends)

/-! ### An edit in its two parts -/

namespace Operation

variable {s t : State}

/-- The edit is allowed on a collection, whose status it is to change if it brings one, and its work has been made. -/
structure Checks (a : Actor) (e : Service.Edit) (c : Collection) (status : Option Status) (j : Transaction) : Prop where
  scope : a.hasScope .write = true
  maintains : Gate.maintains c a = true
  read : e.status.mapM Catalog.parseStatus = .ok status
  allowed : ∀ st, status = some st → Gate.mayChangeStatus a c.status st = true
  work : j = .edit c.id (e.title.map Text.strip) e.description status (e.projects.map distinct)

/-- An edit that comes to its transaction, in whatever state, was checked on the collection that it has read, be it in
    the cache or in the database. -/
theorem prepare_edit_ok {actor : Option Actor} {id : String} {e : Service.Edit} {j : Transaction}
    (h : (edit actor id e).prepare s = (.ok j, t)) :
    ∃ a c status, actor = some a ∧ (Catalog.fetch id s).1 = .ok (some c) ∧ Checks a e c status j := by
  have hprepared : (edit actor id e).Prepared s j t := (prepare_prepared _).of_ok h
  cases hprepared with
  | @edit a _ _ status c u _ scope _ read fetched allowed =>
    have hends : Ends (Service.fetchMaintained a id) s
        (fun c _ => (Catalog.fetch id s).1 = .ok (some c) ∧ Gate.maintains c a = true) fun _ _ => True := by
      unfold Service.fetchMaintained
      rw [ends_bind, ends_iff]
      refine ⟨fun found v hfound => ?_, fun _ _ _ => trivial⟩
      refine check_ends (fun c hc => ?_) fun _ _ => trivial
      obtain ⟨rfl, hmaintains⟩ := maintained_eq_ok hc
      exact ⟨by rw [hfound], hmaintains⟩
    obtain ⟨hfetch, hmaintains⟩ := hends.of_ok fetched
    exact ⟨a, c, status, rfl, hfetch, scope, hmaintains, read, allowed, rfl⟩

/-- The transaction of an edit, whatever has been committed meanwhile, commits all of the edit or nothing. -/
theorem edit_commits {id : String} {title description : Option String} {status : Option Status}
    {projects : Option (List String)} {x : Except Failure Bool} (hsession : s.session = {})
    (h : Act.atomically (Transaction.edit id title description status (projects.map distinct)).work s = (x, t)) :
    t.db.committed = s.db.committed ∨
      t.db.committed = s.db.committed.edited s.now id title description status projects := by
  have htables : s.tables = s.db.committed := by simp [State.tables, hsession]
  have hwork : Ends (Transaction.edit id title description status (projects.map distinct)).work s
      (fun _ u => s.Within u ∧ u.tables = s.db.committed.edited s.now id title description status projects)
      fun _ u => s.Within u := by
    refine edit_work_ends.mono (fun _ u hu => ?_) fun _ u hu => hu.toWithin
    obtain ⟨-, hwithin, -, hu, -⟩ := hu
    exact ⟨hwithin, htables ▸ hu⟩
  have hends := Act.atomically_commits
    (fun _ v => v = s.db.committed.edited s.now id title description status projects) hwork
  cases x with
  | ok found => exact Or.inr (hends.of_ok h).2
  | error e => exact Or.inl (hends.of_error h).2

end Operation

/-- Between transactions a fetch gives the collection that is committed. -/
theorem State.Settled.held?_of_fetch {s : State} (h : s.Settled) {id : String} {c : Collection}
    (hc : (Catalog.fetch id s).1 = .ok (some c)) : s.db.committed.held? id = some c := by
  have hends : Ends (Catalog.fetch id) s (fun found _ => found = s.tables.held? id) fun _ _ => True :=
    Catalog.fetch_ends h.view.rows h.fit (fun _ _ => rfl) fun _ _ _ _ => trivial
  rcases hends.result with ⟨found, t, hfetch, hfound⟩ | ⟨e, t, hfetch, -⟩
  · rw [hfetch] at hc
    cases hc
    rw [← h.seen, hfound]
  · rw [hfetch] at hc
    cases hc

/-! ### Edits side by side -/

namespace Editing

/-- An edit that has been checked and is yet to be written. -/
structure Request where
  actor : Actor
  id : String
  edit : Service.Edit
  /-- The state that the edit was read and checked in. -/
  origin : State
  transaction : Transaction

/-- What is committed, and the edits that are yet to be written. -/
structure System where
  committed : Tables
  waiting : List Request := []

/-- A request with a session of its own reads what is committed, or what its cache holds of it, and passes all
    checks. -/
structure Check (σ : System) (r : Request) : Prop where
  committed : r.origin.db.committed = σ.committed
  session : r.origin.session = {}
  passed : ∃ t, (Operation.edit (some r.actor) r.id r.edit).prepare r.origin = (.ok r.transaction, t)

/-- One of the requests carries out its transaction on what is committed by then, with whatever outcome. -/
structure Write (σ : System) (r : Request) (σ' : System) : Prop where
  waiting : ∃ before after, σ.waiting = before ++ r :: after ∧ σ'.waiting = before ++ after
  done : ∃ s x t, s.db.committed = σ.committed ∧ s.session = {} ∧ Act.atomically r.transaction.work s = (x, t) ∧
    σ'.committed = t.db.committed

inductive Step : System → System → Prop
  | check {σ r} (h : Check σ r) : Step σ { σ with waiting := σ.waiting ++ [r] }
  | write {σ r σ'} (h : Write σ r σ') : Step σ σ'
  /-- Something else is committed. -/
  | other {σ} (committed : Tables) : Step σ { σ with committed }

/-- What can come of steps in any order, when no request was waiting at first. -/
inductive Reached : System → Prop
  | start (committed : Tables) : Reached { committed }
  | step {σ σ' : System} (hσ : Reached σ) (h : Step σ σ') : Reached σ'

/-- What is known of a request as long as it waits. -/
def Request.Checked (r : Request) : Prop :=
  ∃ c status, (Catalog.fetch r.id r.origin).1 = .ok (some c) ∧
    Operation.Checks r.actor r.edit c status r.transaction

variable {σ σ' : System} {r : Request} {id : String} {row row' : Row}

theorem Check.checked (h : Check σ r) : r.Checked := by
  obtain ⟨t, ht⟩ := h.passed
  obtain ⟨a, c, status, ha, hfetch, hchecks⟩ := Operation.prepare_edit_ok ht
  cases ha
  exact ⟨c, status, hfetch, hchecks⟩

theorem Step.checked (h : Step σ σ') (hσ : ∀ r ∈ σ.waiting, r.Checked) : ∀ r ∈ σ'.waiting, r.Checked := by
  intro r hr
  cases h with
  | check hcheck =>
    rcases List.mem_append.mp hr with hr | hr
    · exact hσ r hr
    · rw [List.mem_singleton.mp hr]
      exact hcheck.checked
  | write hwrite =>
    obtain ⟨before, after, hbefore, hafter⟩ := hwrite.waiting
    rw [hafter] at hr
    refine hσ r (hbefore ▸ ?_)
    rcases List.mem_append.mp hr with hr | hr
    · exact List.mem_append_left _ hr
    · exact List.mem_append_right _ (List.mem_cons_of_mem _ hr)
  | other => exact hσ r hr

theorem Reached.checked (h : Reached σ) : ∀ r ∈ σ.waiting, r.Checked := by
  induction h with
  | start => exact fun _ hr => by cases hr
  | step _ hstep ih => exact hstep.checked ih

/-- A status that a request changes becomes the one that the request asks for, in the collection that it has read. -/
theorem Write.status (h : Write σ r σ') {c : Collection} {status : Option Status}
    (hchecks : Operation.Checks r.actor r.edit c status r.transaction) (hrow : σ.committed.row? id = some row)
    (hrow' : σ'.committed.row? id = some row') (hne : row'.status ≠ row.status) :
    c.id = id ∧ ∃ requested, status = some requested ∧ row'.status = requested.word := by
  obtain ⟨s, x, t, hs, hsession, hrun, ht⟩ := h.done
  rw [hchecks.work] at hrun
  rw [ht] at hrow'
  rw [← hs] at hrow
  rcases Operation.edit_commits hsession hrun with hsame | hedited
  · rw [hsame, hrow] at hrow'
    cases hrow'
    exact absurd rfl hne
  · rw [hedited] at hrow'
    by_cases hid : id = c.id
    · subst hid
      obtain ⟨-, hstatus⟩ := Tables.row?_edited hrow hrow'
      cases hst : status with
      | none =>
        rw [hst] at hstatus
        exact absurd hstatus hne
      | some requested =>
        rw [hst] at hstatus
        exact ⟨rfl, requested, rfl, hstatus⟩
    · rw [(Tables.edited_agreeAt hid).row, hrow] at hrow'
      cases hrow'
      exact absurd rfl hne

/-! ### Requests for one collection -/

/-- A request for the only collection to get a status. -/
def move (a : Actor) (st : Status) : Request where
  actor := a
  id := "c"
  edit := { status := some st.word }
  origin := .lone
  transaction := .edit "c" none none (some st) none

def owner : Actor := { userId := "u" }

def moderator : Actor := { userId := "m", role := .moderator }

/-- What is committed after a request is written. -/
def after (r : Request) (committed : Tables) : Tables :=
  (Act.atomically r.transaction.work { State.lone with db := { committed } }).2.db.committed

theorem write_after (before rest : List Request) (committed : Tables) :
    Write { committed, waiting := before ++ r :: rest } r
      { committed := after r committed, waiting := before ++ rest } where
  waiting := ⟨before, rest, rfl, rfl⟩
  done := ⟨{ State.lone with db := { committed } }, _, _, rfl, rfl, rfl, rfl⟩

theorem check_move {a : Actor} {st : Status} {waiting : List Request}
    (hok : ((Operation.edit (some a) "c" { status := some st.word }).prepare .lone).1.isOk = true) :
    Check { committed := State.lone.db.committed, waiting } (move a st) := by
  refine ⟨rfl, rfl, ?_⟩
  show ∃ t, (Operation.edit (some a) "c" { status := some st.word }).prepare .lone = (.ok (move a st).transaction, t)
  cases hrun : (Operation.edit (some a) "c" { status := some st.word }).prepare .lone with
  | mk x t =>
    rw [hrun] at hok
    cases x with
    | error e => cases hok
    | ok j =>
      obtain ⟨a', c, status, ha, hfetch, hchecks⟩ := Operation.prepare_edit_ok hrun
      have hheld := (Service.Reached.of_start Service.start_lone).settled.held?_of_fetch hfetch
      have hid : c.id = "c" := Tables.id_of_held? hheld
      have hread : ((some st).map Status.word).mapM Catalog.parseStatus = .ok status := hchecks.read
      have hstatus : status = some st := Except.ok.inj (hread.symm.trans parseStatus_words)
      rw [hchecks.work, hid, hstatus]
      exact ⟨t, rfl⟩

theorem check_owner {waiting : List Request} :
    Check { committed := State.lone.db.committed, waiting } (move owner .private) := check_move (by decide +kernel)

theorem check_moderator {waiting : List Request} :
    Check { committed := State.lone.db.committed, waiting } (move moderator .rejected) := check_move (by decide +kernel)

theorem reached_owner : Reached { committed := State.lone.db.committed, waiting := [move owner .private] } :=
  (Reached.start _).step (.check check_owner)

/-! ### Results -/

/-- However edits interleave, one that changes the status of a collection sets the status that it asks for, and its
    actor moderates, or owns the collection and moves it from a status which is approved, as the edit has read it, to
    one that can be requested. What the edit has read is what was committed when it was checked, if the cache was
    coherent then; and if the status is still the same when the edit is written, the edit may set the new status in the
    place of the one that it replaces. -/
theorem status_changes_as_checked (hσ : Reached σ) (h : Write σ r σ') (hrow : σ.committed.row? id = some row)
    (hrow' : σ'.committed.row? id = some row') (hne : row'.status ≠ row.status) :
    ∃ (c : Collection) (requested : Status), (Catalog.fetch r.id r.origin).1 = .ok (some c) ∧ c.id = id ∧
      r.edit.status = some requested.word ∧ row'.status = requested.word ∧
      (r.actor.moderates = true ∨
        r.actor.userId = c.owner ∧ c.status.isApproved = true ∧ requested.isRequestable = true) ∧
      (r.origin.Settled → ∃ read, r.origin.db.committed.row? id = some read ∧
        Status.ofWord? read.status = some c.status ∧
        (read.status = row.status → r.actor.MayMove row.status row'.status)) := by
  obtain ⟨before, after, hwaiting, -⟩ := h.waiting
  have hmem : r ∈ σ.waiting := hwaiting ▸ List.mem_append_right _ List.mem_cons_self
  obtain ⟨c, status, hfetch, hchecks⟩ := hσ.checked r hmem
  obtain ⟨hid, requested, hstatus, hword⟩ := h.status hchecks hrow hrow' hne
  have hmay : r.actor.moderates = true ∨ c.status.isApproved = true ∧ requested.isRequestable = true := by
    simpa [Gate.mayChangeStatus] using hchecks.allowed requested hstatus
  have howns : r.actor.moderates = true ∨ r.actor.userId = c.owner := by
    simpa [Gate.maintains] using hchecks.maintains
  have hasked : r.edit.status = some requested.word := by
    rw [eq_words_of_read hchecks.read, hstatus]
    rfl
  refine ⟨c, requested, hfetch, hid, hasked, hword, ?_, fun hsettled => ?_⟩
  · rcases howns with hmoderates | howner
    · exact Or.inl hmoderates
    · exact hmay.imp_right fun hallowed => ⟨howner, hallowed⟩
  · have hheld := hsettled.held?_of_fetch hfetch
    have hgrants : r.origin.db.committed.Grants r.actor .write r.id c := ⟨hchecks.scope, hheld, hchecks.maintains⟩
    obtain ⟨read, hread, -, hcurrent⟩ := hgrants.row
    rw [← hgrants.id, hid] at hread
    refine ⟨read, hread, hcurrent, fun hsame => ⟨c.status, requested, hsame ▸ hcurrent, ?_, hmay⟩⟩
    rw [hword]
    exact Status.ofWord?_word requested

theorem status_changes_as_checked_private :
    let σ : System := { committed := State.lone.db.committed, waiting := [move owner .private] }
    let σ' : System := { committed := after (move owner .private) σ.committed }
    Reached σ ∧ Write σ (move owner .private) σ' ∧ ∃ row row', σ.committed.row? "c" = some row ∧
      σ'.committed.row? "c" = some row' ∧ row'.status ≠ row.status ∧
      (move owner .private).edit.status = some row'.status ∧ owner.MayMove row.status row'.status := by
  intro σ σ'
  have hwrite : Write σ (move owner .private) σ' := write_after [] [] _
  have hold : (σ.committed.row? "c").map (·.status) = some "listed" := by decide +kernel
  have hnew : (σ'.committed.row? "c").map (·.status) = some "private" := by decide +kernel
  obtain ⟨row, hrow, hlisted⟩ := Option.map_eq_some_iff.mp hold
  obtain ⟨row', hrow', hprivate⟩ := Option.map_eq_some_iff.mp hnew
  have hne : row'.status ≠ row.status := by
    rw [hlisted, hprivate]
    decide
  obtain ⟨c, requested, -, -, hasked, hword, -, hsettled⟩ :=
    status_changes_as_checked reached_owner hwrite hrow hrow' hne
  obtain ⟨read, hread, -, hmay⟩ := hsettled (Service.Reached.of_start Service.start_lone).settled
  cases hread.symm.trans hrow
  exact ⟨reached_owner, hwrite, row, row', hrow, hrow', hne, hword ▸ hasked, hmay rfl⟩

/-- A collection that a moderator rejects while an edit of its owner waits to be written is taken out of that status. -/
theorem rejection_overwritten : ∃ σ₀ σ σ' rejecting r row row', Reached σ₀ ∧
    Write σ₀ rejecting σ ∧ rejecting.actor.moderates = true ∧ Write σ r σ' ∧ r.actor.moderates = false ∧
      σ.committed.row? "c" = some row ∧ σ'.committed.row? "c" = some row' ∧ row.status = Status.rejected.word ∧
      row'.status = Status.private.word := by
  let rejected := after (move moderator .rejected) State.lone.db.committed
  have hboth : Reached
      { committed := State.lone.db.committed, waiting := [move owner .private, move moderator .rejected] } :=
    reached_owner.step (.check check_moderator)
  have hrejects : Write _ (move moderator .rejected) { committed := rejected, waiting := [move owner .private] } :=
    write_after [move owner .private] [] _
  have hold : (rejected.row? "c").map (·.status) = some "rejected" := by decide +kernel
  have hnew : ((after (move owner .private) rejected).row? "c").map (·.status) = some "private" := by decide +kernel
  obtain ⟨row, hrow, hstatus⟩ := Option.map_eq_some_iff.mp hold
  obtain ⟨row', hrow', hstatus'⟩ := Option.map_eq_some_iff.mp hnew
  exact ⟨_, _, _, _, _, row, row', hboth, hrejects, rfl, write_after [] [] _, rfl, hrow, hrow', hstatus, hstatus'⟩

end Editing

end Curation
