import Curation.Proofs.Reissue

/-! Why a request is refused. A reason says of a request, and of the tables that it meets, which failure reports
    something that may be the matter with it; it knows nothing of the checks. An operation is judged by several reasons
    (`Act.Judged`) if it fails for the first of them that is given, and does not fail if none is. -/

namespace Curation

open Act (Ends ends_bind ends_pure ends_throw ends_iff)
open Catalog (check check_ends)

/-! ### Reasons -/

namespace Reason

/-- Nobody is known to ask. -/
def unknownActor (actor : Option Actor) : Option Failure := if actor = none then some .unauthenticated else none

/-- The credential of the actor lacks a scope. -/
def unscoped (actor : Option Actor) (scope : Scope) : Option Failure :=
  if actor.any fun a => !a.hasScope scope then some (.forbidden (.scope scope)) else none

/-- Something is wrong with the fields of the request. -/
def faulty (errors : List FieldError) : Option Failure := if errors = [] then none else some (.invalid errors)

/-- The status asked for is given by a word that stands for none. -/
def unknownStatus (status : Option String) : Option Failure :=
  (status.filter fun w => (Status.ofWord? w).isNone).map .unknownStatus

/-- The collection cannot be read. -/
def unread (s : State) (id : String) : Option Failure :=
  match (Catalog.fetch id s).1 with
  | .ok _ => none
  | .error e => some e

/-- There is no collection under the id. -/
def missing (t : Tables) (id : String) : Option Failure := if t.row? id = none then some (.notFound id) else none

/-- The actor neither owns the collection nor moderates. -/
def foreign (t : Tables) (id : String) (actor : Option Actor) : Option Failure :=
  if (t.row? id).any fun r => actor.any fun a => !(a.moderates || a.userId == r.owner) then
    some (.forbidden .notOwner)
  else none

/-- The actor does not moderate, and the collection has not passed moderation or nobody may ask for the status. -/
def disallowed (t : Tables) (id : String) (actor : Option Actor) (status : Option String) : Option Failure :=
  if (t.row? id).any fun r => actor.any fun a => status.any fun w =>
      !(a.moderates || (Status.ofWord? r.status).any Status.isApproved && (Status.ofWord? w).any Status.isRequestable) then
    some (.forbidden .status)
  else none

/-- There is no project under one of the ids; the first such id is reported. -/
def unknownProject (t : Tables) (projects : Option (List String)) : Option Failure :=
  (projects.bind fun ps => ps.find? fun p => !t.hasProject p).map .missingProject

/-- The first of several reasons that is given, if any is. -/
def first (reasons : List (Option Failure)) : Option Failure := reasons.findSome? id

section Held

variable {t : Tables} {id : String} {r : Row} {c : Collection}

theorem missing_of_row (hrow : t.row? id = some r) : missing t id = none := by
  rw [missing, if_neg (by rw [hrow]; exact Option.some_ne_none r)]

theorem foreign_of_row (hrow : t.row? id = some r) (howner : c.owner = r.owner) (a : Actor) :
    foreign t id (some a) = if Gate.maintains c a then none else some (.forbidden .notOwner) := by
  unfold foreign Gate.maintains
  rw [hrow, howner, Option.any_some, Option.any_some]
  cases a.moderates || a.userId == r.owner <;> rfl

theorem disallowed_of_row (hrow : t.row? id = some r) (hstatus : Status.ofWord? r.status = some c.status) (a : Actor)
    (st : Status) : disallowed t id (some a) (some st.word) =
      if Gate.mayChangeStatus a c.status st then none else some (.forbidden .status) := by
  unfold disallowed Gate.mayChangeStatus
  rw [hrow, Option.any_some, Option.any_some, Option.any_some, hstatus, Status.ofWord?_word, Option.any_some,
    Option.any_some]
  cases a.moderates || c.status.isApproved && st.isRequestable <;> rfl

end Held

theorem first_append (rs rs' : List (Option Failure)) : first (rs ++ rs') = (first rs).or (first rs') :=
  List.findSome?_append

theorem first_singleton (r : Option Failure) : first [r] = r := by
  cases r with
  | none => rfl
  | some e => rfl

end Reason

/-! ### Judgements -/

namespace Act

variable {α β : Type} {s : State} {a : Act α} {reasons later : List (Option Failure)} {ok : α → State → Prop}
  {left : State → Prop}

/-- The operation fails for the first of the reasons that is given, and then `left` holds of what it leaves; if none is
    given it ends with a value, and then `ok` holds of that and of the state after it. -/
def Judged (a : Act α) (s : State) (reasons : List (Option Failure)) (ok : α → State → Prop) (left : State → Prop) :
    Prop :=
  Ends a s (fun x t => Reason.first reasons = none ∧ ok x t) fun e t => Reason.first reasons = some e ∧ left t

/-- What is done next is judged by the reasons that come later. -/
theorem Judged.bind {f : α → Act β} {ok' : β → State → Prop} (h : Judged a s reasons ok left)
    (hf : ∀ x t, ok x t → Judged (f x) t later ok' left) : Judged (a >>= f) s (reasons ++ later) ok' left := by
  unfold Judged
  rw [ends_bind]
  refine h.mono (fun x t hx => ?_) fun e t he => ?_
  · obtain ⟨hnone, hx⟩ := hx
    rw [Reason.first_append, hnone, Option.none_or]
    exact hf x t hx
  · obtain ⟨hsome, ht⟩ := he
    exact ⟨by rw [Reason.first_append, hsome, Option.some_or], ht⟩

theorem judged_pure {x : α} (h : ok x s) : Judged (pure x) s [] ok left := ends_pure.mpr ⟨rfl, h⟩

theorem judged_check {x : Except Failure α} {r : Option Failure} (hok : ∀ a, x = .ok a → r = none ∧ ok a s)
    (herr : ∀ e, x = .error e → r = some e) (hs : left s) : Judged (check x) s [r] ok left :=
  check_ends (fun a ha => by rw [Reason.first_singleton]; exact hok a ha)
    fun e he => ⟨by rw [Reason.first_singleton]; exact herr e he, hs⟩

end Act

/-! ### The parts before a transaction -/

section Parts

open Act (Judged judged_pure judged_check)

variable {s : State} {left : State → Prop}

theorem writer_judged {actor : Option Actor} {scope : Scope} (hs : left s) :
    Judged (check (Gate.writer actor scope)) s [Reason.unknownActor actor, Reason.unscoped actor scope]
      (fun a t => actor = some a ∧ a.hasScope scope = true ∧ t = s) left := by
  unfold Act.Judged
  cases actor with
  | none => exact ends_throw.mpr ⟨rfl, hs⟩
  | some a =>
    cases hscope : a.hasScope scope with
    | true =>
      rw [Gate.writer, hscope]
      exact ends_pure.mpr ⟨by simp [Reason.first, Reason.unknownActor, Reason.unscoped, hscope], rfl, hscope, rfl⟩
    | false =>
      simp only [Gate.writer, hscope]
      exact ends_throw.mpr ⟨by simp [Reason.first, Reason.unknownActor, Reason.unscoped, hscope], hs⟩

theorem ensure_judged {errors : List FieldError} (hs : left s) :
    Judged (check (Validation.ensure errors)) s [Reason.faulty errors]
      (fun _ t => Validation.ensure errors = .ok () ∧ t = s) left := by
  refine judged_check (fun _ hok => ?_) (fun e he => ?_) hs
  · exact ⟨if_pos (Validation.ensure_eq_ok.mp hok), hok, rfl⟩
  · cases errors with
    | nil => cases he
    | cons => cases he; rfl

theorem parseStatus_judged {status : Option String} (hs : left s) :
    Judged (check (status.mapM Catalog.parseStatus)) s [Reason.unknownStatus status]
      (fun st t => status.mapM Catalog.parseStatus = .ok st ∧ t = s) left := by
  refine judged_check (fun st hst => ⟨?_, hst, rfl⟩) (fun e he => ?_) hs
  · rw [eq_words_of_read hst]
    cases st with
    | none => rfl
    | some st => simp [Reason.unknownStatus, Option.filter, Status.ofWord?_word]
  · cases status with
    | none => cases he
    | some w =>
      have he : some <$> Catalog.parseStatus w = .error e := he
      unfold Catalog.parseStatus at he
      cases hw : Status.ofWord? w with
      | none =>
        rw [hw] at he
        cases he
        simp [Reason.unknownStatus, Option.filter, hw]
      | some st =>
        rw [hw] at he
        cases he

/-- The collection is read that the tables hold, if it can be read. -/
theorem fetchMaintained_weighed (h : s.Settled) (hlegible : s.db.committed.Legible) (a : Actor) (id : String)
    (hleft : ∀ t, s.Reads t → left t) :
    Judged (Service.fetchMaintained a id) s
      [Reason.unread s id, Reason.missing s.db.committed id, Reason.foreign s.db.committed id (some a)]
      (fun c t => s.Reads t ∧ s.db.committed.held? id = some c ∧ Gate.maintains c a = true) left := by
  have hfetch : Ends (Catalog.fetch id) s (fun found t => s.Reads t ∧ found = s.db.committed.held? id)
      fun _ t => s.Reads t :=
    Catalog.fetch_ends h.view.rows h.fit (fun t ht => ⟨ht, by rw [h.seen]⟩) fun _ _ ht _ => ht
  unfold Act.Judged Service.fetchMaintained
  rw [ends_bind, ends_iff]
  refine ⟨fun found t hrun => ?_, fun e t hrun => ?_⟩
  · obtain ⟨ht, rfl⟩ := hfetch.of_ok hrun
    have hread : Reason.unread s id = none := by rw [Reason.unread, hrun]
    cases hrow : s.db.committed.row? id with
    | none =>
      have hheld : s.db.committed.held? id = none := by simp [Tables.held?, Tables.collection?, hrow]
      rw [hheld]
      exact ends_throw.mpr ⟨by simp [Reason.first, Reason.missing, hread, hrow], hleft t ht⟩
    | some r =>
      obtain ⟨c, hheld, howner, -⟩ := hlegible.held?_of_row hrow
      have hforeign := Reason.foreign_of_row hrow howner a
      rw [hheld]
      simp only [Gate.maintained]
      cases hmaintains : Gate.maintains c a with
      | true =>
        rw [hmaintains] at hforeign
        exact ends_pure.mpr ⟨by rw [hread, Reason.missing_of_row hrow, hforeign]; rfl, ht, rfl, hmaintains⟩
      | false =>
        rw [hmaintains] at hforeign
        exact ends_throw.mpr ⟨by rw [hread, Reason.missing_of_row hrow, hforeign]; rfl, hleft t ht⟩
  · have hread : Reason.unread s id = some e := by rw [Reason.unread, hrun]
    exact ⟨by rw [hread]; rfl, hleft t (hfetch.of_error hrun)⟩

/-- Where the database answers, nothing stands in the way of reading a collection. -/
theorem Reason.unread_of_answers (h : s.Settled) (hlegible : s.db.committed.Legible) (ha : s.Answers) (id : String) :
    Reason.unread s id = none := by
  rw [Reason.unread, h.fetch_of_answers hlegible ha id]

theorem fetchMaintained_judged {a : Actor} {id : String} (h : s.Settled) (hlegible : s.db.committed.Legible)
    (ha : s.Answers) (hleft : ∀ t, s.Reads t → left t) :
    Judged (Service.fetchMaintained a id) s
      [Reason.missing s.db.committed id, Reason.foreign s.db.committed id (some a)]
      (fun c t => s.Reads t ∧ s.db.committed.held? id = some c ∧ Gate.maintains c a = true) left := by
  have hweighed := fetchMaintained_weighed h hlegible a id hleft
  rwa [Reason.unread_of_answers h hlegible ha] at hweighed

theorem allowStatus_judged {t : Tables} {id : String} {r : Row} (hrow : t.row? id = some r) {c : Collection}
    (hstatus : Status.ofWord? r.status = some c.status) {a : Actor} {status : Option Status} (hs : left s) :
    Judged (status.forM fun st => check (Gate.allowStatus a c.status st)) s
      [Reason.disallowed t id (some a) (status.map Status.word)]
      (fun _ u => (∀ st, status = some st → Gate.mayChangeStatus a c.status st = true) ∧ u = s) left := by
  cases status with
  | none =>
    refine ends_pure.mpr ⟨?_, fun _ hst => (nomatch hst), rfl⟩
    simp [Reason.first, Reason.disallowed]
  | some st =>
    have hreason := Reason.disallowed_of_row hrow hstatus a st
    refine judged_check (fun _ hok => ?_) (fun e he => ?_) hs
    · unfold Gate.allowStatus at hok
      split at hok
      · rename_i hmay
        exact ⟨hreason.trans (if_pos hmay), fun st' hst' => Option.some.inj hst' ▸ hmay, rfl⟩
      · cases hok
    · unfold Gate.allowStatus at he
      split at he
      · cases he
      · rename_i hnot
        cases he
        exact hreason.trans (if_neg hnot)

/-- Where the database answers, the first id without a project is found. -/
theorem resolve_judged {ids : List String} (ha : s.Answers) (hleft : ∀ t, s.Still t → left t) :
    Judged (Catalog.resolve ids) s [Reason.unknownProject s.tables (some ids)]
      (fun ps t => ps = distinct ids ∧ (∀ p ∈ ids, s.tables.hasProject p = true) ∧ s.Still t) left := by
  unfold Act.Judged
  rw [Reason.first_singleton, Reason.unknownProject, Option.bind_some]
  refine resolve_answers ha (fun t hknown ht => ⟨?_, rfl, hknown, ht⟩) fun p t hp ht => ⟨?_, hleft t ht⟩
  · have hfound : (ids.find? fun p => !s.tables.hasProject p) = none :=
      List.find?_eq_none.mpr fun p hp => by simp [hknown p hp]
    rw [hfound, Option.map_none]
  · rw [hp, Option.map_some]

theorem resolved_judged {projects : Option (List String)} (ha : s.Answers) (hleft : ∀ t, s.Still t → left t) :
    Judged (projects.mapM Catalog.resolve) s [Reason.unknownProject s.tables projects]
      (fun ps t => ps = projects.map distinct ∧
        (∀ qs, projects = some qs → ∀ p ∈ qs, s.tables.hasProject p = true) ∧ s.Still t) left := by
  cases projects with
  | none => exact ends_pure.mpr ⟨rfl, rfl, fun _ h => (nomatch h), .refl s⟩
  | some ids =>
    show Judged (some <$> Catalog.resolve ids) s _ _ left
    unfold Act.Judged
    rw [Act.ends_map]
    refine (resolve_judged ha hleft).mono (fun ps t hps => ?_) fun e t he => he
    obtain ⟨hnone, rfl, hknown, ht⟩ := hps
    exact ⟨hnone, rfl, fun qs hqs => Option.some.inj hqs ▸ hknown, ht⟩

end Parts

end Curation
