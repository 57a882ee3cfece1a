import Curation.Proofs.Judging

/-! What an edit does. It is refused for the first of several reasons, all of which are read off the request and the
    tables that are committed, whatever the cache holds; and if it is not refused it succeeds, and replaces the fields
    that it brings, each on its own. -/

namespace Curation

open Act (Ends Judged ends_pure)
open Time (Instant)

namespace Service.Edit

variable {e : Edit} {t v : Tables} {now : Instant} {id : String} {r : Row}

/-! ### What an edit is for -/

/-- What is wrong with the fields of an edit: with the title, without the blanks around it, then with the description,
    then with the list of projects. -/
def faults (e : Edit) : List FieldError :=
  e.title.elim [] (fun title => Validation.title (Text.strip title)) ++ e.description.elim [] Validation.description ++
    e.projects.elim [] fun ps => Validation.projects ps Validation.maxEditProjects

/-- What may be the matter with an edit. It fails for the first of these that is given. -/
def reasons (e : Edit) (t : Tables) (actor : Option Actor) (id : String) : List (Option Failure) := [
  Reason.unknownActor actor, Reason.unscoped actor .write, Reason.faulty e.faults, Reason.unknownStatus e.status,
  Reason.missing t id, Reason.foreign t id actor, Reason.disallowed t id actor e.status,
  Reason.unknownProject t e.projects]

/-- The row of a collection after it is edited. The time of the last change is that of the edit if this brings anything
    that stands in the row. -/
def revised (e : Edit) (now : Instant) (r : Row) : Row :=
  { r with
    title := (e.title.map Text.strip).getD r.title
    description := e.description.getD r.description
    status := e.status.getD r.status
    updated := if e.title.isSome || e.description.isSome || e.status.isSome then .stamp (.second now) else r.updated }

/-- What an edit makes of the tables: the row of the collection is revised, its members are those that the edit brings,
    if it brings any, and nothing else is changed. -/
structure Applied (e : Edit) (now : Instant) (id : String) (t v : Tables) : Prop where
  row : ∃ r, t.row? id = some r ∧ v.row? id = some (e.revised now r)
  members : ∀ p, p ∈ v.membersOf id ↔ p ∈ e.projects.getD (t.membersOf id)
  once : (v.membersOf id).Nodup
  others : ∀ id', id' ≠ id → v.AgreeAt t id'
  projects : v.projects = t.projects

theorem faults_eq : e.faults = Validation.edit (e.title.map Text.strip) e.description e.projects := by
  unfold faults Validation.edit
  cases e.title <;> cases e.description <;> cases e.projects <;> rfl

/-! ### The tables after an edit -/

theorem row?_edited_of_read {status : Option Status} (hread : e.status.mapM Catalog.parseStatus = .ok status)
    (hr : t.row? id = some r) {projects : Option (List String)} :
    (t.edited now id (e.title.map Text.strip) e.description status projects).row? id = some (e.revised now r) := by
  have hrevised : (t.updateRows now id
      (Catalog.revisions (e.title.map Text.strip) e.description status)).row? id = some (e.revised now r) := by
    unfold revised
    rw [eq_words_of_read hread]
    cases e.title <;> cases e.description <;> cases status <;>
      simp [Catalog.revisions, Tables.updateRows, Tables.row?_updateRow, hr]
  cases projects with
  | none => exact hrevised
  | some ps => exact hrevised

theorem mem_membersOf_edited {title description : Option String} {status : Option Status}
    {projects : Option (List String)} {p : String} :
    p ∈ (t.edited now id title description status projects).membersOf id ↔ p ∈ projects.getD (t.membersOf id) := by
  cases projects with
  | none => rw [Tables.edited, Tables.membersOf_congr Tables.links_updateRows, Option.getD_none]
  | some ps =>
    rw [Tables.edited, Tables.membersOf_addLinks Tables.membersOf_deleteLinks, Option.getD_some, mem_sorted, mem_distinct]

theorem applied_of_effect {s : State} {actor : Option Actor} (h : (Operation.edit actor id e).Effect s v)
    (hv : v.Intact) : e.Applied s.now id s.db.committed v := by
  cases h with
  | edit grants _ read _ _ =>
    obtain ⟨r, hr, -, -⟩ := grants.row
    exact ⟨⟨r, hr, row?_edited_of_read read hr⟩, fun _ => mem_membersOf_edited,
      (Tables.membersOf_strict hv.links id).imp fun h => String.ne_of_lt h, fun _ hne => Tables.edited_agreeAt hne,
      Tables.projects_edited⟩

/-! ### The checks -/

/-- The checks of an edit come in the order of the reasons, and what it comes to then has passed all of them. -/
theorem prepare_judged {s : State} (h : s.Settled) (hlegible : s.db.committed.Legible) (ha : s.Answers)
    (actor : Option Actor) (id : String) (e : Edit) :
    Judged (Operation.edit actor id e).prepare s (e.reasons s.db.committed actor id)
      (fun j t => s.Still t ∧
        ∃ c, s.db.committed.held? id = some c ∧ (Operation.edit actor c.id e).Admitted s c j)
      fun t => s.Still t := by
  -- the reasons in groups, one for each check
  show Judged _ s ([_, _] ++ ([_] ++ ([_] ++ ([_, _] ++ ([_] ++ ([_] ++ [])))))) _ _
  refine (writer_judged (.refl s)).bind fun a _ hactor => ?_
  obtain ⟨rfl, hscope, rfl⟩ := hactor
  rw [faults_eq]
  refine (ensure_judged (.refl _)).bind fun _ _ hensured => ?_
  obtain ⟨hvalid, rfl⟩ := hensured
  refine (parseStatus_judged (.refl _)).bind fun status _ hparsed => ?_
  obtain ⟨hread, rfl⟩ := hparsed
  refine (fetchMaintained_judged h hlegible ha fun _ ht => .of_reads ht).bind fun c t hfetched => ?_
  obtain ⟨hreads, hheld, hmaintains⟩ := hfetched
  have hstill : State.Still _ t := .of_reads hreads
  have hgrants : Tables.Grants _ a .write id c := ⟨hscope, hheld, hmaintains⟩
  obtain ⟨r, hrow, -, hstatus⟩ := hgrants.row
  rw [eq_words_of_read hread]
  refine (allowStatus_judged hrow hstatus hstill).bind fun _ _ hallow => ?_
  obtain ⟨hallowed, rfl⟩ := hallow
  rw [← h.seen, ← hstill.tables]
  refine (resolved_judged (hstill.answers ha) fun u hu => hstill.trans hu).bind fun ps u hresolved => ?_
  obtain ⟨rfl, hknown, hu⟩ := hresolved
  rw [hstill.tables] at hknown
  refine Act.judged_pure ⟨hstill.trans hu, c, ?_, .edit hscope hmaintains hvalid hread hallowed hknown⟩
  rwa [hstill.tables, h.seen]

end Service.Edit

namespace Service

variable {s : State}

/-- Where the database answers and takes writes, an edit is refused for the first reason that there is, by what is
    committed, and then commits nothing; and if there is none it succeeds, and has been applied. -/
theorem edit_refused_or_applied (hs : Served s) (hserves : s.Serves) (actor : Option Actor) (id : String) (e : Edit) :
    match Reason.first (e.reasons s.db.committed actor id) with
    | some cause => ∃ t, Service.edit actor id e s = (.error cause, t) ∧ t.db.committed = s.db.committed
    | none => ∃ t, Service.edit actor id e s = (.ok (), t) ∧ e.Applied s.now id s.db.committed t.db.committed := by
  have hjudged : Judged (Operation.edit actor id e).run s (e.reasons s.db.committed actor id) (fun _ _ => True)
      fun t => s.Still t := by
    rw [Operation.run_eq_finish, ← List.append_nil (e.reasons _ _ _)]
    refine (Edit.prepare_judged hs.settled hs.legible hserves.toAnswers actor id e).bind fun j t hprepared => ?_
    obtain ⟨hstill, c, hheld, hadmitted⟩ := hprepared
    obtain ⟨r, hrow, -⟩ := Tables.held?_eq_some.mp hheld
    refine (hadmitted.finishes (hserves.still hstill) ?_ (by rw [hstill.tables])).mono (fun _ _ _ => ⟨rfl, trivial⟩)
      fun _ _ hfalse => hfalse.elim
    rw [hstill.tables, hs.settled.seen, Tables.id_of_held? hheld, hrow]
    rfl
  rcases (hjudged.and (Operation.run_ends hs.settled _)).result with ⟨_, t, hrun, ⟨hnone, -⟩, ht, heffect⟩ |
    ⟨cause, t, hrun, ⟨hsome, -⟩, ht⟩
  · rw [hnone]
    exact ⟨t, hrun, Edit.applied_of_effect heffect ht.committed⟩
  · rw [hsome]
    exact ⟨t, hrun, ht.committed⟩

/-- The owner of the only collection gives it another title, with blanks around it, and may not add a project to it that
    is not there. -/
theorem edit_refused_or_applied_lone :
    let owner : Option Actor := some { userId := "u" }
    let retitled : Edit := { title := some " Workshop " }
    Served .lone ∧ State.lone.Serves ∧
      (∃ t, Service.edit owner "c" retitled .lone = (.ok (), t) ∧
        retitled.Applied 0 "c" State.lone.db.committed t.db.committed) ∧
      ∃ t, Service.edit owner "c" { retitled with projects := some ["p"] } .lone = (.error (.missingProject "p"), t) ∧
        t.db.committed = State.lone.db.committed := by
  intro owner retitled
  have happlied := edit_refused_or_applied served_lone serves_lone owner "c" retitled
  have hrefused := edit_refused_or_applied served_lone serves_lone owner "c" { retitled with projects := some ["p"] }
  have hnone : Reason.first (retitled.reasons State.lone.db.committed owner "c") = none := by decide +kernel
  have hsome : Reason.first (Edit.reasons { retitled with projects := some ["p"] } State.lone.db.committed owner "c") =
      some (.missingProject "p") := by decide +kernel
  rw [hnone] at happlied
  rw [hsome] at hrefused
  exact ⟨served_lone, serves_lone, happlied, hrefused⟩

end Service

end Curation
