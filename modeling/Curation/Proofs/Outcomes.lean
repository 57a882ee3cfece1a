import Curation.Proofs.Serving

/-! What an operation makes of the tables, whatever the cache holds. A cache of which others know nothing may keep
    collections that they have deleted, so that an operation may be about a collection that is not there any more, or
    whose projects are not. What it has checked, and what it writes, is the same. -/

namespace Curation

open Act (Ends ends_bind ends_pure ends_throw ends_get ends_update ends_ite)
open Catalog (check check_ends)
open Time (Instant)

namespace State

variable {s t u : State}

/-- From the first state to the second no time has passed, and the session sees the same tables of the same database,
    of which nothing but the answers still to come has changed. -/
structure Still (s t : State) : Prop where
  now : t.now = s.now
  place : t.place = s.place
  db : t.db = { s.db with outages := t.db.outages }
  outages : t.db.outages <:+ s.db.outages
  stuck : t.session.stuck = s.session.stuck
  tables : t.tables = s.tables

namespace Still

theorem refl (s : State) : s.Still s := ⟨rfl, rfl, rfl, List.suffix_refl _, rfl, rfl⟩

theorem trans (h₁ : s.Still t) (h₂ : t.Still u) : s.Still u where
  now := h₂.now.trans h₁.now
  place := h₂.place.trans h₁.place
  db := by rw [h₂.db, h₁.db]
  outages := h₂.outages.trans h₁.outages
  stuck := h₂.stuck.trans h₁.stuck
  tables := h₂.tables.trans h₁.tables

theorem committed (h : s.Still t) : t.db.committed = s.db.committed := by rw [h.db]
theorem enforce (h : s.Still t) : t.db.enforce = s.db.enforce := by rw [h.db]

theorem of_reads (h : s.Reads t) : s.Still t :=
  ⟨h.now, h.place, h.toWithin.db, h.toWithin.outages, h.stuck, h.tables⟩

theorem of_gives (h : s.Gives t s.tables s.session.pending) : s.Still t := .of_reads (.of_gives h)

/-- The cache, the blobs and what else is beside the database and the session make no difference. -/
theorem beside (h : t = { s with
    cache := t.cache, blobs := t.blobs, cleanups := t.cleanups, pulled := t.pulled }) : s.Still t := by
  rw [h]
  exact ⟨rfl, rfl, rfl, List.suffix_refl _, rfl, rfl⟩

theorem answers (h : s.Still t) (hs : s.Answers) : t.Answers where
  stuck := h.stuck.trans hs.stuck
  present := by
    rw [h.db]
    exact hs.present
  outages o ho := hs.outages o (h.outages.subset ho)

end Still

end State

/-! ### What was checked, and what is written -/

/-- What becomes of the tables at a time: an operation changes a collection, with what was checked for it, or projects
    come and go with the memberships that they have. -/
inductive Tables.Changes (t : Tables) (now : Instant) : Tables → Prop
  | projects {v : Tables} (rows : v.collections = t.collections) (links : v.links.Sublist t.links) : t.Changes now v
  | create {id owner title description : String} {projects : List String}
    (valid : Validation.ensure (Validation.create (Text.strip title) description projects) = .ok ())
    (free : t.row? id = none) (named : id ≠ "") (owned : owner ≠ "") :
    t.Changes now ((t.withRow (Catalog.newRow id owner (Text.strip title) description .initial now)).addLinks id
      (t.knownProjects projects))
  | edit {id : String} {e : Service.Edit} {status : Option Status}
    (valid : Validation.ensure (Validation.edit (e.title.map Text.strip) e.description e.projects) = .ok ()) :
    t.Changes now (t.edited now id (e.title.map Text.strip) e.description status e.projects)
  | setIcon {id url : String} {images : Image.Library} {data : ByteArray} :
    t.Changes now (t.updateRow now id
      (Catalog.withIcon (some url) ((Image.colorOf? images data).map fun n => (n : Int)))).2
  | clearIcon {id : String} : t.Changes now (t.updateRow now id (Catalog.withIcon none none)).2
  | delete {id : String} : t.Changes now ((t.deleteLinks id).2.deleteRow true id).2

theorem Tables.Changes.same {t : Tables} {now : Instant} : t.Changes now t := .projects rfl (.refl _)

/-- What is left behind by whatever happens, however it ends: the session sees what is committed, and that is what can
    become of what was committed before. -/
structure State.Outcome (s t : State) : Prop where
  enforce : t.db.enforce = s.db.enforce
  dated : Time.inRange s.now = true → Time.inRange t.now = true
  seen : t.tables = t.db.committed
  changes : s.db.committed.Changes s.now t.db.committed
  intact : s.db.enforce = true → s.db.committed.Intact → t.db.committed.Intact

theorem State.Still.outcome {s t : State} (h : s.Still t) (hs : s.tables = s.db.committed) : s.Outcome t where
  enforce := h.enforce
  dated hnow := h.now ▸ hnow
  seen := h.tables.trans (hs.trans h.committed.symm)
  changes := h.committed ▸ .same
  intact _ hi := h.committed ▸ hi

/-- A transaction that is begun after nothing but reading, and what it commits. -/
theorem State.Still.outcome_over {s t u : State} (h : s.Still t) (hu : t.Over u)
    (hchanges : s.db.committed.Changes s.now u.db.committed)
    (hintact : s.db.enforce = true → s.db.committed.Intact → u.db.committed.Intact) : s.Outcome u where
  enforce := by rw [hu.db, h.db]
  dated hnow := by
    rw [hu.now, h.now]
    exact hnow
  seen := hu.seen
  changes := hchanges
  intact := hintact

/-- The transactions that operations come to. -/
inductive Transaction.Checked : Transaction → Prop
  | create {a : Actor} {title description : String} {projects : List String}
    (valid : Validation.ensure (Validation.create (Text.strip title) description projects) = .ok ()) :
    Checked (.create a (Text.strip title) description projects)
  | edit {id : String} {e : Service.Edit} {status : Option Status}
    (valid : Validation.ensure (Validation.edit (e.title.map Text.strip) e.description e.projects) = .ok ()) :
    Checked (.edit id (e.title.map Text.strip) e.description status (e.projects.map distinct))
  | setIcon {c : Collection} {place : Icon.Place} {path : String} {data : ByteArray} :
    Checked (.setIcon c place path ((Image.colorOf? place.images data).map fun n => (n : Int)))
  | clearIcon {id : String} : Checked (.clearIcon id)
  | delete {id asked : String} : Checked (.delete id asked)

/-! ### Before the transaction -/

section Before

variable {s : State}

/-- Reading keeps the blobs too. -/
theorem Catalog.fetchAll_still {ids : List String} : Ends (Catalog.fetchAll ids) s
    (fun _ t => s.Still t ∧ t.blobs = s.blobs) fun _ t => s.Still t ∧ t.blobs = s.blobs := by
  unfold Catalog.fetchAll
  simp only [ends_bind]
  refine Catalog.lookUp_ends fun plan c hc _ _ => Catalog.load_ends (fun loaded t ht _ => ?_) fun e t ht _ => ?_
  · have ht := (State.Reads.sheds hc).trans ht
    refine Catalog.finish_ends fun u hu => ⟨(State.Still.of_reads ht).trans (.beside (by rw [hu.rest])), ?_⟩
    rw [hu.rest]
    exact ht.toWithin.blobs
  · have ht := (State.Reads.sheds hc).trans ht
    exact ⟨.of_reads ht, ht.toWithin.blobs⟩

theorem Catalog.fetch_still {id : String} : Ends (Catalog.fetch id) s
    (fun _ t => s.Still t ∧ t.blobs = s.blobs) fun _ t => s.Still t ∧ t.blobs = s.blobs := by
  unfold Catalog.fetch
  simp only [ends_bind, ends_pure]
  exact Catalog.fetchAll_still

theorem Query.run_still (q : Query) : Ends q.run s (fun _ t => s.Still t) fun _ t => s.Still t := by
  cases q with
  | get actor id =>
    simp only [run, Service.get, ends_bind, ends_pure]
    refine Catalog.fetch_still.mono (fun _ t ht => ?_) fun _ t ht => ht.1
    exact check_ends (fun _ _ => ht.1) fun _ _ => ht.1
  | list actor ids =>
    simp only [run, Service.list, ends_bind, ends_pure]
    exact Catalog.fetchAll_still.mono (fun _ t ht => ht.1) fun _ t ht => ht.1

theorem fetchMaintained_still {a : Actor} {id : String} :
    Ends (Service.fetchMaintained a id) s (fun _ t => s.Still t) fun _ t => s.Still t := by
  unfold Service.fetchMaintained
  rw [ends_bind]
  refine Catalog.fetch_still.mono (fun _ t ht => ?_) fun _ t ht => ht.1
  exact check_ends (fun _ _ => ht.1) fun _ _ => ht.1

/-- Before its transaction an operation only reads, whatever the cache holds. -/
theorem Operation.prepare_still (o : Operation) :
    Ends o.prepare s (fun j t => s.Still t ∧ j.Checked) fun _ t => s.Still t := by
  have hfetch : ∀ {a id c t}, Service.fetchMaintained a id s = (.ok c, t) → s.Still t := fun h =>
    fetchMaintained_still.of_ok h
  refine o.prepare_prepared.mono (fun j u hj => ?_) fun _ u hu => ?_
  · cases hj with
    | create _ valid => exact ⟨.refl s, .create valid⟩
    | edit _ valid _ fetched _ _ resolved => exact ⟨(hfetch fetched).trans (.of_gives resolved), .edit valid⟩
    | setIcon _ _ fetched => exact ⟨(hfetch fetched).trans (.beside rfl), .setIcon⟩
    | clearIcon _ fetched => exact ⟨(hfetch fetched).trans (.beside rfl), .clearIcon⟩
    | delete _ fetched => exact ⟨hfetch fetched, .delete⟩
  · cases hu with
    | unread => exact .refl s
    | fetch failed => exact fetchMaintained_still.of_error failed
    | read fetched given => exact (hfetch fetched).trans (.of_gives given)
    | pull fetched => exact (hfetch fetched).trans (.beside rfl)
    | upload _ _ fetched => exact (hfetch fetched).trans (.beside rfl)

end Before

/-! ### The transaction and what comes after it -/

namespace Transaction.Checked

variable {s : State} {j : Transaction}

theorem work_ends (h : j.Checked) :
    Ends j.work s (fun _ t => s.Within t ∧ s.tables.Changes s.now t.tables ∧
      (s.db.enforce = true → s.tables.Intact → t.tables.Intact)) fun _ t => s.Within t := by
  cases h with
  | @create a title description projects valid =>
    unfold Transaction.create
    rw [Act.ends_map, ends_bind]
    refine Catalog.knownProjects_ends (fun u hu => ?_) fun e u hu => hu.toWithin
    refine Catalog.add_ends (fun e v hv => hu.toWithin.trans hv.toWithin) fun id c v hid hc hsound hs hv => ?_
    have hknown : distinct (s.tables.knownProjects projects) = s.tables.knownProjects projects :=
      distinct_of_nodup ((nodup_distinct _).filter _)
    have hadd : u.Marks _ _ := .add hid hc hsound (nodup_distinct _) hs
    refine ⟨hu.toWithin.trans hv.toWithin, ?_, fun henf hi => ?_⟩
    · have hnow : u.now = s.now := hu.now
      have hnamed : id ≠ "" := by simpa [hc, Catalog.newCollection] using hsound.id
      have howned : a.userId ≠ "" := by simpa [hc, Catalog.newCollection] using hsound.owner
      rw [hv.tables, hu.tables, hnow, hknown]
      exact .create valid (hu.tables ▸ hid) hnamed howned
    · exact hv.tables ▸ hadd.intact (hu.enforce.trans henf) (hu.tables ▸ hi)
  | @edit id e status valid =>
    refine edit_work_ends.mono (fun _ t ht => ?_) fun _ t ht => ht.toWithin
    obtain ⟨-, hwithin, -, htables, hintact⟩ := ht
    exact ⟨hwithin, htables ▸ .edit valid, hintact⟩
  | setIcon =>
    unfold Transaction.setIcon
    rw [Act.ends_map]
    refine Catalog.writeIcon_ends (fun e t ht => ht.toWithin) fun t _ ht => ⟨ht.toWithin, ?_, fun henf hi => ?_⟩
    · exact ht.tables ▸ .setIcon
    · exact ht.tables ▸ State.Marks.icon.intact henf hi
  | clearIcon =>
    unfold Transaction.clearIcon
    rw [Act.ends_map]
    refine Catalog.writeIcon_ends (fun e t ht => ht.toWithin) fun t _ ht => ⟨ht.toWithin, ?_, fun henf hi => ?_⟩
    · exact ht.tables ▸ .clearIcon
    · exact ht.tables ▸ State.Marks.icon.intact henf hi
  | @delete id asked =>
    unfold Transaction.delete
    refine Catalog.erase_ends (fun e t ht => ht.toWithin) fun t ht => ⟨ht.toWithin, ?_, fun henf hi => ?_⟩
    · exact ht.tables ▸ .delete
    · exact ht.tables ▸ State.Marks.erase.intact henf hi

/-- After its transaction an operation changes nothing that anyone sees. -/
theorem after_ends (h : j.Checked) (found : Bool) :
    Ends (j.after found) s (fun _ t => t = { s with cleanups := t.cleanups }) fun _ t => t = s := by
  cases h with
  | create | edit | clearIcon => exact ends_pure.mpr rfl
  | setIcon =>
    simp only [Transaction.setIcon]
    split
    · rw [ends_ite]
      exact ⟨fun _ => ends_update.mpr rfl, fun _ => ends_pure.mpr rfl⟩
    · exact ends_pure.mpr rfl
  | delete =>
    simp only [Transaction.delete]
    rw [ends_ite]
    exact ⟨fun _ => ends_pure.mpr rfl, fun _ => ends_throw.mpr rfl⟩

end Transaction.Checked

/-- However an operation ends, it has made of the tables what it is for, or nothing. -/
theorem Operation.run_outcome {s : State} (hs : s.tables = s.db.committed) (o : Operation) :
    Ends o.run s (fun _ t => s.Outcome t) fun _ t => s.Outcome t := by
  rw [run_eq, ends_bind]
  refine o.prepare_still.mono (fun j u hu => ?_) fun _ t ht => ht.outcome hs
  obtain ⟨hu, hj⟩ := hu
  have hseen : u.tables = s.db.committed := hu.tables.trans hs
  rw [ends_bind]
  refine (Act.atomically_over (fun _ v => s.db.committed.Changes s.now v ∧
    (s.db.enforce = true → s.db.committed.Intact → v.Intact)) ?_).mono (fun found v hv => ?_) fun _ v hv => ?_
  · refine hj.work_ends.mono (fun _ v hv => ?_) fun _ v hv => hv
    obtain ⟨hwithin, hchanges, hintact⟩ := hv
    rw [hseen, hu.now] at hchanges
    rw [hseen, hu.enforce] at hintact
    exact ⟨hwithin, hchanges, hintact⟩
  · obtain ⟨hv, hchanges, hintact⟩ := hv
    have hv := hu.outcome_over hv hchanges hintact
    refine (hj.after_ends found).mono (fun _ w hw => ?_) fun _ w hw => hw ▸ hv
    rw [hw]
    exact ⟨hv.enforce, hv.dated, hv.seen, hv.changes, hv.intact⟩
  · obtain ⟨hv, hcommitted⟩ := hv
    have hsame : v.db.committed = s.db.committed := hcommitted.trans hu.committed
    exact hu.outcome_over hv (hsame ▸ .same) fun _ hi => hsame ▸ hi

/-! ### Rows -/

/-- The changes to a row that operations make, with what was checked for them. -/
inductive Row.Change : (Row → Row) → Prop
  | title {title : String} (valid : Validation.title (Text.strip title) = []) :
    Change fun r => { r with title := Text.strip title }
  | description {description : String} (valid : Validation.description description = []) :
    Change fun r => { r with description }
  | status {status : Status} : Change fun r => { r with status := status.word }
  | setIcon {url : String} {images : Image.Library} {data : ByteArray} :
    Change (Catalog.withIcon (some url) ((Image.colorOf? images data).map fun n => (n : Int)))
  | clearIcon : Change (Catalog.withIcon none none)

/-- A row that is there afterwards: it was there before, it is new, or it is one of these and has been changed. -/
inductive Tables.Derives (t : Tables) (now : Instant) : Row → Prop
  | kept {r : Row} (hr : r ∈ t.collections) : t.Derives now r
  | new {id owner title description : String} (free : t.row? id = none) (named : id ≠ "") (owned : owner ≠ "")
    (titled : Validation.title (Text.strip title) = []) (described : Validation.description description = []) :
    t.Derives now (Catalog.newRow id owner (Text.strip title) description .initial now)
  | changed {r : Row} {f : Row → Row} (h : t.Derives now r) (hf : Row.Change f) :
    t.Derives now { f r with updated := .stamp (.second now) }

theorem Row.Change.of_mem_revisions {e : Service.Edit} {status : Option Status}
    (valid : Validation.ensure (Validation.edit (e.title.map Text.strip) e.description e.projects) = .ok ()) :
    ∀ f ∈ Catalog.revisions (e.title.map Text.strip) e.description status, Row.Change f := by
  obtain ⟨htitle, hdescription, -⟩ := Validation.edit_eq_nil.mp (Validation.ensure_eq_ok.mp valid)
  intro f hf
  simp only [Catalog.revisions, List.mem_append, Option.mem_toList, Option.map_eq_some_iff] at hf
  rcases hf with (⟨_, ⟨title, ht, rfl⟩, rfl⟩ | ⟨description, hd, rfl⟩) | ⟨st, -, rfl⟩
  · exact .title (htitle _ (Option.map_eq_some_iff.mpr ⟨title, ht, rfl⟩))
  · exact .description (hdescription description hd)
  · exact .status

namespace Tables.Changes

variable {t v : Tables} {now : Instant}

theorem derives (h : t.Changes now v) : ∀ r ∈ v.collections, t.Derives now r := by
  have hkept : ∀ r ∈ t.collections, t.Derives now r := fun _ => .kept
  cases h with
  | projects rows => exact rows ▸ hkept
  | create valid free named owned =>
    obtain ⟨htitle, hdescription, -⟩ := Validation.create_eq_nil.mp (Validation.ensure_eq_ok.mp valid)
    exact forall_withRow hkept (.new free named owned htitle hdescription)
  | @edit id e status valid =>
    have hrevised : ∀ r ∈ (t.updateRows now id
        (Catalog.revisions (e.title.map Text.strip) e.description status)).collections, t.Derives now r :=
      forall_updateRows hkept fun f hf r hr => .changed hr (.of_mem_revisions valid f hf)
    cases hprojects : e.projects with
    | none => exact hrevised
    | some ps => exact hrevised
  | setIcon => exact forall_updateRow hkept fun _ hr => .changed hr .setIcon
  | clearIcon => exact forall_updateRow hkept fun _ hr => .changed hr .clearIcon
  | delete => exact fun r hr => hkept r (List.mem_filter.mp hr).1

theorem rows (h : t.Changes now v) (ht : t.Distinct) : v.Distinct := by
  cases h with
  | projects rows =>
    rw [Distinct, rows]
    exact ht
  | create _ free => exact Distinct.withRow ht free
  | @edit id e status =>
    have hrevised : (t.updateRows now id
        (Catalog.revisions (e.title.map Text.strip) e.description status)).Distinct :=
      ht.updateRows Catalog.id_of_mem_revisions
    cases hprojects : e.projects with
    | none => exact hrevised
    | some ps => exact hrevised
  | setIcon => exact ht.updateRow Catalog.id_withIcon
  | clearIcon => exact ht.updateRow Catalog.id_withIcon
  | delete => exact Distinct.deleteRow (t := (t.deleteLinks _).2) ht

end Tables.Changes

end Curation
