import Curation.Proofs.Legible
import Curation.Proofs.Sharing

/-! Every row that is stored is that of a valid collection. Operations check what they are given and statements write
    it, and what projects that are deleted take with them was valid without it. So whatever happens, from empty tables
    on, nothing can come to be stored that does not keep the rules, and nothing that cannot be loaded. -/

namespace Curation

open Time (Instant)
open Validation (maxInitialProjects maxEditProjects)

/-- A row whose fields keep the rules for collections. -/
structure Row.Valid (r : Row) : Prop extends r.Legible where
  trimmed : Text.strip r.title = r.title
  titled : 3 ≤ r.title.length ∧ r.title.length ≤ 64
  described : 3 ≤ r.description.length ∧ r.description.length ≤ 255
  colored : ∀ c, r.color = some c → ∃ n : Int, c = .integer n ∧ 0 ≤ n ∧ n ≤ 0xFFFFFF

/-- Tables that keep the constraints of the database, all rows of which are valid, and no collection of which has more
    members than an edit may give it. -/
structure Tables.Valid (t : Tables) : Prop extends t.Intact where
  each : ∀ r ∈ t.collections, r.Valid
  members : ∀ id, (t.membersOf id).length ≤ 64

/-! ### Rows -/

theorem strip_of_valid {title : String} (h : Validation.title (Text.strip title) = []) :
    Text.strip (Text.strip title) = Text.strip title ∧
      3 ≤ (Text.strip title).length ∧ (Text.strip title).length ≤ 64 :=
  ⟨Text.strip_strip title, (Validation.title_eq_nil.mp h).2⟩

theorem Row.Valid.withIcon {r : Row} (h : r.Valid) (url : String) (images : Image.Library) (data : ByteArray) :
    (Catalog.withIcon (some url) ((Image.colorOf? images data).map fun n => (n : Int)) r).Valid where
  toLegible := legible_withIcon h.toLegible
  trimmed := h.trimmed
  titled := h.titled
  described := h.described
  colored c hc := by
    obtain ⟨n, hn, rfl⟩ := Option.map_eq_some_iff.mp hc
    exact ⟨n, rfl, Image.colorOf?_range hn⟩

theorem Row.Valid.withoutIcon {r : Row} (h : r.Valid) : (Catalog.withIcon none none r).Valid :=
  { h with
    toLegible := legible_withoutIcon h.toLegible
    colored := fun _ hc => nomatch hc }

theorem Row.Change.valid {f : Row → Row} (hf : Row.Change f) {r : Row} (h : r.Valid) : (f r).Valid := by
  cases hf with
  | title hvalid =>
    obtain ⟨htrimmed, htitled⟩ := strip_of_valid hvalid
    exact { h with trimmed := htrimmed, titled := htitled }
  | description hvalid => exact { h with described := Validation.description_eq_nil.mp hvalid }
  | @status st => exact { h with status := by simp [Status.ofWord?_word] }
  | setIcon => exact h.withIcon _ _ _
  | clearIcon => exact h.withoutIcon

/-- A row that derives from valid ones is valid. -/
theorem Tables.Derives.valid {t : Tables} {now : Instant} {r : Row} (h : t.Derives now r)
    (hnow : Time.inRange now = true) (ht : ∀ r ∈ t.collections, r.Valid) : r.Valid := by
  induction h with
  | kept hr => exact ht _ hr
  | @new id owner title description free named owned titled described =>
    obtain ⟨htrimmed, htitled⟩ := strip_of_valid titled
    have hlegible : (Catalog.newRow id owner (Text.strip title) description .initial now).Legible :=
      ⟨named, owned, rfl, fun _ => rfl, legible_exact hnow, legible_exact hnow⟩
    exact ⟨hlegible, htrimmed, htitled, Validation.description_eq_nil.mp described, fun _ hc => nomatch hc⟩
  | changed _ hf ih => exact { hf.valid ih with updated := legible_second hnow }

/-! ### Members -/

namespace Tables

variable {t v : Tables} {id : String}

theorem length_membersOf_le (h : v.links.Sublist t.links) (id : String) :
    (v.membersOf id).length ≤ (t.membersOf id).length := by
  rw [length_membersOf, length_membersOf]
  exact (h.filter _).length_le

/-- A collection without members gets no more than it is given, and the others keep theirs. -/
theorem length_membersOf_addLinks (h : t.membersOf id = []) {ps : List String} {limit : Nat} (hps : ps.length ≤ limit)
    (ht : ∀ id, (t.membersOf id).length ≤ limit) (id' : String) :
    ((t.addLinks id ps).membersOf id').length ≤ limit := by
  by_cases hid : id' = id
  · rw [hid, membersOf_addLinks h, length_sorted]
    exact hps
  · rw [(addLinks_agreeAt hid).members]
    exact ht id'

/-- What was checked of the projects that are submitted bounds the members. -/
theorem Changes.members {now : Instant} (h : t.Changes now v) (ht : t.Intact)
    (hlimit : ∀ id, (t.membersOf id).length ≤ 64) (id : String) : (v.membersOf id).length ≤ 64 := by
  cases h with
  | projects _ links => exact Nat.le_trans (length_membersOf_le links id) (hlimit id)
  | @create new _ _ _ projects valid free =>
    obtain ⟨-, -, hprojects⟩ := Validation.create_eq_nil.mp (Validation.ensure_eq_ok.mp valid)
    have hlength : projects.length ≤ 32 := Validation.projects_eq_nil.mp hprojects
    have hknown : (t.knownProjects projects).length ≤ projects.length :=
      (List.filter_sublist.trans (distinct_sublist projects)).length_le
    have hnone : t.membersOf new = [] := ht.membersOf_eq_nil free
    exact length_membersOf_addLinks (t := t.withRow _) hnone (by omega) hlimit id
  | @edit edited e status valid =>
    obtain ⟨-, -, hprojects⟩ := Validation.edit_eq_nil.mp (Validation.ensure_eq_ok.mp valid)
    have hlinks : (t.updateRows now edited (Catalog.revisions (e.title.map Text.strip) e.description status)).links =
        t.links := links_updateRows
    unfold Tables.edited
    cases hps : e.projects with
    | none =>
      rw [membersOf_congr hlinks]
      exact hlimit id
    | some ps =>
      have hlength : ps.length ≤ 64 := Validation.projects_eq_nil.mp (hprojects ps hps)
      have hdistinct : (distinct ps).length ≤ ps.length := (distinct_sublist ps).length_le
      refine length_membersOf_addLinks membersOf_deleteLinks (by omega) (fun id' => ?_) id
      refine Nat.le_trans (length_membersOf_le List.filter_sublist id') ?_
      rw [membersOf_congr hlinks]
      exact hlimit id'
  | setIcon => exact hlimit id
  | clearIcon => exact hlimit id
  | delete => exact Nat.le_trans (length_membersOf_le (List.filter_sublist.trans List.filter_sublist) id) (hlimit id)

end Tables

/-! ### Runs -/

theorem State.Outcome.valid {s t : State} (h : s.Outcome t) (henf : s.db.enforce = true)
    (hnow : Time.inRange s.now = true) (hs : s.db.committed.Valid) : t.db.committed.Valid where
  toIntact := h.intact henf hs.toIntact
  each r hr := (h.changes.derives r hr).valid hnow hs.each
  members := h.changes.members hs.toIntact hs.members

/-- Tables without collections, in which references are enforced, at a time that can be written. -/
structure State.Vacant (s : State) : Prop where
  enforce : s.db.enforce = true
  dated : Time.inRange s.now = true
  session : s.session = {}
  collections : s.db.committed.collections = []
  links : s.db.committed.links = []
  projects : (s.db.committed.projects.map (·.id)).Nodup

namespace State.Vacant

variable {s : State}

theorem valid (h : s.Vacant) : s.db.committed.Valid where
  rows := by simp [Tables.Distinct, h.collections]
  links := by simp [h.links]
  projects := h.projects
  references := by simp [h.links]
  each := by simp [h.collections]
  members := by simp [Tables.length_membersOf, h.links]

theorem seen (h : s.Vacant) : s.tables = s.db.committed := by simp [State.tables, h.session]

end State.Vacant

namespace Service

variable {s t : State} {allowed : State → State → Prop}

theorem Happens.valid (hs : s.tables = s.db.committed) (henf : s.db.enforce = true) (hnow : Time.inRange s.now = true)
    (hvalid : s.db.committed.Valid) (h : Happens allowed s t) :
    t.db.enforce = true ∧ Time.inRange t.now = true ∧ t.db.committed.Valid := by
  induction h with
  | refl => exact ⟨henf, hnow, hvalid⟩
  | event ht h _ ih =>
    obtain ⟨henf, hnow, hvalid⟩ := ih
    have houtcome := h.outcome (ht.seen hs)
    exact ⟨houtcome.enforce.trans henf, houtcome.dated hnow, houtcome.valid henf hnow hvalid⟩

end Service

namespace Catalog

/-- Valid tables can be loaded, and the projects of what is loaded are in strict order. -/
theorem load_valid {s : State} (h : s.tables.Valid) (ha : s.Answers) (ids : List String) :
    ∃ found, (load ids s).1 = .ok found ∧ ∀ e ∈ found, e.2.projects.Pairwise (· < ·) := by
  obtain ⟨found, hfound⟩ := Tables.Legible.read (fun r hr => (h.each r hr).toLegible) ids
  refine ⟨found, (load_fst ha ids).trans hfound, fun e he => ?_⟩
  obtain ⟨_, -, hread⟩ := bind_eq_ok.mp hfound
  obtain ⟨r, -, he⟩ := mem_mapM_eq_ok hread he
  obtain ⟨_, _, _, _, -, -, hc⟩ := Row.toCollection_eq_ok (Tables.entryOf_eq_ok.mp he).2
  rw [hc]
  exact Tables.membersOf_strict h.links r.id

end Catalog

namespace Service

variable {s t : State} {allowed : State → State → Prop}

/-- Whatever happens to a catalog that was without collections at first, be it that operations fail or that projects are
    deleted with their memberships, all that is committed is valid. So a load on a database that answers cannot fail,
    and gives the projects of each collection in strict order. -/
theorem stored_valid (hs : s.Vacant) (h : Happens allowed s t) :
    t.db.committed.Valid ∧ (t.Answers → ∀ ids, ∃ found, (Catalog.load ids t).1 = .ok found ∧
      ∀ e ∈ found, e.2.projects.Pairwise (· < ·)) := by
  obtain ⟨-, -, hvalid⟩ := h.valid hs.seen hs.enforce hs.dated hs.valid
  refine ⟨hvalid, fun ha ids => Catalog.load_valid ?_ ha ids⟩
  rw [h.seen hs.seen]
  exact hvalid

/-- A collection of two projects, one of which is then deleted. -/
theorem stored_valid_deleted :
    let s : State := { now := 0, db := { committed := { projects := [⟨"p", "P"⟩, ⟨"q", "Q"⟩] } } }
    let o := Operation.create (some { userId := "u" }) " Tools " "Things to work with" ["q", "p"]
    let statement : Catalog.RawStatement := .delete .projects [("id", some (.text "p"))]
    let t := (Act.atomically statement.execute (o.run s).2).2
    s.Vacant ∧ Happens (fun _ _ => True) s t ∧ t.db.committed.collections.map (·.title) = ["Tools"] ∧
      t.db.committed.links.map (·.project) = ["q"] ∧ t.db.committed.Valid ∧ t.Answers ∧
      ∀ ids, ∃ found, (Catalog.load ids t).1 = .ok found ∧ ∀ e ∈ found, e.2.projects.Pairwise (· < ·) := by
  intro s o statement t
  have hs : s.Vacant := ⟨rfl, by decide, rfl, rfl, rfl, by decide⟩
  have hruns : Happens (fun _ _ => True) s t := (Happens.refl.operate o trivial).execute .delete trivial
  have h := stored_valid hs hruns
  have ha : t.Answers := ⟨by decide +kernel, by decide +kernel, by decide +kernel⟩
  exact ⟨hs, hruns, by decide +kernel, by decide +kernel, h.1, ha, h.2 ha⟩

end Service

end Curation
