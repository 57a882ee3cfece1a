import Mathlib.Data.List.Nodup
import Curation.Catalog.Fetch

/-! What the statements on the tables do to the row and the members of each collection. A statement about one
    collection leaves every other one alone (`AgreeAt`), and every statement keeps the constraints of the
    database (`Intact`). -/

namespace Curation

open Time (Instant)

/-! ### Lists of texts -/

theorem mem_distinct {ss : List String} {x : String} : x ∈ distinct ss ↔ x ∈ ss := by
  induction ss with
  | nil => simp [distinct]
  | cons s ss ih =>
    by_cases hx : x = s
    · simp [distinct, hx]
    · simp [distinct, hx, ih]

theorem nodup_distinct (ss : List String) : (distinct ss).Nodup := by
  induction ss with
  | nil => simp [distinct]
  | cons s ss ih =>
    refine List.nodup_cons.mpr ⟨?_, ih.filter _⟩
    simp

theorem mem_sorted {ss : List String} {x : String} : x ∈ sorted ss ↔ x ∈ ss := List.mem_mergeSort

@[simp] theorem length_sorted (ss : List String) : (sorted ss).length = ss.length := List.length_mergeSort ss

/-- Texts without repetition are in strict order once they are sorted. -/
theorem sorted_strict {ss : List String} (h : ss.Nodup) : (sorted ss).Pairwise (· < ·) := by
  have hnodup : (sorted ss).Nodup := (List.mergeSort_perm ss _).nodup_iff.mpr h
  have hordered : (sorted ss).Pairwise (· ≤ ·) := by
    have htrans : ∀ a b c : String, decide (a ≤ b) → decide (b ≤ c) → decide (a ≤ c) := by
      simpa using fun a b c : String => String.le_trans
    have htotal : ∀ a b : String, decide (a ≤ b) || decide (b ≤ a) := by
      simpa using String.le_total
    simpa [sorted] using List.pairwise_mergeSort htrans htotal ss
  exact hordered.imp₂ (fun a b hle hne => String.not_le.mp fun hge => hne (String.le_antisymm hle hge)) hnodup

theorem distinct_eq_nil {ss : List String} : distinct ss = [] ↔ ss = [] := by
  cases ss with
  | nil => simp [distinct]
  | cons s ss => simp [distinct]

theorem distinct_sublist (ss : List String) : (distinct ss).Sublist ss := by
  induction ss with
  | nil => exact .refl _
  | cons s ss ih => exact (List.filter_sublist.trans ih).cons_cons s

theorem distinct_of_nodup {ss : List String} (h : ss.Nodup) : distinct ss = ss := by
  induction ss with
  | nil => rfl
  | cons s ss ih =>
    obtain ⟨hs, h⟩ := List.nodup_cons.mp h
    rw [distinct, ih h, List.filter_eq_self.mpr fun x hx => ?_]
    simpa using fun heq : x = s => hs (heq ▸ hx)

theorem find?_congr_mem {p q : String → Bool} {ss : List String} (h : ∀ x ∈ ss, p x = q x) : ss.find? p = ss.find? q := by
  induction ss with
  | nil => rfl
  | cons x ss ih =>
    rw [List.find?_cons, List.find?_cons, h x List.mem_cons_self, ih fun y hy => h y (List.mem_cons_of_mem x hy)]

theorem not_forall_of_find? {p : String → Bool} {ss : List String} {x : String}
    (h : (ss.find? fun y => !p y) = some x) : ¬ ∀ y ∈ ss, p y = true := fun hall => by
  have hnot := List.find?_some h
  rw [hall x (List.mem_of_find?_eq_some h)] at hnot
  cases hnot

@[simp] theorem distinct_distinct (ss : List String) : distinct (distinct ss) = distinct ss :=
  distinct_of_nodup (nodup_distinct ss)

/-- What is looked for in several texts is found first where it first appears. -/
theorem find?_distinct (p : String → Bool) (ss : List String) : (distinct ss).find? p = ss.find? p := by
  induction ss with
  | nil => rfl
  | cons x ss ih =>
    rw [distinct, List.find?_cons, List.find?_cons]
    cases hx : p x with
    | true => rfl
    | false =>
      -- `x` itself is not what is looked for, so that it may be left out of the rest
      have hleft : (fun y => decide (decide (y ≠ x) = true ∧ p y = true)) = p := by
        funext y
        by_cases hy : y = x
        · simp [hy, hx]
        · simp [hy]
      rw [List.find?_filter, hleft]
      exact ih

namespace Tables

variable {t u v : Tables} {id : String}

/-! ### Constraints -/

/-- No two rows of collections have the same id. -/
def Distinct (t : Tables) : Prop := (t.collections.map (·.id)).Nodup

/-- What the database keeps of its tables when references are enforced: keys are not repeated, and a membership
    is between a collection and a project that are there. -/
structure Intact (t : Tables) : Prop where
  rows : t.Distinct
  links : t.links.Nodup
  projects : (t.projects.map (·.id)).Nodup
  references : ∀ l ∈ t.links, t.supports l = true

theorem row?_eq_some {r : Row} (h : t.row? id = some r) : r ∈ t.collections ∧ r.id = id :=
  ⟨List.mem_of_find?_eq_some h, by simpa using List.find?_some h⟩

theorem row?_eq_none_iff : t.row? id = none ↔ ∀ r ∈ t.collections, r.id ≠ id := by
  simp [row?]

/-- With distinct ids, the row of a collection is found under its id. -/
theorem Distinct.row?_of_mem (h : t.Distinct) {r : Row} (hr : r ∈ t.collections) : t.row? r.id = some r := by
  cases hf : t.row? r.id with
  | none => exact absurd rfl (row?_eq_none_iff.mp hf r hr)
  | some r' =>
    obtain ⟨hr', hid⟩ := row?_eq_some hf
    rw [List.inj_on_of_nodup_map h hr' hr hid]

theorem mem_membersOf {p : String} : p ∈ t.membersOf id ↔ ⟨id, p⟩ ∈ t.links := by
  simp only [membersOf, mem_sorted, List.mem_map, List.mem_filter, beq_iff_eq]
  constructor
  · rintro ⟨l, ⟨hl, rfl⟩, rfl⟩
    exact hl
  · exact fun hl => ⟨_, ⟨hl, rfl⟩, rfl⟩

theorem membersOf_eq_nil (h : ∀ l ∈ t.links, l.collection ≠ id) : t.membersOf id = [] := by
  have : t.links.filter (fun l => l.collection == id) = [] := by
    rw [List.filter_eq_nil_iff]
    exact fun l hl => by simpa using h l hl
  simp [membersOf, this, sorted]

theorem membersOf_congr (h : t.links = u.links) : t.membersOf id = u.membersOf id := by rw [membersOf, membersOf, h]

theorem length_membersOf : (t.membersOf id).length = (t.links.filter fun l => l.collection == id).length := by
  simp [membersOf]

theorem membersOf_strict (h : t.links.Nodup) (id : String) : (t.membersOf id).Pairwise (· < ·) := by
  refine sorted_strict ((h.filter _).map_on fun l hl l' hl' heq => ?_)
  have hid : l.collection = id := by simpa using (List.mem_filter.mp hl).2
  have hid' : l'.collection = id := by simpa using (List.mem_filter.mp hl').2
  cases l
  cases l'
  simp_all

/-- A collection without a row has no members. -/
theorem Intact.membersOf_eq_nil (h : t.Intact) (hr : t.row? id = none) : t.membersOf id = [] := by
  refine Tables.membersOf_eq_nil fun l hl heq => ?_
  have := h.references l hl
  simp [supports, heq, hr] at this

/-! ### What stays the same -/

/-- Both tables hold the same under an id: the same row and the same members. -/
structure AgreeAt (t u : Tables) (id : String) : Prop where
  row : t.row? id = u.row? id
  members : t.membersOf id = u.membersOf id

namespace AgreeAt

theorem refl (t : Tables) (id : String) : t.AgreeAt t id := ⟨rfl, rfl⟩

theorem trans (h₁ : t.AgreeAt u id) (h₂ : u.AgreeAt v id) : t.AgreeAt v id :=
  ⟨h₁.row.trans h₂.row, h₁.members.trans h₂.members⟩

theorem collection? (h : t.AgreeAt u id) : t.collection? id = u.collection? id := by
  rw [Tables.collection?, Tables.collection?, h.row, h.members]

end AgreeAt

/-! ### Statements -/

section Statements

theorem row?_updateRow {now : Instant} {f : Row → Row} (hf : ∀ r, (f r).id = r.id) (id' : String) :
    (t.updateRow now id f).2.row? id' =
      if id' = id then (t.row? id).map fun r => { f r with updated := .stamp (.second now) } else t.row? id' := by
  simp only [row?, updateRow]
  induction t.collections with
  | nil => simp
  | cons r rs ih =>
    by_cases hr : r.id = id <;> by_cases hr' : r.id = id' <;> by_cases hid : id' = id <;> simp_all

theorem updateRow_count {now : Instant} {f : Row → Row} : (t.updateRow now id f).1 = 0 ↔ t.row? id = none := by
  simp [updateRow, row?, List.filter_eq_nil_iff]

theorem updateRow_agreeAt {now : Instant} {f : Row → Row} (hf : ∀ r, (f r).id = r.id) {id' : String}
    (hne : id' ≠ id) : (t.updateRow now id f).2.AgreeAt t id' :=
  ⟨by rw [row?_updateRow hf, if_neg hne], rfl⟩

theorem map_id_updateRow {now : Instant} {f : Row → Row} (hf : ∀ r, (f r).id = r.id) :
    (t.updateRow now id f).2.collections.map (·.id) = t.collections.map (·.id) := by
  simp only [updateRow, List.map_map]
  refine List.map_congr_left fun r _ => ?_
  by_cases hr : r.id = id <;> simp [hr, hf]

/-- A change to a row takes no row away. -/
theorem isSome_row?_updateRow {now : Instant} {f : Row → Row} (hf : ∀ r, (f r).id = r.id) {id' : String} :
    ((t.updateRow now id f).2.row? id').isSome = (t.row? id').isSome := by
  rw [row?_updateRow hf]
  split
  · subst_vars
    exact Option.isSome_map
  · rfl

/-- Whether a membership is supported depends on which rows and projects there are. -/
theorem supports_mono (hr : ∀ id, (t.row? id).isSome → (u.row? id).isSome)
    (hp : ∀ id, t.hasProject id = true → u.hasProject id = true) {l : Link} (h : t.supports l = true) :
    u.supports l = true := by
  simp only [supports, Bool.and_eq_true] at h ⊢
  exact ⟨hr _ h.1, hp _ h.2⟩

theorem Distinct.updateRow (h : t.Distinct) {now : Instant} {f : Row → Row} (hf : ∀ r, (f r).id = r.id) :
    (t.updateRow now id f).2.Distinct := by
  rw [Distinct, map_id_updateRow hf]
  exact h

/-- What holds of every row holds after a change that keeps it. -/
theorem forall_updateRow {now : Instant} {f : Row → Row} {P : Row → Prop} (h : ∀ r ∈ t.collections, P r)
    (hf : ∀ r, P r → P { f r with updated := .stamp (.second now) }) :
    ∀ r ∈ (t.updateRow now id f).2.collections, P r := by
  intro r hr
  obtain ⟨r₀, hr₀, rfl⟩ := List.mem_map.mp hr
  split
  · exact hf r₀ (h r₀ hr₀)
  · exact h r₀ hr₀

theorem Intact.updateRow (h : t.Intact) {now : Instant} {f : Row → Row} (hf : ∀ r, (f r).id = r.id) :
    (t.updateRow now id f).2.Intact where
  rows := h.rows.updateRow hf
  links := h.links
  projects := h.projects
  references l hl := by
    have hs : t.supports l = true := h.references l hl
    exact supports_mono (t := t) (u := (t.updateRow now id f).2)
      (fun _ hid' => (isSome_row?_updateRow hf).trans hid') (fun _ hp => hp) hs

/-- The tables after some changes to the row of a collection, one statement for each. -/
def updateRows (t : Tables) (now : Instant) (id : String) (fs : List (Row → Row)) : Tables :=
  fs.foldl (fun t f => (t.updateRow now id f).2) t

theorem updateRows_agreeAt {now : Instant} {fs : List (Row → Row)} (hfs : ∀ f ∈ fs, ∀ r, (f r).id = r.id)
    {id' : String} (hne : id' ≠ id) : (t.updateRows now id fs).AgreeAt t id' := by
  induction fs generalizing t with
  | nil => exact .refl t id'
  | cons f fs ih =>
    exact (ih fun f hf => hfs f (List.mem_cons_of_mem _ hf)).trans (updateRow_agreeAt (hfs f List.mem_cons_self) hne)

theorem isSome_row?_updateRows {now : Instant} {fs : List (Row → Row)} (hfs : ∀ f ∈ fs, ∀ r, (f r).id = r.id)
    {id' : String} : ((t.updateRows now id fs).row? id').isSome = (t.row? id').isSome := by
  induction fs generalizing t with
  | nil => rfl
  | cons f fs ih =>
    exact (ih fun f hf => hfs f (List.mem_cons_of_mem _ hf)).trans (isSome_row?_updateRow (hfs f List.mem_cons_self))

theorem links_updateRows {now : Instant} {fs : List (Row → Row)} : (t.updateRows now id fs).links = t.links := by
  induction fs generalizing t with
  | nil => rfl
  | cons f fs ih => exact ih

theorem Distinct.updateRows (h : t.Distinct) {now : Instant} {fs : List (Row → Row)}
    (hfs : ∀ f ∈ fs, ∀ r, (f r).id = r.id) : (t.updateRows now id fs).Distinct := by
  induction fs generalizing t with
  | nil => exact h
  | cons f fs ih => exact ih (h.updateRow (hfs f List.mem_cons_self)) fun f hf => hfs f (List.mem_cons_of_mem _ hf)

theorem forall_updateRows {now : Instant} {fs : List (Row → Row)} {P : Row → Prop} (h : ∀ r ∈ t.collections, P r)
    (hfs : ∀ f ∈ fs, ∀ r, P r → P { f r with updated := .stamp (.second now) }) :
    ∀ r ∈ (t.updateRows now id fs).collections, P r := by
  induction fs generalizing t with
  | nil => exact h
  | cons f fs ih =>
    exact ih (forall_updateRow h (hfs f List.mem_cons_self)) fun f' hf' => hfs f' (List.mem_cons_of_mem _ hf')

theorem Intact.updateRows (h : t.Intact) {now : Instant} {fs : List (Row → Row)}
    (hfs : ∀ f ∈ fs, ∀ r, (f r).id = r.id) : (t.updateRows now id fs).Intact := by
  induction fs generalizing t with
  | nil => exact h
  | cons f fs ih => exact ih (h.updateRow (hfs f List.mem_cons_self)) fun f hf => hfs f (List.mem_cons_of_mem _ hf)

theorem mem_deleteLinks {l : Link} : l ∈ (t.deleteLinks id).2.links ↔ l ∈ t.links ∧ l.collection ≠ id := by
  simp [deleteLinks]

theorem membersOf_deleteLinks : (t.deleteLinks id).2.membersOf id = [] :=
  membersOf_eq_nil fun _ hl => (mem_deleteLinks.mp hl).2

theorem deleteLinks_agreeAt {id' : String} (hne : id' ≠ id) : (t.deleteLinks id).2.AgreeAt t id' := by
  refine ⟨rfl, ?_⟩
  simp only [membersOf, deleteLinks, List.filter_filter]
  congr 2
  refine List.filter_congr fun l _ => ?_
  by_cases hl : l.collection = id' <;> simp [hl, hne]

theorem Intact.deleteLinks (h : t.Intact) : (t.deleteLinks id).2.Intact where
  rows := h.rows
  links := h.links.filter _
  projects := h.projects
  references l hl := h.references l (List.mem_filter.mp hl).1

theorem row?_deleteRow {enforce : Bool} (id' : String) :
    (t.deleteRow enforce id).2.row? id' = if id' = id then none else t.row? id' := by
  simp only [row?, deleteRow]
  induction t.collections with
  | nil => simp
  | cons r rs ih =>
    by_cases hr : r.id = id <;> by_cases hr' : r.id = id' <;> by_cases hid : id' = id <;> simp_all

theorem deleteRow_count {enforce : Bool} : 0 < (t.deleteRow enforce id).1 ↔ (t.row? id).isSome := by
  simp [deleteRow, row?, List.length_pos_iff, List.find?_isSome]

theorem deleteRow_agreeAt {enforce : Bool} {id' : String} (hne : id' ≠ id) :
    (t.deleteRow enforce id).2.AgreeAt t id' := by
  refine ⟨by rw [row?_deleteRow, if_neg hne], ?_⟩
  cases enforce with
  | false => rfl
  | true => exact (deleteLinks_agreeAt hne).members

/-- A collection without members can be deleted the same way whether references are enforced or not. -/
theorem deleteRow_deleteLinks {enforce : Bool} :
    ((t.deleteLinks id).2.deleteRow enforce id).2 = ((t.deleteLinks id).2.deleteRow true id).2 := by
  cases enforce with
  | true => rfl
  | false => simp [deleteRow, deleteLinks]

theorem Distinct.deleteRow (h : t.Distinct) {enforce : Bool} : (t.deleteRow enforce id).2.Distinct :=
  (List.Sublist.map _ List.filter_sublist).nodup h

theorem Intact.deleteRow (h : t.Intact) : (t.deleteRow true id).2.Intact where
  rows := h.rows.deleteRow
  links := h.links.filter _
  projects := h.projects
  references l hl := by
    obtain ⟨hl, hne⟩ := List.mem_filter.mp hl
    have hs := h.references l hl
    simp only [supports, Bool.and_eq_true] at hs ⊢
    refine ⟨?_, hs.2⟩
    rw [row?_deleteRow, if_neg (by simpa using hne)]
    exact hs.1

/-- The tables with one more row. -/
def withRow (t : Tables) (r : Row) : Tables := { t with collections := t.collections ++ [r] }

theorem insertRow_eq_ok {r : Row} {x : Unit} (h : t.insertRow r = .ok (x, u)) :
    t.row? r.id = none ∧ u = t.withRow r := by
  unfold insertRow at h
  split at h
  · cases h
  · rename_i hr
    cases h
    exact ⟨by simpa using hr, rfl⟩

theorem row?_withRow {r : Row} (hr : t.row? r.id = none) (id' : String) :
    (t.withRow r).row? id' = if id' = r.id then some r else t.row? id' := by
  by_cases hid : id' = r.id
  · subst hid
    simp only [row?, withRow] at hr ⊢
    simp [List.find?_append, hr]
  · have : r.id ≠ id' := Ne.symm hid
    simp [row?, withRow, List.find?_append, hid, this]

theorem withRow_agreeAt {r : Row} (hr : t.row? r.id = none) {id' : String} (hne : id' ≠ r.id) :
    (t.withRow r).AgreeAt t id' := ⟨(row?_withRow hr id').trans (if_neg hne), rfl⟩

theorem Distinct.withRow (h : t.Distinct) {r : Row} (hr : t.row? r.id = none) : (t.withRow r).Distinct := by
  rw [Distinct, Tables.withRow, List.map_append, List.map_singleton, List.nodup_append]
  refine ⟨h, List.nodup_singleton _, fun id hid id' hid' => ?_⟩
  obtain ⟨r', hr', rfl⟩ := List.mem_map.mp hid
  rw [List.mem_singleton.mp hid']
  exact row?_eq_none_iff.mp hr r' hr'

/-- What holds of every row and of a new one holds of every row with the new one. -/
theorem forall_withRow {r : Row} {P : Row → Prop} (h : ∀ r ∈ t.collections, P r) (hr : P r) :
    ∀ r' ∈ (t.withRow r).collections, P r' := by
  intro r' hr'
  rcases List.mem_append.mp hr' with hr' | hr'
  · exact h r' hr'
  · obtain rfl : r' = r := List.mem_singleton.mp hr'
    exact hr

theorem Intact.withRow (h : t.Intact) {r : Row} (hr : t.row? r.id = none) : (t.withRow r).Intact where
  rows := h.rows.withRow hr
  links := h.links
  projects := h.projects
  references l hl := by
    have hs : t.supports l = true := h.references l hl
    refine supports_mono (t := t) (u := t.withRow r) (fun id' hid' => ?_) (fun _ hp => hp) hs
    rw [row?_withRow hr]
    split
    · rfl
    · exact hid'

/-- The memberships among the given ones that are not there yet. -/
def fresh (t : Tables) (ls : List Link) : List Link := ls.filter fun l => !t.links.contains l

theorem not_mem_of_fresh {ls : List Link} {l : Link} (h : l ∈ t.fresh ls) : l ∉ t.links := by
  simpa using (List.mem_filter.mp h).2

theorem fresh_fresh {ls : List Link} : t.fresh (t.fresh ls) = t.fresh ls := by simp [fresh]

/-- Which memberships of a collection are not there yet can be told from its members. -/
theorem filter_membersOf {ps : List String} :
    ((ps.map fun p => (⟨id, p⟩ : Link)).filter fun l => !(t.membersOf id).contains l.project) =
      t.fresh (ps.map fun p => ⟨id, p⟩) := by
  refine List.filter_congr fun l hl => ?_
  obtain ⟨p, -, rfl⟩ := List.mem_map.mp hl
  rw [Bool.eq_iff_iff]
  simp [mem_membersOf]

/-- The tables with some projects added to a collection. -/
def addLinks (t : Tables) (id : String) (ps : List String) : Tables :=
  { t with links := t.links ++ t.fresh (ps.map fun p => ⟨id, p⟩) }

/-- Where those that are there already are skipped or left out, the rest is added, or it is refused because of one of
    them. -/
theorem insertLinks_eq (enforce : Bool) {skip : Bool} {ls : List Link} (hskip : skip = true ∨ ∀ l ∈ ls, l ∉ t.links) :
    t.insertLinks enforce skip ls =
      if enforce = true → (t.fresh ls).all t.supports then .ok ((), { t with links := t.links ++ t.fresh ls })
      else .error .integrity := by
  have hnew : (!skip && ls.any t.links.contains) = false := by
    rcases hskip with rfl | hnew
    · rfl
    · have hany : ls.any t.links.contains = false := by simpa using hnew
      rw [hany, Bool.and_false]
  unfold insertLinks
  rw [hnew]
  show (if enforce && !(t.fresh ls).all t.supports then _ else _) = _
  cases enforce <;> cases (t.fresh ls).all t.supports <;> rfl

@[simp] theorem addLinks_nil : t.addLinks id [] = t := by simp [addLinks, fresh]

theorem addLinks_agreeAt {ps : List String} {id' : String} (hne : id' ≠ id) : (t.addLinks id ps).AgreeAt t id' := by
  refine ⟨rfl, ?_⟩
  have : (t.fresh (ps.map fun p => ⟨id, p⟩)).filter (fun l => l.collection == id') = [] := by
    rw [List.filter_eq_nil_iff]
    intro l hl
    obtain ⟨p, -, rfl⟩ := List.mem_map.mp (List.mem_filter.mp hl).1
    simpa using hne.symm
  simp [membersOf, addLinks, List.filter_append, this]

theorem mem_addLinks {ps : List String} {l : Link} :
    l ∈ (t.addLinks id ps).links ↔ l ∈ t.links ∨ l.collection = id ∧ l.project ∈ ps := by
  obtain ⟨c, p⟩ := l
  simp only [addLinks, fresh, List.mem_append, List.mem_filter, List.mem_map, Link.mk.injEq, Bool.not_eq_true',
    List.contains_eq_mem, decide_eq_false_iff_not]
  grind

theorem nodup_addLinks {ps : List String} (h : t.links.Nodup) (hps : ps.Nodup) : (t.addLinks id ps).links.Nodup := by
  have hls : (ps.map fun p => (⟨id, p⟩ : Link)).Nodup := hps.map fun p q heq => (Link.mk.inj heq).2
  refine List.nodup_append.mpr ⟨h, hls.filter _, fun l hl l' hl' heq => ?_⟩
  subst heq
  have := (List.mem_filter.mp hl').2
  simp [hl] at this

theorem Intact.addLinks (h : t.Intact) {ps : List String} (hps : ps.Nodup)
    (hs : (t.fresh (ps.map fun p => ⟨id, p⟩)).all t.supports = true) : (t.addLinks id ps).Intact where
  rows := h.rows
  links := nodup_addLinks h.links hps
  projects := h.projects
  references l hl := by
    rcases List.mem_append.mp hl with hl | hl
    · exact h.references l hl
    · exact List.all_eq_true.mp hs l hl

/-- Where a collection had no members, the added ones are its members. -/
theorem membersOf_addLinks {ps : List String} (h : t.membersOf id = []) :
    (t.addLinks id ps).membersOf id = sorted ps := by
  have hnil : ∀ p, (⟨id, p⟩ : Link) ∉ t.links := fun p hp => by
    have := mem_membersOf.mpr hp
    simp [h] at this
  have hfresh : t.fresh (ps.map fun p => ⟨id, p⟩) = ps.map fun p => (⟨id, p⟩ : Link) := by
    unfold fresh
    rw [List.filter_eq_self]
    intro l hl
    obtain ⟨p, -, rfl⟩ := List.mem_map.mp hl
    simpa using hnil p
  have hold : t.links.filter (fun l => l.collection == id) = [] := by
    rw [List.filter_eq_nil_iff]
    rintro ⟨c, p⟩ hl hc
    obtain rfl : c = id := by simpa using hc
    exact hnil p hl
  simp [membersOf, addLinks, hfresh, hold, List.filter_append, List.filter_map, Function.comp_def]

end Statements

end Tables

end Curation
