import Curation.Proofs.Ending
import Curation.Proofs.Results
import Curation.Proofs.Tables

/-! What a load gives: under each id that it is asked for the collection that the tables hold, unless some row of
    them cannot be read. Which row is reported then does not depend on rows that can be. -/

namespace Curation

/-- A collection that a row stands for shows what is in the row, its times in UTC. -/
theorem Row.toCollection_eq_ok {r : Row} {members : List String} {c : Collection}
    (h : r.toCollection members = .ok c) :
    ∃ times status created updated, r.times = .ok times ∧ Status.ofWord? r.status = some status ∧
      c = { id := r.id, owner := r.owner, title := r.title, description := r.description, status,
            created, updated, iconUrl := r.iconUrl, color := r.color, projects := members } := by
  unfold Row.toCollection at h
  obtain ⟨⟨created, updated⟩, htimes, h⟩ := bind_eq_ok.mp h
  dsimp only at h
  split at h
  · cases h
  · rename_i status hstatus
    obtain ⟨created', -, h⟩ := bind_eq_ok.mp h
    obtain ⟨updated', -, h⟩ := bind_eq_ok.mp h
    obtain ⟨rfl, -⟩ := Collection.checked_eq_ok_iff.mp h
    exact ⟨_, status, created', updated', htimes, hstatus, rfl⟩

theorem Row.id_of_toCollection {r : Row} {members : List String} {c : Collection}
    (h : r.toCollection members = .ok c) : c.id = r.id := by
  obtain ⟨_, _, _, _, -, -, rfl⟩ := Row.toCollection_eq_ok h
  rfl

namespace Tables

variable {t : Tables} {id : String} {ids : List String} {rows : List Row} {found : Keyed Collection}

/-- What is made of a row and the links of its collection. -/
def entryOf (t : Tables) (r : Row) : Except Failure (String × Collection) := do
  return (r.id, ← r.toCollection (t.membersOf r.id))

/-- What is made of rows: the times of all of them are read before anything else. -/
def readRows (t : Tables) (rows : List Row) : Except Failure (Keyed Collection) := do
  let _ ← rows.mapM Row.times
  rows.mapM t.entryOf

/-- What a load gives, if the database answers. -/
def read (t : Tables) (ids : List String) : Except Failure (Keyed Collection) := t.readRows (t.rowsOf ids)

/-- The collection that the tables hold under an id, if it can be read. -/
def held? (t : Tables) (id : String) : Option Collection := (t.collection? id).bind Except.toOption

theorem AgreeAt.held? {u : Tables} (h : t.AgreeAt u id) : t.held? id = u.held? id := by
  rw [Tables.held?, Tables.held?, h.collection?]

theorem get?_membersOfEach : (t.membersOfEach ids).get? id = if id ∈ ids then some (t.membersOf id) else none := by
  induction ids with
  | nil => rfl
  | cons id' ids ih =>
    change Keyed.get? ((id', t.membersOf id') :: t.membersOfEach ids) id = _
    rw [Keyed.get?_cons, ih]
    by_cases hid : id' = id
    · simp [hid]
    · simp [hid, Ne.symm hid]

theorem assemble_membersOfEach :
    Catalog.assemble rows (t.membersOfEach (rows.map (·.id))) = rows.mapM t.entryOf := by
  suffices h : ∀ ids, (∀ r ∈ rows, r.id ∈ ids) →
      Catalog.assemble rows (t.membersOfEach ids) = rows.mapM t.entryOf from
    h _ fun r hr => List.mem_map_of_mem hr
  intro ids hids
  unfold Catalog.assemble
  induction rows with
  | nil => rfl
  | cons r rows ih =>
    rw [List.mapM_cons, List.mapM_cons, ih fun r' hr' => hids r' (List.mem_cons_of_mem _ hr'), get?_membersOfEach,
      if_pos (hids r List.mem_cons_self)]
    rfl

theorem entryOf_eq_ok {r : Row} {e : String × Collection} :
    t.entryOf r = .ok e ↔ e.1 = r.id ∧ r.toCollection (t.membersOf r.id) = .ok e.2 := by
  obtain ⟨k, c⟩ := e
  simp only [entryOf, bind_eq_ok, pure, Except.pure, Except.ok.injEq, Prod.mk.injEq]
  constructor
  · rintro ⟨_, hc, rfl, rfl⟩
    exact ⟨rfl, hc⟩
  · rintro ⟨rfl, hc⟩
    exact ⟨c, hc, rfl, rfl⟩

theorem held?_eq_some {c : Collection} :
    t.held? id = some c ↔ ∃ r, t.row? id = some r ∧ r.toCollection (t.membersOf id) = .ok c := by
  simp only [held?, collection?, Option.bind_map, Option.bind_eq_some_iff]
  constructor
  · rintro ⟨r, hr, hc⟩
    refine ⟨r, hr, ?_⟩
    simp only [Function.comp_apply] at hc
    cases ht : r.toCollection (t.membersOf id) with
    | error e =>
      rw [ht] at hc
      cases hc
    | ok c' =>
      rw [ht] at hc
      cases hc
      rfl
  · rintro ⟨r, hr, hc⟩
    exact ⟨r, hr, by simp [hc, Except.toOption]⟩

theorem id_of_held? {c : Collection} (h : t.held? id = some c) : c.id = id := by
  obtain ⟨r, hr, hc⟩ := held?_eq_some.mp h
  rw [Row.id_of_toCollection hc, (row?_eq_some hr).2]

/-! ### The rows that are asked for -/

theorem mem_rowsOf {r : Row} : r ∈ t.rowsOf ids ↔ r ∈ t.collections ∧ r.id ∈ ids := by
  simp [rowsOf]

/-- Asking for fewer ids leaves the other rows in their order. -/
theorem Distinct.rowsOf_filter (h : t.Distinct) {p : String → Bool} :
    t.rowsOf (ids.filter p) = (t.rowsOf ids).filter fun r => p r.id := by
  have htrans : ∀ a b c : Row, decide (a.id ≤ b.id) → decide (b.id ≤ c.id) → decide (a.id ≤ c.id) := by
    simpa using fun a b c : Row => String.le_trans
  have htotal : ∀ a b : Row, decide (a.id ≤ b.id) || decide (b.id ≤ a.id) := by
    simpa using fun a b : Row => String.le_total a.id b.id
  have hsorted := fun ids =>
    List.pairwise_mergeSort htrans htotal (t.collections.filter fun r => List.contains ids r.id)
  refine List.Perm.eq_of_pairwise (fun a b ha hb hab hba => ?_) (hsorted _) ((hsorted ids).filter _) ?_
  · have ha := (mem_rowsOf.mp ha).1
    have hb := (mem_rowsOf.mp (List.mem_filter.mp hb).1).1
    exact List.inj_on_of_nodup_map h ha hb (String.le_antisymm (by simpa using hab) (by simpa using hba))
  · refine (List.mergeSort_perm _ _).trans (List.Perm.trans ?_ ((List.mergeSort_perm _ _).filter _).symm)
    rw [List.filter_filter]
    refine List.Perm.of_eq (List.filter_congr fun r _ => ?_)
    rw [Bool.eq_iff_iff]
    simp [and_comm]

/-- Each id that is asked for gives its row, once. -/
theorem Distinct.find?_rowsOf (h : t.Distinct) :
    (t.rowsOf ids).find? (fun r => r.id == id) = if id ∈ ids then t.row? id else none := by
  cases hf : (t.rowsOf ids).find? (fun r => r.id == id) with
  | none =>
    split
    · rename_i hid
      refine (row?_eq_none_iff.mpr fun r hr heq => ?_).symm
      have := List.find?_eq_none.mp hf r (mem_rowsOf.mpr ⟨hr, heq ▸ hid⟩)
      simp [heq] at this
    · rfl
  | some r =>
    have hid : r.id = id := by simpa using List.find?_some hf
    obtain ⟨hr, hmem⟩ := mem_rowsOf.mp (List.mem_of_find?_eq_some hf)
    rw [if_pos (hid ▸ hmem), ← hid, h.row?_of_mem hr]

theorem get?_mapM_entryOf (h : rows.mapM t.entryOf = .ok found) :
    found.get? id = (rows.find? fun r => r.id == id).bind fun r => (r.toCollection (t.membersOf r.id)).toOption := by
  induction rows generalizing found with
  | nil =>
    cases h
    rfl
  | cons r rows ih =>
    obtain ⟨⟨k, c⟩, found, hr, hrows, rfl⟩ := mapM_cons_eq_ok.mp h
    obtain ⟨rfl, hc⟩ := entryOf_eq_ok.mp hr
    rw [Keyed.get?_cons, ih hrows, List.find?_cons]
    by_cases hid : r.id = id
    · simp only [hid, if_pos, beq_self_eq_true, Option.bind_some]
      rw [← hid, hc]
      rfl
    · have hne : (r.id == id) = false := by simpa using hid
      simp [hid, hne]

/-- What is loaded is, under each id that was asked for, what the tables hold. -/
theorem Distinct.get?_read (h : t.Distinct) (hr : t.read ids = .ok found) :
    found.get? id = if id ∈ ids then t.held? id else none := by
  obtain ⟨_, -, hr⟩ := bind_eq_ok.mp hr
  rw [get?_mapM_entryOf hr, h.find?_rowsOf]
  split
  · rw [held?, collection?]
    cases hrow : t.row? id with
    | none => rfl
    | some r => simp [(row?_eq_some hrow).2]
  · rfl

theorem Distinct.mem_read (h : t.Distinct) (hr : t.read ids = .ok found) {e : String × Collection} (he : e ∈ found) :
    e.1 ∈ ids ∧ t.held? e.1 = some e.2 := by
  obtain ⟨_, -, hr⟩ := bind_eq_ok.mp hr
  obtain ⟨r, hr, he⟩ := mem_mapM_eq_ok hr he
  obtain ⟨hmem, hid⟩ := mem_rowsOf.mp hr
  obtain ⟨hk, hc⟩ := entryOf_eq_ok.mp he
  rw [hk]
  exact ⟨hid, held?_eq_some.mpr ⟨r, h.row?_of_mem hmem, hc⟩⟩

theorem Distinct.read_singleton (h : t.Distinct) {c : Collection} (hc : t.held? id = some c) :
    t.read [id] = .ok [(id, c)] := by
  obtain ⟨r, hr, hread⟩ := held?_eq_some.mp hc
  obtain ⟨hmem, rfl⟩ := row?_eq_some hr
  have hrows : t.rowsOf [r.id] = [r] := by
    have hall : ∀ r' ∈ t.rowsOf [r.id], r' = r := fun r' hr' => by
      obtain ⟨hr', hid⟩ := mem_rowsOf.mp hr'
      exact List.inj_on_of_nodup_map h hr' hmem (List.mem_singleton.mp hid)
    have hr' : r ∈ t.rowsOf [r.id] := mem_rowsOf.mpr ⟨hmem, List.mem_singleton_self _⟩
    have hnodup : (t.rowsOf [r.id]).Nodup :=
      ((List.mergeSort_perm _ _).nodup_iff.mpr ((List.Nodup.of_map _ h).filter _))
    match hl : t.rowsOf [r.id] with
    | [] => simp [hl] at hr'
    | [r'] => rw [hall r' (by simp [hl])]
    | r₁ :: r₂ :: _ =>
      rw [hl] at hnodup hall
      have h₁ := hall r₁ (by simp)
      have h₂ := hall r₂ (by simp)
      simp [h₁, h₂] at hnodup
  obtain ⟨times, _, _, _, htimes, -, -⟩ := Row.toCollection_eq_ok hread
  have hentry : t.entryOf r = .ok (r.id, c) := entryOf_eq_ok.mpr ⟨rfl, hread⟩
  rw [read, readRows, hrows, mapM_cons_eq_ok.mpr ⟨times, [], htimes, rfl, rfl⟩]
  exact mapM_cons_eq_ok.mpr ⟨_, [], hentry, rfl, rfl⟩

/-- Collections that can be read need not be loaded to learn which one cannot. -/
theorem Distinct.read_filter_eq_error (h : t.Distinct) {p : String → Bool}
    (hp : ∀ id ∈ ids, p id = false → ∃ c, t.held? id = some c) {e : Failure} :
    t.read (ids.filter p) = .error e ↔ t.read ids = .error e := by
  have hread : ∀ r ∈ t.rowsOf ids, p r.id = false → ∃ c, r.toCollection (t.membersOf r.id) = .ok c := by
    intro r hr hpr
    obtain ⟨hr, hid⟩ := mem_rowsOf.mp hr
    obtain ⟨c, hc⟩ := hp r.id hid hpr
    obtain ⟨r', hr', hc⟩ := held?_eq_some.mp hc
    rw [h.row?_of_mem hr] at hr'
    cases hr'
    exact ⟨c, hc⟩
  have htimes := fun e => mapM_filter_eq_error (f := Row.times) (p := fun r => p r.id) (e := e) fun r hr hpr => by
    obtain ⟨c, hc⟩ := hread r hr hpr
    obtain ⟨times, _, _, _, htimes, -⟩ := Row.toCollection_eq_ok hc
    exact ⟨times, htimes⟩
  have hrows := mapM_filter_eq_error (f := t.entryOf) (p := fun r => p r.id) (e := e) fun r hr hpr => by
    obtain ⟨c, hc⟩ := hread r hr hpr
    exact ⟨(r.id, c), entryOf_eq_ok.mpr ⟨rfl, hc⟩⟩
  unfold read readRows
  rw [h.rowsOf_filter, bind_eq_error, bind_eq_error, htimes, hrows, exists_and_right, exists_and_right,
    exists_ok_iff htimes]

end Tables

end Curation
