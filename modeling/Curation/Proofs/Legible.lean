import Curation.Proofs.Serving

/-! Rows that can be read. Every row that the service writes stands for a collection, so that where all rows can be read
    at first, they can be at any later time, and a fetch fails of nothing but the database. -/

namespace Curation

open Time (Instant)

/-- A time that can be read, and then written in UTC. -/
def RowTime.Legible (t : RowTime) : Prop := ∃ read, t.read = .ok read ∧ read.toUtc?.isSome

/-- A row that stands for a collection. -/
structure Row.Legible (r : Row) : Prop where
  id : r.id ≠ ""
  owner : r.owner ≠ ""
  status : (Status.ofWord? r.status).isSome
  color : r.iconUrl = none → r.color = none
  created : r.created.Legible
  updated : r.updated.Legible

def Tables.Legible (t : Tables) : Prop := ∀ r ∈ t.collections, r.Legible

/-! ### Times -/

theorem inRange_wholeSecond {now : Instant} (h : Time.inRange now = true) :
    Time.inRange (Time.wholeSecond now) = true := by
  -- The first instant that can be written is at the start of a second, so that no second begins before it.
  have hearliest : Time.earliest = -62135596800000000 := by decide
  have hround : ∀ n latest : Int, -62135596800000000 ≤ n ∧ n ≤ latest →
      -62135596800000000 ≤ n - n % 1000000 ∧ n - n % 1000000 ≤ latest := by omega
  rw [Time.inRange, Bool.and_eq_true, decide_eq_true_iff, decide_eq_true_iff, hearliest] at h ⊢
  rw [Time.wholeSecond_eq]
  exact hround now Time.latest h

theorem legible_of_inRange {stamp : Time.Stamp} (h : Time.inRange stamp.time = true) : (RowTime.stamp stamp).Legible := by
  refine ⟨stamp.toTimestamp, rfl, ?_⟩
  simp [Time.Stamp.toTimestamp, Time.Timestamp.ofInstant, Time.Timestamp.toUtc?, h]

theorem legible_exact {now : Instant} (h : Time.inRange now = true) : (RowTime.stamp (.exact now)).Legible :=
  legible_of_inRange h

theorem legible_second {now : Instant} (h : Time.inRange now = true) : (RowTime.stamp (.second now)).Legible :=
  legible_of_inRange (inRange_wholeSecond h)

/-! ### Reading -/

theorem RowTime.Legible.inUtc {t : RowTime} (h : t.Legible) :
    ∃ read utc, t.read = .ok read ∧ Curation.inUtc read = .ok utc := by
  obtain ⟨read, hread, hutc⟩ := h
  obtain ⟨utc, hutc⟩ := Option.isSome_iff_exists.mp hutc
  exact ⟨read, utc, hread, by rw [Curation.inUtc, hutc]⟩

theorem Row.Legible.times {r : Row} (h : r.Legible) : ∃ times, r.times = .ok times := by
  obtain ⟨created, _, hcreated, -⟩ := h.created.inUtc
  obtain ⟨updated, _, hupdated, -⟩ := h.updated.inUtc
  exact ⟨(created, updated), by rw [Row.times, hcreated, hupdated]; rfl⟩

theorem Row.Legible.toCollection {r : Row} (h : r.Legible) (members : List String) :
    ∃ c, r.toCollection members = .ok c := by
  obtain ⟨created, created', hcreated, hcreated'⟩ := h.created.inUtc
  obtain ⟨updated, updated', hupdated, hupdated'⟩ := h.updated.inUtc
  obtain ⟨status, hstatus⟩ := Option.isSome_iff_exists.mp h.status
  have htimes : r.times = .ok (created, updated) := by
    rw [Row.times, hcreated, hupdated]
    rfl
  let c : Collection := {
    id := r.id, owner := r.owner, title := r.title, description := r.description, status
    created := created', updated := updated', iconUrl := r.iconUrl, color := r.color, projects := members }
  have hsound : c.Sound := ⟨h.id, h.owner, h.color⟩
  refine ⟨c, ?_⟩
  simp only [Row.toCollection, htimes, bind_eq_ok]
  refine ⟨_, rfl, ?_⟩
  simp only [hstatus, hcreated', hupdated', bind_eq_ok]
  exact ⟨_, rfl, _, rfl, Collection.checked_eq_ok_iff.mpr ⟨rfl, hsound⟩⟩

section Lists

variable {ε α β : Type} {f : α → Except ε β} {l : List α}

theorem exists_mapM_eq_ok (h : ∀ a ∈ l, ∃ b, f a = .ok b) : ∃ bs, l.mapM f = .ok bs := by
  induction l with
  | nil => exact ⟨[], rfl⟩
  | cons a l ih =>
    obtain ⟨b, hb⟩ := h a List.mem_cons_self
    obtain ⟨bs, hbs⟩ := ih fun a' ha' => h a' (List.mem_cons_of_mem _ ha')
    exact ⟨b :: bs, mapM_cons_eq_ok.mpr ⟨b, bs, hb, hbs, rfl⟩⟩

end Lists

namespace Tables

variable {t : Tables} {id : String} {now : Instant}

/-- All that is asked for can be read. -/
theorem Legible.read (h : t.Legible) (ids : List String) : ∃ found, t.read ids = .ok found := by
  have hrows : ∀ r ∈ t.rowsOf ids, r.Legible := fun r hr => h r (mem_rowsOf.mp hr).1
  obtain ⟨times, htimes⟩ := exists_mapM_eq_ok (f := Row.times) fun r hr => (hrows r hr).times
  obtain ⟨found, hfound⟩ := exists_mapM_eq_ok (f := t.entryOf) fun r hr => by
    obtain ⟨c, hc⟩ := (hrows r hr).toCollection (t.membersOf r.id)
    exact ⟨(r.id, c), entryOf_eq_ok.mpr ⟨rfl, hc⟩⟩
  refine ⟨found, ?_⟩
  rw [Tables.read, readRows, htimes]
  exact hfound

/-- What is asked for is given, and nothing that cannot be read stands in the way. -/
theorem Legible.answer (h : t.Legible) (hd : t.Distinct) (ids : List String) :
    t.answer ids = .ok ((distinct ids).filterMap t.held?) := by
  obtain ⟨found, hread⟩ := h.read (distinct ids)
  rw [Tables.answer, hread]
  refine congrArg Except.ok (List.filterMap_congr fun id hid => ?_)
  rw [hd.get?_read hread, if_pos hid]

/-! ### Writing -/

theorem Legible.withRow (h : t.Legible) {r : Row} (hr : r.Legible) : (t.withRow r).Legible := forall_withRow h hr

theorem Legible.updateRow (h : t.Legible) (hnow : Time.inRange now = true) {f : Row → Row}
    (hf : ∀ r, r.Legible → (f r).Legible) : (t.updateRow now id f).2.Legible :=
  forall_updateRow h fun r hr => { hf r hr with updated := legible_second hnow }

theorem Legible.updateRows (h : t.Legible) (hnow : Time.inRange now = true) {fs : List (Row → Row)}
    (hfs : ∀ f ∈ fs, ∀ r, r.Legible → (f r).Legible) : (t.updateRows now id fs).Legible :=
  forall_updateRows h fun f hf r hr => { hfs f hf r hr with updated := legible_second hnow }

theorem Legible.deleteRow (h : t.Legible) {enforce : Bool} : (t.deleteRow enforce id).2.Legible :=
  fun r hr => h r (List.mem_filter.mp hr).1

end Tables

theorem legible_withIcon {url : String} {color : Option Int} {r : Row} (h : r.Legible) :
    (Catalog.withIcon (some url) color r).Legible := { h with color := fun hnone => nomatch hnone }

theorem legible_withoutIcon {r : Row} (h : r.Legible) : (Catalog.withIcon none none r).Legible :=
  { h with color := fun _ => rfl }

theorem legible_of_mem_revisions {title description : Option String} {status : Option Status} :
    ∀ f ∈ Catalog.revisions title description status, ∀ r, Row.Legible r → (f r).Legible := by
  intro f hf r hr
  have hstatus : ∀ st : Status, (Status.ofWord? st.word).isSome := fun st => by simp [Status.ofWord?_word]
  simp only [Catalog.revisions, List.mem_append, Option.mem_toList, Option.map_eq_some_iff] at hf
  rcases hf with (⟨title, -, rfl⟩ | ⟨description, -, rfl⟩) | ⟨st, -, rfl⟩
  · exact { hr with }
  · exact { hr with }
  · exact { hr with status := hstatus st }

theorem Tables.Legible.edited {t : Tables} (h : t.Legible) {now : Instant} (hnow : Time.inRange now = true) {id : String}
    {title description : Option String} {status : Option Status} {projects : Option (List String)} :
    (t.edited now id title description status projects).Legible := by
  have hrevised : (t.updateRows now id (Catalog.revisions title description status)).Legible :=
    h.updateRows hnow legible_of_mem_revisions
  cases projects with
  | none => exact hrevised
  | some ps => exact hrevised

/-- What an operation leaves can be read if it could be before. -/
theorem Operation.Effect.legible {s : State} {v : Tables} {o : Operation} (h : o.Effect s v)
    (hnow : Time.inRange s.now = true) (hs : s.db.committed.Legible) : v.Legible := by
  cases h with
  | @create a title description projects id scope valid free named owned =>
    have hrow : (Catalog.newRow id a.userId (Text.strip title) description .initial s.now).Legible :=
      ⟨named, owned, rfl, fun _ => rfl, legible_exact hnow, legible_exact hnow⟩
    exact hs.withRow hrow
  | edit => exact hs.edited hnow
  | setIcon => exact hs.updateRow hnow fun r hr => legible_withIcon hr
  | clearIcon => exact hs.updateRow hnow fun r hr => legible_withoutIcon hr
  | delete => exact Tables.Legible.deleteRow (t := (s.db.committed.deleteLinks _).2) hs

namespace Service

variable {s t : State} {o : Option Operation} {allowed : Option Operation → State → State → Prop}

theorem Step.legible (h : s.Settled) (hs : s.db.committed.Legible) (hstep : Step o s t) :
    t.db.committed.Legible := by
  rcases hstep.effect h with heq | ⟨op, -, heffect⟩
  · exact heq ▸ hs
  · exact heffect.legible h.dated hs

theorem Runs.legible (h : s.Settled) (hs : s.db.committed.Legible) (hruns : Runs allowed s t) :
    t.db.committed.Legible := by
  induction hruns with
  | refl => exact hs
  | step ht hstep _ ih => exact hstep.legible (ht.settled h) ih

end Service

end Curation
