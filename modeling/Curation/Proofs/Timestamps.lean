import Curation.Proofs.Authority
import Curation.Proofs.Sharing

/-! The times of a row while the clock goes on. A row is stamped twice: to the microsecond by the program that adds it,
    and by the second by the database that changes it. As the database leaves the fraction off, a change in the second
    in which a row was added turns the later one of its times back to the start of that second; from then on neither
    of them goes back. -/

namespace Curation

open Time (Instant Stamp)

/-! ### Seconds -/

theorem Time.wholeSecond_le (t : Instant) : wholeSecond t ≤ t := by
  have hround : ∀ n : Int, n - n % 1000000 ≤ n := by omega
  rw [wholeSecond_eq]
  exact hround t

theorem Time.wholeSecond_mono {t u : Instant} (h : t ≤ u) : wholeSecond t ≤ wholeSecond u := by
  have hround : ∀ n m : Int, n ≤ m → n - n % 1000000 ≤ m - m % 1000000 := by omega
  rw [wholeSecond_eq, wholeSecond_eq]
  exact hround t u h

/-- Of two instants the earlier one is not after the second of the later one, or they are in the same second. -/
theorem Time.le_wholeSecond {t u : Instant} (h : t ≤ u) : t ≤ wholeSecond u ∨ wholeSecond u = wholeSecond t := by
  have hround : ∀ n m : Int, n ≤ m → n ≤ m - m % 1000000 ∨ m - m % 1000000 = n - n % 1000000 := by omega
  rw [wholeSecond_eq, wholeSecond_eq]
  exact hround t u h

/-! ### Rows -/

/-- A row that was added at an instant and then either left alone or changed, at a later one that is not later than the
    given one. -/
inductive Row.Dated (now : Instant) (r : Row) : Prop
  | added {c : Instant} (created : r.created = .stamp (.exact c)) (updated : r.updated = .stamp (.exact c))
    (past : c ≤ now) : Dated now r
  | changed {c w : Instant} (created : r.created = .stamp (.exact c)) (updated : r.updated = .stamp (.second w))
    (order : c ≤ w) (past : w ≤ now) : Dated now r

namespace Row.Dated

variable {now now' : Instant} {r : Row}

theorem mono (h : r.Dated now) (hle : now ≤ now') : r.Dated now' := by
  cases h with
  | added created updated past => exact .added created updated (Int.le_trans past hle)
  | changed created updated order past => exact .changed created updated order (Int.le_trans past hle)

/-- A row that is changed now. -/
theorem change (h : r.Dated now) {r' : Row} (hkeeps : r.Keeps r') (updated : r'.updated = .stamp (.second now)) :
    r'.Dated now := by
  cases h with
  | added created _ past => exact .changed (hkeeps.created.trans created) updated past (Int.le_refl _)
  | changed created _ order past =>
    exact .changed (hkeeps.created.trans created) updated (Int.le_trans order past) (Int.le_refl _)

/-- The times of a row are in order, unless the row was changed in the second in which it was added. -/
theorem times (h : r.Dated now) : ∃ c u, r.created = .stamp (.exact c) ∧ r.updated = .stamp u ∧ u.time ≤ now ∧
    (c ≤ u.time ∨ u.time = Time.wholeSecond c) := by
  cases h with
  | @added c created updated past => exact ⟨c, .exact c, created, updated, past, Or.inl (Int.le_refl _)⟩
  | @changed c w created updated order past =>
    exact ⟨c, .second w, created, updated, Int.le_trans (Time.wholeSecond_le w) past, Time.le_wholeSecond order⟩

/-- A change now does not turn back the time of a row that has been changed before. -/
theorem advance (h : r.Dated now) : ∃ u, r.updated = .stamp u ∧ (u.time ≤ Time.wholeSecond now ∨
    r.updated = r.created ∧ Time.wholeSecond now = Time.wholeSecond u.time) := by
  cases h with
  | @added c created updated past =>
    exact ⟨.exact c, updated, (Time.le_wholeSecond past).imp_right fun heq => ⟨updated.trans created.symm, heq⟩⟩
  | @changed c w _ updated _ past => exact ⟨.second w, updated, Or.inl (Time.wholeSecond_mono past)⟩

end Row.Dated

theorem Row.Change.keeps {f : Row → Row} (hf : Row.Change f) (r : Row) (updated : RowTime) :
    r.Keeps { f r with updated } := by
  cases hf <;> exact ⟨rfl, rfl, rfl⟩

namespace Tables

variable {t v : Tables} {now : Instant} {r : Row}

theorem Derives.dated (h : t.Derives now r) (ht : ∀ r ∈ t.collections, r.Dated now) : r.Dated now := by
  induction h with
  | kept hr => exact ht _ hr
  | new => exact .added rfl rfl (Int.le_refl _)
  | changed _ hf ih => exact ih.change (hf.keeps _ _) rfl

/-- A row that is not new is one that was there, with the origin of that, and with its time or that of the change. -/
theorem Derives.times (h : t.Derives now r) : t.row? r.id = none ∨
    ∃ r₀ ∈ t.collections, r₀.Keeps r ∧ (r.updated = r₀.updated ∨ r.updated = .stamp (.second now)) := by
  induction h with
  | kept hr => exact Or.inr ⟨_, hr, .refl _, Or.inl rfl⟩
  | new free => exact Or.inl free
  | @changed r f _ hf ih =>
    have hkeeps : r.Keeps { f r with updated := .stamp (.second now) } := hf.keeps r _
    rcases ih with hnone | ⟨r₀, hr₀, hold, -⟩
    · exact Or.inl (hkeeps.id ▸ hnone)
    · exact Or.inr ⟨r₀, hr₀, hold.trans hkeeps, Or.inr rfl⟩

/-- What becomes of a row that is there before and after. -/
theorem Changes.times (h : t.Changes now v) (ht : t.Distinct) {id : String} {r r' : Row} (hr : t.row? id = some r)
    (hr' : v.row? id = some r') :
    r.Keeps r' ∧ (r'.updated = r.updated ∨ r'.updated = .stamp (.second now)) := by
  obtain ⟨hmem, rfl⟩ := row?_eq_some hr'
  rcases (h.derives r' hmem).times with hnone | ⟨r₀, hr₀, hkeeps, hupdated⟩
  · rw [hr] at hnone
    cases hnone
  · have hfound := ht.row?_of_mem hr₀
    rw [← hkeeps.id, hr] at hfound
    cases hfound
    exact ⟨hkeeps, hupdated⟩

end Tables

/-! ### Runs -/

/-- The session sees what is committed, and no row tells of a time that is yet to come. -/
structure State.Timed (s : State) : Prop where
  seen : s.tables = s.db.committed
  rows : s.db.committed.Distinct
  dated : ∀ r ∈ s.db.committed.collections, r.Dated s.now

namespace Service

variable {s t : State}

/-- The clock does not go back. -/
def onward (s t : State) : Prop := s.now ≤ t.now

instance : Decidable (onward s t) := inferInstanceAs (Decidable (s.now ≤ t.now))

theorem Event.timed (hs : s.Timed) (h : Event s t) (honward : onward s t) : t.Timed where
  seen := (h.outcome hs.seen).seen
  rows := (h.outcome hs.seen).changes.rows hs.rows
  dated r hr := (((h.outcome hs.seen).changes.derives r hr).dated hs.dated).mono honward

theorem Happens.timed (hs : s.Timed) (h : Happens onward s t) : t.Timed := by
  induction h with
  | refl => exact hs
  | event _ h honward ih => exact h.timed ih honward

/-- While the clock does not go back, the last change of a row that was added on the way is never in the future, and
    not before its beginning, unless it was in the same second: then it is noted for the start of that second. Whatever
    happens next leaves the beginning of a row as it is, and does not turn back the time of its last change, unless that
    is the first change of the row and comes in the second in which the row was added. -/
theorem times_ordered (hs : s.Timed) (h : Happens onward s t) :
    (∀ r ∈ t.db.committed.collections, ∃ c u, r.created = .stamp (.exact c) ∧ r.updated = .stamp u ∧ u.time ≤ t.now ∧
      (c ≤ u.time ∨ u.time = Time.wholeSecond c)) ∧
    ∀ t', Event t t' → ∀ id r r', t.db.committed.row? id = some r → t'.db.committed.row? id = some r' →
      r'.created = r.created ∧ ∃ u u', r.updated = .stamp u ∧ r'.updated = .stamp u' ∧ (u.time ≤ u'.time ∨
        r.updated = r.created ∧ u' = .second t.now ∧ u'.time = Time.wholeSecond u.time) := by
  have ht := h.timed hs
  refine ⟨fun r hr => (ht.dated r hr).times, fun t' hevent id r r' hr hr' => ?_⟩
  obtain ⟨hkeeps, hupdated⟩ := (hevent.outcome ht.seen).changes.times ht.rows hr hr'
  obtain ⟨u, hu, hadvance⟩ := (ht.dated r (Tables.row?_eq_some hr).1).advance
  refine ⟨hkeeps.created, u, ?_⟩
  rcases hupdated with hsame | hchanged
  · exact ⟨u, hu, hsame.trans hu, Or.inl (Int.le_refl _)⟩
  · exact ⟨.second t.now, hu, hchanged, hadvance.imp_right fun ⟨hnew, heq⟩ => ⟨hnew, rfl, heq⟩⟩

/-! ### A collection that is renamed -/

/-- Nothing has been added yet, half a second after a full one. -/
def vacant : State := { now := 500000 }

/-- A collection has just been added. -/
def added : State := ((Operation.create (some { userId := "u" }) "Tools" "Things to work with" []).run vacant).2

/-- The collection is renamed at an instant. -/
def renamed (s : State) (now : Instant) (title : String) : State :=
  ((Operation.edit (some { userId := "u" }) "00000000-0000-4000-8000-000000000001" { title }).run { s with now }).2

/-- The times that the row of the collection tells. -/
def timesOf (s : State) : Option (RowTime × RowTime) :=
  (s.db.committed.row? "00000000-0000-4000-8000-000000000001").map fun r => (r.created, r.updated)

theorem timed_vacant : vacant.Timed := ⟨rfl, List.nodup_nil, fun _ hr => nomatch hr⟩

theorem happens_added : Happens onward vacant added := Happens.refl.operate _ (by decide +kernel)

theorem Happens.rename (h : Happens onward s t) {now : Instant} {title : String} (hnow : Time.inRange now = true)
    (hlater : t.now ≤ now) (hdone : onward { t with now } (renamed t now title)) :
    Happens onward s (renamed t now title) := (h.clock now hnow hlater).operate _ hdone

theorem times_ordered_renamed :
    let t := renamed added 2000000 "Shed"
    vacant.Timed ∧ Happens onward vacant t ∧ timesOf added = some (.stamp (.exact 500000), .stamp (.exact 500000)) ∧
      timesOf t = some (.stamp (.exact 500000), .stamp (.second 2000000)) ∧
      ∀ r ∈ t.db.committed.collections, ∃ c u, r.created = .stamp (.exact c) ∧ r.updated = .stamp u ∧
        u.time ≤ t.now ∧ (c ≤ u.time ∨ u.time = Time.wholeSecond c) := by
  intro t
  have hruns : Happens onward vacant t := happens_added.rename (by decide) (by decide +kernel) (by decide +kernel)
  exact ⟨timed_vacant, hruns, by decide +kernel, by decide +kernel, (times_ordered timed_vacant hruns).1⟩

/-- The collection is renamed in the second in which it was added: the time of its last change goes back, and before
    that of its beginning. -/
theorem updated_before_created :
    let t := renamed added 700000 "Shed"
    vacant.Timed ∧ vacant.db.committed.collections = [] ∧ Happens onward vacant added ∧ Happens onward vacant t ∧
      timesOf added = some (.stamp (.exact 500000), .stamp (.exact 500000)) ∧
      timesOf t = some (.stamp (.exact 500000), .stamp (.second 700000)) ∧
      (Stamp.second 700000).time < (Stamp.exact 500000).time := by
  intro t
  have hruns : Happens onward vacant t := happens_added.rename (by decide) (by decide +kernel) (by decide +kernel)
  exact ⟨timed_vacant, rfl, happens_added, hruns, by decide +kernel, by decide +kernel, by decide⟩

end Service

end Curation
