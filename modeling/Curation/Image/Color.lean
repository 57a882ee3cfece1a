import Curation.Image.Library

/-! The colour of an icon, read from the bytes of its file. The bytes decide the format, not a name. -/

namespace Curation.Image

/-- How many colours are left before they are counted. -/
def maxColors : Nat := 4

/-- The main colour of the image in the data as one number: the most frequent one of its region. -/
def colorOf? (lib : Library) (data : ByteArray) : Option Nat := do
  let image ← lib.decode data
  let reduced ← lib.reduce maxColors image.region
  let (_, entry) ← largest? reduced.counts
  return (reduced.palette entry).packed

theorem colorOf?_range {lib : Library} {data : ByteArray} {n : Int}
    (h : ((colorOf? lib data).map fun n => (n : Int)) = some n) : 0 ≤ n ∧ n ≤ Rgb.maxPacked := by
  cases hc : colorOf? lib data with
  | none =>
    rw [hc] at h
    cases h
  | some m =>
    rw [hc] at h
    cases h
    simp only [colorOf?, bind, Option.bind_eq_some_iff, pure, Option.some.injEq] at hc
    obtain ⟨_, -, q, -, e, -, rfl⟩ := hc
    exact ⟨Int.natCast_nonneg _, Int.ofNat_le.mpr (q.palette e.2).packed_le⟩

end Curation.Image
