import Curation.Image.Formats
import Curation.Image.Color
import Mathlib.Algebra.BigOperators.Intervals
import Mathlib.Data.Finset.Prod

/-! Which colour stands for an image. An image is scaled to a square of 256 columns and rows; the pixels of a window of
    it, of 64 columns and rows, have one vote each, and the colour with the most votes is the one
    (`colorOf?_of_prominent`). The window lies right of the centre and below it, so that the centre may well be of
    another colour (`colorOf?_ne_of_centre`). -/

namespace Curation.Image

/-! ### Libraries -/

/-- Pixels of a few colours that were left as they are: an entry counts the pixels of its colour, and every colour of
    the pixels has one. -/
structure Reduced.Exact (q : Reduced) (pixels : List Rgb) : Prop where
  counted : ∀ e ∈ q.counts, e.1 = pixels.count (q.palette e.2)
  complete : ∀ c ∈ pixels, ∃ i, (pixels.count c, i) ∈ q.counts ∧ q.palette i = c

/-- Where there are few enough colours a library merges none of them. -/
def Library.Exact (lib : Library) : Prop :=
  ∀ pixels : List Rgb, pixels ≠ [] → pixels.toFinset.card ≤ maxColors →
    ∃ q, lib.reduce maxColors pixels = some q ∧ q.Exact pixels

theorem nodup_eraseDups (cs : List Rgb) : cs.eraseDups.Nodup := by
  induction hn : cs.length using Nat.strong_induction_on generalizing cs with
  | _ n ih =>
    cases cs with
    | nil => exact List.nodup_nil
    | cons c cs =>
      have hshort : (cs.filter fun d => !d == c).length < n :=
        hn ▸ Nat.lt_succ_of_le (List.length_filter_le ..)
      rw [List.eraseDups_cons, List.nodup_cons]
      exact ⟨by simp [List.mem_eraseDups], ih _ hshort _ rfl⟩

theorem length_eraseDups (cs : List Rgb) : cs.eraseDups.length = cs.toFinset.card := by
  have hsame : cs.toFinset = cs.eraseDups.toFinset := by
    ext c
    simp [List.mem_eraseDups]
  rw [hsame, List.toFinset_card_of_nodup (nodup_eraseDups cs)]

theorem Library.plain_exact : Library.plain.Exact := by
  intro pixels _ hfew
  have hlength : ¬ maxColors < pixels.eraseDups.length := by
    rw [length_eraseDups]
    exact Nat.not_lt.mpr hfew
  refine ⟨_, if_neg hlength, ⟨fun e he => ?_, fun c hc => ?_⟩⟩
  · obtain ⟨⟨c, i⟩, hi, rfl⟩ := List.mem_map.mp he
    show pixels.count c = pixels.count (pixels.eraseDups[i]?.getD .black)
    rw [List.mem_zipIdx_iff_getElem?.mp hi, Option.getD_some]
  · obtain ⟨i, hi⟩ := List.getElem?_of_mem (List.mem_eraseDups.mpr hc)
    exact ⟨i, List.mem_map.mpr ⟨(c, i), List.mem_zipIdx_iff_getElem?.mpr hi, rfl⟩, congrArg (Option.getD · _) hi⟩

/-! ### The entry that counts most -/

theorem larger_spec (e f : Nat × Nat) :
    (larger e f = e ∨ larger e f = f) ∧ e.1 ≤ (larger e f).1 ∧ f.1 ≤ (larger e f).1 := by
  unfold larger
  split
  next h =>
    have hle : e.1 ≤ f.1 := by
      simp only [Bool.or_eq_true, Bool.and_eq_true, decide_eq_true_eq, beq_iff_eq] at h
      omega
    exact ⟨.inr rfl, hle, Nat.le_refl _⟩
  next h =>
    have hle : f.1 ≤ e.1 := by
      simp only [Bool.or_eq_true, Bool.and_eq_true, decide_eq_true_eq, beq_iff_eq, not_or] at h
      omega
    exact ⟨.inl rfl, Nat.le_refl _, hle⟩

theorem foldl_larger_spec (es : List (Nat × Nat)) (e : Nat × Nat) :
    es.foldl larger e ∈ e :: es ∧ ∀ f ∈ e :: es, f.1 ≤ (es.foldl larger e).1 := by
  induction es generalizing e with
  | nil => simp
  | cons f es ih =>
    obtain ⟨hmem, hmost⟩ := ih (larger e f)
    obtain ⟨hone, he, hf⟩ := larger_spec e f
    have hbest := hmost _ List.mem_cons_self
    refine ⟨?_, fun g hg => ?_⟩
    · rcases List.mem_cons.mp hmem with heq | hlater
      · rw [List.foldl_cons, heq]
        rcases hone with heq | heq <;> simp [heq]
      · exact List.mem_cons_of_mem _ (List.mem_cons_of_mem _ hlater)
    · rcases List.mem_cons.mp hg with rfl | hg
      · exact Nat.le_trans he hbest
      rcases List.mem_cons.mp hg with rfl | hg
      · exact Nat.le_trans hf hbest
      · exact hmost g (List.mem_cons_of_mem _ hg)

theorem largest?_of_mem {es : List (Nat × Nat)} {e : Nat × Nat} (he : e ∈ es) :
    ∃ f ∈ es, largest? es = some f ∧ ∀ g ∈ es, g.1 ≤ f.1 := by
  cases es with
  | nil => cases he
  | cons first es =>
    obtain ⟨hmem, hmost⟩ := foldl_larger_spec es first
    exact ⟨_, hmem, rfl, hmost⟩

/-- A colour that occurs more often than any other has the entry that counts most. -/
theorem Reduced.Exact.largest?_eq {q : Reduced} {pixels : List Rgb} {c : Rgb} (h : q.Exact pixels) (hc : c ∈ pixels)
    (hmost : ∀ d, d ≠ c → pixels.count d < pixels.count c) :
    ∃ e, largest? q.counts = some e ∧ q.palette e.2 = c := by
  obtain ⟨i, hi, -⟩ := h.complete c hc
  obtain ⟨e, he, hlargest, hle⟩ := largest?_of_mem hi
  refine ⟨e, hlargest, ?_⟩
  by_contra hother
  have hcount := hle _ hi
  rw [h.counted e he] at hcount
  exact absurd (hmost _ hother) (Nat.not_lt.mpr hcount)

/-! ### What is looked at -/

namespace Raster

-- irreducible, since a window at a given place would be unfolded to its thousands of pixels
/-- The pixels of a square of the scaled image whose first column and row have the given number. -/
@[irreducible] def window (start : Nat) : Finset (Nat × Nat) :=
  Finset.Ico start (start + 64) ×ˢ Finset.Ico start (start + 64)

variable {c : Rgb} {start : Nat}

/-- The pixel of the image that is shown at a column and row of the scaled image. -/
def shown (r : Raster) (p : Nat × Nat) : Rgb := r.pixel ((2 * p.1 + 1) * r.width / 512) ((2 * p.2 + 1) * r.height / 512)

/-- The number of pixels of a square of the scaled image that show a colour. -/
def votes (r : Raster) (start : Nat) (c : Rgb) : Nat := ((window start).filter fun p => r.shown p = c).card

/-- A square of the scaled image shows a colour more often than any other. It has four colours at most: of more than
    that some would be merged before they are counted. -/
structure Prominent (r : Raster) (start : Nat) (c : Rgb) : Prop where
  few : ((window start).image r.shown).card ≤ 4
  most : ∀ d, d ≠ c → r.votes start d < r.votes start c

theorem count_map_range (n : Nat) (f : Nat → Rgb) (c : Rgb) :
    ((List.range n).map f).count c = ∑ x ∈ Finset.range n, if f x = c then 1 else 0 := by
  induction n with
  | zero => rfl
  | succ n ih =>
    rw [List.range_succ, List.map_append, List.count_append, ih, Finset.sum_range_succ, List.map_singleton,
      List.count_singleton]
    simp only [beq_iff_eq]

theorem count_flatMap_range (n : Nat) (f : Nat → List Rgb) (c : Rgb) :
    ((List.range n).flatMap f).count c = ∑ y ∈ Finset.range n, (f y).count c := by
  induction n with
  | zero => rfl
  | succ n ih =>
    rw [List.range_succ, List.flatMap_append, List.count_append, ih, Finset.sum_range_succ, List.flatMap_singleton]

theorem count_region (r : Raster) (c : Rgb) : r.region.count c = r.votes 128 c := by
  have hcolumns : (window 128).sum (fun p => if r.shown p = c then 1 else 0) =
      ∑ y ∈ Finset.range 64, ∑ x ∈ Finset.range 64, if r.shown (128 + x, 128 + y) = c then 1 else 0 := by
    rw [window, Finset.sum_product_right, Finset.sum_Ico_eq_sum_range]
    refine Finset.sum_congr rfl fun y _ => ?_
    rw [Finset.sum_Ico_eq_sum_range]
  rw [votes, Finset.card_filter, hcolumns, region, count_flatMap_range]
  exact Finset.sum_congr rfl fun y _ => count_map_range _ _ _

theorem toFinset_region (r : Raster) : r.region.toFinset = (window 128).image r.shown := by
  ext c
  rw [List.mem_toFinset, ← List.count_pos_iff, count_region, votes, Finset.card_pos, Finset.filter_nonempty_iff,
    Finset.mem_image]

/-- A library that merges no colours comes to the colour that is shown most. -/
theorem Prominent.colorOf?_eq {r : Raster} {lib : Library} {data : ByteArray} (h : r.Prominent 128 c)
    (hexact : lib.Exact) (hdecode : lib.decode data = some r) : colorOf? lib data = some c.packed := by
  have hmost : ∀ d, d ≠ c → r.region.count d < r.region.count c := fun d hd => by
    rw [count_region, count_region]
    exact h.most d hd
  obtain ⟨d, hd⟩ : ∃ d : Rgb, d ≠ c := by
    by_cases hc : c = .black
    · exact ⟨.grey 1, hc ▸ by decide⟩
    · exact ⟨.black, fun h => hc h.symm⟩
  have hc : c ∈ r.region := List.count_pos_iff.mp (Nat.zero_lt_of_lt (hmost d hd))
  have hfew : r.region.toFinset.card ≤ maxColors := r.toFinset_region ▸ h.few
  obtain ⟨q, hreduce, hq⟩ := hexact r.region (List.ne_nil_of_mem hc) hfew
  obtain ⟨e, hlargest, he⟩ := hq.largest?_eq hc hmost
  simp [colorOf?, hdecode, hreduce, hlargest, he]

theorem votes_congr {r r' : Raster} (h : ∀ p ∈ window start, r'.shown p = r.shown p) (c : Rgb) :
    r'.votes start c = r.votes start c := by
  unfold votes
  rw [Finset.filter_congr fun p hp => by rw [h p hp]]

theorem Prominent.congr {r r' : Raster} (h : r.Prominent start c) (hsame : ∀ p ∈ window start, r'.shown p = r.shown p) :
    r'.Prominent start c where
  few := by
    rw [Finset.image_congr hsame]
    exact h.few
  most d hd := by
    rw [votes_congr hsame, votes_congr hsame]
    exact h.most d hd

/-- A colour that more than half of the pixels show is shown more often than any other. -/
theorem votes_lt_of_half {r : Raster} (h : 64 * 64 < 2 * r.votes start c) {d : Rgb} (hd : d ≠ c) :
    r.votes start d < r.votes start c := by
  have hdisjoint : Disjoint ((window start).filter fun p => r.shown p = d)
      ((window start).filter fun p => r.shown p = c) :=
    Finset.disjoint_filter.mpr fun p _ hpd hpc => hd (hpd ▸ hpc)
  have hall : (window start).card = 64 * 64 := by simp [window]
  have hle : r.votes start d + r.votes start c ≤ (window start).card := by
    rw [votes, votes, ← Finset.card_union_of_disjoint hdisjoint]
    exact Finset.card_le_card (Finset.union_subset (Finset.filter_subset _ _) (Finset.filter_subset _ _))
  omega

/-- A scaled image shows pixels of the image. -/
theorem shown_inside {r : Raster} (hwidth : 0 < r.width) (hheight : 0 < r.height) {p : Nat × Nat}
    (hp : p.1 < 256 ∧ p.2 < 256) :
    (2 * p.1 + 1) * r.width / 512 < r.width ∧ (2 * p.2 + 1) * r.height / 512 < r.height := by
  refine ⟨Nat.div_lt_of_lt_mul ?_, Nat.div_lt_of_lt_mul ?_⟩
  · exact Nat.mul_lt_mul_of_pos_right (by omega) hwidth
  · exact Nat.mul_lt_mul_of_pos_right (by omega) hheight

end Raster

/-- The colour of an icon is that of one window of the scaled image, whatever decodes the image, if it merges no colours
    where there are few. If at most four colours are in the window and one of them is shown more often than any other,
    this one is the colour, red in the highest bits. Only pixels of the image are looked at, and none that the window
    does not show makes a difference. -/
theorem colorOf?_of_prominent {lib : Library} {data : ByteArray} {r : Raster} {c : Rgb} (hexact : lib.Exact)
    (hdecode : lib.decode data = some r) (hwidth : 0 < r.width) (hheight : 0 < r.height) (hmain : r.Prominent 128 c) :
    colorOf? lib data = some (c.red.toNat * 65536 + c.green.toNat * 256 + c.blue.toNat) ∧
      (∀ p ∈ Raster.window 128, (2 * p.1 + 1) * r.width / 512 < r.width ∧ (2 * p.2 + 1) * r.height / 512 < r.height) ∧
      ∀ data' r', lib.decode data' = some r' → (∀ p ∈ Raster.window 128, r'.shown p = r.shown p) →
        colorOf? lib data' = colorOf? lib data := by
  have hcolor := hmain.colorOf?_eq hexact hdecode
  refine ⟨?_, fun p hp => ?_, fun data' r' hdecode' hsame => ?_⟩
  · rw [hcolor, Rgb.packed]
  · simp only [Raster.window, Finset.mem_product, Finset.mem_Ico] at hp
    exact Raster.shown_inside hwidth hheight (by omega)
  · rw [hcolor, (hmain.congr hsame).colorOf?_eq hexact hdecode']

/-! ### The centre -/

namespace Raster

variable {r : Raster}

/-- Columns of a square that show one colour only. -/
theorem le_votes {first last : Nat} (hfirst : start ≤ first) (hlast : last ≤ start + 64)
    (h : ∀ p, first ≤ p.1 → p.1 < last → start ≤ p.2 → p.2 < start + 64 → r.shown p = c) :
    (last - first) * 64 ≤ r.votes start c := by
  have hsub : Finset.Ico first last ×ˢ Finset.Ico start (start + 64) ⊆ (window start).filter fun p => r.shown p = c := by
    intro p hp
    simp only [Finset.mem_product, Finset.mem_Ico] at hp
    obtain ⟨⟨hleft, hright⟩, htop, hbottom⟩ := hp
    rw [Finset.mem_filter, window, Finset.mem_product, Finset.mem_Ico, Finset.mem_Ico]
    exact ⟨by omega, h p hleft hright htop hbottom⟩
  have hcard := Finset.card_le_card hsub
  rw [Finset.card_product, Nat.card_Ico, Nat.card_Ico, Nat.add_sub_cancel_left] at hcard
  exact hcard

end Raster

/-- A row of five pixels, three black ones and two white ones. -/
def sided : ByteArray := ⟨#[0x50, 0x35, 0x20, 0x35, 0x20, 0x31, 0x20, 0x32, 0x35, 0x35, 0x0a, 0, 0, 0, 0xff, 0xff]⟩

def white : Rgb := .grey 0xff

/-- The scaled image is black up to a column and white from there on. -/
def Raster.Sided (r : Raster) : Prop := ∀ p, p.1 < 256 → p.2 < 256 → r.shown p = if p.1 < 154 then .black else white

theorem decode_sided : ∃ r, Library.plain.decode sided = some r ∧ 0 < r.width ∧ 0 < r.height ∧ r.Sided := by
  -- what is decoded is decided by its size and its five pixels; the scaled image follows from these by arithmetic
  have hsize : (Library.plain.decode sided).map (fun r => (r.width, r.height)) = some (5, 1) := by decide +kernel
  have hpixels : (Library.plain.decode sided).map (fun r => (List.range 5).map (r.pixel · 0)) =
      some [.black, .black, .black, white, white] := by decide +kernel
  obtain ⟨r, hdecode, hsize⟩ := Option.map_eq_some_iff.mp hsize
  rw [hdecode] at hpixels
  simp only [Option.map_some, Option.some.injEq, Prod.mk.injEq] at hpixels hsize
  obtain ⟨hwidth, hheight⟩ := hsize
  have hpixel (n : Nat) (hn : n < 5) : r.pixel n 0 = if n < 3 then .black else white := by
    have hrow : r.pixel 0 0 = .black ∧ r.pixel 1 0 = .black ∧ r.pixel 2 0 = .black ∧ r.pixel 3 0 = white ∧
        r.pixel 4 0 = white := by
      simpa [List.range_succ] using hpixels
    match n, hn with
    | 0, _ => exact hrow.1
    | 1, _ => exact hrow.2.1
    | 2, _ => exact hrow.2.2.1
    | 3, _ => exact hrow.2.2.2.1
    | 4, _ => exact hrow.2.2.2.2
  refine ⟨r, hdecode, by omega, by omega, fun p hx hy => ?_⟩
  have hrow : (2 * p.2 + 1) * 1 / 512 = 0 := by omega
  rw [Raster.shown, hwidth, hheight, hrow, hpixel _ (by omega)]
  by_cases hleft : p.1 < 154
  · rw [if_pos hleft, if_pos (by omega)]
  · rw [if_neg hleft, if_neg (by omega)]

namespace Raster.Sided

variable {r : Raster}

theorem prominent (h : r.Sided) (hstart : start ≤ 192) (hhalf : 64 * 64 < 2 * r.votes start c) :
    r.Prominent start c where
  few := by
    have hsub : (window start).image r.shown ⊆ {.black, white} := by
      intro d hd
      obtain ⟨p, hp, rfl⟩ := Finset.mem_image.mp hd
      rw [window, Finset.mem_product, Finset.mem_Ico, Finset.mem_Ico] at hp
      rw [h p (by omega) (by omega)]
      split <;> simp
    exact Nat.le_trans (Finset.card_le_card hsub) (Nat.le_trans Finset.card_le_two (by decide))
  most d hd := votes_lt_of_half hhalf hd

/-- More than half of the window that is looked at is white. -/
theorem prominent_white (h : r.Sided) : r.Prominent 128 white := by
  have hvotes : (192 - 154) * 64 ≤ r.votes 128 white :=
    le_votes (by decide) (by decide) fun p hleft hright _ hbottom => by
      rw [h p (by omega) (by omega), if_neg (by omega)]
  exact h.prominent (by decide) (by omega)

/-- Nearly all of the centre is black. -/
theorem prominent_black (h : r.Sided) : r.Prominent 96 .black := by
  have hvotes : (154 - 96) * 64 ≤ r.votes 96 .black :=
    le_votes (by decide) (by decide) fun p hleft hright _ hbottom => by
      rw [h p (by omega) (by omega), if_pos hright]
  exact h.prominent (by decide) (by omega)

end Raster.Sided

/-- More than half of what is looked at is white. -/
theorem colorOf?_of_prominent_sided : ∃ r, Library.plain.decode sided = some r ∧ r.Prominent 128 white ∧
    Library.plain.Exact ∧ colorOf? .plain sided = some 0xffffff := by
  obtain ⟨r, hdecode, hwidth, hheight, hr⟩ := decode_sided
  obtain ⟨hcolor, -⟩ := colorOf?_of_prominent Library.plain_exact hdecode hwidth hheight hr.prominent_white
  exact ⟨r, hdecode, hr.prominent_white, Library.plain_exact, hcolor⟩

/-- The window is not the centre: nearly all of the centre is black, and the colour is another. -/
theorem colorOf?_ne_of_centre : ¬ ∀ (lib : Library) (data : ByteArray) (r : Raster) (c : Rgb), lib.Exact →
    lib.decode data = some r → 0 < r.width → 0 < r.height → r.Prominent 96 c →
    colorOf? lib data = some (c.red.toNat * 65536 + c.green.toNat * 256 + c.blue.toNat) := by
  intro hcentre
  obtain ⟨r, hdecode, hwidth, hheight, hr⟩ := decode_sided
  have hblack := hcentre .plain sided r .black Library.plain_exact hdecode hwidth hheight hr.prominent_black
  rw [hr.prominent_white.colorOf?_eq Library.plain_exact hdecode] at hblack
  exact absurd hblack (by decide)

end Curation.Image
