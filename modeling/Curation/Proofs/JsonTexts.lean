import Curation.Json.Parse
import Curation.Proofs.Results
import Mathlib.Data.List.Basic

/-! Texts of the interchange format, as they are written between quotes (`Quoted`). Reading one gives the characters
    that are written, and what is read as characters is written so. -/

namespace Curation.Json

/-! ### Code units -/

/-- Four hexadecimal digits write a code unit. -/
def WritesUnit (digits : List Point) (unit : Nat) : Prop := digits.length = 4 ∧ hexUnit? digits = some unit

/-- The number that hexadecimal digits go on to write after others. -/
def hexFrom (n : Option Nat) (digits : List Point) : Option Nat :=
  digits.foldl (fun n p => do return (← n) * 16 + (← p.bind hexDigit?)) n

theorem hexFrom_none (digits : List Point) : hexFrom none digits = none := by
  induction digits with
  | nil => rfl
  | cons c digits ih => exact ih

theorem isSome_of_hexFrom {m n : Nat} {digits : List Point} (h : hexFrom (some m) digits = some n) :
    ∀ p ∈ digits, (p.bind hexDigit?).isSome := by
  induction digits generalizing m with
  | nil => exact fun _ hp => nomatch hp
  | cons p digits ih =>
    cases hdigit : p.bind hexDigit? with
    | none =>
      have hnone : hexFrom (some m) (p :: digits) = hexFrom none digits := by simp [hexFrom, hdigit]
      rw [hnone, hexFrom_none] at h
      cases h
    | some d =>
      have hnext : hexFrom (some m) (p :: digits) = hexFrom (some (m * 16 + d)) digits := by simp [hexFrom, hdigit]
      rw [hnext] at h
      intro x hx
      rcases List.mem_cons.mp hx with rfl | hx
      · rw [hdigit]
        rfl
      · exact ih h x hx

theorem WritesUnit.hexFrom_eq {digits : List Point} {unit : Nat} (h : WritesUnit digits unit) :
    hexFrom (some 0) digits = some unit := by
  obtain ⟨hlength, hunit⟩ := h
  rw [hexUnit?, if_neg (by omega), List.take_of_length_le (Nat.le_of_eq hlength)] at hunit
  exact hunit

theorem hexUnit?_eq_some {ps : List Point} {unit : Nat} :
    hexUnit? ps = some unit ↔ ∃ digits rest, ps = digits ++ rest ∧ WritesUnit digits unit := by
  constructor
  · intro h
    unfold hexUnit? at h
    split at h
    · cases h
    · refine ⟨ps.take 4, ps.drop 4, (List.take_append_drop 4 ps).symm, List.length_take_of_le (by omega), ?_⟩
      rw [hexUnit?, if_neg (by rw [List.length_take]; omega), List.take_take]
      exact h
  · rintro ⟨digits, rest, rfl, hlength, hunit⟩
    unfold hexUnit? at hunit ⊢
    rw [if_neg (by omega), List.take_of_length_le (Nat.le_of_eq hlength)] at hunit
    rw [if_neg (by rw [List.length_append]; omega), List.take_left' hlength]
    exact hunit

/-- The code point that a pair of surrogates writes. -/
def pairPoint (high low : Nat) : Nat := 0x10000 + (high - 0xd800) * 0x400 + (low - 0xdc00)

/-- What is after a backslash and the letter for a code unit writes the number of a code point, with a unit or with a
    pair. -/
inductive TakesUnit : List Point → Nat → Nat → Prop
  | single {digits rest : List Point} {unit : Nat} (h : WritesUnit digits unit) : TakesUnit (digits ++ rest) unit 6
  | pair {digits digits' rest : List Point} {high low : Nat} (h : WritesUnit digits high)
    (h' : WritesUnit digits' low) (hhigh : isHighSurrogate high = true) (hlow : isLowSurrogate low = true) :
    TakesUnit (digits ++ some '\\' :: some 'u' :: (digits' ++ rest)) (pairPoint high low) 12

theorem readUnit_eq_ok {ps : List Point} {n length : Nat} (h : readUnit ps = .ok (n, length)) :
    TakesUnit ps n length := by
  unfold readUnit at h
  split at h
  · cases h
  next unit hunit =>
    split at hunit
    · cases hunit
    obtain ⟨digits, rest, rfl, hdigits⟩ := hexUnit?_eq_some.mp hunit
    rw [List.drop_left' hdigits.1] at h
    split at h
    next hhigh _ =>
      split at h
      · cases h
        exact .single hdigits
      split at h
      · cases h
      next low hlow =>
        split at h
        next hlow' =>
          obtain ⟨digits', rest', rfl, hdigits'⟩ := hexUnit?_eq_some.mp hlow
          rw [Except.ok.injEq, Prod.mk.injEq] at h
          obtain ⟨rfl, rfl⟩ := h
          exact .pair hdigits hdigits' hhigh hlow'
        next =>
          cases h
          exact .single hdigits
    next =>
      cases h
      exact .single hdigits

/-- One code point of a text as it is written, and how many code points write it. -/
inductive Takes : List Point → Point → Nat → Prop
  | plain {p : Point} {ps : List Point} (hprintable : p.any (·.toNat < 0x20) = false) (hquote : p ≠ some '"')
    (hslash : p ≠ some '\\') : Takes (p :: ps) p 1
  | escape {c d : Char} {ps : List Point} (h : escaped? c = some d) : Takes (some '\\' :: some c :: ps) (some d) 2
  | unit {ps : List Point} {n length : Nat} (h : TakesUnit ps n length) :
    Takes (some '\\' :: some 'u' :: ps) (.ofNat n) length

/-- Reading a text takes one code point after the other up to a quote. -/
theorem readText_eq_ok {start fuel : Nat} {r rest : Rest} {out ps : List Point}
    (h : readText start fuel r out = .ok (ps, rest)) :
    ∃ f, fuel = f + 1 ∧ ((∃ qs, r.points = some '"' :: qs ∧ ps = out.reverse ∧ rest = r.skip 1) ∨
      ∃ p length, Takes r.points p length ∧ readText start f (r.skip length) (p :: out) = .ok (ps, rest)) := by
  cases fuel with
  | zero => cases h
  | succ f =>
    refine ⟨f, rfl, ?_⟩
    rw [readText.eq_def] at h
    simp only at h
    split at h
    · cases h
    next qs hpoints =>
      cases h
      exact .inl ⟨qs, hpoints, rfl, rfl⟩
    · cases h
    next qs hpoints =>
      split at h
      next n length hunit => exact .inr ⟨_, length, hpoints ▸ .unit (readUnit_eq_ok hunit), h⟩
      · cases h
    next p qs hend hunit hpoints =>
      split at h
      next d hd =>
        obtain ⟨c, rfl, hc⟩ := Option.bind_eq_some_iff.mp hd
        exact .inr ⟨_, 2, hpoints ▸ .escape hc, h⟩
      · cases h
    next p qs hquote hend hunit hescape hpoints =>
      split at h
      · cases h
      next hprintable =>
        have hslash : p ≠ some '\\' := by
          rintro rfl
          cases qs with
          | nil => exact hend rfl rfl
          | cons q qs => exact hescape q qs rfl rfl
        exact .inr ⟨p, 1, hpoints ▸ .plain (Bool.eq_false_iff.mpr hprintable) hquote hslash, h⟩

theorem valid_toNat (c : Char) : c.toNat < 0xd800 ∨ 0xdfff < c.toNat ∧ c.toNat < 0x110000 := c.valid

theorem isHighSurrogate_toNat (c : Char) : isHighSurrogate c.toNat = false := by
  have hvalid := valid_toNat c
  simp only [isHighSurrogate, Bool.and_eq_false_iff, decide_eq_false_iff_not]
  omega

/-- Only its own number gives a character. -/
theorem Point.toNat_of_ofNat {n : Nat} {c : Char} (h : Point.ofNat n = some c) : c.toNat = n := by
  unfold ofNat at h
  split at h
  next hvalid =>
    cases h
    rw [Char.ofNat, dif_pos hvalid]
    rfl
  · cases h

/-- What writes a character is read as it, unless the text breaks off after it. -/
theorem readUnit_of_takes {ps : List Point} {c : Char} {length : Nat} (h : TakesUnit ps c.toNat length)
    (hrest : length < ps.length + 2) : readUnit ps = .ok (c.toNat, length) := by
  generalize hnumber : c.toNat = n at h
  cases h with
  | @single digits rest unit hdigits =>
    have hlength := hdigits.1
    rw [List.length_append] at hrest
    have hunit := hexUnit?_eq_some.mpr ⟨digits, rest, rfl, hdigits⟩
    have hhigh : isHighSurrogate n = false := hnumber ▸ isHighSurrogate_toNat c
    rw [readUnit, if_neg (by rw [List.length_append]; omega), hunit]
    simp only [hhigh]
  | @pair digits digits' rest high low hdigits hdigits' hhigh hlow =>
    have hlength := hdigits.1
    have hlength' := hdigits'.1
    simp only [List.length_append, List.length_cons] at hrest
    have hunit := hexUnit?_eq_some.mpr ⟨digits, some '\\' :: some 'u' :: (digits' ++ rest), rfl, hdigits⟩
    have hunit' := hexUnit?_eq_some.mpr ⟨digits', rest, rfl, hdigits'⟩
    rw [readUnit, if_neg (by simp only [List.length_append, List.length_cons]; omega), hunit, List.drop_left' hlength]
    simp only [hhigh, hunit', hlow, if_true]
    rw [if_neg (by rw [List.length_append]; omega)]
    rfl

theorem readText_of_takes {start fuel : Nat} {r : Rest} {out : List Point} {c : Char} {length : Nat}
    (h : Takes r.points (some c) length) (hrest : length < r.points.length) :
    readText start (fuel + 1) r out = readText start fuel (r.skip length) (some c :: out) := by
  rw [readText.eq_def]
  simp only
  generalize hpoints : r.points = ps at h hrest
  generalize hpoint : some c = p at h
  -- how the character is written leaves one way only in which it can be read
  cases h with
  | plain hprintable hquote hslash =>
    split <;> rename_i heq <;> cases heq
    · exact absurd rfl hquote
    · exact absurd rfl hslash
    · exact absurd rfl hslash
    · exact absurd rfl hslash
    · exact if_neg (Bool.eq_false_iff.mp hprintable)
  | @escape d e ps hd =>
    have hunit : d ≠ 'u' := by
      rintro rfl
      cases hd
    split <;> rename_i heq <;> cases heq
    · exact absurd rfl hunit
    · simp only [Option.bind_some, hd]
    · rename_i hescape
      exact (hescape _ _ rfl rfl).elim
  | @unit ps n length hunit =>
    have hnumber := Point.toNat_of_ofNat hpoint.symm
    subst hnumber
    rw [List.length_cons, List.length_cons] at hrest
    simp only [readUnit_of_takes hunit hrest]

/-- A text as it is written after its opening quote, up to the closing one, and what follows it. -/
inductive Quoted : List Point → List Char → List Point → Prop
  | close (rest : List Point) : Quoted (some '"' :: rest) [] rest
  | next {ps rest : List Point} {s : List Char} {c : Char} {length : Nat} (hc : Takes ps (some c) length)
    (hs : Quoted (ps.drop length) s rest) : Quoted ps (c :: s) rest

variable {ps rest : List Point} {s : List Char}

theorem Takes.pos {p : Point} {length : Nat} (h : Takes ps p length) : 0 < ps.length ∧ 0 < length := by
  cases h with
  | plain | escape => simp
  | unit h => cases h <;> simp

theorem Quoted.length_pos (h : Quoted ps s rest) : 0 < ps.length := by
  cases h with
  | close => exact Nat.succ_pos _
  | next hc => exact hc.pos.1

theorem Quoted.length_lt (h : Quoted ps s rest) : rest.length < ps.length := by
  induction h with
  | close => exact Nat.lt_succ_self _
  | next hc _ ih =>
    rw [List.length_drop] at ih
    omega

/-- Reading gives the characters that are written. -/
theorem readText_of_quoted (h : Quoted ps s rest) {fuel : Nat} (hfuel : ps.length ≤ fuel) (start position : Nat)
    (out : List Point) :
    ∃ p, readText start fuel ⟨ps, position⟩ out = .ok (out.reverse ++ s.map some, ⟨rest, p⟩) := by
  induction h generalizing fuel position out with
  | close rest =>
    obtain ⟨f, rfl⟩ : ∃ f, fuel = f + 1 := ⟨fuel - 1, by rw [List.length_cons] at hfuel; omega⟩
    exact ⟨position + 1, by rw [readText.eq_def]; simp [Rest.skip]⟩
  | @next ps rest s c length hc hs ih =>
    have hleft := hs.length_pos
    rw [List.length_drop] at hleft
    have hlength := hc.pos.2
    obtain ⟨f, rfl⟩ : ∃ f, fuel = f + 1 := ⟨fuel - 1, by omega⟩
    have hf : (ps.drop length).length ≤ f := by
      rw [List.length_drop]
      omega
    obtain ⟨p, hp⟩ := ih hf (position + length) (some c :: out)
    refine ⟨p, ?_⟩
    rw [readText_of_takes hc (by simp only; omega), Rest.skip, hp]
    simp

/-- What is read is what is written, if it consists of characters. -/
theorem readText_quoted {start fuel : Nat} {r rest : Rest} {out ps : List Point}
    (h : readText start fuel r out = .ok (ps, rest)) :
    ∃ qs, ps = out.reverse ++ qs ∧ ∀ s : List Char, s.map some = qs → Quoted r.points s rest.points := by
  induction fuel generalizing r out with
  | zero => cases h
  | succ fuel ih =>
    obtain ⟨f, hf, ⟨qs, hpoints, rfl, rfl⟩ | ⟨p, length, htakes, hrest⟩⟩ := readText_eq_ok h
    · refine ⟨[], (List.append_nil _).symm, fun s hs => ?_⟩
      obtain rfl := List.map_eq_nil_iff.mp hs
      rw [Rest.skip, hpoints]
      exact .close qs
    · obtain rfl : f = fuel := by omega
      obtain ⟨qs, hqs, hquoted⟩ := ih hrest
      refine ⟨p :: qs, by rw [hqs]; simp, fun s hs => ?_⟩
      obtain ⟨c, s, rfl, rfl, hmap⟩ := List.map_eq_cons_iff.mp hs
      exact .next htakes (hquoted s hmap)

theorem Value.ofPoints_eq_text {text : String} : Value.ofPoints ps = .text text ↔ ps = pointsOf text := by
  have hchars (cs : List Char) : ps.mapM id = some cs ↔ ps = cs.map some := mapM_eq_some_iff_map fun _ _ => Iff.rfl
  unfold ofPoints
  split
  next cs hcs =>
    obtain rfl := (hchars cs).mp hcs
    rw [Value.text.injEq, pointsOf, (List.map_injective_iff.mpr fun _ _ => Option.some.inj).eq_iff, ← String.toList_inj,
      String.toList_ofList]
  next hnone =>
    refine ⟨nofun, fun h => ?_⟩
    rw [(hchars _).mpr h] at hnone
    cases hnone

/-- A text from its opening quote is read as what is written, if it consists of characters. -/
theorem readTextAt_eq_text {fuel : Nat} {r rest : Rest} {qs : List Point} {text : String}
    (hpoints : r.points = some '"' :: qs) (h : readTextAt fuel r = .ok (.text text, rest)) :
    Quoted qs text.toList rest.points := by
  obtain ⟨⟨ps, rest'⟩, hread, hvalue⟩ := bind_eq_ok.mp h
  simp only [pure, Except.pure, Except.ok.injEq, Prod.mk.injEq] at hvalue
  obtain ⟨hvalue, rfl⟩ := hvalue
  obtain ⟨qs', rfl, hquoted⟩ := readText_quoted hread
  rw [Rest.skip, hpoints] at hquoted
  exact hquoted _ (Value.ofPoints_eq_text.mp hvalue).symm

theorem readTextAt_of_quoted (h : Quoted ps s rest) {fuel : Nat} (hfuel : ps.length ≤ fuel) (position : Nat) :
    ∃ p, readTextAt fuel ⟨some '"' :: ps, position⟩ = .ok (.text (String.ofList s), ⟨rest, p⟩) := by
  obtain ⟨p, hp⟩ := readText_of_quoted h hfuel position (position + 1) []
  refine ⟨p, bind_eq_ok.mpr ⟨_, hp, ?_⟩⟩
  have htext : Value.ofPoints (s.map some) = .text (String.ofList s) :=
    Value.ofPoints_eq_text.mpr (by rw [pointsOf, String.toList_ofList])
  simp only [List.reverse_nil, List.nil_append, htext]
  rfl

end Curation.Json
