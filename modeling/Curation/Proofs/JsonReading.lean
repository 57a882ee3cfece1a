import Curation.Proofs.JsonTexts
import Mathlib.Data.List.TakeWhile

/-! Where reading the interchange format goes, and what it can come to. A value that is read ends at the level of lists
    and records at which it starts; a text is refused as too large only if it has a run of digits that is too long, or
    opens too many lists and records, each one in the one before. -/

namespace Curation.Json

/-! ### Levels -/

/-- Where a character of a text stands: outside of quotes, between them, or there right after a backslash. -/
inductive Region where
  | outside
  | quoted
  | escaped

/-- How many lists and records are open after another character. Brackets between quotes do not count. -/
def track : Region × Nat → Point → Region × Nat
  | (.outside, level), c =>
    if c = some '"' then (.quoted, level)
    else if c = some '[' ∨ c = some '{' then (.outside, level + 1)
    else if c = some ']' ∨ c = some '}' then (.outside, level - 1)
    else (.outside, level)
  | (.quoted, level), c =>
    if c = some '"' then (.outside, level) else if c = some '\\' then (.escaped, level) else (.quoted, level)
  | (.escaped, level), _ => (.quoted, level)

/-- So many lists and records are open after some characters. -/
def levelAfter (cs : List Point) : Nat := (cs.foldl track (.outside, 0)).2

/-- Characters that stand outside of quotes take the level from `a` to `b`, wherever that begins. -/
def Tracks (a b : Nat) (cs : List Point) : Prop :=
  ∀ level, cs.foldl track (.outside, level + a) = (.outside, level + b)

theorem Tracks.append {a b c : Nat} {cs ds : List Point} (h : Tracks a b cs) (h' : Tracks b c ds) :
    Tracks a c (cs ++ ds) := by
  intro level
  rw [List.foldl_append, h level, h' level]

theorem Tracks.add {a b : Nat} {cs : List Point} (h : Tracks a b cs) (n : Nat) : Tracks (n + a) (n + b) cs := by
  intro level
  rw [← Nat.add_assoc, ← Nat.add_assoc]
  exact h (level + n)

/-- A character that is no quote and no bracket. -/
def Plain (c : Point) : Prop := c ∉ [some '"', some '[', some '{', some ']', some '}']

instance : DecidablePred Plain := fun c => inferInstanceAs (Decidable (c ∉ _))

theorem tracks_of_plain {cs : List Point} (h : ∀ c ∈ cs, Plain c) (a : Nat) : Tracks a a cs := by
  intro level
  induction cs with
  | nil => rfl
  | cons c cs ih =>
    have hc : Plain c := h c List.mem_cons_self
    have hstep : track (.outside, level + a) c = (.outside, level + a) := by
      simp only [Plain, List.mem_cons, List.not_mem_nil, or_false, not_or] at hc
      simp [track, hc]
    rw [List.foldl_cons, hstep]
    exact ih fun d hd => h d (List.mem_cons_of_mem _ hd)

/-- Reading goes on from one place to another and takes the level from `a` to `b`. -/
def Rest.Moves (a b : Nat) (r s : Rest) : Prop := ∃ taken, r.points = taken ++ s.points ∧ Tracks a b taken

variable {a b c depth depth' : Nat} {r s rest : Rest}

theorem Rest.Moves.trans (h : r.Moves a b s) (h' : s.Moves b c rest) : r.Moves a c rest := by
  obtain ⟨taken, hr, htracks⟩ := h
  obtain ⟨taken', hs, htracks'⟩ := h'
  exact ⟨taken ++ taken', by rw [hr, hs, List.append_assoc], htracks.append htracks'⟩

theorem Rest.Moves.add (h : r.Moves a b s) (n : Nat) : r.Moves (n + a) (n + b) s := by
  obtain ⟨taken, hr, htracks⟩ := h
  exact ⟨taken, hr, htracks.add n⟩

theorem Rest.moves_skip {taken : List Point} (htaken : taken <+: r.points) (h : Tracks a b taken) :
    r.Moves a b (r.skip taken.length) := by
  obtain ⟨left, hleft⟩ := htaken
  refine ⟨taken, ?_, h⟩
  rw [skip, ← hleft, List.drop_left]

theorem Rest.moves_skipSpace (r : Rest) (a : Nat) : r.Moves a a r.skipSpace := by
  refine moves_skip (List.takeWhile_prefix _) (tracks_of_plain (fun c hc => ?_) a)
  have hspace : isSpace c = true := List.mem_takeWhile_imp hc
  cases c with
  | none => cases hspace
  | some d =>
    simp only [isSpace, Option.any_some, Bool.or_eq_true, beq_iff_eq] at hspace
    rcases hspace with ((rfl | rfl) | rfl) | rfl <;> simp [Plain]

theorem Rest.moves_skip_one {c : Point} {cs : List Point} (hpoints : r.points = c :: cs) (h : Tracks a b [c]) :
    r.Moves a b (r.skip 1) := moves_skip ⟨cs, hpoints.symm⟩ h

theorem Rest.moves_opening {c : Point} {cs : List Point} (hc : c = some '[' ∨ c = some '{')
    (hpoints : r.points = c :: cs) : r.Moves 0 1 (r.skip 1).skipSpace := by
  have htracks : Tracks 0 1 [c] := by
    intro level
    rcases hc with rfl | rfl <;> rfl
  exact (moves_skip_one hpoints htracks).trans (moves_skipSpace _ 1)

theorem Rest.moves_closing {c : Point} {cs : List Point} (hc : c = some ']' ∨ c = some '}')
    (hpoints : r.points = c :: cs) : r.Moves 1 0 (r.skip 1) := by
  have htracks : Tracks 1 0 [c] := by
    intro level
    rcases hc with rfl | rfl <;> rfl
  exact moves_skip_one hpoints htracks

theorem Rest.expect_eq_ok {c : Char} (h : r.expect c = .ok s) :
    ∃ cs, r.skipSpace.points = some c :: cs ∧ s = r.skipSpace.skip 1 := by
  unfold expect at h
  simp only at h
  split at h
  next d cs hpoints =>
    split at h
    next hd =>
      cases h
      exact ⟨cs, by rw [hpoints, beq_iff_eq.mp hd], rfl⟩
    · cases h
  · cases h

/-- Reading goes on after a character that must be next and the white space around it. -/
theorem Rest.moves_expect {c : Char} (hc : Plain c) (h : r.expect c = .ok s) (a : Nat) : r.Moves a a s.skipSpace := by
  obtain ⟨cs, hpoints, rfl⟩ := expect_eq_ok h
  have hplain : ∀ d ∈ [some c], Plain d := fun d hd => List.mem_singleton.mp hd ▸ hc
  exact ((moves_skipSpace r a).trans (moves_skip_one hpoints (tracks_of_plain hplain a))).trans (moves_skipSpace _ a)

theorem Rest.expect_eq_error {c : Char} {e : ParseError} (h : r.expect c = .error e) : ∃ p, e = .malformed p := by
  unfold expect at h
  simp only at h
  split at h
  · split at h
    · cases h
    · cases h
      exact ⟨_, rfl⟩
  · cases h
    exact ⟨_, rfl⟩

/-! ### Texts -/

/-- Characters between quotes leave the level as it is. -/
def Steady (cs : List Point) : Prop := ∀ level, cs.foldl track (.quoted, level) = (.quoted, level)

theorem Steady.append {cs ds : List Point} (h : Steady cs) (h' : Steady ds) : Steady (cs ++ ds) := by
  intro level
  rw [List.foldl_append, h level, h' level]

theorem steady_of_plain {cs : List Point} (h : ∀ c ∈ cs, c ≠ some '"' ∧ c ≠ some '\\') : Steady cs := by
  intro level
  induction cs with
  | nil => rfl
  | cons c cs ih =>
    obtain ⟨hquote, hslash⟩ := h c List.mem_cons_self
    have hstep : track (.quoted, level) c = (.quoted, level) := by simp [track, hquote, hslash]
    rw [List.foldl_cons, hstep]
    exact ih fun d hd => h d (List.mem_cons_of_mem _ hd)

theorem steady_escape (c : Point) : Steady [some '\\', c] := fun _ => rfl

theorem WritesUnit.steady {digits : List Point} {unit : Nat} (h : WritesUnit digits unit) : Steady digits :=
  steady_of_plain fun c hc => by
    obtain ⟨n, hn⟩ := Option.isSome_iff_exists.mp (isSome_of_hexFrom h.hexFrom_eq c hc)
    constructor
    · rintro rfl
      cases hn
    · rintro rfl
      cases hn

theorem Takes.steady {cs : List Point} {p : Point} {length : Nat} (h : Takes cs p length) :
    ∃ taken, cs = taken ++ cs.drop length ∧ Steady taken := by
  cases h with
  | plain hprintable hquote hslash => exact ⟨[p], rfl, steady_of_plain (by simp [hquote, hslash])⟩
  | @escape c d cs h => exact ⟨[some '\\', some c], rfl, steady_escape (some c)⟩
  | unit h =>
    cases h with
    | @single digits rest unit hdigits =>
      refine ⟨some '\\' :: some 'u' :: digits, ?_, (steady_escape (some 'u')).append hdigits.steady⟩
      rw [List.drop_succ_cons, List.drop_succ_cons, List.drop_left' hdigits.1]
      rfl
    | @pair digits digits' rest high low hdigits hdigits' =>
      refine ⟨some '\\' :: some 'u' :: (digits ++ some '\\' :: some 'u' :: digits'), ?_,
        (steady_escape (some 'u')).append (hdigits.steady.append ((steady_escape (some 'u')).append hdigits'.steady))⟩
      have hlength : (digits ++ some '\\' :: some 'u' :: digits').length = 10 := by
        rw [List.length_append, List.length_cons, List.length_cons, hdigits.1, hdigits'.1]
      have hparts : digits ++ some '\\' :: some 'u' :: (digits' ++ rest) =
          (digits ++ some '\\' :: some 'u' :: digits') ++ rest := by simp
      rw [List.drop_succ_cons, List.drop_succ_cons, hparts, List.drop_left' hlength]
      rfl

/-- A text that is read ends at the level at which it starts. -/
theorem readText_moves {start fuel : Nat} {out ns : List Point} (h : readText start fuel r out = .ok (ns, rest)) :
    ∃ taken, r.points = taken ++ rest.points ∧ ∀ level, taken.foldl track (.quoted, level) = (.outside, level) := by
  induction fuel generalizing r out with
  | zero => cases h
  | succ fuel ih =>
    obtain ⟨f, hf, ⟨cs, hpoints, rfl, rfl⟩ | ⟨point, length, htakes, hrest⟩⟩ := readText_eq_ok h
    · exact ⟨[some '"'], by rw [Rest.skip, hpoints]; rfl, fun _ => rfl⟩
    · obtain rfl : f = fuel := by omega
      obtain ⟨taken, htaken, hsteady⟩ := htakes.steady
      obtain ⟨taken', htaken', hends⟩ := ih hrest
      refine ⟨taken ++ taken', ?_, fun level => ?_⟩
      · rw [List.append_assoc, ← htaken']
        exact htaken
      · rw [List.foldl_append, hsteady level, hends level]

theorem readText_eq_error {start fuel : Nat} {out : List Point} {e : ParseError}
    (h : readText start fuel r out = .error e) : ∃ p, e = .malformed p := by
  induction fuel generalizing r out with
  | zero =>
    cases h
    exact ⟨_, rfl⟩
  | succ fuel ih =>
    rw [readText.eq_def] at h
    simp only at h
    repeat' split at h
    all_goals first
      | exact ih h
      | (cases h; exact ⟨_, rfl⟩)
      | cases h

/-! ### Numbers and words -/

theorem Rest.Moves.refl (r : Rest) (a : Nat) : r.Moves a a r := ⟨[], rfl, fun _ => rfl⟩

theorem plain_of_isDigit {c : Point} (h : isDigit c = true) : Plain c := by
  intro hc
  simp only [List.mem_cons, List.not_mem_nil, or_false] at hc
  rcases hc with rfl | rfl | rfl | rfl | rfl <;> cases h

theorem tracks_digits {ds : List Point} (h : ∀ c ∈ ds, isDigit c = true) (a : Nat) : Tracks a a ds :=
  tracks_of_plain (fun c hc => plain_of_isDigit (h c hc)) a

theorem isDigit_of_mem_takeWhile {cs : List Point} : ∀ c ∈ cs.takeWhile isDigit, isDigit c = true :=
  fun _ hc => List.mem_takeWhile_imp hc

theorem moves_readSign (r : Rest) (a : Nat) : r.Moves a a (readSign r).2 := by
  unfold readSign
  split
  next cs hpoints => exact Rest.moves_skip_one hpoints (tracks_of_plain (by simp [Plain]) a)
  next cs hpoints => exact Rest.moves_skip_one hpoints (tracks_of_plain (by simp [Plain]) a)
  · exact .refl r a

theorem moves_readFraction (r : Rest) (a : Nat) : r.Moves a a (readFraction r).2 := by
  unfold readFraction
  split
  next cs hpoints =>
    simp only
    split
    · exact .refl r a
    · have hprefix : some '.' :: cs.takeWhile isDigit <+: r.points :=
        hpoints ▸ List.cons_prefix_cons.mpr ⟨rfl, List.takeWhile_prefix _⟩
      rw [Nat.add_comm]
      refine Rest.moves_skip hprefix (tracks_of_plain (fun c hc => ?_) a)
      rcases List.mem_cons.mp hc with rfl | hc
      · simp [Plain]
      · exact plain_of_isDigit (isDigit_of_mem_takeWhile c hc)
  · exact .refl r a

theorem moves_readExponent (r : Rest) (a : Nat) : r.Moves a a (readExponent r).2 := by
  unfold readExponent
  split
  next c cs hpoints =>
    split
    next he =>
      simp only
      split
      · exact .refl r a
      · have hplain : ∀ d ∈ [c], Plain d := by
          simp only [Bool.or_eq_true, beq_iff_eq] at he
          rcases he with rfl | rfl <;> simp [Plain]
        have hletter := Rest.moves_skip_one hpoints (tracks_of_plain hplain a)
        exact (hletter.trans (moves_readSign _ a)).trans
          (Rest.moves_skip (List.takeWhile_prefix _) (tracks_digits isDigit_of_mem_takeWhile a))
    · exact .refl r a
  · exact .refl r a

theorem moves_readWord? {v : Value} (h : readWord? r = some (v, rest)) (a : Nat) : r.Moves a a rest := by
  obtain ⟨⟨w, v'⟩, hw, hword⟩ := List.exists_of_findSome?_eq_some h
  obtain ⟨rest', hskip, heq⟩ := Option.map_eq_some_iff.mp hword
  cases heq
  unfold Rest.skipWord? at hskip
  split at hskip
  next hprefix =>
    cases hskip
    have hplain : ∀ w ∈ words, ∀ c ∈ pointsOf w.1, Plain c := by simp [words, pointsOf, Plain]
    exact Rest.moves_skip (List.isPrefixOf_iff_prefix.mp hprefix) (tracks_of_plain (hplain _ hw) a)
  · cases hskip

/-! ### What reading comes to -/

/-- A run of digits among characters is too long for an integer. -/
def HasHuge (n : Nat) (cs : List Point) : Prop :=
  maxDigits < n ∧ ∃ digits, digits <:+: cs ∧ digits.length = n ∧ ∀ c ∈ digits, isDigit c = true

/-- What reading a value comes to where `a` lists and records are open and `depth` more may be opened. It ends where
    none of them is open any more, and is refused as too large only if there is something too large. -/
def Outcome (a depth : Nat) (r : Rest) : Except ParseError (Value × Rest) → Prop
  | .ok (_, rest) => r.Moves a 0 rest
  | .error (.malformed _) => True
  | .error (.hugeInteger n) => HasHuge n r.points
  | .error (.tooDeep _) => ∃ s, r.Moves a (a + depth + 1) s

theorem Outcome.after {result : Except ParseError (Value × Rest)} (hmoves : r.Moves a b s)
    (hdepth : a + depth' = b + depth) (h : Outcome b depth s result) : Outcome a depth' r result := by
  match result, h with
  | .ok (_, rest), h => exact hmoves.trans h
  | .error (.malformed _), _ => trivial
  | .error (.hugeInteger n), ⟨hn, digits, hdigits, hlength⟩ =>
    obtain ⟨taken, hr, -⟩ := hmoves
    exact ⟨hn, digits, hdigits.trans (hr ▸ (List.suffix_append ..).isInfix), hlength⟩
  | .error (.tooDeep _), ⟨u, hu⟩ =>
    rw [← hdepth] at hu
    exact ⟨u, hmoves.trans hu⟩

theorem Outcome.error_within {e : ParseError} (h : Outcome 0 depth r (.error e)) : Outcome 1 depth r (.error e) := by
  match e, h with
  | .malformed _, _ => trivial
  | .hugeInteger _, h => exact h
  | .tooDeep _, ⟨u, hu⟩ =>
    refine ⟨u, ?_⟩
    have hadd := hu.add 1
    rwa [Nat.add_assoc 0, Nat.zero_add, ← Nat.add_assoc] at hadd

theorem outcome_readNumber (r : Rest) : Outcome 0 depth r (readNumber r) := by
  unfold readNumber
  simp only
  generalize hs : (if (r.points.head? == some (some '-')) = true then r.skip 1 else r) = s
  generalize hwhole : (if ((s.points.takeWhile isDigit).head? == some (some '0')) = true then [some '0']
    else s.points.takeWhile isDigit) = whole
  have hsign : r.Moves 0 0 s := by
    rw [← hs]
    split
    next hminus =>
      obtain ⟨cs, hpoints⟩ := List.head?_eq_some_iff.mp (beq_iff_eq.mp hminus)
      exact Rest.moves_skip_one hpoints (tracks_of_plain (by simp [Plain]) 0)
    · exact .refl r 0
  have hprefix : whole <+: s.points := by
    rw [← hwhole]
    split
    next hzero =>
      obtain ⟨cs, hdigits⟩ := List.head?_eq_some_iff.mp (beq_iff_eq.mp hzero)
      have hzero : [some '0'] <+: s.points.takeWhile isDigit := ⟨cs, hdigits.symm⟩
      exact hzero.trans (List.takeWhile_prefix _)
    · exact List.takeWhile_prefix _
  have hdigits : ∀ c ∈ whole, isDigit c = true := by
    rw [← hwhole]
    split
    · exact fun c hc => List.mem_singleton.mp hc ▸ rfl
    · exact isDigit_of_mem_takeWhile
  have hread : r.Moves 0 0 (readExponent (readFraction (s.skip whole.length)).2).2 :=
    ((hsign.trans (Rest.moves_skip hprefix (tracks_digits hdigits 0))).trans (moves_readFraction _ 0)).trans
      (moves_readExponent _ 0)
  split
  · trivial
  split
  · split
    next hhuge =>
      have houtcome : Outcome 0 depth s (.error (.hugeInteger whole.length)) :=
        ⟨hhuge, whole, hprefix.isInfix, rfl, hdigits⟩
      exact houtcome.after hsign rfl
    · exact hread
  · exact hread

theorem moves_readTextAt {fuel : Nat} {cs : List Point} {v : Value} (hpoints : r.points = some '"' :: cs)
    (h : readTextAt fuel r = .ok (v, rest)) (a : Nat) : r.Moves a a rest := by
  obtain ⟨⟨ns, rest'⟩, hread, hvalue⟩ := bind_eq_ok.mp h
  cases hvalue
  obtain ⟨taken, htaken, hends⟩ := readText_moves hread
  refine ⟨some '"' :: taken, ?_, fun level => hends (level + a)⟩
  rw [hpoints, List.cons_append, ← htaken, Rest.skip, hpoints]
  rfl

theorem readTextAt_eq_error {fuel : Nat} {e : ParseError} (h : readTextAt fuel r = .error e) :
    ∃ p, e = .malformed p := by
  rcases bind_eq_error.mp h with hread | ⟨_, _, hvalue⟩
  · exact readText_eq_error hread
  · cases hvalue

/-! ### Values -/

section Values

variable {fuel : Nat} (hvalue : ∀ depth r, Outcome 0 depth r (readValue fuel depth r))
  (hitems : ∀ depth r out, Outcome 1 depth r (readItems fuel depth r out))
  (hfields : ∀ depth r out, Outcome 1 depth r (readFields fuel depth r out))

include hitems hfields in
theorem outcome_readValue (depth : Nat) (r : Rest) : Outcome 0 depth r (readValue (fuel + 1) depth r) := by
  rw [readValue.eq_def]
  simp only
  split
  next cs hpoints =>
    cases hread : readTextAt (fuel + 1) r with
    | ok result => exact moves_readTextAt hpoints hread 0
    | error e =>
      obtain ⟨p, rfl⟩ := readTextAt_eq_error hread
      trivial
  next cs hpoints =>
    have hopen := Rest.moves_opening (.inl rfl) hpoints
    cases depth with
    | zero => exact ⟨_, hopen⟩
    | succ depth =>
      simp only
      split
      next cs hclose => exact hopen.trans (Rest.moves_closing (.inl rfl) hclose)
      · exact (hitems depth _ []).after hopen (by omega)
  next cs hpoints =>
    have hopen := Rest.moves_opening (.inr rfl) hpoints
    cases depth with
    | zero => exact ⟨_, hopen⟩
    | succ depth =>
      simp only
      split
      next cs hclose => exact hopen.trans (Rest.moves_closing (.inr rfl) hclose)
      · exact (hfields depth _ []).after hopen (by omega)
  · split
    next result hword => exact moves_readWord? hword 0
    · exact outcome_readNumber r

include hvalue hitems in
theorem outcome_readItems (depth : Nat) (r : Rest) (out : List Value) :
    Outcome 1 depth r (readItems (fuel + 1) depth r out) := by
  rw [readItems.eq_def]
  simp only
  have houtcome := hvalue depth r
  cases hread : readValue fuel depth r with
  | error e => exact (hread ▸ houtcome).error_within
  | ok result =>
    obtain ⟨v, s⟩ := result
    rw [hread] at houtcome
    have hitem : r.Moves 1 1 s.skipSpace := (Rest.Moves.add houtcome 1).trans (Rest.moves_skipSpace s 1)
    simp only [bind, Except.bind]
    split
    next cs hclose => exact hitem.trans (Rest.moves_closing (.inl rfl) hclose)
    · cases hexpect : s.skipSpace.expect ',' with
      | error e =>
        obtain ⟨p, rfl⟩ := Rest.expect_eq_error hexpect
        trivial
      | ok s' => exact (hitems depth _ _).after (hitem.trans (Rest.moves_expect (by decide) hexpect 1)) rfl

include hvalue hfields in
theorem outcome_readFields (depth : Nat) (r : Rest) (out : Keyed Value) :
    Outcome 1 depth r (readFields (fuel + 1) depth r out) := by
  rw [readFields.eq_def]
  simp only
  split
  · trivial
  next hquote =>
    obtain ⟨cs, hpoints⟩ : ∃ cs, r.points = some '"' :: cs := List.head?_eq_some_iff.mp (by simpa using hquote)
    cases hname : readTextAt (fuel + 1) r with
    | error e =>
      obtain ⟨p, rfl⟩ := readTextAt_eq_error hname
      trivial
    | ok result =>
      obtain ⟨name, s⟩ := result
      simp only [bind, Except.bind]
      cases hcolon : s.expect ':' with
      | error e =>
        obtain ⟨p, rfl⟩ := Rest.expect_eq_error hcolon
        trivial
      | ok s' =>
        have hstart : r.Moves 1 1 s'.skipSpace :=
          (moves_readTextAt hpoints hname 1).trans (Rest.moves_expect (by decide) hcolon 1)
        have houtcome := hvalue depth s'.skipSpace
        simp only
        cases hread : readValue fuel depth s'.skipSpace with
        | error e => exact (hread ▸ houtcome).error_within.after hstart rfl
        | ok result =>
          obtain ⟨v, u⟩ := result
          rw [hread] at houtcome
          have hfield : r.Moves 1 1 u.skipSpace :=
            (hstart.trans (Rest.Moves.add houtcome 1)).trans (Rest.moves_skipSpace u 1)
          simp only
          split
          next cs hclose => exact hfield.trans (Rest.moves_closing (.inr rfl) hclose)
          · cases hexpect : u.skipSpace.expect ',' with
            | error e =>
              obtain ⟨p, rfl⟩ := Rest.expect_eq_error hexpect
              trivial
            | ok u' => exact (hfields depth _ _).after (hfield.trans (Rest.moves_expect (by decide) hexpect 1)) rfl

end Values

theorem outcome_read (fuel : Nat) :
    (∀ depth r, Outcome 0 depth r (readValue fuel depth r)) ∧
      (∀ depth r out, Outcome 1 depth r (readItems fuel depth r out)) ∧
      ∀ depth r out, Outcome 1 depth r (readFields fuel depth r out) := by
  -- the three functions call each other with less fuel, so that one induction on it carries all three
  induction fuel with
  | zero => exact ⟨fun _ _ => trivial, fun _ _ _ => trivial, fun _ _ _ => trivial⟩
  | succ fuel ih =>
    obtain ⟨hvalue, hitems, hfields⟩ := ih
    exact ⟨outcome_readValue hitems hfields, outcome_readItems hvalue hitems, outcome_readFields hvalue hfields⟩

/-- A text opens more than so many lists and records, each one in the one before. -/
def NestsBeyond (depth : Nat) (cs : List Point) : Prop := ∃ before, before <+: cs ∧ depth < levelAfter before

/-- What is written is refused as too large only if there is an integer of too many digits or it nests too deeply. -/
theorem read_eq_error {ps : List Point} {e : ParseError} (h : read depth ps = .error e) :
    (∃ p, e = .malformed p) ∨ (∃ n, e = .hugeInteger n ∧ HasHuge n ps) ∨
      ∃ record, e = .tooDeep record ∧ NestsBeyond depth ps := by
  unfold read at h
  simp only at h
  split at h
  · cases h
    exact .inl ⟨_, rfl⟩
  · have hstart : (Rest.mk ps 0).Moves 0 0 (Rest.mk ps 0).skipSpace := Rest.moves_skipSpace _ 0
    have houtcome := ((outcome_read (2 * ps.length + 2)).1 depth _).after hstart rfl
    rcases bind_eq_error.mp h with hread | ⟨⟨v, r⟩, -, hend⟩
    · rw [hread] at houtcome
      match e, houtcome with
      | .malformed p, _ => exact .inl ⟨p, rfl⟩
      | .hugeInteger n, hhuge => exact .inr (.inl ⟨n, rfl, hhuge⟩)
      | .tooDeep record, ⟨s, taken, hraw, htracks⟩ =>
        refine .inr (.inr ⟨record, rfl, taken, ⟨s.points, hraw.symm⟩, ?_⟩)
        have hlevel : levelAfter taken = depth + 1 := by
          rw [levelAfter, htracks 0]
          omega
        omega
    · simp only at hend
      split at hend
      · cases hend
      · cases hend
        exact .inl ⟨_, rfl⟩

/-! ### Texts that are too large -/

/-- What goes wrong with the first item of a list is what goes wrong with the list. -/
theorem readValue_of_first {fuel position : Nat} {cs : List Point} {c : Point} {e : ParseError}
    (hspace : isSpace c = false) (hclose : c ≠ some ']')
    (h : readValue fuel depth ⟨c :: cs, position + 1⟩ = .error e) :
    readValue (fuel + 2) (depth + 1) ⟨some '[' :: c :: cs, position⟩ = .error e := by
  have hopen : ((Rest.mk (some '[' :: c :: cs) position).skip 1).skipSpace = ⟨c :: cs, position + 1⟩ := by
    have htake : (c :: cs).takeWhile isSpace = [] := List.takeWhile_cons_of_neg (by simp [hspace])
    change (Rest.mk (c :: cs) (position + 1)).skipSpace = _
    rw [Rest.skipSpace, htake]
    rfl
  rw [readValue.eq_def]
  simp only [hopen]
  split
  next heq => exact absurd (List.cons.inj heq).1 hclose
  · rw [readItems.eq_def]
    simp only [h]
    rfl

theorem readValue_of_nested (depth : Nat) {fuel : Nat} (hfuel : 2 * depth < fuel) (left : List Point) (position : Nat) :
    readValue fuel depth ⟨some '[' :: (List.replicate depth (some '[') ++ left), position⟩ =
      .error (.tooDeep false) := by
  induction depth generalizing fuel position with
  | zero =>
    obtain ⟨f, rfl⟩ : ∃ f, fuel = f + 1 := ⟨fuel - 1, by omega⟩
    rw [readValue.eq_def]
    rfl
  | succ depth ih =>
    obtain ⟨f, rfl⟩ : ∃ f, fuel = f + 2 := ⟨fuel - 2, by omega⟩
    have hf : 2 * depth < f := by omega
    exact readValue_of_first rfl (by decide) (ih hf (position + 1))

theorem readNumber_of_huge {n : Nat} (h : maxDigits < n) (left : List Point) (position : Nat) :
    readNumber ⟨List.replicate n (some '1') ++ some ']' :: left, position⟩ = .error (.hugeInteger n) := by
  obtain ⟨k, rfl⟩ : ∃ k, n = k + 1 := ⟨n - 1, by omega⟩
  have hwhole : (List.replicate (k + 1) (some '1') ++ some ']' :: left).takeWhile isDigit =
      List.replicate (k + 1) (some '1') := by
    have hstop : (some ']' :: left).takeWhile isDigit = [] := rfl
    rw [List.takeWhile_append_of_pos (fun c hc => List.eq_of_mem_replicate hc ▸ rfl), hstop, List.append_nil]
  have hminus : ((List.replicate (k + 1) (some '1') ++ some ']' :: left).head? == some (some '-')) = false := rfl
  have hzero : ((List.replicate (k + 1) (some '1')).head? == some (some '0')) = false := rfl
  have hempty : (List.replicate (k + 1) (some '1')).isEmpty = false := rfl
  have hafter : (Rest.mk (List.replicate (k + 1) (some '1') ++ some ']' :: left) position).skip (k + 1) =
      ⟨some ']' :: left, position + (k + 1)⟩ := by
    rw [Rest.skip, List.drop_left' (List.length_replicate ..)]
  have hfraction (p : Nat) : readFraction ⟨some ']' :: left, p⟩ = ([], ⟨some ']' :: left, p⟩) := rfl
  have hexponent (p : Nat) : readExponent ⟨some ']' :: left, p⟩ = (none, ⟨some ']' :: left, p⟩) := rfl
  unfold readNumber
  simp only [hminus, hwhole, hzero, hempty, Bool.false_eq_true, if_false, List.length_replicate, hafter, hfraction,
    hexponent]
  simp [h]

theorem readValue_of_huge {n : Nat} (h : maxDigits < n) (fuel depth position : Nat) :
    readValue (fuel + 1) depth ⟨List.replicate n (some '1') ++ [some ']'], position⟩ = .error (.hugeInteger n) := by
  have hnumber := readNumber_of_huge h [] position
  obtain ⟨k, rfl⟩ : ∃ k, n = k + 1 := ⟨n - 1, by omega⟩
  rw [List.replicate_succ, List.cons_append] at hnumber ⊢
  have hword (cs : List Point) : readWord? ⟨some '1' :: cs, position⟩ = none := rfl
  rw [readValue.eq_def]
  simp only [hnumber]
  rw [hword]
  rfl

end Curation.Json
