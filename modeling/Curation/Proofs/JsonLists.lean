import Curation.Proofs.JsonReading

/-! Lists of texts in the interchange format, as they are written (`WritesTexts`): a text is read as such a list if it
    writes it, whatever its length, and only then. -/

namespace Curation.Json

variable {fuel depth : Nat} {r s rest : Rest} {v : Value} {out vs : List Value} {cs left : List Point}
  {ids : List String}

/-! ### Lists of texts -/

/-- White space, and what follows it. -/
def Gap (cs left : List Point) : Prop := ∃ gap, cs = gap ++ left ∧ ∀ c ∈ gap, isSpace c = true

/-- Texts between commas up to the end of their list, and what follows it. -/
inductive Items : List Point → List String → List Point → Prop
  | last {cs text after left : List Point} {item : String} (hgap : Gap cs (some '"' :: text))
    (htext : Quoted text item.toList after) (hend : Gap after (some ']' :: left)) : Items cs [item] left
  | more {cs text after next left : List Point} {item : String} {items : List String} (hgap : Gap cs (some '"' :: text))
    (htext : Quoted text item.toList after) (hcomma : Gap after (some ',' :: next)) (hnext : Items next items left) :
    Items cs (item :: items) left

/-- A text writes a list of texts and nothing else. -/
def WritesTexts (raw : String) (items : List String) : Prop :=
  ∃ inner left, Gap (pointsOf raw) (some '[' :: inner) ∧
    (items = [] ∧ Gap inner (some ']' :: left) ∨ Items inner items left) ∧ Gap left []

theorem Gap.refl (cs : List Point) : Gap cs cs := ⟨[], rfl, nofun⟩

theorem gap_skipSpace (r : Rest) : Gap r.points r.skipSpace.points := by
  obtain ⟨left, hleft⟩ := List.takeWhile_prefix (l := r.points) isSpace
  have hskip : r.skipSpace.points = left := by
    calc r.skipSpace.points = (r.points.takeWhile isSpace ++ left).drop (r.points.takeWhile isSpace).length := by
          rw [hleft]
          rfl
      _ = left := List.drop_left
  exact ⟨_, hskip ▸ hleft.symm, fun _ => List.mem_takeWhile_imp⟩

theorem gap_skip {c : Point} (h : r.points = c :: cs) : Gap cs (r.skip 1).skipSpace.points := by
  have hafter : (r.skip 1).points = cs := by
    rw [Rest.skip, h]
    rfl
  exact hafter ▸ gap_skipSpace (r.skip 1)

theorem Gap.length_le (h : Gap cs left) : left.length ≤ cs.length := by
  obtain ⟨gap, rfl, -⟩ := h
  rw [List.length_append]
  exact Nat.le_add_left ..

theorem skipSpace_of_gap (h : Gap cs left) (hstop : left.takeWhile isSpace = []) (position : Nat) :
    ∃ p, (Rest.mk cs position).skipSpace = ⟨left, p⟩ := by
  obtain ⟨gap, rfl, hgap⟩ := h
  have htake : (gap ++ left).takeWhile isSpace = gap := by
    rw [List.takeWhile_append_of_pos hgap, hstop, List.append_nil]
  exact ⟨position + gap.length, by rw [Rest.skipSpace, htake, Rest.skip, List.drop_left]⟩

theorem Gap.trans {ds : List Point} (h : Gap cs ds) (h' : Gap ds left) : Gap cs left := by
  obtain ⟨gap, rfl, hgap⟩ := h
  obtain ⟨gap', rfl, hgap'⟩ := h'
  exact ⟨gap ++ gap', (List.append_assoc ..).symm, fun c hc => (List.mem_append.mp hc).elim (hgap c) (hgap' c)⟩

theorem Items.gap {ds : List Point} (h : Gap cs ds) (hitems : Items ds ids left) : Items cs ids left := by
  cases hitems with
  | last hgap htext hend => exact .last (h.trans hgap) htext hend
  | more hgap htext hcomma hnext => exact .more (h.trans hgap) htext hcomma hnext

theorem Items.quote (h : Items cs ids left) : ∃ text, Gap cs (some '"' :: text) := by
  cases h with
  | last hgap => exact ⟨_, hgap⟩
  | more hgap => exact ⟨_, hgap⟩

/-! ### What is read is written -/

/-- A value that is neither a text nor made of values. -/
def Value.IsScalar : Value → Prop
  | .text _ | .brokenText | .list _ | .record _ => False
  | _ => True

theorem isScalar_readWord? (h : readWord? r = some (v, rest)) : v.IsScalar := by
  obtain ⟨⟨w, v'⟩, hw, hword⟩ := List.exists_of_findSome?_eq_some h
  obtain ⟨rest', -, heq⟩ := Option.map_eq_some_iff.mp hword
  cases heq
  have hwords : ∀ w ∈ words, w.2.IsScalar := by simp [words, Value.IsScalar]
  exact hwords _ hw

theorem isScalar_readNumber (h : readNumber r = .ok (v, rest)) : v.IsScalar := by
  unfold readNumber at h
  simp only at h
  generalize (if (r.points.head? == some (some '-')) = true then r.skip 1 else r) = s at h
  generalize (if ((s.points.takeWhile isDigit).head? == some (some '0')) = true then [some '0']
    else s.points.takeWhile isDigit) = whole at h
  repeat' split at h
  all_goals
    cases h
    try trivial

theorem readItems_eq_ok (h : readItems fuel depth r out = .ok (v, rest)) :
    ∃ f, fuel = f + 1 ∧ ∃ item s, readValue f depth r = .ok (item, s) ∧
      ((∃ cs, s.skipSpace.points = some ']' :: cs ∧ v = .list (item :: out).reverse ∧ rest = s.skipSpace.skip 1) ∨
        ∃ s', s.skipSpace.expect ',' = .ok s' ∧ readItems f depth s'.skipSpace (item :: out) = .ok (v, rest)) := by
  cases fuel with
  | zero => cases h
  | succ f =>
    rw [readItems.eq_def] at h
    obtain ⟨⟨item, s⟩, hread, hnext⟩ := bind_eq_ok.mp h
    refine ⟨f, rfl, item, s, hread, ?_⟩
    simp only at hnext
    split at hnext
    next cs hclose =>
      cases hnext
      exact .inl ⟨cs, hclose, rfl, rfl⟩
    · exact .inr (bind_eq_ok.mp hnext)

theorem readFields_record {out : Keyed Value} (h : readFields fuel depth r out = .ok (v, rest)) :
    ∃ fields, v = .record fields := by
  induction fuel generalizing r out with
  | zero => cases h
  | succ f ih =>
    rw [readFields.eq_def] at h
    simp only at h
    split at h
    · cases h
    obtain ⟨⟨name, s⟩, -, hcolon⟩ := bind_eq_ok.mp h
    obtain ⟨s', -, hfield⟩ := bind_eq_ok.mp hcolon
    obtain ⟨⟨field, u⟩, -, hnext⟩ := bind_eq_ok.mp hfield
    simp only at hnext
    split at hnext
    · cases hnext
      exact ⟨_, rfl⟩
    · obtain ⟨u', -, hrest⟩ := bind_eq_ok.mp hnext
      exact ih hrest

/-- What a value is follows from the character that it starts with. -/
theorem readValue_eq_ok (h : readValue fuel depth r = .ok (v, rest)) :
    v.IsScalar ∨ (∃ fields, v = .record fields) ∨
      (∃ cs, r.points = some '"' :: cs ∧ readTextAt fuel r = .ok (v, rest)) ∨
      ∃ cs, r.points = some '[' :: cs ∧ 0 < depth ∧
        ((∃ cs', (r.skip 1).skipSpace.points = some ']' :: cs' ∧ v = .list [] ∧ rest = (r.skip 1).skipSpace.skip 1) ∨
          ∃ f d, readItems f d (r.skip 1).skipSpace [] = .ok (v, rest)) := by
  cases fuel with
  | zero => cases h
  | succ f =>
    rw [readValue.eq_def] at h
    simp only at h
    split at h
    next cs hpoints => exact .inr (.inr (.inl ⟨cs, hpoints, h⟩))
    next cs hpoints =>
      cases depth with
      | zero => cases h
      | succ d =>
        simp only at h
        split at h
        next cs' hclose =>
          cases h
          exact .inr (.inr (.inr ⟨cs, hpoints, Nat.succ_pos d, .inl ⟨cs', hclose, rfl, rfl⟩⟩))
        · exact .inr (.inr (.inr ⟨cs, hpoints, Nat.succ_pos d, .inr ⟨f, d, h⟩⟩))
    next cs hpoints =>
      cases depth with
      | zero => cases h
      | succ d =>
        simp only at h
        split at h
        · cases h
          exact .inr (.inl ⟨_, rfl⟩)
        · exact .inr (.inl (readFields_record h))
    · split at h
      next result hword =>
        cases h
        exact .inl (isScalar_readWord? hword)
      · exact .inl (isScalar_readNumber h)

theorem readItems_list (h : readItems fuel depth r out = .ok (v, rest)) : ∃ vs, v = .list vs := by
  induction fuel generalizing r out with
  | zero => cases h
  | succ fuel ih =>
    obtain ⟨f, hf, item, s, -, ⟨_, -, hlist, -⟩ | ⟨s', -, hrest⟩⟩ := readItems_eq_ok h
    · exact ⟨_, hlist⟩
    · obtain rfl : f = fuel := by omega
      exact ih hrest

/-- Only a text that is written is read as a text. -/
theorem quoted_of_readValue {text : String} (h : readValue fuel depth r = .ok (.text text, rest)) :
    ∃ cs, r.points = some '"' :: cs ∧ Quoted cs text.toList rest.points := by
  rcases readValue_eq_ok h with
    hscalar | ⟨fields, hrecord⟩ | ⟨cs, hpoints, hread⟩ | ⟨cs, -, -, ⟨_, -, hlist, -⟩ | ⟨f, d, hread⟩⟩
  · exact hscalar.elim
  · cases hrecord
  · exact ⟨cs, hpoints, readTextAt_eq_text hpoints hread⟩
  · cases hlist
  · obtain ⟨vs, hlist⟩ := readItems_list hread
    cases hlist

/-- Items that are read as texts are written as texts. -/
theorem items_of_readItems (h : readItems fuel depth r out = .ok (v, rest)) :
    ∃ vs, v = .list (out.reverse ++ vs) ∧
      ∀ items : List String, items.map .text = vs → Items r.points items rest.points := by
  -- that an item is a text is known only when all of them are read, so that it is asked for last
  induction fuel generalizing r out with
  | zero => cases h
  | succ fuel ih =>
    obtain ⟨f, hf, item, s, hitem, hnext⟩ := readItems_eq_ok h
    obtain rfl : f = fuel := by omega
    rcases hnext with ⟨cs, hclose, rfl, rfl⟩ | ⟨s', hcomma, hrest⟩
    · refine ⟨[item], by simp, fun items hitems => ?_⟩
      obtain ⟨text, items, rfl, rfl, hnone⟩ := List.map_eq_cons_iff.mp hitems
      obtain rfl := List.map_eq_nil_iff.mp hnone
      obtain ⟨written, hpoints, hquoted⟩ := quoted_of_readValue hitem
      have hend : Gap s.points (some ']' :: cs) := hclose ▸ gap_skipSpace s
      rw [Rest.skip, hclose, hpoints]
      exact .last (.refl _) hquoted hend
    · obtain ⟨vs, rfl, hitems⟩ := ih hrest
      refine ⟨item :: vs, by simp, fun items hmap => ?_⟩
      obtain ⟨text, items, rfl, rfl, htail⟩ := List.map_eq_cons_iff.mp hmap
      obtain ⟨written, hpoints, hquoted⟩ := quoted_of_readValue hitem
      obtain ⟨cs, hcs, rfl⟩ := Rest.expect_eq_ok hcomma
      have hgap : Gap s.points (some ',' :: cs) := hcs ▸ (gap_skipSpace s).trans (gap_skipSpace s.skipSpace)
      have hnext : Items cs items rest.points := (hitems items htail).gap (gap_skip hcs)
      rw [hpoints]
      exact .more (.refl _) hquoted hgap hnext

theorem readTextAt_ne_list (h : readTextAt fuel r = .ok (v, rest)) : v ≠ .list vs := by
  obtain ⟨⟨ns, rest'⟩, -, hvalue⟩ := bind_eq_ok.mp h
  cases hvalue
  unfold Value.ofPoints
  split <;> exact nofun

/-- A list of texts that is read is written so. -/
theorem items_of_readValue (h : readValue fuel depth r = .ok (.list (ids.map .text), rest)) :
    ∃ inner, r.points = some '[' :: inner ∧ 0 < depth ∧
      (ids = [] ∧ Gap inner (some ']' :: rest.points) ∨ Items inner ids rest.points) := by
  rcases readValue_eq_ok h with hscalar | ⟨fields, hrecord⟩ | ⟨cs, -, hread⟩ | ⟨cs, hpoints, hdepth, hlist⟩
  · exact hscalar.elim
  · cases hrecord
  · exact absurd rfl (readTextAt_ne_list hread)
  · refine ⟨cs, hpoints, hdepth, ?_⟩
    rcases hlist with ⟨cs', hclose, hempty, rfl⟩ | ⟨f, d, hread⟩
    · have hgap := gap_skip hpoints
      rw [hclose] at hgap
      rw [Value.list.injEq, List.map_eq_nil_iff] at hempty
      refine .inl ⟨hempty, ?_⟩
      rw [Rest.skip, hclose]
      exact hgap
    · obtain ⟨vs, hvs, hitems⟩ := items_of_readItems hread
      rw [Value.list.injEq] at hvs
      exact .inr ((hitems ids hvs).gap (gap_skip hpoints))

/-! ### What is written is read -/

theorem readValue_of_quoted {text after : List Point} {item : String} (h : Quoted text item.toList after)
    (hfuel : text.length ≤ fuel) (depth position : Nat) :
    ∃ p, readValue fuel depth ⟨some '"' :: text, position⟩ = .ok (.text item, ⟨after, p⟩) := by
  obtain ⟨f, rfl⟩ : ∃ f, fuel = f + 1 := ⟨fuel - 1, by have hpos := h.length_pos; omega⟩
  obtain ⟨p, hp⟩ := readTextAt_of_quoted h hfuel position
  refine ⟨p, ?_⟩
  rw [readValue.eq_def]
  simp only [hp, String.ofList_toList]

/-- A list of texts as it is written is read, if there is fuel for its characters. -/
theorem readItems_of_items {items : List String} (h : Items cs items left) (hfuel : cs.length ≤ fuel)
    (depth position : Nat) (out : List Value) :
    ∃ p, readItems fuel depth (Rest.mk cs position).skipSpace out =
      .ok (.list (out.reverse ++ items.map .text), ⟨left, p⟩) := by
  induction h generalizing fuel position out with
  | @last cs text after left item hgap htext hend =>
    obtain ⟨q, hq⟩ := skipSpace_of_gap hgap rfl position
    have hlength := hgap.length_le
    rw [List.length_cons] at hlength
    obtain ⟨f, rfl⟩ : ∃ f, fuel = f + 1 := ⟨fuel - 1, by omega⟩
    have hf : text.length ≤ f := by omega
    obtain ⟨p, hp⟩ := readValue_of_quoted htext hf depth q
    obtain ⟨p', hp'⟩ := skipSpace_of_gap hend rfl p
    refine ⟨p' + 1, ?_⟩
    rw [hq, readItems.eq_def]
    simp only [hp, hp', bind, Except.bind]
    simp [pure, Except.pure, Rest.skip]
  | @more cs text after next left item items hgap htext hcomma hnext ih =>
    obtain ⟨q, hq⟩ := skipSpace_of_gap hgap rfl position
    have hlength := hgap.length_le
    rw [List.length_cons] at hlength
    obtain ⟨f, rfl⟩ : ∃ f, fuel = f + 1 := ⟨fuel - 1, by omega⟩
    have hf : text.length ≤ f := by omega
    obtain ⟨p, hp⟩ := readValue_of_quoted htext hf depth q
    obtain ⟨p', hp'⟩ := skipSpace_of_gap hcomma rfl p
    have hnextLength : next.length ≤ f := by
      have hafter := hcomma.length_le
      have htextLength := htext.length_lt
      rw [List.length_cons] at hafter
      omega
    obtain ⟨p'', hp''⟩ := ih hnextLength (p' + 1) (.text item :: out)
    have hcomma : (Rest.mk (some ',' :: next) p').expect ',' = .ok ⟨next, p' + 1⟩ := rfl
    refine ⟨p'', ?_⟩
    rw [hq, readItems.eq_def]
    simp only [hp, hp', bind, Except.bind, hcomma, hp'']
    simp

theorem readValue_of_texts {inner : List Point} (h : ids = [] ∧ Gap inner (some ']' :: left) ∨ Items inner ids left)
    (hfuel : inner.length < fuel) (depth position : Nat) :
    ∃ p, readValue fuel (depth + 1) ⟨some '[' :: inner, position⟩ = .ok (.list (ids.map .text), ⟨left, p⟩) := by
  obtain ⟨f, rfl⟩ : ∃ f, fuel = f + 1 := ⟨fuel - 1, by omega⟩
  have hinner : (Rest.mk (some '[' :: inner) position).skip 1 = ⟨inner, position + 1⟩ := rfl
  rcases h with ⟨rfl, hgap⟩ | hitems
  · obtain ⟨p, hp⟩ := skipSpace_of_gap hgap rfl (position + 1)
    refine ⟨p + 1, ?_⟩
    rw [readValue.eq_def]
    simp only [hinner, hp]
    rfl
  · have hf : inner.length ≤ f := by omega
    obtain ⟨p, hp⟩ := readItems_of_items hitems hf depth (position + 1) []
    refine ⟨p, ?_⟩
    rw [readValue.eq_def]
    simp only [hinner]
    split
    next cs hclose =>
      obtain ⟨text, hquote⟩ := hitems.quote
      obtain ⟨q, hq⟩ := skipSpace_of_gap hquote rfl (position + 1)
      rw [hq] at hclose
      cases hclose
    · rw [hp]
      rfl

/-- A text is read as a list of texts if it writes it, and only then. To be read at all a list has to be let in. -/
theorem parse_eq_texts_iff {raw : String} :
    parse depth raw = .ok (.list (ids.map .text)) ↔ 0 < depth ∧ WritesTexts raw ids := by
  constructor
  · intro h
    unfold parse read at h
    simp only at h
    split at h
    · cases h
    obtain ⟨⟨v, r⟩, hread, hend⟩ := bind_eq_ok.mp h
    simp only at hend
    split at hend
    next hempty =>
      cases hend
      obtain ⟨inner, hpoints, hdepth, hlist⟩ := items_of_readValue hread
      have hend := gap_skipSpace r
      rw [List.isEmpty_iff.mp hempty] at hend
      exact ⟨hdepth, inner, r.points, hpoints ▸ gap_skipSpace ⟨pointsOf raw, 0⟩, hlist, hend⟩
    · cases hend
  · rintro ⟨hdepth, inner, left, hstart, hlist, hend⟩
    obtain ⟨d, rfl⟩ : ∃ d, depth = d + 1 := ⟨depth - 1, by omega⟩
    obtain ⟨q, hq⟩ := skipSpace_of_gap hstart rfl 0
    have hlength : inner.length < 2 * (pointsOf raw).length + 2 := by
      have hinner := hstart.length_le
      rw [List.length_cons] at hinner
      omega
    obtain ⟨p, hp⟩ := readValue_of_texts hlist hlength d q
    obtain ⟨p', hp'⟩ := skipSpace_of_gap hend rfl p
    have hmark : ((pointsOf raw).head? == some (some '\ufeff')) = false := by
      obtain ⟨gap, hraw, hgap⟩ := hstart
      rw [hraw]
      cases gap with
      | nil => rfl
      | cons c gap =>
        refine beq_eq_false_iff_ne.mpr fun hhead => ?_
        obtain rfl : c = some '\ufeff' := Option.some.inj hhead
        exact absurd (hgap _ List.mem_cons_self) (by decide)
    unfold parse read
    simp only [hmark, hq, hp, bind, Except.bind, hp']
    rfl

end Curation.Json
