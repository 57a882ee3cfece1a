import Curation.Proofs.Succeeding
import Curation.Text.Percent
import Mathlib.Data.List.Perm.Subperm

/-! Drawing an id for a new collection. A source of ids is taken as the sequence of all ids that it has still to give:
    any texts at first, and numbered ones after them. The numbered ones differ, so that one of them is free in time, and
    the first id of the sequence that is free is the one drawn. -/

namespace Curation

open Act (Ends ends_bind ends_get ends_set ends_pure ends_ite)

/-! ### Numbers as texts -/

namespace Text

/-- The number that hexadecimal digits write. -/
def hexNumber (cs : List Char) : Nat := cs.foldl (fun n c => 16 * n + (hexValue? c).getD 0) 0

theorem hexNumber_append_singleton (cs : List Char) (c : Char) :
    hexNumber (cs ++ [c]) = 16 * hexNumber cs + (hexValue? c).getD 0 := by
  rw [hexNumber, List.foldl_append]
  rfl

theorem hexNumber_toDigits (n : Nat) : hexNumber (Nat.toDigits 16 n) = n := by
  have hdigit : ∀ d < 16, (hexValue? (Nat.digitChar d)).getD 0 = d := by decide
  induction n using Nat.strongRecOn with
  | ind n ih =>
    rw [Nat.toDigits_eq_if (by decide)]
    split
    · rename_i hn
      show 16 * 0 + (hexValue? (Nat.digitChar n)).getD 0 = n
      rw [hdigit n hn, Nat.mul_zero, Nat.zero_add]
    · rename_i hn
      rw [hexNumber_append_singleton, ih (n / 16) (by omega), hdigit _ (Nat.mod_lt n (by decide))]
      omega

/-- Zeros in front of a number make no difference to it. -/
theorem hexNumber_digits (width n : Nat) : hexNumber (digits 16 width n) = n := by
  have hzeros : ∀ k, (List.replicate k '0').foldl (fun n c => 16 * n + (hexValue? c).getD 0) 0 = 0 := by
    intro k
    induction k with
    | zero => rfl
    | succ k ih => rwa [List.replicate_succ, List.foldl_cons]
  rw [digits, hexNumber, List.foldl_append, hzeros]
  exact hexNumber_toDigits n

end Text

/-! ### The sequence of ids -/

namespace IdSource

variable {s : IdSource} {t : Tables}

theorem numbered_injective : Function.Injective numbered := by
  intro m n h
  have hdigits : Text.digits 16 12 m = Text.digits 16 12 n := String.ofList_injective (String.append_right_inj _ |>.mp h)
  rw [← Text.hexNumber_digits 12 m, hdigits, Text.hexNumber_digits]

/-- The id that is drawn after `n` others. -/
def nth (s : IdSource) : Nat → String
  | 0 => s.next.1
  | n + 1 => s.next.2.nth n

/-- An id that is drawn is one of those that are given, or a numbered one. -/
theorem nth_mem_or (s : IdSource) (n : Nat) : s.nth n ∈ s.given ∨ ∃ k, s.nth n = numbered k := by
  obtain ⟨given, issued⟩ := s
  induction n generalizing given issued with
  | zero =>
    cases given with
    | nil => exact Or.inr ⟨issued + 1, rfl⟩
    | cons id given => exact Or.inl List.mem_cons_self
  | succ n ih =>
    cases given with
    | nil => exact ih [] (issued + 1)
    | cons id given => exact (ih given issued).imp_left (List.mem_cons_of_mem id)

theorem nth_numbered (k : Nat) : s.nth (s.given.length + k) = numbered (s.issued + k + 1) := by
  obtain ⟨given, issued⟩ := s
  induction given generalizing k with
  | nil =>
    induction k generalizing issued with
    | zero => rfl
    | succ k ih =>
      have hrest := ih (issued + 1)
      rw [List.length_nil, Nat.zero_add] at hrest ⊢
      show nth ⟨[], issued + 1⟩ k = numbered (issued + (k + 1) + 1)
      rw [hrest, Nat.add_assoc issued 1 k, Nat.add_comm 1 k]
  | cons id given ih =>
    rw [List.length_cons, Nat.succ_add]
    exact ih k

/-- The id is the first one of the source under which there is no row. -/
def FirstFree (s : IdSource) (t : Tables) (id : String) : Prop :=
  ∃ n, s.nth n = id ∧ t.row? id = none ∧ ∀ m < n, (t.row? (s.nth m)).isSome

theorem FirstFree.free {id : String} (h : s.FirstFree t id) : t.row? id = none := by
  obtain ⟨_, _, hfree, _⟩ := h
  exact hfree

theorem FirstFree.unique {id id' : String} (h : s.FirstFree t id) (h' : s.FirstFree t id') : id = id' := by
  obtain ⟨n, rfl, hfree, hbefore⟩ := h
  obtain ⟨m, rfl, hfree', hbefore'⟩ := h'
  rcases Nat.lt_trichotomy n m with hlt | rfl | hlt
  · exact absurd (hbefore' n hlt) (by rw [hfree]; decide)
  · rfl
  · exact absurd (hbefore m hlt) (by rw [hfree']; decide)

/-- No text is drawn that is empty, unless it is one of those that are given. -/
theorem FirstFree.named {id : String} (h : s.FirstFree t id) (hgiven : "" ∉ s.given) : id ≠ "" := by
  obtain ⟨n, rfl, -, -⟩ := h
  rcases s.nth_mem_or n with hmem | ⟨k, hk⟩
  · exact fun hnil => hgiven (hnil ▸ hmem)
  · rw [hk]
    exact fun hnil => nomatch String.append_eq_empty_iff.mp hnil

/-- An id that is taken is not the first free one. -/
theorem FirstFree.of_next {id : String} (htaken : (t.row? s.next.1).isSome) (h : s.next.2.FirstFree t id) :
    s.FirstFree t id := by
  obtain ⟨n, hn, hfree, hbefore⟩ := h
  refine ⟨n + 1, hn, hfree, fun m hm => ?_⟩
  cases m with
  | zero => exact htaken
  | succ m => exact hbefore m (Nat.lt_of_succ_lt_succ hm)

/-- Of one more numbered ids than there are rows one is free. -/
theorem exists_free (s : IdSource) (t : Tables) :
    ∃ k ≤ t.collections.length, t.row? (s.nth (s.given.length + k)) = none := by
  by_contra hno
  push Not at hno
  have htaken : ∀ k ≤ t.collections.length, numbered (s.issued + k + 1) ∈ t.collections.map (·.id) := by
    intro k hk
    obtain ⟨r, hr⟩ := Option.ne_none_iff_exists'.mp (hno k hk)
    obtain ⟨hmem, hid⟩ := Tables.row?_eq_some hr
    rw [nth_numbered] at hid
    exact hid ▸ List.mem_map_of_mem hmem
  have hnodup : ((List.range (t.collections.length + 1)).map fun k => numbered (s.issued + k + 1)).Nodup :=
    List.nodup_range.map fun a b hab => by
      have := numbered_injective hab
      omega
  have hwithin : ((List.range (t.collections.length + 1)).map fun k => numbered (s.issued + k + 1)) ⊆
      t.collections.map (·.id) := fun id hid => by
    obtain ⟨k, hk, rfl⟩ := List.mem_map.mp hid
    exact htaken k (Nat.lt_succ_iff.mp (List.mem_range.mp hk))
  have hle := (hnodup.subperm hwithin).length_le
  rw [List.length_map, List.length_map, List.length_range] at hle
  omega

end IdSource

/-! ### Drawing -/

namespace Catalog

variable {s : State} {err : Failure → State → Prop}

/-- Ids are drawn until one is free. -/
theorem drawId_serves {fuel : Nat} {ok : String → State → Prop} (h : s.Answers)
    (hfree : ∃ n < fuel, s.tables.row? (s.ids.nth n) = none)
    (hok : ∀ id t, s.ids.FirstFree s.tables id → s.Wrote t s.tables s.session.pending → ok id t) :
    Ends (drawId fuel) s ok err := by
  -- With each draw both the fuel and the place of the id that is known to be free go down by one.
  induction fuel generalizing s with
  | zero =>
    obtain ⟨_, hn, -⟩ := hfree
    cases hn
  | succ fuel ih =>
    have hnext : s.Gives { s with ids := s.ids.next.2 } s.tables s.session.pending :=
      ⟨⟨rfl, rfl, List.suffix_refl _⟩, rfl, rfl, rfl, rfl, fun _ => rfl⟩
    have hran : s.Wrote (State.ran { s with ids := s.ids.next.2 }) s.tables s.session.pending :=
      hnext.trans_wrote (.ran _)
    unfold drawId
    simp only [ends_bind, ends_get, ends_set]
    refine Act.query_ends ?_ fun _ hno => absurd (h.within hnext.toWithin rfl) hno
    rw [ends_ite]
    refine ⟨fun htaken => ?_, fun hfirst => ends_pure.mpr (hok _ _ ⟨0, rfl, ?_, fun m hm => absurd hm m.not_lt_zero⟩ hran)⟩
    · refine ih (h.within hran.toWithin hran.gives.stuck) ?_ fun id t hid ht => ?_
      · obtain ⟨n, hn, hnone⟩ := hfree
        cases n with
        | zero =>
          have htaken : (s.tables.row? (s.ids.nth 0)).isSome := htaken
          rw [hnone] at htaken
          cases htaken
        | succ n => exact ⟨n, Nat.lt_of_succ_lt_succ hn, hnone⟩
      · exact hok id t (.of_next htaken hid) (hran.gives.trans_wrote ht)
    · exact Option.not_isSome_iff_eq_none.mp hfirst

theorem freshId_serves {ok : String → State → Prop} (h : s.Answers)
    (hok : ∀ id t, s.ids.FirstFree s.tables id → s.Wrote t s.tables s.session.pending → ok id t) :
    Ends freshId s ok err := by
  unfold freshId
  rw [ends_bind, ends_get]
  obtain ⟨k, hk, hfree⟩ := s.ids.exists_free s.tables
  exact drawId_serves h ⟨_, by omega, hfree⟩ hok

end Catalog

end Curation
