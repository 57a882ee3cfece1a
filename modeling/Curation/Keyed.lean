/-! Values kept under a key, each key at most once. A value put under a key that is there takes the place
    of the old one. -/

namespace Curation

/-- Values under the keys that they are kept under. -/
abbrev Keyed (α : Type) := List (String × α)

namespace Keyed

variable {α : Type}

/-- The value under a key. -/
def get? : Keyed α → String → Option α
  | [], _ => none
  | (k, v) :: m, key => if k = key then some v else get? m key

/-- Puts a value under a key; a new key comes last. -/
def put : Keyed α → String → α → Keyed α
  | [], key, v => [(key, v)]
  | (k, w) :: m, key, v => if k = key then (k, v) :: m else (k, w) :: put m key v

/-- Takes a key and its value out. -/
def drop (m : Keyed α) (key : String) : Keyed α := m.filter fun e => e.1 ≠ key

def keys (m : Keyed α) : List String := m.map (·.1)

@[simp] theorem get?_nil (key : String) : get? ([] : Keyed α) key = none := rfl

theorem get?_cons (k : String) (v : α) (m : Keyed α) (key : String) :
    get? ((k, v) :: m) key = if k = key then some v else get? m key := rfl

theorem get?_put (m : Keyed α) (key key' : String) (v : α) :
    (m.put key v).get? key' = if key = key' then some v else m.get? key' := by
  induction m with
  | nil => simp [put, get?_cons]
  | cons e m ih =>
    obtain ⟨k, w⟩ := e
    by_cases hk : k = key
    · subst hk
      by_cases hk' : k = key' <;> simp [put, get?_cons, hk']
    · by_cases hk' : k = key'
      · subst hk'
        have hne : key ≠ k := Ne.symm hk
        simp [put, get?_cons, hk, hne]
      · simp [put, get?_cons, hk, hk', ih]

theorem put_put (m : Keyed α) (key : String) (v w : α) : (m.put key v).put key w = m.put key w := by
  induction m with
  | nil => simp [put]
  | cons e m ih =>
    obtain ⟨k, u⟩ := e
    by_cases hk : k = key
    · simp [put, hk]
    · simp [put, hk, ih]

theorem get?_drop (m : Keyed α) (key key' : String) :
    (m.drop key).get? key' = if key = key' then none else m.get? key' := by
  induction m with
  | nil => simp [drop]
  | cons e m ih =>
    obtain ⟨k, w⟩ := e
    unfold drop at ih ⊢
    by_cases hk : k = key
    · subst hk
      by_cases hk' : k = key' <;> simp_all [get?_cons]
    · by_cases hk' : k = key'
      · subst hk'
        have hne : key ≠ k := Ne.symm hk
        simp [get?_cons, hk, hne]
      · simp_all [get?_cons]

theorem mem_of_get? {m : Keyed α} {key : String} {v : α} (h : m.get? key = some v) : (key, v) ∈ m := by
  induction m with
  | nil => cases h
  | cons e m ih =>
    obtain ⟨k, w⟩ := e
    rw [get?_cons] at h
    split at h
    · rename_i hk
      cases h
      exact hk ▸ List.mem_cons_self
    · exact List.mem_cons_of_mem _ (ih h)

theorem get?_eq_none_iff {m : Keyed α} {key : String} : m.get? key = none ↔ key ∉ m.keys := by
  induction m with
  | nil => simp [keys]
  | cons e m ih =>
    obtain ⟨k, w⟩ := e
    by_cases hk : k = key
    · simp [get?_cons, keys, hk]
    · simpa [get?_cons, keys, hk, Ne.symm hk] using ih

/-- Where no key stands twice, the value under a key is the one that stands beside it. -/
theorem get?_of_mem {m : Keyed α} (hm : m.keys.Nodup) {key : String} {v : α} (h : (key, v) ∈ m) :
    m.get? key = some v := by
  induction m with
  | nil => cases h
  | cons e m ih =>
    obtain ⟨k, w⟩ := e
    obtain ⟨hk, hm⟩ := List.nodup_cons.mp hm
    rw [get?_cons]
    rcases List.mem_cons.mp h with h | h
    · cases h
      rw [if_pos rfl]
    · rw [if_neg fun hkey => hk (List.mem_map.mpr ⟨_, h, hkey.symm⟩)]
      exact ih hm h

theorem mem_put {m : Keyed α} {key : String} {v : α} {e : String × α} (h : e ∈ m.put key v) :
    e = (key, v) ∨ e ∈ m := by
  induction m with
  | nil => exact Or.inl (List.mem_singleton.mp h)
  | cons e' m ih =>
    obtain ⟨k, w⟩ := e'
    unfold put at h
    split at h
    · rename_i hk
      rcases List.mem_cons.mp h with h | h
      · exact Or.inl (hk ▸ h)
      · exact Or.inr (List.mem_cons_of_mem _ h)
    · rcases List.mem_cons.mp h with h | h
      · exact Or.inr (h ▸ List.mem_cons_self)
      · exact (ih h).imp id (List.mem_cons_of_mem _)

theorem nodup_keys_put {m : Keyed α} (hm : m.keys.Nodup) (key : String) (v : α) : (m.put key v).keys.Nodup := by
  induction m with
  | nil => simp [put, keys]
  | cons e m ih =>
    obtain ⟨k, w⟩ := e
    obtain ⟨hk, hm'⟩ := List.nodup_cons.mp hm
    unfold put
    split
    · exact hm
    · rename_i hne
      refine List.nodup_cons.mpr ⟨fun h => ?_, ih hm'⟩
      obtain ⟨e, he, rfl⟩ := List.mem_map.mp h
      rcases mem_put he with rfl | he
      · exact hne rfl
      · exact hk (List.mem_map.mpr ⟨e, he, rfl⟩)

theorem nodup_keys_filter {m : Keyed α} (hm : m.keys.Nodup) (p : String × α → Bool) :
    (keys (m.filter p)).Nodup := (List.Sublist.map _ List.filter_sublist).nodup hm

theorem nodup_keys_drop {m : Keyed α} (hm : m.keys.Nodup) (key : String) : (m.drop key).keys.Nodup :=
  nodup_keys_filter hm _

/-- What is left out of values under distinct keys uncovers no other value. -/
theorem get?_filter {m : Keyed α} (hm : m.keys.Nodup) {p : String × α → Bool} {key : String} {v : α}
    (h : get? (m.filter p) key = some v) : m.get? key = some v :=
  get?_of_mem hm (List.mem_filter.mp (mem_of_get? h)).1

end Keyed

end Curation
