import Curation.Catalog.State

/-! What the operations of the cache do to its entries and its generations. Looking up and sweeping only drop
    entries (`Sheds`); whatever stores or invalidates an id moves its generation on, and a generation never
    comes back. -/

namespace Curation

open Time (Instant)

/-! ### Generations -/

namespace Generation

/-- The order in which an id passes through its generations. -/
instance : LT Generation := ⟨fun a b => a.epoch < b.epoch ∨ a.epoch = b.epoch ∧ a.count < b.count⟩

instance : LE Generation := ⟨fun a b => a.epoch < b.epoch ∨ a.epoch = b.epoch ∧ a.count ≤ b.count⟩

variable {a b c : Generation}

theorem lt_iff : a < b ↔ a.epoch < b.epoch ∨ a.epoch = b.epoch ∧ a.count < b.count := Iff.rfl

theorem le_iff : a ≤ b ↔ a.epoch < b.epoch ∨ a.epoch = b.epoch ∧ a.count ≤ b.count := Iff.rfl

theorem le_refl (a : Generation) : a ≤ a := Or.inr ⟨rfl, Int.le_refl _⟩

theorem le_of_lt (h : a < b) : a ≤ b := by
  rw [lt_iff] at h
  rw [le_iff]
  omega

theorem le_of_eq (h : a = b) : a ≤ b := h ▸ le_refl a

theorem le_trans (h₁ : a ≤ b) (h₂ : b ≤ c) : a ≤ c := by
  rw [le_iff] at *
  omega

theorem lt_of_lt_of_le (h₁ : a < b) (h₂ : b ≤ c) : a < c := by
  rw [lt_iff] at *
  rw [le_iff] at h₂
  omega

theorem lt_of_le_of_lt (h₁ : a ≤ b) (h₂ : b < c) : a < c := by
  rw [lt_iff] at *
  rw [le_iff] at h₁
  omega

theorem ne_of_lt (h : a < b) : a ≠ b := by
  rintro rfl
  rw [lt_iff] at h
  omega

theorem le_antisymm (h₁ : a ≤ b) (h₂ : b ≤ a) : a = b := by
  rw [le_iff] at *
  obtain ⟨ae, ac⟩ := a
  obtain ⟨be, bc⟩ := b
  simp only [Generation.mk.injEq] at *
  omega

end Generation

namespace Cache

variable {c d e : Cache} {now : Instant} {id : String}

/-! ### Dropping entries -/

/-- The second cache is the first one with entries dropped and generations moved on. -/
structure Sheds (c d : Cache) : Prop where
  entries : ∀ id e, d.entries.get? id = some e → c.entries.get? id = some e
  generation : ∀ id, c.generation id ≤ d.generation id
  keyed : c.entries.keys.Nodup → d.entries.keys.Nodup

namespace Sheds

theorem refl (c : Cache) : c.Sheds c := ⟨fun _ _ h => h, fun _ => Generation.le_refl _, id⟩

theorem trans (h₁ : c.Sheds d) (h₂ : d.Sheds e) : c.Sheds e where
  entries id x hx := h₁.entries id x (h₂.entries id x hx)
  generation id := Generation.le_trans (h₁.generation id) (h₂.generation id)
  keyed := h₂.keyed ∘ h₁.keyed

end Sheds

theorem sheds_drop (c : Cache) (id : String) : c.Sheds { c with entries := c.entries.drop id } where
  entries id' e he := by
    rw [Keyed.get?_drop] at he
    split at he
    · cases he
    · exact he
  generation _ := Generation.le_refl _
  keyed h := Keyed.nodup_keys_drop h id

theorem generation_bump (c : Cache) (id id' : String) :
    (c.bump id).generation id' =
      if id = id' then ⟨c.epoch, (c.generation id).count + 1⟩ else c.generation id' := by
  simp only [generation, bump, Keyed.get?_put]
  split <;> simp_all

theorem generation_lt_bump (c : Cache) (id : String) : c.generation id < (c.bump id).generation id := by
  rw [generation_bump, if_pos rfl, Generation.lt_iff]
  exact Or.inr ⟨rfl, Int.lt_succ _⟩

theorem generation_le_bump (c : Cache) (id id' : String) : c.generation id' ≤ (c.bump id).generation id' := by
  by_cases h : id = id'
  · exact h ▸ Generation.le_of_lt (generation_lt_bump c id)
  · rw [generation_bump, if_neg h]
    exact Generation.le_refl _

theorem sheds_invalidate (c : Cache) (id : String) : c.Sheds (c.invalidate id) where
  entries := (sheds_drop c id).entries
  generation := generation_le_bump c id
  keyed := (sheds_drop c id).keyed

theorem get?_invalidate (c : Cache) (id : String) : (c.invalidate id).entries.get? id = none := by
  simp [invalidate, bump, Keyed.get?_drop]

theorem generation_lt_invalidateAll (c : Cache) (id : String) : c.generation id < c.invalidateAll.generation id := by
  rw [Generation.lt_iff]
  exact Or.inl (Int.lt_succ _)

theorem sheds_invalidateAll (c : Cache) : c.Sheds c.invalidateAll where
  entries _ _ he := by cases he
  generation id := Generation.le_of_lt (generation_lt_invalidateAll c id)
  keyed _ := List.nodup_nil

theorem sheds_sweep (c : Cache) (hc : c.entries.keys.Nodup) (now : Instant) : c.Sheds (c.sweep now).2 where
  entries _ _ he := Keyed.get?_filter hc he
  generation _ := Generation.le_refl _
  keyed h := Keyed.nodup_keys_filter h _

/-! ### Looking up -/

/-- The collection that the cache holds for an id, if it is live. -/
def live (c : Cache) (now : Instant) (id : String) : Option Collection :=
  (c.entries.get? id).bind fun e => if e.expires < now then none else some e.value

theorem get_fst (c : Cache) (now : Instant) (id : String) : (c.get now id).1 = c.live now id := by
  unfold get live
  cases he : c.entries.get? id with
  | none => rfl
  | some e => by_cases hx : e.expires < now <;> simp [hx]

theorem get_snd (c : Cache) (now : Instant) (id : String) :
    (c.get now id).2 = c ∨
      (c.get now id).2 = { c with entries := c.entries.drop id } ∧ c.live now id = none := by
  unfold get live
  cases he : c.entries.get? id with
  | none => exact Or.inl rfl
  | some e => by_cases hx : e.expires < now <;> simp [hx]

theorem sheds_get (c : Cache) (now : Instant) (id : String) : c.Sheds (c.get now id).2 := by
  rcases get_snd c now id with h | ⟨h, -⟩
  · rw [h]
    exact Sheds.refl c
  · rw [h]
    exact sheds_drop c id

/-- Dropping dead entries makes no difference to what is live. -/
theorem live_get_snd (c : Cache) (now : Instant) (id id' : String) :
    (c.get now id).2.live now id' = c.live now id' := by
  rcases get_snd c now id with h | ⟨h, hnone⟩
  · rw [h]
  · rw [h]
    by_cases hid : id = id'
    · subst hid
      rw [hnone]
      simp [live, Keyed.get?_drop]
    · simp [live, Keyed.get?_drop, hid]

theorem sheds_getAll (now : Instant) (ids : List String) : ∀ c : Cache, c.Sheds (c.getAll now ids).2 := by
  induction ids with
  | nil => exact Sheds.refl
  | cons id ids ih => exact fun c => (sheds_get c now id).trans (ih _)

theorem generation_get (c : Cache) (now : Instant) (id id' : String) :
    (c.get now id).2.generation id' = c.generation id' := by
  rcases get_snd c now id with h | ⟨h, -⟩
  · rw [h]
  · rw [h]
    rfl

theorem generation_getAll (c : Cache) (now : Instant) (ids : List String) (id : String) :
    (c.getAll now ids).2.generation id = c.generation id := by
  induction ids generalizing c with
  | nil => rfl
  | cons id' ids ih => exact (ih _).trans (generation_get c now id' id)

theorem getAll_fst (now : Instant) (ids : List String) : ∀ (c : Cache) (id : String),
    (c.getAll now ids).1.get? id = if id ∈ ids then c.live now id else none := by
  induction ids with
  | nil => simp [getAll]
  | cons id' ids ih =>
    intro c id
    simp only [getAll, List.mem_cons, get_fst]
    cases hl : c.live now id' with
    | none =>
      rw [ih, live_get_snd]
      by_cases hid : id = id'
      · subst hid
        simp [hl]
      · simp [hid]
    | some v =>
      simp only [Keyed.get?_cons, Keyed.get?_drop, ih, live_get_snd]
      by_cases hid : id' = id
      · simp [hid, ← hl]
      · simp [hid, Ne.symm hid]

/-- A live collection is one that the cache holds. -/
theorem live_eq_some {v : Collection} (h : c.live now id = some v) : ∃ e, c.entries.get? id = some e ∧ e.value = v := by
  obtain ⟨e, he, hv⟩ := Option.bind_eq_some_iff.mp h
  split at hv
  · cases hv
  · exact ⟨e, he, Option.some.inj hv⟩

/-! ### Storing -/

theorem get?_set (c : Cache) (now : Instant) (v : Collection) (id : String) :
    (c.set now v).entries.get? id =
      if v.id = id then some ⟨v, now + c.ttl * Time.microsPerSecond⟩ else c.entries.get? id := by
  simp [set, bump, Keyed.get?_put]

theorem generation_le_set (c : Cache) (now : Instant) (v : Collection) (id : String) :
    c.generation id ≤ (c.set now v).generation id := generation_le_bump c v.id id

theorem generation_lt_set (c : Cache) (now : Instant) (v : Collection) :
    c.generation v.id < (c.set now v).generation v.id := generation_lt_bump c v.id

theorem keyed_set (hc : c.entries.keys.Nodup) (now : Instant) (v : Collection) : (c.set now v).entries.keys.Nodup :=
  Keyed.nodup_keys_put hc _ _

/-- A fill stores the collection if no generation has passed, and else does nothing. -/
theorem fill_snd (c : Cache) (now : Instant) (v : Collection) (g : Generation) :
    (c.generation v.id = g ∧ (c.fill now v g).2 = c.set now v) ∨
      (c.generation v.id ≠ g ∧ (c.fill now v g).2 = c) := by
  unfold fill
  by_cases h : c.generation v.id = g
  · exact Or.inl ⟨h, by simp [h]⟩
  · exact Or.inr ⟨h, by simp [h]⟩

theorem get?_generations (c : Cache) (ids : List String) (id : String) :
    (c.generations ids).get? id = if id ∈ ids then some (c.generation id) else none := by
  suffices h : ∀ m : Keyed Generation, (ids.foldl (fun m id => m.put id (c.generation id)) m).get? id =
      if id ∈ ids then some (c.generation id) else m.get? id from h []
  induction ids with
  | nil => simp
  | cons id' ids ih =>
    intro m
    rw [List.foldl_cons, ih, Keyed.get?_put]
    by_cases hid : id = id'
    · simp [hid]
    · simp [hid, Ne.symm hid]

end Cache

/-! ### What waits for the end of a transaction -/

namespace Pending

variable {p : Pending} {c : Cache} {now : Instant} {id : String} {committed : Bool}

/-- What waits stands under the id that it is about. -/
def Named (p : Pending) : Prop := ∀ id v, (id, some v) ∈ p → v.id = id

/-- What one waiting change does to the cache. -/
def applyOne (committed : Bool) (now : Instant) (c : Cache) (id : String) (v : Option Collection) : Cache :=
  match committed, v with
  | true, some v => c.set now v
  | _, _ => c.invalidate id

theorem apply_cons {v : Option Collection} :
    apply ((id, v) :: p) committed now c = p.apply committed now (applyOne committed now c id v) := rfl

theorem generation_le_applyOne {v : Option Collection} (id' : String) :
    c.generation id' ≤ (applyOne committed now c id v).generation id' := by
  unfold applyOne
  split
  · exact Cache.generation_le_set c now _ id'
  · exact Cache.generation_le_bump c id id'

theorem generation_le_apply (id' : String) :
    ∀ c : Cache, c.generation id' ≤ (p.apply committed now c).generation id' := by
  induction p with
  | nil => exact fun c => Generation.le_refl _
  | cons e p ih => exact fun c => Generation.le_trans (generation_le_applyOne id') (ih _)

/-- Every id that something waits for moves on. -/
theorem generation_lt_apply (hp : p.Named) {id : String} (hid : id ∈ p.keys) :
    ∀ c : Cache, c.generation id < (p.apply committed now c).generation id := by
  induction p with
  | nil => cases hid
  | cons e p ih =>
    intro c
    obtain ⟨k, v⟩ := e
    rw [apply_cons]
    rcases List.mem_cons.mp hid with hk | hid
    · subst hk
      refine Generation.lt_of_lt_of_le ?_ (generation_le_apply _ _)
      unfold applyOne
      split
      · rename_i v
        have hv : v.id = id := hp id v List.mem_cons_self
        exact hv ▸ Cache.generation_lt_set c now v
      · exact Cache.generation_lt_bump c id
    · exact Generation.lt_of_le_of_lt (generation_le_applyOne _)
        (ih (fun id v h => hp id v (List.mem_cons_of_mem _ h)) hid _)

theorem keyed_apply : ∀ {c : Cache}, c.entries.keys.Nodup → (p.apply committed now c).entries.keys.Nodup := by
  induction p with
  | nil => exact id
  | cons e p ih =>
    intro c hc
    refine ih ?_
    obtain ⟨k, v⟩ := e
    cases v <;> cases committed
    · exact Keyed.nodup_keys_drop hc _
    · exact Keyed.nodup_keys_drop hc _
    · exact Keyed.nodup_keys_drop hc _
    · exact Cache.keyed_set hc now _

/-- After a rollback every id that something waited for is gone from the cache. -/
theorem sheds_apply_false : ∀ c : Cache, c.Sheds (p.apply false now c) := by
  induction p with
  | nil => exact Cache.Sheds.refl
  | cons e p ih => exact fun c => (Cache.sheds_invalidate c e.1).trans (ih _)

/-- After a commit the cache holds what was waiting to be stored, and of the rest what nothing waited for. -/
theorem get?_apply (hp : p.Named) {e : CacheEntry} :
    ∀ {c : Cache}, (p.apply true now c).entries.get? id = some e →
      (id ∉ p.keys ∧ c.entries.get? id = some e) ∨ (id, some e.value) ∈ p := by
  induction p with
  | nil => exact fun h => Or.inl ⟨by simp [Keyed.keys], h⟩
  | cons w p ih =>
    intro c h
    obtain ⟨k, v⟩ := w
    have hp' : Named p := fun id v h => hp id v (List.mem_cons_of_mem _ h)
    rcases ih hp' h with ⟨hid, hc⟩ | hmem
    · cases v with
      | none =>
        have hc : (c.invalidate k).entries.get? id = some e := hc
        have hne : id ≠ k := by
          rintro rfl
          rw [Cache.get?_invalidate] at hc
          cases hc
        refine Or.inl ⟨fun hk => ?_, (Cache.sheds_invalidate c k).entries id e hc⟩
        rcases List.mem_cons.mp hk with hk | hk
        · exact hne hk
        · exact hid hk
      | some v =>
        have hc : (c.set now v).entries.get? id = some e := hc
        have hv : v.id = k := hp k v List.mem_cons_self
        rw [Cache.get?_set] at hc
        split at hc
        · rename_i hid
          cases hc
          refine Or.inr ?_
          rw [← hid, hv]
          exact List.mem_cons_self
        · rename_i hne
          refine Or.inl ⟨fun hk => ?_, hc⟩
          rcases List.mem_cons.mp hk with hk | hk
          · exact hne (hv.trans hk.symm)
          · exact hid hk
    · exact Or.inr (List.mem_cons_of_mem _ hmem)

end Pending

end Curation
