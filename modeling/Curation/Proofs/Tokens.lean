import Curation.Proofs.Cache

/-! A generation taken as a token proves that its id was not written since: a fill with the token stores
    exactly then. Along a run the generation of an id only grows, and it grows at just the calls that write
    the id, so that no token is given out a second time. -/

namespace Curation.Cache

open Time (Instant)

/-! ### Calls -/

/-- A call of the cache. -/
inductive Call
  | get (id : String)
  | getAll (ids : List String)
  | contains (id : String)
  | set (v : Collection)
  | fill (v : Collection) (g : Generation)
  | invalidate (id : String)
  | invalidateAll
  | sweep

/-- Calls in their order, each at the time that the clock shows; the clock may go back. -/
abbrev Calls := List (Instant × Call)

/-- The cache after a call. -/
def Call.run (now : Instant) (c : Cache) : Call → Cache
  | .get id => (c.get now id).2
  | .getAll ids => (c.getAll now ids).2
  | .contains id => (c.contains now id).2
  | .set v => c.set now v
  | .fill v g => (c.fill now v g).2
  | .invalidate id => c.invalidate id
  | .invalidateAll => c.invalidateAll
  | .sweep => (c.sweep now).2

/-- The call stores the id, or invalidates it alone or with all others. -/
def Call.Writes (now : Instant) (c : Cache) (id : String) : Call → Prop
  | .set v => v.id = id
  | .fill v g => v.id = id ∧ (c.fill now v g).1 = true
  | .invalidate id' => id' = id
  | .invalidateAll => True
  | .get _ | .getAll _ | .contains _ | .sweep => False

/-- The cache after all calls. -/
def after (c : Cache) : Calls → Cache
  | [] => c
  | (now, call) :: calls => (call.run now c).after calls

/-- Some call of the run writes the id. -/
def Written (c : Cache) (id : String) : Calls → Prop
  | [] => False
  | (now, call) :: calls => call.Writes now c id ∨ (call.run now c).Written id calls

/-- The cache gives the generation out for the id, for itself or among those of several ids. -/
def Issues (c : Cache) (id : String) (g : Generation) : Prop :=
  g = c.generation id ∨ ∃ ids, (c.generations ids).get? id = some g

variable {c d : Cache} {now : Instant} {id : String} {g : Generation} {calls : Calls}

theorem Issues.eq (h : c.Issues id g) : g = c.generation id := by
  rcases h with h | ⟨ids, h⟩
  · exact h
  · rw [get?_generations] at h
    split at h
    · exact (Option.some.inj h).symm
    · cases h

/-! ### Generations along a run -/

theorem generation_set_of_ne {v : Collection} (h : v.id ≠ id) : (c.set now v).generation id = c.generation id := by
  have hbump := generation_bump c v.id id
  rw [if_neg h] at hbump
  exact hbump

theorem generation_invalidate_of_ne {id' : String} (h : id' ≠ id) :
    (c.invalidate id').generation id = c.generation id := by
  have hbump := generation_bump c id' id
  rw [if_neg h] at hbump
  exact hbump

theorem fill_fst_iff {v : Collection} : (c.fill now v g).1 = true ↔ c.generation v.id = g := by
  unfold fill
  split
  · simpa
  · simpa

namespace Call

variable {call : Call}

theorem generation_lt (h : call.Writes now c id) : c.generation id < (call.run now c).generation id := by
  cases call with
  | set v =>
    obtain rfl : v.id = id := h
    exact generation_lt_set c now v
  | fill v g =>
    obtain ⟨rfl, hg⟩ := h
    rcases fill_snd c now v g with ⟨-, hfill⟩ | ⟨hne, -⟩
    · simp only [run, hfill]
      exact generation_lt_set c now v
    · exact absurd (fill_fst_iff.mp hg) hne
  | invalidate id' =>
    obtain rfl : id' = id := h
    exact generation_lt_bump c id'
  | invalidateAll => exact generation_lt_invalidateAll c id
  | get | getAll | contains | sweep => cases h

theorem generation_eq (h : ¬ call.Writes now c id) : (call.run now c).generation id = c.generation id := by
  cases call with
  | get id' => exact generation_get c now id' id
  | getAll ids => exact generation_getAll c now ids id
  | contains id' => exact generation_get c now id' id
  | sweep => rfl
  | set v => exact generation_set_of_ne h
  | invalidate id' => exact generation_invalidate_of_ne h
  | invalidateAll => exact absurd trivial h
  | fill v g =>
    rcases fill_snd c now v g with ⟨hg, hfill⟩ | ⟨-, hfill⟩
    · have hne : v.id ≠ id := fun hid => h ⟨hid, fill_fst_iff.mpr hg⟩
      simp only [run, hfill]
      exact generation_set_of_ne hne
    · simp only [run, hfill]

theorem generation_le (call : Call) : c.generation id ≤ (call.run now c).generation id := by
  by_cases h : call.Writes now c id
  · exact Generation.le_of_lt (generation_lt h)
  · exact Generation.le_of_eq (generation_eq h).symm

end Call

theorem generation_le_after (calls : Calls) (c : Cache) : c.generation id ≤ (c.after calls).generation id := by
  induction calls generalizing c with
  | nil => exact Generation.le_refl _
  | cons e calls ih => exact Generation.le_trans (e.2.generation_le) (ih _)

theorem generation_lt_after (h : c.Written id calls) : c.generation id < (c.after calls).generation id := by
  induction calls generalizing c with
  | nil => cases h
  | cons e calls ih =>
    rcases h with h | h
    · exact Generation.lt_of_lt_of_le (Call.generation_lt h) (generation_le_after calls _)
    · exact Generation.lt_of_le_of_lt e.2.generation_le (ih h)

theorem generation_after (h : ¬ c.Written id calls) : (c.after calls).generation id = c.generation id := by
  induction calls generalizing c with
  | nil => rfl
  | cons e calls ih =>
    have hcall : ¬ e.2.Writes e.1 c id := fun hw => h (Or.inl hw)
    have hcalls : ¬ (e.2.run e.1 c).Written id calls := fun hw => h (Or.inr hw)
    exact (ih hcalls).trans (Call.generation_eq hcall)

/-! ### Filling with a token -/

theorem ttl_get (c : Cache) (now : Instant) (id : String) : (c.get now id).2.ttl = c.ttl := by
  rcases get_snd c now id with h | ⟨h, -⟩ <;> rw [h]

theorem ttl_getAll (c : Cache) (now : Instant) (ids : List String) : (c.getAll now ids).2.ttl = c.ttl := by
  induction ids generalizing c with
  | nil => rfl
  | cons id ids ih => exact (ih _).trans (ttl_get c now id)

theorem ttl_run (call : Call) : (call.run now c).ttl = c.ttl := by
  cases call with
  | get id => exact ttl_get c now id
  | getAll ids => exact ttl_getAll c now ids
  | contains id => exact ttl_get c now id
  | fill v g =>
    rcases fill_snd c now v g with ⟨-, h⟩ | ⟨-, h⟩
    · simp only [Call.run, h]
      rfl
    · simp only [Call.run, h]
  | set | invalidate | invalidateAll | sweep => rfl

theorem ttl_after (calls : Calls) (c : Cache) : (c.after calls).ttl = c.ttl := by
  induction calls generalizing c with
  | nil => rfl
  | cons e calls ih => exact (ih _).trans (ttl_run e.2)

theorem fill_of_eq {v : Collection} (h : c.generation v.id = g) : c.fill now v g = (true, c.set now v) := by
  rw [fill, if_pos h]

theorem fill_of_ne {v : Collection} (h : c.generation v.id ≠ g) : c.fill now v g = (false, c) := by
  rw [fill, if_neg h]

/-- A token that the cache gave out for an id, and a fill with it after any further calls. It stores its
    collection if none of them wrote the id, and does nothing otherwise. Whatever token the id has by then is
    the same one if none of them wrote it, and a greater one otherwise, so that no token comes back. -/
theorem fill_token_iff (hg : c.Issues id g) (calls : Calls) {v : Collection} (hv : v.id = id) (now : Instant) :
    (((c.after calls).fill now v g).1 = true ↔ ¬ c.Written id calls) ∧
      (¬ c.Written id calls → (c.after calls).fill now v g = (true, (c.after calls).set now v) ∧
        ((c.after calls).set now v).entries.get? id = some ⟨v, now + c.ttl * Time.microsPerSecond⟩) ∧
      (c.Written id calls → (c.after calls).fill now v g = (false, c.after calls)) ∧
      ∀ g', (c.after calls).Issues id g' → (c.Written id calls → g < g') ∧ (¬ c.Written id calls → g' = g) := by
  subst hv
  obtain rfl := hg.eq
  have hkept : ¬ c.Written v.id calls → (c.after calls).generation v.id = c.generation v.id := generation_after
  have hmoved : c.Written v.id calls → (c.after calls).generation v.id ≠ c.generation v.id := fun h =>
    (Generation.ne_of_lt (generation_lt_after h)).symm
  refine ⟨?_, fun h => ⟨fill_of_eq (hkept h), ?_⟩, fun h => fill_of_ne (hmoved h), fun g' hg' => ?_⟩
  · rw [fill_fst_iff]
    exact ⟨fun heq h => hmoved h heq, hkept⟩
  · rw [get?_set, if_pos rfl, ttl_after]
  · obtain rfl := hg'.eq
    exact ⟨generation_lt_after, hkept⟩

/-- A token of `"a"` after one of the cache's clearings, and a run in which other ids are written, the clock goes
    back and all that is dead is dropped. -/
theorem fill_token_iff_swept :
    let v : Collection := ⟨"a", "u", "t", "", .listed, ⟨0, some 0⟩, ⟨0, some 0⟩, none, none, []⟩
    let w : Collection := { v with id := "b" }
    let c := ({} : Cache).after [(5, .set v), (7, .invalidateAll), (7, .set v)]
    let calls : Calls := [(9000000000, .sweep), (3, .invalidate "b"), (9000000000, .getAll ["a", "b"]), (4, .set w)]
    c.generation "a" = ⟨1, 1⟩ ∧ (c.after calls).fill 6 v ⟨1, 1⟩ = (true, (c.after calls).set 6 v) := by
  intro v w c calls
  have hunwritten : ¬ c.Written "a" calls := by simp [calls, Written, Call.Writes, w]
  exact ⟨by decide, ((fill_token_iff (g := ⟨1, 1⟩) (.inl (by decide)) calls (rfl : v.id = "a") 6).2.1 hunwritten).1⟩

end Curation.Cache
