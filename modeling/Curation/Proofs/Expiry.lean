import Curation.Proofs.Tokens
import Mathlib.Data.List.Induction

/-! What a lookup finds. An entry is dropped when something comes across it after its time, so that which entries
    are held depends on who looked; what a lookup gives does not. Under a clock that does not go back it is decided
    by the last call that wrote the id, and lookups and sweeps in between make no difference to it. -/

namespace Curation.Cache

open Time (Instant)

/-! ### The last write of an id -/

/-- The call stores the collection. -/
def Call.Stores (now : Instant) (c : Cache) (v : Collection) : Call → Prop
  | .set w => w = v
  | .fill w g => w = v ∧ (c.fill now w g).1 = true
  | .get _ | .getAll _ | .contains _ | .invalidate _ | .invalidateAll | .sweep => False

/-- The last call of the run that wrote the id stored the collection, at the given instant. -/
def LastStored (c : Cache) (id : String) (v : Collection) (t₀ : Instant) (calls : Calls) : Prop :=
  ∃ before call later, calls = before ++ (t₀, call) :: later ∧ call.Stores t₀ (c.after before) v ∧ v.id = id ∧
    ¬ (call.run t₀ (c.after before)).Written id later

/-- The clock does not go back from call to call, nor from the last one to the given instant. -/
def Onward (calls : Calls) (now : Instant) : Prop := (calls.map (·.1) ++ [now]).Pairwise (· ≤ ·)

/-- The call only looks up or sweeps. -/
def Call.looks : Call → Bool
  | .get _ | .getAll _ | .contains _ | .sweep => true
  | .set _ | .fill _ _ | .invalidate _ | .invalidateAll => false

/-- The calls of a run that do more than look up or sweep. -/
def changing (calls : Calls) : Calls := calls.filter fun e => !e.2.looks

/-- The cache still holds an entry for the id, and its time is over. -/
def expired (c : Cache) (now : Instant) (id : String) : Bool := (c.entries.get? id).any fun e => e.expires < now

variable {c d : Cache} {now t : Instant} {id : String} {v : Collection} {call : Call} {calls : Calls}

theorem expired_iff : c.expired now id = true ↔ ∃ e, c.entries.get? id = some e ∧ e.expires < now := by
  unfold expired
  rw [Option.any_eq_true]
  exact exists_congr fun e => and_congr_right fun _ => decide_eq_true_iff

theorem live_eq_some_iff : c.live now id = some v ↔ ∃ e, c.entries.get? id = some e ∧ now ≤ e.expires ∧ e.value = v := by
  unfold live
  rw [Option.bind_eq_some_iff]
  refine exists_congr fun e => and_congr_right fun _ => ?_
  by_cases h : e.expires < now
  · simp [h, Int.not_le.mpr h]
  · simp [h, Int.not_lt.mp h]

theorem after_append (c : Cache) (calls calls' : Calls) : c.after (calls ++ calls') = (c.after calls).after calls' := by
  induction calls generalizing c with
  | nil => rfl
  | cons e calls ih => exact ih _

theorem after_snoc (c : Cache) (calls : Calls) (t : Instant) (call : Call) :
    c.after (calls ++ [(t, call)]) = call.run t (c.after calls) := after_append c calls _

theorem written_append (c : Cache) (calls calls' : Calls) :
    c.Written id (calls ++ calls') ↔ c.Written id calls ∨ (c.after calls).Written id calls' := by
  induction calls generalizing c with
  | nil => simp [Written, after]
  | cons e calls ih =>
    simp only [List.cons_append, Written, after, ih]
    exact or_assoc.symm

namespace Call

theorem Stores.writes (h : call.Stores t c v) : call.Writes t c v.id := by
  cases call with
  | set w => exact congrArg Collection.id h
  | fill w g => exact ⟨congrArg Collection.id h.1, h.2⟩
  | get | getAll | contains | invalidate | invalidateAll | sweep => cases h

theorem not_writes_of_looks (h : call.looks = true) (c : Cache) (id : String) : ¬ call.Writes t c id := by
  cases call with
  | get | getAll | contains | sweep => exact not_false
  | set | fill | invalidate | invalidateAll => cases h

end Call

/-- The last write of an id is the last call, or a call before it which that one leaves standing. -/
theorem lastStored_snoc {t₀ : Instant} : c.LastStored id v t₀ (calls ++ [(t, call)]) ↔
    (t₀ = t ∧ call.Stores t (c.after calls) v ∧ v.id = id) ∨
      (c.LastStored id v t₀ calls ∧ ¬ call.Writes t (c.after calls) id) := by
  constructor
  · rintro ⟨before, call', later, hcalls, hstores, hid, hlater⟩
    rcases List.eq_nil_or_concat later with rfl | ⟨later, e, rfl⟩
    · obtain ⟨rfl, he⟩ := List.append_inj' hcalls rfl
      cases he
      exact Or.inl ⟨rfl, hstores, hid⟩
    · rw [List.concat_eq_append] at hlater hcalls
      rw [← List.cons_append, ← List.append_assoc] at hcalls
      obtain ⟨rfl, he⟩ := List.append_inj' hcalls rfl
      cases he
      rw [written_append] at hlater
      refine Or.inr ⟨⟨before, call', later, rfl, hstores, hid, fun h => hlater (Or.inl h)⟩, fun h => ?_⟩
      rw [after_append] at h
      exact hlater (Or.inr (Or.inl h))
  · rintro (⟨rfl, hstores, hid⟩ | ⟨⟨before, call', later, rfl, hstores, hid, hlater⟩, hwrites⟩)
    · exact ⟨calls, call, [], rfl, hstores, hid, not_false⟩
    · refine ⟨before, call', later ++ [(t, call)], by simp, hstores, hid, fun h => ?_⟩
      rcases (written_append ..).mp h with h | h | h
      · exact hlater h
      · rw [after_append] at hwrites
        exact hwrites h
      · exact h

theorem onward_snoc (h : Onward (calls ++ [(t, call)]) now) : Onward calls t ∧ t ≤ now := by
  unfold Onward at h ⊢
  rw [List.map_append, List.pairwise_append] at h
  exact ⟨h.1, h.2.2 t (by simp) now (by simp)⟩

/-! ### Dropping what is over -/

/-- The second cache holds what the first one holds, except for entries whose time is over. -/
def Spills (now : Instant) (c d : Cache) : Prop :=
  ∀ id, d.entries.get? id = c.entries.get? id ∨ d.entries.get? id = none ∧ c.expired now id = true

theorem Spills.trans {e : Cache} (h₁ : Spills now c d) (h₂ : Spills now d e) : Spills now c e := by
  intro id
  rcases h₁ id with heq | ⟨hnone, hexp⟩
  · rcases h₂ id with heq' | ⟨hnone, hexp⟩
    · exact Or.inl (heq'.trans heq)
    · unfold expired at hexp ⊢
      exact Or.inr ⟨hnone, heq ▸ hexp⟩
  · rcases h₂ id with heq' | ⟨hnone', -⟩
    · exact Or.inr ⟨heq'.trans hnone, hexp⟩
    · exact Or.inr ⟨hnone', hexp⟩

theorem spills_get (c : Cache) (now : Instant) (id : String) : Spills now c (c.get now id).2 := by
  intro id'
  unfold get
  cases he : c.entries.get? id with
  | none => exact Or.inl rfl
  | some e =>
    by_cases hx : e.expires < now
    · simp only [hx, if_true]
      by_cases hid : id = id'
      · subst hid
        exact Or.inr ⟨by simp [Keyed.get?_drop], expired_iff.mpr ⟨e, he, hx⟩⟩
      · exact Or.inl (by simp [Keyed.get?_drop, hid])
    · simp only [hx, if_false]
      exact Or.inl trivial

theorem spills_getAll (now : Instant) (ids : List String) : ∀ c : Cache, Spills now c (c.getAll now ids).2 := by
  induction ids with
  | nil => exact fun c id => Or.inl rfl
  | cons id ids ih => exact fun c => (spills_get c now id).trans (ih _)

theorem spills_sweep (hc : c.entries.keys.Nodup) : Spills now c (c.sweep now).2 := by
  intro id
  have hshed := (sheds_sweep c hc now).entries id
  cases he : c.entries.get? id with
  | none =>
    refine Or.inl ?_
    cases hd : (c.sweep now).2.entries.get? id with
    | none => rfl
    | some e => exact nomatch he.symm.trans (hshed e hd)
  | some e =>
    by_cases hx : e.expires < now
    · refine Or.inr ⟨?_, expired_iff.mpr ⟨e, he, hx⟩⟩
      cases hd : (c.sweep now).2.entries.get? id with
      | none => rfl
      | some e' =>
        -- What a sweep leaves is not over.
        have hlive := (List.mem_filter.mp (Keyed.mem_of_get? hd)).2
        obtain rfl : e = e' := Option.some.inj (he.symm.trans (hshed e' hd))
        exact absurd hx (Int.not_lt.mpr (of_decide_eq_true hlive))
    · have hmem : (id, e) ∈ (c.sweep now).2.entries :=
        List.mem_filter.mpr ⟨Keyed.mem_of_get? he, decide_eq_true (Int.not_lt.mp hx)⟩
      exact Or.inl (Keyed.get?_of_mem (Keyed.nodup_keys_filter hc _) hmem)

/-! ### What a call does to an entry -/

theorem keyed_run (hc : c.entries.keys.Nodup) (call : Call) : (call.run t c).entries.keys.Nodup := by
  cases call with
  | get id => exact (sheds_get c t id).keyed hc
  | getAll ids => exact (sheds_getAll t ids c).keyed hc
  | contains id => exact (sheds_get c t id).keyed hc
  | set v => exact keyed_set hc t v
  | invalidate id => exact (sheds_invalidate c id).keyed hc
  | invalidateAll => exact (sheds_invalidateAll c).keyed hc
  | sweep => exact (sheds_sweep c hc t).keyed hc
  | fill v g =>
    rcases fill_snd c t v g with ⟨-, h⟩ | ⟨-, h⟩
    · simp only [Call.run, h]
      exact keyed_set hc t v
    · simpa only [Call.run, h] using hc

theorem keyed_after (ttl : Int) (calls : Calls) : (({ ttl } : Cache).after calls).entries.keys.Nodup := by
  induction calls using List.reverseRecOn with
  | nil => exact List.nodup_nil
  | append_singleton calls last ih =>
    rw [after_snoc]
    exact keyed_run ih last.2

namespace Call

theorem get?_run_of_stores (h : call.Stores t c v) :
    (call.run t c).entries.get? v.id = some ⟨v, t + c.ttl * Time.microsPerSecond⟩ := by
  have hset : (c.set t v).entries.get? v.id = some ⟨v, t + c.ttl * Time.microsPerSecond⟩ := by
    rw [get?_set, if_pos rfl]
  cases call with
  | set w =>
    obtain rfl : w = v := h
    exact hset
  | fill w g =>
    obtain ⟨rfl, hg⟩ := h
    simp only [run, fill_of_eq (fill_fst_iff.mp hg)]
    exact hset
  | get | getAll | contains | invalidate | invalidateAll | sweep => cases h

/-- A call that writes an id stores a collection under it or leaves nothing there. -/
theorem stores_or_get?_run (h : call.Writes t c id) :
    (∃ v, call.Stores t c v ∧ v.id = id) ∨ (call.run t c).entries.get? id = none := by
  cases call with
  | set v => exact Or.inl ⟨v, rfl, h⟩
  | fill v g => exact Or.inl ⟨v, ⟨rfl, h.2⟩, h.1⟩
  | invalidate id' =>
    obtain rfl : id' = id := h
    exact Or.inr (get?_invalidate c id')
  | invalidateAll => exact Or.inr rfl
  | get | getAll | contains | sweep => cases h

/-- A call that does not write an id leaves its entry alone, or drops it when its time is over. -/
theorem get?_run (hc : c.entries.keys.Nodup) (h : ¬ call.Writes t c id) :
    (call.run t c).entries.get? id = c.entries.get? id ∨
      (call.run t c).entries.get? id = none ∧ c.expired t id = true := by
  cases call with
  | get id' => exact spills_get c t id' id
  | getAll ids => exact spills_getAll t ids c id
  | contains id' => exact spills_get c t id' id
  | sweep => exact spills_sweep hc id
  | set v =>
    have hne : v.id ≠ id := h
    exact Or.inl ((get?_set c t v id).trans (if_neg hne))
  | fill v g =>
    rcases fill_snd c t v g with ⟨hg, hfill⟩ | ⟨-, hfill⟩
    · have hne : v.id ≠ id := fun hid => h ⟨hid, fill_fst_iff.mpr hg⟩
      simp only [run, hfill]
      exact Or.inl ((get?_set c t v id).trans (if_neg hne))
    · exact Or.inl (by simp only [run, hfill])
  | invalidate id' =>
    have hne : id' ≠ id := h
    exact Or.inl ((Keyed.get?_drop c.entries id' id).trans (if_neg hne))
  | invalidateAll => exact absurd trivial h

end Call

/-! ### What is held and what was stored -/

/-- Whatever a cache that began empty holds is what the last write of its id stored. -/
theorem lastStored_of_entry (ttl : Int) (calls : Calls) {e : CacheEntry}
    (he : (({ ttl } : Cache).after calls).entries.get? id = some e) :
    ∃ t₀, ({ ttl } : Cache).LastStored id e.value t₀ calls ∧ e.expires = t₀ + ttl * Time.microsPerSecond := by
  induction calls using List.reverseRecOn with
  | nil => cases he
  | append_singleton calls last ih =>
    obtain ⟨t, call⟩ := last
    rw [after_snoc] at he
    by_cases hw : call.Writes t (({ ttl } : Cache).after calls) id
    · rcases Call.stores_or_get?_run hw with ⟨v, hv, rfl⟩ | hnone
      · rw [Call.get?_run_of_stores hv, ttl_after] at he
        cases he
        exact ⟨t, lastStored_snoc.mpr (Or.inl ⟨rfl, hv, rfl⟩), rfl⟩
      · rw [hnone] at he
        cases he
    · rcases Call.get?_run (keyed_after ttl calls) hw with heq | ⟨hnone, -⟩
      · obtain ⟨t₀, hlast, hexp⟩ := ih (heq ▸ he)
        exact ⟨t₀, lastStored_snoc.mpr (Or.inr ⟨hlast, hw⟩), hexp⟩
      · rw [hnone] at he
        cases he

/-- What the last write of an id stored is still held, or it was dropped after its time. -/
theorem entry_of_lastStored {ttl : Int} {t₀ : Instant} (hclock : Onward calls now)
    (h : ({ ttl } : Cache).LastStored id v t₀ calls) :
    (({ ttl } : Cache).after calls).entries.get? id = some ⟨v, t₀ + ttl * Time.microsPerSecond⟩ ∨
      (({ ttl } : Cache).after calls).entries.get? id = none ∧ t₀ + ttl * Time.microsPerSecond < now := by
  induction calls using List.reverseRecOn generalizing now with
  | nil =>
    obtain ⟨before, call, later, hnil, -⟩ := h
    simp at hnil
  | append_singleton calls last ih =>
    obtain ⟨t, call⟩ := last
    obtain ⟨hclock, hle⟩ := onward_snoc hclock
    rw [after_snoc]
    rcases lastStored_snoc.mp h with ⟨rfl, hstores, rfl⟩ | ⟨hlast, hw⟩
    · rw [Call.get?_run_of_stores hstores, ttl_after]
      exact Or.inl rfl
    · -- The call may drop the entry; it does so at its own time, which is not after `now`.
      rcases ih hclock hlast with hsome | ⟨hnone, hlt⟩
      · rcases Call.get?_run (keyed_after ttl calls) hw with heq | ⟨hnone, hexp⟩
        · exact Or.inl (heq.trans hsome)
        · obtain ⟨e, he, hlt⟩ := expired_iff.mp hexp
          obtain rfl := Option.some.inj (hsome.symm.trans he)
          exact Or.inr ⟨hnone, Int.lt_of_lt_of_le hlt hle⟩
      · refine Or.inr ⟨?_, Int.lt_of_lt_of_le hlt hle⟩
        rcases Call.get?_run (keyed_after ttl calls) hw with heq | ⟨hnone', -⟩
        · exact heq.trans hnone
        · exact hnone'

theorem live_after_iff {ttl : Int} (hclock : Onward calls now) :
    (({ ttl } : Cache).after calls).live now id = some v ↔
      ∃ t₀, ({ ttl } : Cache).LastStored id v t₀ calls ∧ now ≤ t₀ + ttl * Time.microsPerSecond := by
  rw [live_eq_some_iff]
  constructor
  · rintro ⟨e, he, hle, rfl⟩
    obtain ⟨t₀, hlast, hexp⟩ := lastStored_of_entry ttl calls he
    exact ⟨t₀, hlast, hexp ▸ hle⟩
  · rintro ⟨t₀, hlast, hle⟩
    rcases entry_of_lastStored hclock hlast with he | ⟨-, hlt⟩
    · exact ⟨_, he, hle, rfl⟩
    · exact absurd hlt (Int.not_lt.mpr hle)

/-! ### Sweeping -/

theorem expired_of_mem (hc : c.entries.keys.Nodup) {e : String × CacheEntry} (he : e ∈ c.entries) :
    c.expired now e.1 = decide (e.2.expires < now) := by
  rw [expired, Keyed.get?_of_mem hc he]
  rfl

theorem held_sweep (hc : c.entries.keys.Nodup) (now : Instant) :
    (c.sweep now).2.held = c.held.filter fun id => !c.expired now id := by
  unfold held Keyed.keys
  rw [List.filter_map]
  refine congrArg (List.map _) (List.filter_congr fun e he => ?_)
  simp only [Function.comp_apply, expired_of_mem hc he, ← decide_not, Int.not_lt]

theorem sweep_fst (hc : c.entries.keys.Nodup) (now : Instant) :
    (c.sweep now).1 = c.held.countP (c.expired now) := by
  have hleft : (c.sweep now).1 = c.held.length - (c.sweep now).2.held.length := by simp [sweep, held, Keyed.keys]
  rw [hleft, held_sweep hc now, ← List.countP_eq_length_filter, List.length_eq_countP_add_countP (c.expired now)]
  simp

/-! ### Looking makes no difference -/

theorem Call.stores_congr (hg : ∀ id, c.generation id = d.generation id) :
    call.Stores t c v ↔ call.Stores t d v := by
  cases call with
  | fill w g => exact and_congr_right fun _ => by rw [fill_fst_iff, fill_fst_iff, hg]
  | get | getAll | contains | set | invalidate | invalidateAll | sweep => exact Iff.rfl

theorem Call.writes_congr (hg : ∀ id, c.generation id = d.generation id) :
    call.Writes t c id ↔ call.Writes t d id := by
  cases call with
  | fill w g => exact and_congr_right fun _ => by rw [fill_fst_iff, fill_fst_iff, hg]
  | get | getAll | contains | set | invalidate | invalidateAll | sweep => exact Iff.rfl

theorem generation_bump_congr (hg : ∀ id, c.generation id = d.generation id) (id' : String) :
    (c.bump id').generation id = (d.bump id').generation id := by
  have hepoch : c.epoch = d.epoch := congrArg Generation.epoch (hg id)
  rw [generation_bump, generation_bump, hg id, hg id', hepoch]

theorem Call.generation_congr (hg : ∀ id, c.generation id = d.generation id) :
    (call.run t c).generation id = (call.run t d).generation id := by
  cases call with
  | get id' => exact (generation_get c t id' id).trans ((hg id).trans (generation_get d t id' id).symm)
  | getAll ids => exact (generation_getAll c t ids id).trans ((hg id).trans (generation_getAll d t ids id).symm)
  | contains id' => exact (generation_get c t id' id).trans ((hg id).trans (generation_get d t id' id).symm)
  | sweep => exact hg id
  | set v => exact generation_bump_congr hg v.id
  | invalidate id' => exact generation_bump_congr hg id'
  | invalidateAll =>
    have hepoch : c.epoch = d.epoch := congrArg Generation.epoch (hg id)
    exact congrArg (fun epoch => (⟨epoch + 1, 0⟩ : Generation)) hepoch
  | fill v g =>
    by_cases h : c.generation v.id = g
    · simp only [run, fill_of_eq h, fill_of_eq ((hg v.id).symm.trans h)]
      exact generation_bump_congr hg v.id
    · have h' : d.generation v.id ≠ g := fun hd => h ((hg v.id).trans hd)
      simp only [run, fill_of_ne h, fill_of_ne h']
      exact hg id

theorem changing_snoc (calls : Calls) (t : Instant) (call : Call) :
    changing (calls ++ [(t, call)]) = changing calls ++ (if call.looks then [] else [(t, call)]) := by
  cases h : call.looks <;> simp [changing, h]

theorem generation_changing (c : Cache) (calls : Calls) :
    ∀ id, (c.after (changing calls)).generation id = (c.after calls).generation id := by
  induction calls using List.reverseRecOn with
  | nil => exact fun _ => rfl
  | append_singleton calls last ih =>
    obtain ⟨t, call⟩ := last
    intro id
    rw [changing_snoc, after_snoc]
    cases hl : call.looks with
    | true =>
      rw [if_pos rfl, List.append_nil, ih id]
      exact (Call.generation_eq (Call.not_writes_of_looks hl _ id)).symm
    | false =>
      rw [if_neg Bool.false_ne_true, after_snoc]
      exact Call.generation_congr ih

theorem lastStored_changing {t₀ : Instant} (c : Cache) (calls : Calls) :
    c.LastStored id v t₀ (changing calls) ↔ c.LastStored id v t₀ calls := by
  induction calls using List.reverseRecOn with
  | nil => exact Iff.rfl
  | append_singleton calls last ih =>
    obtain ⟨t, call⟩ := last
    rw [changing_snoc, lastStored_snoc]
    cases hl : call.looks with
    | true =>
      have hw := Call.not_writes_of_looks (t := t) hl (c.after calls)
      rw [if_pos rfl, List.append_nil, ih]
      refine ⟨fun h => Or.inr ⟨h, hw id⟩, ?_⟩
      rintro (⟨-, hstores, -⟩ | ⟨h, -⟩)
      · exact absurd hstores.writes (hw v.id)
      · exact h
    | false =>
      have hg := generation_changing c calls
      rw [if_neg Bool.false_ne_true, lastStored_snoc, ih, Call.stores_congr hg, Call.writes_congr hg]

theorem getAll_congr (now : Instant) (ids : List String) :
    ∀ {c d : Cache}, (∀ id, c.live now id = d.live now id) → (c.getAll now ids).1 = (d.getAll now ids).1 := by
  induction ids with
  | nil => exact fun _ => rfl
  | cons id ids ih =>
    intro c d hlive
    have hrest : ((c.get now id).2.getAll now ids).1 = ((d.get now id).2.getAll now ids).1 :=
      ih fun id' => by rw [live_get_snd, live_get_snd, hlive id']
    simp only [getAll, get_fst, hlive id, hrest]

/-- Looking up and sweeping, however often and wherever in a run, leaves the generations and what is live alone. -/
theorem after_congr (ttl : Int) {calls' : Calls} (hclock : Onward calls now) (hclock' : Onward calls' now)
    (h : changing calls' = changing calls) :
    (∀ id, (({ ttl } : Cache).after calls').generation id = (({ ttl } : Cache).after calls).generation id) ∧
      ∀ id, (({ ttl } : Cache).after calls').live now id = (({ ttl } : Cache).after calls).live now id := by
  refine ⟨fun id => ?_, fun id => Option.ext fun v => ?_⟩
  · rw [← generation_changing, h, generation_changing]
  · rw [live_after_iff hclock, live_after_iff hclock']
    exact exists_congr fun t₀ => by rw [← lastStored_changing, h, lastStored_changing]

/-- The cache is a map with expiry times. After any calls under a clock that does not go back, a lookup gives a
    collection exactly if the last write of its id stored it and its time is not over. Lookups of several ids agree
    with lookups of each, a sweep drops just the entries that are over and counts them, and a run with lookups and
    sweeps put in or left out at any points ends in a cache that answers alike. -/
theorem get_after_iff_lastStored (ttl : Int) (calls : Calls) (now : Instant) (hclock : Onward calls now) :
    let new : Cache := { ttl }
    let c := new.after calls
    (∀ id v, (c.get now id).1 = some v ↔
      ∃ t₀, new.LastStored id v t₀ calls ∧ now ≤ t₀ + ttl * Time.microsPerSecond) ∧
    (∀ id, (c.contains now id).1 = true ↔
      ∃ v t₀, new.LastStored id v t₀ calls ∧ now ≤ t₀ + ttl * Time.microsPerSecond) ∧
    (∀ ids id, (c.getAll now ids).1.get? id = if id ∈ ids then (c.get now id).1 else none) ∧
    (c.size = c.held.length ∧ c.held.Nodup ∧ ∀ id ∈ c.held, ∃ v t₀, new.LastStored id v t₀ calls ∧
      (c.expired now id = true ↔ t₀ + ttl * Time.microsPerSecond < now)) ∧
    ((c.sweep now).1 = c.held.countP (c.expired now) ∧
      (c.sweep now).2.held = c.held.filter fun id => !c.expired now id) ∧
    ∀ calls', changing calls' = changing calls → Onward calls' now →
      (∀ id, ((new.after calls').get now id).1 = (c.get now id).1) ∧
      (∀ ids, ((new.after calls').getAll now ids).1 = (c.getAll now ids).1) ∧
      (∀ id, ((new.after calls').contains now id).1 = (c.contains now id).1) ∧
      ∀ v g, ((new.after calls').fill now v g).1 = (c.fill now v g).1 := by
  intro new c
  have hkeyed : c.entries.keys.Nodup := keyed_after ttl calls
  refine ⟨fun id v => ?_, fun id => ?_, fun ids id => ?_, ⟨?_, hkeyed, fun id hid => ?_⟩,
    ⟨sweep_fst hkeyed now, held_sweep hkeyed now⟩, fun calls' h hclock' => ?_⟩
  · rw [get_fst]
    exact live_after_iff hclock
  · show (c.get now id).1.isSome = true ↔ _
    rw [get_fst, Option.isSome_iff_exists]
    exact exists_congr fun v => live_after_iff hclock
  · rw [getAll_fst, get_fst]
  · simp [size, held, Keyed.keys]
  · cases he : c.entries.get? id with
    | none => exact absurd hid (Keyed.get?_eq_none_iff.mp he)
    | some e =>
      obtain ⟨t₀, hlast, hexp⟩ := lastStored_of_entry ttl calls he
      refine ⟨e.value, t₀, hlast, ?_⟩
      rw [expired, he, ← hexp]
      exact decide_eq_true_iff
  · obtain ⟨hgen, hlive⟩ := after_congr ttl hclock hclock' h
    have hget : ∀ id, ((new.after calls').get now id).1 = (c.get now id).1 := fun id => by
      rw [get_fst, get_fst]
      exact hlive id
    refine ⟨hget, fun ids => getAll_congr now ids hlive, fun id => congrArg Option.isSome (hget id), fun v g => ?_⟩
    rw [Bool.eq_iff_iff, fill_fst_iff, fill_fst_iff, hgen v.id]

/-- At its last instant a collection is found, and it is whether or not something was dropped in between. -/
theorem get_after_iff_lastStored_boundary :
    let v : Collection := ⟨"a", "u", "t", "", .listed, ⟨0, some 0⟩, ⟨0, some 0⟩, none, none, []⟩
    let calls : Calls := [(1, .invalidate "a"), (5, .set v), (7, .get "b")]
    let calls' : Calls := [(1, .invalidate "a"), (3, .sweep), (5, .set v), (9, .getAll ["b", "a"]), (2000005, .sweep)]
    let c := ({ ttl := 2 } : Cache).after calls
    Onward calls 2000005 ∧ (c.get 2000005 "a").1 = some v ∧
      ((({ ttl := 2 } : Cache).after calls').get 2000005 "a").1 = (c.get 2000005 "a").1 := by
  intro v calls calls' c
  have hclock : Onward calls 2000005 := by unfold Onward; decide
  have hclock' : Onward calls' 2000005 := by unfold Onward; decide
  obtain ⟨hget, -, -, -, -, hlook⟩ := get_after_iff_lastStored 2 calls 2000005 hclock
  refine ⟨hclock, (hget "a" v).mpr ⟨5, ⟨[(1, .invalidate "a")], .set v, [(7, .get "b")], rfl, rfl, rfl, ?_⟩, ?_⟩,
    (hlook calls' rfl hclock').1 "a"⟩
  · simp [Written, Call.Writes]
  · decide

end Curation.Cache
