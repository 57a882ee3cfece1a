import Mathlib.Logic.Basic

/-! Computations that give a result or fail, one after the other and along lists. -/

namespace Curation

variable {ε α β : Type} {f : α → Except ε β} {l : List α}

theorem bind_eq_ok {x : Except ε α} {b : β} : (x >>= f) = .ok b ↔ ∃ a, x = .ok a ∧ f a = .ok b := by
  cases x with
  | error e => simp [bind, Except.bind]
  | ok a => simp [bind, Except.bind]

theorem bind_eq_error {x : Except ε α} {e : ε} :
    (x >>= f) = .error e ↔ x = .error e ∨ ∃ a, x = .ok a ∧ f a = .error e := by
  cases x with
  | error e => simp [bind, Except.bind]
  | ok a => simp [bind, Except.bind]

/-- Computations that fail alike succeed alike. -/
theorem exists_ok_iff {x y : Except ε α} (h : ∀ e, x = .error e ↔ y = .error e) :
    (∃ a, x = .ok a) ↔ ∃ a, y = .ok a := by
  cases x with
  | error e => simp [(h e).mp rfl]
  | ok a =>
    cases y with
    | error e => exact nomatch (h e).mpr rfl
    | ok b => simp

theorem mapM_cons_eq_ok {a : α} {bs : List β} :
    (a :: l).mapM f = .ok bs ↔ ∃ b cs, f a = .ok b ∧ l.mapM f = .ok cs ∧ bs = b :: cs := by
  simp only [List.mapM_cons, bind_eq_ok, pure, Except.pure, Except.ok.injEq]
  constructor
  · rintro ⟨b, hb, cs, hcs, rfl⟩
    exact ⟨b, cs, hb, hcs, rfl⟩
  · rintro ⟨b, cs, hb, hcs, rfl⟩
    exact ⟨b, hb, cs, hcs, rfl⟩

theorem mapM_cons_eq_error {a : α} {e : ε} :
    (a :: l).mapM f = .error e ↔ f a = .error e ∨ (∃ b, f a = .ok b) ∧ l.mapM f = .error e := by
  simp [List.mapM_cons, bind_eq_error, pure, Except.pure]

theorem mem_mapM_eq_ok {bs : List β} (h : l.mapM f = .ok bs) {b : β} (hb : b ∈ bs) : ∃ a ∈ l, f a = .ok b := by
  induction l generalizing bs with
  | nil =>
    cases h
    cases hb
  | cons a l ih =>
    obtain ⟨b', bs, ha, hl, rfl⟩ := mapM_cons_eq_ok.mp h
    rcases List.mem_cons.mp hb with rfl | hb
    · exact ⟨a, List.mem_cons_self, ha⟩
    · obtain ⟨a', ha', hb⟩ := ih hl hb
      exact ⟨a', List.mem_cons_of_mem _ ha', hb⟩

/-- The first failure is the same without what does not fail. -/
theorem mapM_filter_eq_error {p : α → Bool} (hp : ∀ a ∈ l, p a = false → ∃ b, f a = .ok b) {e : ε} :
    (l.filter p).mapM f = .error e ↔ l.mapM f = .error e := by
  induction l with
  | nil => rfl
  | cons a l ih =>
    have ih := ih fun b hb => hp b (List.mem_cons_of_mem _ hb)
    rw [mapM_cons_eq_error, ← ih]
    cases ha : p a with
    | true => rw [List.filter_cons_of_pos ha, mapM_cons_eq_error]
    | false =>
      rw [List.filter_cons_of_neg (by simp [ha])]
      obtain ⟨b, hb⟩ := hp a List.mem_cons_self ha
      simp [hb]

/-- What undoes a function element by element undoes it along a list. -/
theorem mapM_eq_some_iff_map {f : α → Option β} {g : β → α} (h : ∀ a b, f a = some b ↔ a = g b) {bs : List β} :
    l.mapM f = some bs ↔ l = bs.map g := by
  induction l generalizing bs with
  | nil => cases bs <;> simp
  | cons a l ih =>
    simp only [List.mapM_cons, Option.bind_eq_bind, Option.bind_eq_some_iff, h, ih]
    constructor
    · rintro ⟨b, rfl, bs, rfl, heq⟩
      cases heq
      rfl
    · intro heq
      cases bs with
      | nil => cases heq
      | cons b bs =>
        cases heq
        exact ⟨b, rfl, bs, rfl, rfl⟩

end Curation
