import Curation.Catalog.Raw
import Curation.Proofs.Outcomes

/-! A catalog that several processes serve, each with a cache of its own, while others add projects and delete them.
    The caches are not told of what other processes and the database do, so that nothing is known of what they hold;
    what is committed can come about only in the ways that an operation or a statement on the projects has. -/

namespace Curation

open Act (Ends ends_bind ends_get)

namespace Catalog

/-! ### Statements on the projects -/

section Parts

variable {α : Type} {rows : List α} {r : α}

theorem map_chosen (cells : α → Cells) (conditions : Cells) (rows : List α) :
    (chosen cells conditions rows).map (·.1) = rows := by
  simp [chosen, Function.comp_def]

theorem part_eq (cells : α → Cells) (conditions : Cells) :
    part (chosen cells conditions rows) =
      (((chosen cells conditions rows).filter (·.2)).map (·.1),
        ((chosen cells conditions rows).filter (!·.2)).map (·.1)) := by
  rw [part, List.partition_eq_filter_filter]
  rfl

/-- What is kept stays in its order. -/
theorem part_sublist (cells : α → Cells) (conditions : Cells) :
    (part (chosen cells conditions rows)).2.Sublist rows := by
  have hkept : ((chosen cells conditions rows).filter (!·.2)).Sublist (chosen cells conditions rows) :=
    List.filter_sublist
  have hsublist := hkept.map (·.1)
  rw [map_chosen] at hsublist
  rw [part_eq]
  exact hsublist

/-- A row that is not chosen is kept. -/
theorem mem_part (cells : α → Cells) (conditions : Cells) (hr : r ∈ rows) :
    r ∈ (part (chosen cells conditions rows)).1 ∨ r ∈ (part (chosen cells conditions rows)).2 := by
  rw [← map_chosen cells conditions rows] at hr
  obtain ⟨⟨r, hit⟩, hmem, rfl⟩ := List.mem_map.mp hr
  rw [part_eq]
  cases hit with
  | true => exact Or.inl (List.mem_map.mpr ⟨_, List.mem_filter.mpr ⟨hmem, rfl⟩, rfl⟩)
  | false => exact Or.inr (List.mem_map.mpr ⟨_, List.mem_filter.mpr ⟨hmem, rfl⟩, rfl⟩)

end Parts

theorem settled_eq_ok {enforce : Bool} {t v : Tables} (h : settled enforce t = .ok v) :
    v = t ∧ (enforce = true → t.Intact) := by
  unfold settled at h
  split at h
  · rename_i hkeys
    cases h
    simp only [Bool.and_eq_true, decide_eq_true_eq, Bool.or_eq_true, Bool.not_eq_true'] at hkeys
    obtain ⟨⟨⟨hrows, hlinks⟩, hprojects⟩, hreferences⟩ := hkeys
    refine ⟨rfl, fun henf => ⟨hrows, hlinks, hprojects, ?_⟩⟩
    exact List.all_eq_true.mp (hreferences.resolve_left (by simp [henf]))
  · cases h

/-- A statement on the projects, which are others' to add and to delete. -/
inductive RawStatement.OnProjects : RawStatement → Prop
  | insert {row : Cells} : OnProjects (.insert .projects row)
  | delete {conditions : Cells} : OnProjects (.delete .projects conditions)

/-- A statement on the projects leaves the collections alone, and removes memberships at most. -/
theorem RawStatement.OnProjects.run {statement : RawStatement} (h : statement.OnProjects) {now : Time.Instant}
    {enforce : Bool} {t v : Tables} {n : Nat} (hrun : statement.run now enforce t = .ok (n, v)) :
    t.Changes now v ∧ (enforce = true → t.Intact → v.Intact) := by
  cases h with
  | insert =>
    simp only [RawStatement.run] at hrun
    split at hrun
    · obtain ⟨project, -, hrun⟩ := bind_eq_ok.mp hrun
      obtain ⟨u, hu, hrun⟩ := bind_eq_ok.mp hrun
      cases hrun
      obtain ⟨rfl, hintact⟩ := settled_eq_ok hu
      exact ⟨.projects rfl (.refl _), fun henf _ => hintact henf⟩
    · cases hrun
  | @delete conditions =>
    cases hrun
    have hlinks : ∀ p : Link → Bool, (if enforce then t.links.filter p else t.links).Sublist t.links := by
      intro p
      split
      · exact List.filter_sublist
      · exact .refl _
    refine ⟨.projects rfl (hlinks _), fun henf ht => ?_⟩
    subst henf
    refine ⟨ht.rows, ht.links.filter _, ?_, fun l hl => ?_⟩
    · exact ((part_sublist projectCells conditions).map _).nodup ht.projects
    · -- The project of a membership that is kept was not chosen, so that it is kept too.
      obtain ⟨hl, hkept⟩ := List.mem_filter.mp hl
      have hs := ht.references l hl
      simp only [Tables.supports, Tables.hasProject, Bool.and_eq_true, List.any_eq_true, beq_iff_eq] at hs ⊢
      obtain ⟨hrow, project, hproject, hid⟩ := hs
      refine ⟨hrow, project, ?_, hid⟩
      refine (mem_part projectCells conditions hproject).resolve_left fun hgone => ?_
      simp only [Bool.not_eq_true', List.any_eq_false, beq_iff_eq] at hkept
      exact hkept project hgone hid

theorem RawStatement.OnProjects.outcome {statement : RawStatement} (h : statement.OnProjects) {s : State}
    (hs : s.tables = s.db.committed) :
    Ends (Act.atomically statement.execute) s (fun _ t => s.Outcome t) fun _ t => s.Outcome t := by
  have hwork : Ends statement.execute s (fun _ t => s.Within t ∧ s.db.committed.Changes s.now t.tables ∧
      (s.db.enforce = true → s.db.committed.Intact → t.tables.Intact)) fun _ t => s.Within t := by
    unfold RawStatement.execute
    rw [ends_bind, ends_get]
    refine Act.execute_gives (fun n v t hrun ht => ?_) fun _ t ht => ht.toWithin
    rw [hs] at hrun
    rw [ht.gives.tables]
    exact ⟨ht.toWithin, h.run hrun⟩
  refine (Act.atomically_over (fun _ v => s.db.committed.Changes s.now v ∧
    (s.db.enforce = true → s.db.committed.Intact → v.Intact)) hwork).mono (fun _ t ht => ?_) fun _ t ht => ?_
  · exact (State.Still.refl s).outcome_over ht.1 ht.2.1 ht.2.2
  · exact (State.Still.refl s).outcome_over ht.1 (ht.2 ▸ .same) fun _ hi => ht.2 ▸ hi

end Catalog

/-! ### Runs -/

namespace Service

/-- What may happen to a catalog that several processes serve. -/
inductive Event : State → State → Prop
  | step {s t o} (h : Step o s t) : Event s t
  /-- The next request comes to another process, whose cache may hold anything. -/
  | process {s} (cache : Cache) : Event s { s with session := {}, cache }
  | projects {s t r} {statement : Catalog.RawStatement} (about : statement.OnProjects)
      (h : Act.atomically statement.execute s = (r, t)) : Event s t

/-- Any number of events, each of which is allowed as such. -/
inductive Happens (allowed : State → State → Prop) (s : State) : State → Prop
  | refl : Happens allowed s s
  | event {t u : State} (ht : Happens allowed s t) (h : Event t u) (ho : allowed t u) : Happens allowed s u

variable {s t : State} {allowed : State → State → Prop}

/-- A run goes on with an operation. -/
theorem Happens.operate (h : Happens allowed s t) (o : Operation) (ho : allowed t (o.run t).2) :
    Happens allowed s (o.run t).2 := .event h (.step (.operation o rfl)) ho

/-- A run goes on with a statement on the projects. -/
theorem Happens.execute (h : Happens allowed s t) {statement : Catalog.RawStatement} (about : statement.OnProjects)
    (ho : allowed t (Act.atomically statement.execute t).2) :
    Happens allowed s (Act.atomically statement.execute t).2 := .event h (.projects about rfl) ho

/-- A run goes on at a later time, or at an earlier one. -/
theorem Happens.clock (h : Happens allowed s t) (now : Time.Instant) (hnow : Time.inRange now = true)
    (ho : allowed t { t with now }) : Happens allowed s { t with now } := .event h (.step (.clock now hnow)) ho

theorem Step.outcome {o : Option Operation} (hs : s.tables = s.db.committed) (h : Step o s t) : s.Outcome t := by
  cases h with
  | @operation _ _ r o h =>
    cases r with
    | ok x => exact (o.run_outcome hs).of_ok h
    | error e => exact (o.run_outcome hs).of_error h
  | @query _ _ r q h =>
    cases r with
    | ok cs => exact (q.run_still.of_ok h).outcome hs
    | error e => exact (q.run_still.of_error h).outcome hs
  | session => exact ⟨rfl, id, rfl, .same, fun _ hi => hi⟩
  | clock now h => exact ⟨rfl, fun _ => h, hs, .same, fun _ hi => hi⟩
  | cache c h => exact ⟨rfl, id, hs, .same, fun _ hi => hi⟩
  | beside => exact ⟨rfl, id, hs, .same, fun _ hi => hi⟩

/-- Whatever happens, what is committed can only come to be in one of the ways that are known. -/
theorem Event.outcome (hs : s.tables = s.db.committed) (h : Event s t) : s.Outcome t := by
  cases h with
  | step h => exact h.outcome hs
  | process cache => exact ⟨rfl, id, rfl, .same, fun _ hi => hi⟩
  | @projects _ r _ about h =>
    cases r with
    | ok n => exact (about.outcome hs).of_ok h
    | error e => exact (about.outcome hs).of_error h

theorem Happens.seen (hs : s.tables = s.db.committed) (h : Happens allowed s t) : t.tables = t.db.committed := by
  induction h with
  | refl => exact hs
  | event _ h _ ih => exact (h.outcome ih).seen

end Service

end Curation
