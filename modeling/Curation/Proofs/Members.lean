import Curation.Proofs.Reissue

/-! Replacing the members of a collection. The list that is submitted becomes the whole membership, whatever it repeats
    and in whatever order, or nothing is changed at all, and what is returned compares the old members with the new. -/

namespace Curation

open Act (Ends ends_bind ends_pure)

/-! ### The tables -/

namespace Tables

variable {t : Tables} {id : String} {ps : List String}

/-- The tables with some projects as the members of a collection, and no others. -/
def withMembers (t : Tables) (id : String) (ps : List String) : Tables :=
  (t.deleteLinks id).2.addLinks id (distinct ps)

/-- From the first tables to the second the given projects have become the members of a collection, and nothing else has
    changed. -/
structure Replaced (t v : Tables) (id : String) (ps : List String) : Prop where
  members : ∀ p, p ∈ v.membersOf id ↔ p ∈ ps
  others : ∀ id', id' ≠ id → v.membersOf id' = t.membersOf id'
  collections : v.collections = t.collections
  projects : v.projects = t.projects

theorem replaced_withMembers : t.Replaced (t.withMembers id ps) id ps where
  members p := by rw [withMembers, membersOf_addLinks membersOf_deleteLinks, mem_sorted, mem_distinct]
  others _ hne := ((addLinks_agreeAt hne).trans (deleteLinks_agreeAt hne)).members
  collections := rfl
  projects := rfl

theorem nodup_membersOf_withMembers : ((t.withMembers id ps).membersOf id).Nodup := by
  rw [withMembers, membersOf_addLinks membersOf_deleteLinks]
  exact (sorted_strict (nodup_distinct ps)).imp fun h => String.ne_of_lt h

theorem withMembers_again : (t.withMembers id ps).withMembers id ps = t.withMembers id ps := by
  have hlinks : ((t.withMembers id ps).withMembers id ps).links = (t.withMembers id ps).links :=
    links_replaced_again rfl
  show { t with links := ((t.withMembers id ps).withMembers id ps).links } = _
  rw [hlinks]
  rfl

theorem withMembers_distinct : t.withMembers id (distinct ps) = t.withMembers id ps := by
  rw [withMembers, distinct_distinct, withMembers]

end Tables

namespace Catalog

/-! ### Comparing -/

/-- A replacement tells which members are new, gone and still there. -/
structure Replacement.Compares (r : Replacement) (old new : List String) : Prop where
  added_removed : r.added.Disjoint r.removed
  added_kept : r.added.Disjoint r.kept
  removed_kept : r.removed.Disjoint r.kept
  target : ∀ p, p ∈ r.added ∨ p ∈ r.kept ↔ p ∈ new
  current : ∀ p, p ∈ r.removed ∨ p ∈ r.kept ↔ p ∈ old
  unchanged : r.unchanged = true ↔ ∀ p, p ∈ old ↔ p ∈ new

theorem Replacement.compares_between (old new : List String) : (between old new).Compares old new := by
  have hadded : ∀ p, p ∈ (between old new).added ↔ p ∈ new ∧ p ∉ old := by simp [between, mem_sorted]
  have hremoved : ∀ p, p ∈ (between old new).removed ↔ p ∈ old ∧ p ∉ new := by simp [between, mem_sorted]
  have hkept : ∀ p, p ∈ (between old new).kept ↔ p ∈ old ∧ p ∈ new := by simp [between, mem_sorted]
  refine ⟨fun p hp hp' => ?_, fun p hp hp' => ?_, fun p hp hp' => ?_, fun p => ?_, fun p => ?_, ?_⟩
  · exact ((hadded p).mp hp).2 ((hremoved p).mp hp').1
  · exact ((hadded p).mp hp).2 ((hkept p).mp hp').1
  · exact ((hremoved p).mp hp).2 ((hkept p).mp hp').2
  · rw [hadded, hkept]
    tauto
  · rw [hremoved, hkept]
    tauto
  · rw [Replacement.unchanged, Bool.and_eq_true, List.isEmpty_iff, List.isEmpty_iff, List.eq_nil_iff_forall_not_mem,
      List.eq_nil_iff_forall_not_mem]
    simp only [hadded, hremoved]
    constructor
    · rintro ⟨hnew, hold⟩ p
      exact ⟨fun hp => by_contra fun hno => hold p ⟨hp, hno⟩, fun hp => by_contra fun hno => hnew p ⟨hp, hno⟩⟩
    · intro hsame
      exact ⟨fun p hp => hp.2 ((hsame p).mpr hp.1), fun p hp => hp.2 ((hsame p).mp hp.1)⟩

theorem Replacement.Compares.congr {r : Replacement} {old new new' : List String} (h : r.Compares old new)
    (hnew : ∀ p, p ∈ new ↔ p ∈ new') : r.Compares old new' where
  added_removed := h.added_removed
  added_kept := h.added_kept
  removed_kept := h.removed_kept
  target p := (h.target p).trans (hnew p)
  current := h.current
  unchanged := by simp only [h.unchanged, hnew]

/-! ### Replacing -/

variable {s : State} {id : String} {projects : List String}

/-- Members that have not been resolved are resolved first. -/
theorem replaceMembers_eq : replaceMembers id projects = (do
    let ps ← resolve projects
    replaceMembers id ps true) := rfl

theorem members_serves (hs : s.Answers) (id : String) : ∃ t, members id s = (.ok (s.tables.membersOf id), t) := by
  have hends : Ends (members id) s (fun ms _ => ms = s.tables.membersOf id) fun _ _ => False :=
    Act.query_serves hs fun t _ => rfl
  obtain ⟨_, t, hrun, rfl⟩ := hends.exists_ok
  exact ⟨t, hrun⟩

/-- Projects that are there become the members, whether they have been resolved or not. -/
theorem replaceMembers_known (hs : s.Serves) (hrow : (s.tables.row? id).isSome)
    (hknown : ∀ p ∈ projects, s.tables.hasProject p = true) (resolved : Bool) :
    ∃ t, replaceMembers id projects resolved s = (.ok (.between (s.tables.membersOf id) (distinct projects)), t) ∧
      t.tables = s.tables.withMembers id projects ∧ t.Serves := by
  have hends : Ends (replaceMembers id projects resolved) s
      (fun r t => r = .between (s.tables.membersOf id) (distinct projects) ∧
        t.tables = s.tables.withMembers id projects ∧ t.Serves) fun _ _ => False := by
    cases resolved with
    | true => exact replaceMembers_serves hs hrow hknown fun t ht => ⟨rfl, ht.tables, hs.gives ht⟩
    | false =>
      rw [replaceMembers_eq, ends_bind]
      refine resolve_passes hs.toAnswers hknown fun u hu => ?_
      rw [← hu.tables]
      refine replaceMembers_serves (hs.still hu) (hu.tables ▸ hrow) (fun p hp => ?_) fun t ht => ⟨?_, ?_, ?_⟩
      · rw [hu.tables]
        exact hknown p (mem_distinct.mp hp)
      · rw [distinct_distinct]
      · rw [ht.tables, ← Tables.withMembers_distinct]
        rfl
      · exact (hs.still hu).gives ht
  obtain ⟨_, t, hrun, rfl, ht⟩ := hends.exists_ok
  exact ⟨t, hrun, ht⟩

/-- The first id without a project is reported, and nothing has changed. -/
theorem replaceMembers_unknown {p : String} (hs : s.Answers) (id : String)
    (hfound : (projects.find? fun p => !s.tables.hasProject p) = some p) :
    ∃ t, replaceMembers id projects false s = (.error (.missingProject p), t) ∧ s.Still t := by
  have hends : Ends (replaceMembers id projects) s (fun _ _ => False) fun e t => e = .missingProject p ∧ s.Still t := by
    rw [replaceMembers_eq, ends_bind]
    exact resolve_fails hs hfound fun t ht => ⟨rfl, ht⟩
  obtain ⟨_, t, hrun, rfl, ht⟩ := hends.exists_error
  exact ⟨t, hrun, ht⟩

theorem resolve_known (hs : s.Answers) (hknown : ∀ p ∈ projects, s.tables.hasProject p = true) :
    ∃ t, resolve projects s = (.ok (distinct projects), t) ∧ s.Still t := by
  have hends : Ends (resolve projects) s (fun ps t => ps = distinct projects ∧ s.Still t) fun _ _ => False :=
    resolve_passes hs hknown fun t ht => ⟨rfl, ht⟩
  obtain ⟨_, t, hrun, rfl, ht⟩ := hends.exists_ok
  exact ⟨t, hrun, ht⟩

/-- Where the database answers and takes writes, and the collection is there: if there is no project under one of the
    ids that are submitted, the first such id is reported, and nothing has changed. Otherwise the projects become the
    members, each one once, and nothing else changes; what is returned compares the members before with those that are
    submitted; doing the same again tells of no change, and makes none; and resolving the ids first, and handing on what
    that gives, comes to the same. -/
theorem members_replaced_or_kept (hs : s.Serves) (hrow : (s.tables.row? id).isSome) (projects : List String) :
    match projects.find? fun p => !s.tables.hasProject p with
    | some p => ∃ t, replaceMembers id projects false s = (.error (.missingProject p), t) ∧ t.tables = s.tables ∧
        t.db.committed = s.db.committed
    | none => ∃ r t, replaceMembers id projects false s = (.ok r, t) ∧ s.tables.Replaced t.tables id projects ∧
        r.Compares (s.tables.membersOf id) projects ∧
        (∃ ms u, members id t = (.ok ms, u) ∧ ms.Nodup ∧ ∀ p, p ∈ ms ↔ p ∈ projects) ∧
        (∃ r' u, replaceMembers id projects false t = (.ok r', u) ∧ r'.unchanged = true ∧ u.tables = t.tables) ∧
        ∃ ps t' u, resolve projects s = (.ok ps, t') ∧ replaceMembers id ps true t' = (.ok r, u) ∧
          u.tables = t.tables := by
  cases hfound : projects.find? fun p => !s.tables.hasProject p with
  | some p =>
    obtain ⟨t, hrun, ht⟩ := replaceMembers_unknown hs.toAnswers id hfound
    exact ⟨t, hrun, ht.tables, ht.committed⟩
  | none =>
    have hknown : ∀ p ∈ projects, s.tables.hasProject p = true := by simpa using hfound
    obtain ⟨t, hrun, ht, hserves⟩ := replaceMembers_known hs hrow hknown false
    have hreplaced : s.tables.Replaced t.tables id projects := ht ▸ Tables.replaced_withMembers
    -- What the list repeats makes no difference to a comparison.
    have hcompares : ∀ old, (Replacement.between old (distinct projects)).Compares old projects := fun old =>
      (Replacement.compares_between old (distinct projects)).congr fun p => mem_distinct
    refine ⟨_, t, hrun, hreplaced, hcompares _, ?_, ?_, ?_⟩
    · obtain ⟨u, hmembers⟩ := members_serves hserves.toAnswers id
      exact ⟨_, u, hmembers, ht ▸ Tables.nodup_membersOf_withMembers, hreplaced.members⟩
    · have hthere : (t.tables.row? id).isSome := by rwa [Tables.row?, hreplaced.collections]
      obtain ⟨u, hagain, hu, -⟩ := replaceMembers_known hserves hthere
        (fun p hp => by rw [Tables.hasProject_congr hreplaced.projects]; exact hknown p hp) false
      refine ⟨_, u, hagain, (hcompares _).unchanged.mpr hreplaced.members, ?_⟩
      rw [hu, ht, Tables.withMembers_again]
    · obtain ⟨t', hresolve, hstill⟩ := resolve_known hs.toAnswers hknown
      obtain ⟨u, hagain, hu, -⟩ := replaceMembers_known (hs.still hstill) (hstill.tables ▸ hrow)
        (fun p hp => by rw [hstill.tables]; exact hknown p (mem_distinct.mp hp)) true
      rw [distinct_distinct, hstill.tables] at hagain
      refine ⟨_, t', u, hresolve, hagain, ?_⟩
      rw [hu, ht, hstill.tables, Tables.withMembers_distinct]

/-- Of two members one stays and one goes, and a project is added; and of two ids without a project the first one is
    reported. -/
theorem members_replaced_or_kept_pair :
    let s : State := { now := 0, db := { committed := {
      collections := [newRow "c" "u" "Tools" "Things to work with" .listed 0]
      projects := [⟨"p", "P"⟩, ⟨"q", "Q"⟩, ⟨"r", "R"⟩]
      links := [⟨"c", "q"⟩, ⟨"c", "r"⟩] } } }
    s.Serves ∧ (s.tables.row? "c").isSome ∧
      (∃ r t, replaceMembers "c" ["q", "p", "q"] false s = (.ok r, t) ∧
        s.tables.Replaced t.tables "c" ["q", "p", "q"] ∧ r.Compares ["q", "r"] ["q", "p", "q"]) ∧
      ∃ t, replaceMembers "c" ["p", "y", "x"] false s = (.error (.missingProject "y"), t) ∧ t.tables = s.tables := by
  intro s
  have hserves : s.Serves := ⟨⟨rfl, rfl, fun _ ho => nomatch ho⟩, rfl⟩
  have hrow : (s.tables.row? "c").isSome := by decide
  have hreplaced := members_replaced_or_kept hserves hrow ["q", "p", "q"]
  have hrefused := members_replaced_or_kept hserves hrow ["p", "y", "x"]
  have hnone : (["q", "p", "q"].find? fun p => !s.tables.hasProject p) = none := by decide
  have hsome : (["p", "y", "x"].find? fun p => !s.tables.hasProject p) = some "y" := by decide
  have hmembers : s.tables.membersOf "c" = ["q", "r"] := List.mergeSort_of_pairwise (by decide)
  rw [hnone] at hreplaced
  rw [hsome] at hrefused
  obtain ⟨r, t, hrun, ht, hcompares, -⟩ := hreplaced
  obtain ⟨u, hfails, hu, -⟩ := hrefused
  exact ⟨hserves, hrow, ⟨r, t, hrun, ht, hmembers ▸ hcompares⟩, u, hfails, hu⟩

end Catalog

end Curation
