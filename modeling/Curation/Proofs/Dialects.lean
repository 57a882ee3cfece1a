import Curation.Proofs.Succeeding

/-! Adding projects in the different families of databases. Some of them skip the memberships that are there already by
    themselves, for the others these are read and left out first. Both ways come to the same tables, mark the same
    collection and refuse the same lists. -/

namespace Curation

open Act (Ends ends_iff)

/-- The same state on a database of another family. -/
def State.on (s : State) (d : Dialect) : State := { s with db.dialect := d }

/-- The database takes the projects of a list into a collection: where references are enforced, each of them is in it
    already, or both the collection and the project are there. -/
def State.Takes (s : State) (id : String) (projects : List String) : Prop :=
  s.db.enforce = true → ∀ p ∈ projects, ⟨id, p⟩ ∈ s.tables.links ∨ s.tables.supports ⟨id, p⟩ = true

namespace Tables

variable {t : Tables} {id : String} {ps : List String}

theorem mem_fresh {ls : List Link} {l : Link} : l ∈ t.fresh ls ↔ l ∈ ls ∧ l ∉ t.links := by
  simp [fresh]

theorem fresh_addLinks : (t.addLinks id ps).fresh (ps.map fun p => ⟨id, p⟩) = [] := by
  refine List.eq_nil_iff_forall_not_mem.mpr fun l hl => ?_
  obtain ⟨hmem, hnew⟩ := mem_fresh.mp hl
  obtain ⟨p, hp, rfl⟩ := List.mem_map.mp hmem
  exact hnew (mem_addLinks.mpr (Or.inr ⟨rfl, hp⟩))

theorem addLinks_again : (t.addLinks id ps).addLinks id ps = t.addLinks id ps := by
  rw [addLinks, fresh_addLinks, List.append_nil]

end Tables

namespace State

variable {s t : State} {id : String} {projects : List String}

theorem takes_iff : s.Takes id projects ↔
    (s.db.enforce = true → (s.tables.fresh ((distinct projects).map fun p => ⟨id, p⟩)).all s.tables.supports = true) := by
  refine imp_congr_right fun _ => ?_
  rw [List.all_eq_true]
  constructor
  · intro h l hl
    obtain ⟨hmem, hnew⟩ := Tables.mem_fresh.mp hl
    obtain ⟨p, hp, rfl⟩ := List.mem_map.mp hmem
    exact (h p (mem_distinct.mp hp)).resolve_left hnew
  · intro h p hp
    by_cases hold : ⟨id, p⟩ ∈ s.tables.links
    · exact Or.inl hold
    · exact Or.inr (h _ (Tables.mem_fresh.mpr ⟨List.mem_map_of_mem (mem_distinct.mpr hp), hold⟩))

theorem Serves.on (h : s.Serves) (d : Dialect) : (s.on d).Serves := ⟨⟨h.stuck, h.present, h.outages⟩, h.writable⟩

end State

namespace Catalog

variable {s t : State} {id : String} {projects : List String}

/-- Projects that have just been added are added again, which changes nothing. -/
theorem link_again {p : Pending} (h : t.Serves) (htables : t.tables = s.tables.addLinks id (distinct projects))
    (hpending : t.session.pending = if projects = [] then p else p.put id none) :
    ∃ u, link id projects t = (.ok (distinct projects), u) ∧ u.tables = t.tables ∧
      u.session.pending = t.session.pending := by
  have hnew : t.tables.fresh ((distinct projects).map fun p => ⟨id, p⟩) = [] := by
    rw [htables, Tables.fresh_addLinks]
  have hlink : Ends (link id projects) t (fun ps u => ps = distinct projects ∧ u.tables = t.tables ∧
      u.session.pending = t.session.pending) fun _ _ => False := by
    refine link_decides (fun _ _ _ hno _ => hno ⟨h.toAnswers, h.writable⟩) (fun u _ hu => ⟨rfl, ?_, ?_⟩)
      fun u hno _ => hno fun _ => by simp [hnew]
    · rw [hu.tables, htables, Tables.addLinks_again]
    · simp only [hu.pending, hpending, distinct_eq_nil]
      split
      · rfl
      · exact Keyed.put_put _ _ _ _
  obtain ⟨_, u, hrun, rfl, hu⟩ := hlink.exists_ok
  exact ⟨u, hrun, hu⟩

/-- All families of databases add projects alike, whatever the tables are and whatever the list repeats, has in it
    already or asks for in vain: if the projects are added, it is to the same tables, with the same result and the same
    mark on the collection, and adding them again, in whichever way, makes no difference. If not, nothing was added; and
    on a database that answers and takes writes they are added just where it takes them all, and refused as a breach of
    integrity elsewhere. -/
theorem linked_alike (s : State) (id : String) (projects : List String) :
    ∃ v : Tables, v.collections = s.tables.collections ∧ v.projects = s.tables.projects ∧
      (∀ l, l ∈ v.links ↔ l ∈ s.tables.links ∨ l.collection = id ∧ l.project ∈ projects) ∧
      ∀ d, match link id projects (s.on d) with
        | (.ok ps, t) => s.Takes id projects ∧ ps = distinct projects ∧ t.tables = v ∧
            t.session.pending = (if projects = [] then s.session.pending else s.session.pending.put id none) ∧
            t.db.committed = s.db.committed ∧
            (s.Serves → ∀ d', ∃ u, link id projects (t.on d') = (.ok ps, u) ∧ u.tables = t.tables ∧
              u.session.pending = t.session.pending)
        | (.error e, t) => t.tables = s.tables ∧ t.session.pending = s.session.pending ∧
            t.db.committed = s.db.committed ∧ (e = .database .integrity → ¬ s.Takes id projects) ∧
            (s.Serves → e = .database .integrity) := by
  refine ⟨s.tables.addLinks id (distinct projects), rfl, rfl, fun l => ?_, fun d => ?_⟩
  · rw [Tables.mem_addLinks, mem_distinct]
  have hlink : Ends (link id projects) (s.on d)
      (fun ps t => s.Takes id projects ∧ ps = distinct projects ∧ (s.on d).Gives t
        (s.tables.addLinks id (distinct projects))
        (if distinct projects = [] then s.session.pending else s.session.pending.put id none))
      fun e t => (s.on d).Gives t s.tables s.session.pending ∧ (e = .database .integrity → ¬ s.Takes id projects) ∧
        (s.Serves → e = .database .integrity) := by
    refine link_decides (fun r t hr hno ht => ?_) (fun t htaken ht => ⟨State.takes_iff.mpr htaken, rfl, ht⟩)
      fun t hno ht => ?_
    · exact ⟨ht, fun heq => absurd (Failure.database.inj heq) hr, fun h => absurd ⟨(h.on d).toAnswers, h.writable⟩ hno⟩
    · exact ⟨ht, fun _ htakes => hno (State.takes_iff.mp htakes), fun _ => rfl⟩
  obtain ⟨hok, herr⟩ := ends_iff.mp hlink
  split
  · rename_i ps t hrun
    obtain ⟨htakes, rfl, ht⟩ := hok ps t hrun
    have hpending := ht.pending
    simp only [distinct_eq_nil] at hpending
    refine ⟨htakes, rfl, ht.tables, hpending, ht.committed, fun h d' => ?_⟩
    exact link_again (((h.on d).gives ht).on d') ht.tables hpending
  · rename_i e t hrun
    obtain ⟨ht, hinteg, hserves⟩ := herr e t hrun
    exact ⟨ht.tables, ht.pending, ht.committed, hinteg, hserves⟩

/-- A list that repeats a new project and has one that is in the collection already is taken in every family, and one
    with an id that no project has is refused in every family. -/
theorem linked_alike_pair :
    let s : State := { now := 0, db := { committed := {
      collections := [newRow "c" "u" "Tools" "Things to work with" .listed 0]
      projects := [⟨"p", "P"⟩, ⟨"q", "Q"⟩]
      links := [⟨"c", "q"⟩] } } }
    s.Serves ∧ s.Takes "c" ["q", "p", "p"] ∧ ¬ s.Takes "c" ["p", "x"] ∧
      (∃ v : Tables, (⟨"c", "p"⟩ : Link) ∈ v.links ∧ ∀ d, ∃ t, link "c" ["q", "p", "p"] (s.on d) = (.ok ["q", "p"], t) ∧
        t.tables = v) ∧
      ∀ d, ∃ t, link "c" ["p", "x"] (s.on d) = (.error (.database .integrity), t) ∧ t.tables = s.tables := by
  intro s
  have hserves : s.Serves := ⟨⟨rfl, rfl, fun _ ho => nomatch ho⟩, rfl⟩
  have htakes : s.Takes "c" ["q", "p", "p"] := fun _ => by decide
  have hrefuses : ¬ s.Takes "c" ["p", "x"] := fun h => absurd (h rfl) (by decide)
  refine ⟨hserves, htakes, hrefuses, ?_, fun d => ?_⟩
  · obtain ⟨v, -, -, hlinks, hall⟩ := linked_alike s "c" ["q", "p", "p"]
    refine ⟨v, (hlinks _).mpr (Or.inr ⟨rfl, by decide⟩), fun d => ?_⟩
    have hd := hall d
    split at hd
    · rename_i ps t hrun
      have hps : ps = ["q", "p"] := hd.2.1.trans (by decide)
      exact ⟨t, hps ▸ hrun, hd.2.2.1⟩
    · exact absurd htakes (hd.2.2.2.1 (hd.2.2.2.2 hserves))
  · obtain ⟨v, -, -, -, hall⟩ := linked_alike s "c" ["p", "x"]
    have hd := hall d
    split at hd
    · exact absurd hd.1 hrefuses
    · rename_i e t hrun
      exact ⟨t, hd.2.2.2.2 hserves ▸ hrun, hd.1⟩

end Catalog

end Curation
