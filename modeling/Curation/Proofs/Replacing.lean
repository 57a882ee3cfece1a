import Mathlib.Data.List.Perm.Subperm
import Mathlib.Logic.Function.Basic
import Curation.Proofs.Session

/-! Two edits that replace the members of one collection at the same time, each in a session of its own over one
    database. A session sees what is committed, with its own writes. Each edit reads the members, removes them, adds its
    own and commits, and nothing keeps the statements of the other from coming in between. So the members that one of
    them adds may be there unseen when the other one removes what it sees, and the lists of both are stored. -/

namespace Curation

open Act (Ends ends_bind ends_get ends_pure ends_throw ends_update ends_ite ends_iff)

namespace Replacing

/-! ### Sessions side by side -/

/-- What a session has done to the memberships and not committed yet: which ones that others have stored it has removed,
    and which ones it has added. -/
structure Draft where
  removed : List Link := []
  added : List Link := []

namespace Draft

/-- The tables as the session sees them: what is committed, with its own writes. -/
def onto (d : Draft) (t : Tables) : Tables :=
  let kept := t.links.filter fun l => !d.removed.contains l
  { t with links := kept ++ d.added.filter fun l => !kept.contains l }

/-- The draft after a statement, by the tables that the session saw before it and sees after it. -/
def after (d : Draft) (t u : Tables) : Draft where
  removed := d.removed ++ t.links.filter fun l => !u.links.contains l
  added := d.added.filter u.links.contains ++ u.links.filter fun l => !t.links.contains l

/-- The draft after another session has stored some memberships: they are not the ones that were removed before. -/
def spare (d : Draft) (ls : List Link) : Draft := { d with removed := d.removed.filter fun l => !ls.contains l }

end Draft

/-- How far an edit has come. -/
inductive Stage where
  | started
  | read
  | removed
  | added
  | committed
  | failed
  deriving DecidableEq, Repr

/-- An edit in its session. -/
structure Editor where
  /-- The projects that are to be the members, which have been resolved. -/
  projects : List String
  draft : Draft := {}
  stage : Stage := .started
  /-- Whether the other edit was committed when this one removed the members. -/
  late : Bool := false

/-- What is committed, two edits, and which one of them was committed last. -/
structure System where
  committed : Tables
  editors : Bool → Editor
  last : Option Bool := none

namespace System

/-- The edit is committed. -/
def Done (σ : System) (i : Bool) : Prop := (σ.editors i).stage = .committed

instance {σ : System} {i : Bool} : Decidable (σ.Done i) := inferInstanceAs (Decidable (_ = _))

/-- The state that a statement of one of the edits starts in. -/
structure Shows (σ : System) (i : Bool) (s : State) : Prop where
  committed : s.db.committed = σ.committed
  view : s.session.view = some ((σ.editors i).draft.onto σ.committed)

theorem Shows.tables {σ : System} {i : Bool} {s : State} (h : σ.Shows i s) :
    s.tables = (σ.editors i).draft.onto σ.committed := by simp [State.tables, h.view]

/-- The system after one of the edits has gone on. -/
def put (σ : System) (i : Bool) (e : Editor) : System := { σ with editors := Function.update σ.editors i e }

/-- The system after one of the edits is committed, which stores the given tables. -/
def commit (σ : System) (i : Bool) (t : Tables) : System where
  committed := t
  editors := Function.update
    (fun k => { σ.editors k with draft := (σ.editors k).draft.spare (σ.editors i).draft.added }) i
    { σ.editors i with draft := {}, stage := .committed }
  last := some i

end System

/-- One statement of one of the edits, in the order that each of them has its statements in, or the end of it. -/
inductive Step (id : String) (σ : System) : System → Prop
  | read {i s t current} (hi : (σ.editors i).stage = .started) (hs : σ.Shows i s)
      (h : Catalog.members id s = (.ok current, t)) : Step id σ (σ.put i { σ.editors i with stage := .read })
  | remove {i s t n} (hi : (σ.editors i).stage = .read) (hs : σ.Shows i s) (h : Catalog.unlink id s = (.ok n, t)) :
      Step id σ (σ.put i { σ.editors i with
        draft := (σ.editors i).draft.after s.tables t.tables, stage := .removed, late := decide (σ.Done !i) })
  | add {i s t ps} (hi : (σ.editors i).stage = .removed) (hs : σ.Shows i s)
      (h : Catalog.link id (σ.editors i).projects s = (.ok ps, t)) :
      Step id σ (σ.put i { σ.editors i with
        draft := (σ.editors i).draft.after s.tables t.tables, stage := .added })
  | commit {i s t} (hi : (σ.editors i).stage = .added) (hs : σ.Shows i s) (h : Act.commit s = (.ok (), t)) :
      Step id σ (σ.commit i t.db.committed)
  /-- An edit fails, for whatever reason, and is rolled back. -/
  | fail {i} (hi : ¬ σ.Done i) : Step id σ (σ.put i { σ.editors i with draft := {}, stage := .failed })

/-- What can come of steps in any order from two edits that have not begun, whatever members there are. -/
inductive Reached (id : String) (projects : Bool → List String) : System → Prop
  | start (committed : Tables) (h : committed.links.Nodup) :
    Reached id projects { committed, editors := fun i => { projects := projects i } }
  | step {σ σ' : System} (hσ : Reached id projects σ) (h : Step id σ σ') : Reached id projects σ'

/-! ### Schedules -/

namespace System

/-- The state that the next statement of an edit starts in, on a database that answers. -/
def session (σ : System) (i : Bool) : State where
  now := 0
  db := { committed := σ.committed }
  session := { view := some ((σ.editors i).draft.onto σ.committed) }

/-- The next statement of an edit, or its commit. -/
def next (id : String) (σ : System) (i : Bool) : System :=
  let e := σ.editors i
  let s := σ.session i
  let failed := { e with draft := {}, stage := .failed }
  match e.stage with
  | .started =>
    match Catalog.members id s with
    | (.ok _, _) => σ.put i { e with stage := .read }
    | (.error _, _) => σ.put i failed
  | .read =>
    match Catalog.unlink id s with
    | (.ok _, t) => σ.put i { e with
        draft := e.draft.after s.tables t.tables, stage := .removed, late := decide (σ.Done !i) }
    | (.error _, _) => σ.put i failed
  | .removed =>
    match Catalog.link id e.projects s with
    | (.ok _, t) => σ.put i { e with draft := e.draft.after s.tables t.tables, stage := .added }
    | (.error _, _) => σ.put i failed
  | .added =>
    match Act.commit s with
    | (.ok _, t) => σ.commit i t.db.committed
    | (.error _, _) => σ.put i failed
  | .committed | .failed => σ

/-- Two edits that have not begun. -/
def start (committed : Tables) (projects : Bool → List String) : System where
  committed := committed
  editors i := { projects := projects i }

end System

/-- Whichever edit goes on, what comes of it is reached. -/
theorem Reached.next {id : String} {projects : Bool → List String} {σ : System} (h : Reached id projects σ) (i : Bool) :
    Reached id projects (σ.next id i) := by
  have hshows : σ.Shows i (σ.session i) := ⟨rfl, rfl⟩
  have hfails (hst : (σ.editors i).stage ≠ .committed) := h.step (.fail hst)
  unfold System.next
  dsimp only
  split
  · rename_i hi
    split
    · exact h.step (.read hi hshows ‹_›)
    · exact hfails (by simp [hi])
  · rename_i hi
    split
    · exact h.step (.remove hi hshows ‹_›)
    · exact hfails (by simp [hi])
  · rename_i hi
    split
    · exact h.step (.add hi hshows ‹_›)
    · exact hfails (by simp [hi])
  · rename_i hi
    split
    · exact h.step (.commit hi hshows ‹_›)
    · exact hfails (by simp [hi])
  · exact h
  · exact h

/-- Every schedule of two edits is one of those that `Reached` allows. -/
theorem reached_schedule {id : String} {projects : Bool → List String} {t : Tables} (ht : t.links.Nodup)
    (schedule : List Bool) : Reached id projects (schedule.foldl (System.next id) (.start t projects)) := by
  have hrun : ∀ σ, Reached id projects σ → Reached id projects (schedule.foldl (System.next id) σ) := by
    induction schedule with
    | nil => exact fun _ h => h
    | cons i _ ih => exact fun _ h => ih _ (h.next i)
  exact hrun _ (.start t ht)

/-! ### What statements give -/

section Statements

variable {id : String} {s t : State}

theorem members_ok {ps : List String} (h : Catalog.members id s = (.ok ps, t)) :
    s.Gives t s.tables s.session.pending := by
  have hends : Ends (Catalog.members id) s (fun _ t => s.Gives t s.tables s.session.pending) fun _ _ => True :=
    Catalog.members_ends (fun _ _ _ => trivial) fun _ ht => ht.gives
  exact hends.of_ok h

theorem unlink_ok {n : Nat} (h : Catalog.unlink id s = (.ok n, t)) :
    s.Gives t (s.tables.deleteLinks id).2 (s.session.pending.put id none) := by
  have hends : Ends (Catalog.unlink id) s
      (fun _ t => s.Gives t (s.tables.deleteLinks id).2 (s.session.pending.put id none)) fun _ _ => True :=
    Catalog.unlink_ends (fun _ _ _ => trivial) fun _ _ ht => ht.gives
  exact hends.of_ok h

theorem link_ok {ps linked : List String} (h : Catalog.link id ps s = (.ok linked, t)) :
    ∃ p, s.Gives t (s.tables.addLinks id (distinct ps)) p := by
  have hends : Ends (Catalog.link id ps) s (fun _ t => ∃ p, s.Gives t (s.tables.addLinks id (distinct ps)) p)
      fun _ _ => True :=
    Catalog.link_ends (fun _ _ _ => trivial) fun _ _ ht => ⟨_, ht⟩
  exact hends.of_ok h

/-- What a commit stores is what the session has seen. -/
theorem commit_ok (h : Act.commit s = (.ok (), t)) : t.db.committed = s.tables := by
  have hends : Ends Act.commit s (fun _ t => t.db.committed = s.tables) fun _ _ => True := by
    unfold Act.commit Act.unstuck
    simp only [ends_bind, ends_get, ends_update, ends_ite, ends_throw, ends_pure]
    exact ⟨fun _ => trivial, fun _ => ⟨fun _ => ⟨fun _ => trivial, fun _ => rfl⟩, fun _ => rfl⟩⟩
  exact hends.of_ok h

end Statements

/-! ### What statements make of a draft -/

namespace Draft

variable {d : Draft} {t : Tables} {l : Link}

theorem mem_onto : l ∈ (d.onto t).links ↔ l ∈ t.links ∧ l ∉ d.removed ∨ l ∈ d.added := by
  simp only [onto, List.mem_append, List.mem_filter, Bool.not_eq_true', List.contains_eq_mem, decide_eq_false_iff_not]
  tauto

theorem nodup_onto (ht : t.links.Nodup) (hd : d.added.Nodup) : (d.onto t).links.Nodup := by
  refine List.nodup_append.mpr ⟨ht.filter _, hd.filter _, fun l hl l' hl' heq => ?_⟩
  subst heq
  have hnew := (List.mem_filter.mp hl').2
  rw [List.contains_eq_mem, decide_eq_true hl] at hnew
  cases hnew

theorem onto_blank : Draft.onto {} t = t := by simp [onto]

theorem after_deleteLinks {id : String} :
    Draft.after {} t (t.deleteLinks id).2 = { removed := t.links.filter fun l => l.collection == id } := by
  have hremoved : t.links.filter (fun l => !(t.deleteLinks id).2.links.contains l) =
      t.links.filter fun l => l.collection == id := by
    refine List.filter_congr fun l hl => ?_
    by_cases hid : l.collection = id <;> simp [Tables.mem_deleteLinks, hid, hl]
  have hadded : (t.deleteLinks id).2.links.filter (fun l => !t.links.contains l) = [] := by
    simpa [List.filter_eq_nil_iff] using fun l hl => (Tables.mem_deleteLinks.mp hl).1
  rw [after, hremoved, hadded, List.nil_append, List.filter_nil, List.nil_append]

theorem after_addLinks {id : String} {ps : List String} : d.after (d.onto t) ((d.onto t).addLinks id ps) =
    { d with added := d.added ++ (d.onto t).fresh (ps.map fun p => ⟨id, p⟩) } := by
  have hkeeps : ∀ l ∈ (d.onto t).links, l ∈ ((d.onto t).addLinks id ps).links := fun l hl =>
    Tables.mem_addLinks.mpr (.inl hl)
  have hremoved : (d.onto t).links.filter (fun l => !((d.onto t).addLinks id ps).links.contains l) = [] := by
    simpa [List.filter_eq_nil_iff] using hkeeps
  have hadded : d.added.filter ((d.onto t).addLinks id ps).links.contains = d.added := by
    simpa [List.filter_eq_self] using fun l hl => hkeeps l (mem_onto.mpr (.inr hl))
  have hnew : ((d.onto t).addLinks id ps).links.filter (fun l => !(d.onto t).links.contains l) =
      (d.onto t).fresh (ps.map fun p => ⟨id, p⟩) := by
    rw [Tables.addLinks, List.filter_append, List.filter_eq_nil_iff.mpr (by simp)]
    exact Tables.fresh_fresh
  rw [after, hremoved, hadded, hnew, List.append_nil]

theorem onto_deleteLinks {id : String} :
    (Draft.after {} t (t.deleteLinks id).2).onto t = (t.deleteLinks id).2 := by
  rw [after_deleteLinks, onto]
  simp only [List.filter_nil, List.append_nil, Tables.deleteLinks]
  congr 1
  refine List.filter_congr fun l hl => ?_
  by_cases hid : l.collection = id <;> simp [hid, hl]

theorem onto_addLinks {id : String} {ps : List String} :
    (d.after (d.onto t) ((d.onto t).addLinks id ps)).onto t = (d.onto t).addLinks id ps := by
  have hfresh : ((d.onto t).fresh (ps.map fun p => ⟨id, p⟩)).filter
      (fun l => !(t.links.filter fun l => !d.removed.contains l).contains l) =
      (d.onto t).fresh (ps.map fun p => ⟨id, p⟩) := by
    refine List.filter_eq_self.mpr fun l hl => ?_
    have hnew : l ∉ (d.onto t).links := by simpa using (List.mem_filter.mp hl).2
    rw [Bool.not_eq_true', List.contains_eq_mem, decide_eq_false_iff_not]
    exact fun hkept => hnew (List.mem_append_left _ hkept)
  rw [after_addLinks]
  simp only [onto] at hfresh ⊢
  simp only [List.filter_append, hfresh, Tables.addLinks, List.append_assoc]

theorem mem_spare {ls : List Link} : l ∈ (d.spare ls).removed ↔ l ∈ d.removed ∧ l ∉ ls := by
  simp [spare]

end Draft

/-! ### What is kept -/

/-- What holds of an edit until it is committed, by what is committed and by the projects that the other edit may have
    left. -/
structure Editor.Fair (id : String) (t : Tables) (left : String → Prop) (e : Editor) : Prop where
  blank : e.stage = .started ∨ e.stage = .read → e.draft = {}
  own : ∀ l ∈ e.draft.added, l.collection = id ∧ l.project ∈ e.projects
  once : e.draft.added.Nodup
  /-- From the members that were there, it has removed all that the other edit has not left. -/
  cleared : e.stage = .removed ∨ e.stage = .added → ∀ p, ⟨id, p⟩ ∈ t.links → ⟨id, p⟩ ∉ e.draft.removed →
    e.late = false ∧ left p
  complete : e.stage = .added → ∀ p ∈ e.projects, ⟨id, p⟩ ∈ (e.draft.onto t).links

namespace Editor.Fair

variable {id : String} {t : Tables} {left left' : String → Prop} {e : Editor}

theorem idle {ps : List String} {stage : Stage} {late : Bool} (h : stage ≠ .removed ∧ stage ≠ .added) :
    Editor.Fair id t left { projects := ps, draft := {}, stage, late } where
  blank _ := rfl
  own _ hl := nomatch hl
  once := List.nodup_nil
  cleared hst := absurd hst (by simp [h])
  complete hst := absurd hst h.2

theorem read (h : e.Fair id t left) (hst : e.stage = .started) : Editor.Fair id t left { e with stage := .read } where
  blank _ := h.blank (.inl hst)
  own := h.own
  once := h.once
  cleared hst := by simp at hst
  complete hst := nomatch hst

theorem unlinked (h : e.Fair id t left) (hst : e.stage = .read) {u : Tables} {late : Bool}
    (hu : u = ((e.draft.onto t).deleteLinks id).2) :
    Editor.Fair id t left { e with draft := e.draft.after (e.draft.onto t) u, stage := .removed, late } := by
  have hdraft : e.draft.after (e.draft.onto t) u = { removed := t.links.filter fun l => l.collection == id } := by
    rw [hu, h.blank (.inr hst), Draft.onto_blank, Draft.after_deleteLinks]
  rw [hdraft]
  refine ⟨fun hst => ?_, fun _ hl => (nomatch hl), List.nodup_nil, fun _ p hp hno => ?_, fun hst => (nomatch hst)⟩
  · simp at hst
  · exact absurd (List.mem_filter.mpr ⟨hp, beq_self_eq_true id⟩) hno

theorem linked (h : e.Fair id t left) (hst : e.stage = .removed) (ht : t.links.Nodup) {u : Tables}
    (hu : u = (e.draft.onto t).addLinks id (distinct e.projects)) :
    Editor.Fair id t left { e with draft := e.draft.after (e.draft.onto t) u, stage := .added } := by
  subst hu
  have hview : ((e.draft.onto t).addLinks id (distinct e.projects)).links.Nodup :=
    Tables.nodup_addLinks (Draft.nodup_onto ht h.once) (nodup_distinct _)
  have hafter : e.draft.after (e.draft.onto t) ((e.draft.onto t).addLinks id (distinct e.projects)) = { e.draft with
      added := e.draft.added ++ (e.draft.onto t).fresh ((distinct e.projects).map fun p => ⟨id, p⟩) } :=
    Draft.after_addLinks
  refine ⟨fun hst => ?_, fun l hl => ?_, ?_, fun _ p hp hno => ?_, fun _ p hp => ?_⟩
  · simp at hst
  · rw [hafter] at hl
    rcases List.mem_append.mp hl with hl | hl
    · exact h.own l hl
    · obtain ⟨p, hp, rfl⟩ := List.mem_map.mp (List.mem_filter.mp hl).1
      exact ⟨rfl, mem_distinct.mp hp⟩
  · rw [hafter]
    obtain ⟨-, hnew, hapart⟩ := List.nodup_append.mp hview
    exact List.nodup_append.mpr ⟨h.once, hnew, fun l hl => hapart l (Draft.mem_onto.mpr (.inr hl))⟩
  · rw [hafter] at hno
    exact h.cleared (.inl hst) p hp hno
  · rw [Draft.onto_addLinks]
    exact Tables.mem_addLinks.mpr (.inr ⟨rfl, mem_distinct.mpr hp⟩)

/-- The other edit is committed before this one, which has not found anything left by it until then. -/
theorem spare (h : e.Fair id t left) (hleft : ∀ p, ¬ left p) (hlate : e.late = false) {d : Draft}
    (hd : ∀ l ∈ d.added, left' l.project) :
    Editor.Fair id (d.onto t) left' { e with draft := e.draft.spare d.added } where
  blank hst := by
    have hblank : e.draft = {} := h.blank hst
    rw [hblank]
    rfl
  own := h.own
  once := h.once
  cleared hst p hp hno := by
    rw [Draft.mem_spare] at hno
    rcases Draft.mem_onto.mp hp with ⟨hp, -⟩ | hp
    · by_cases hmine : ⟨id, p⟩ ∈ d.added
      · exact ⟨hlate, hd _ hmine⟩
      · exact absurd (h.cleared hst p hp fun hrem => hno ⟨hrem, hmine⟩).2 (hleft p)
    · exact ⟨hlate, hd _ hp⟩
  complete hst p hp := by
    rcases Draft.mem_onto.mp (h.complete hst p hp) with ⟨hp, hno⟩ | hp
    · exact absurd (h.cleared (.inr hst) p hp hno).2 (hleft p)
    · exact Draft.mem_onto.mpr (.inr hp)

end Editor.Fair

/-- What holds of two edits at any time. -/
structure System.Sound (id : String) (projects : Bool → List String) (σ : System) : Prop where
  stored : σ.committed.links.Nodup
  given : ∀ i, (σ.editors i).projects = projects i
  late : ∀ i, (σ.editors i).late = true → σ.Done !i
  fair : ∀ i, ¬ σ.Done i → (σ.editors i).Fair id σ.committed fun p => σ.Done (!i) ∧ p ∈ projects !i
  settled : ∀ i, σ.Done i → ∃ j, σ.last = some j
  last : ∀ i, σ.last = some i → σ.Done i ∧ (∀ p ∈ projects i, ⟨id, p⟩ ∈ σ.committed.links) ∧
    ∀ p, ⟨id, p⟩ ∈ σ.committed.links →
      p ∈ projects i ∨ (σ.editors i).late = false ∧ σ.Done (!i) ∧ p ∈ projects !i

namespace System

variable {id : String} {projects : Bool → List String} {σ : System} {i k : Bool} {e : Editor}

@[simp] theorem put_self : (σ.put i e).editors i = e := by simp [System.put]

theorem put_of_ne (h : k ≠ i) : (σ.put i e).editors k = σ.editors k := by simp [System.put, h]

/-- What holds of every edit still does when one of them has gone on, if it holds of that one. -/
theorem forall_put {P : Bool → Editor → Prop} (hi : P i e) (h : ∀ k, P k (σ.editors k)) (k : Bool) :
    P k ((σ.put i e).editors k) := by
  by_cases hk : k = i
  · subst hk
    simpa [System.put] using hi
  · rw [put_of_ne hk]
    exact h k

theorem done_put (hi : ¬ σ.Done i) (he : e.stage ≠ .committed) : (σ.put i e).Done k ↔ σ.Done k := by
  by_cases hk : k = i
  · subst hk
    simpa [Done, System.put, he] using hi
  · simp [Done, put_of_ne hk]

theorem commit_of_ne {t : Tables} (h : k ≠ i) : (σ.commit i t).editors k =
    { σ.editors k with draft := (σ.editors k).draft.spare (σ.editors i).draft.added } := by simp [System.commit, h]

theorem done_commit {t : Tables} : (σ.commit i t).Done k ↔ k = i ∨ σ.Done k := by
  by_cases hk : k = i
  · subst hk
    simp [Done, System.commit]
  · simp [Done, commit_of_ne hk, hk]

theorem editors_commit {t : Tables} : ((σ.commit i t).editors k).projects = (σ.editors k).projects ∧
    ((σ.commit i t).editors k).late = (σ.editors k).late := by
  by_cases hk : k = i
  · subst hk
    simp [System.commit]
  · simp [commit_of_ne hk]

namespace Sound

theorem put (h : σ.Sound id projects) (hi : ¬ σ.Done i) (hstage : e.stage ≠ .committed)
    (hprojects : e.projects = projects i) (hlate : e.late = true → σ.Done !i)
    (hfair : e.Fair id σ.committed fun p => σ.Done (!i) ∧ p ∈ projects !i) : (σ.put i e).Sound id projects := by
  have hdone : ∀ k, (σ.put i e).Done k ↔ σ.Done k := fun k => done_put hi hstage
  refine ⟨h.stored, ?_, ?_, ?_, fun k hk => h.settled k ((hdone k).mp hk), fun k hk => ?_⟩
  · exact forall_put (P := fun k e => e.projects = projects k) hprojects h.given
  · simp only [hdone]
    exact forall_put (P := fun k e => e.late = true → σ.Done !k) hlate h.late
  · simp only [hdone]
    exact forall_put (P := fun k e => ¬ σ.Done k → e.Fair id σ.committed fun p => σ.Done (!k) ∧ p ∈ projects !k)
      (fun _ => hfair) h.fair
  · have hlast := h.last k hk
    have hne : k ≠ i := fun heq => hi (heq ▸ hlast.1)
    simp only [hdone, put_of_ne hne]
    exact hlast

theorem commit (h : σ.Sound id projects) (hi : (σ.editors i).stage = .added) :
    (σ.commit i ((σ.editors i).draft.onto σ.committed)).Sound id projects := by
  have hopen : ¬ σ.Done i := by simp [Done, hi]
  have hfair := h.fair i hopen
  refine ⟨Draft.nodup_onto h.stored hfair.once, fun k => editors_commit.1.trans (h.given k), fun k hk => ?_,
    fun k hk => ?_, fun _ _ => ⟨i, rfl⟩, fun k hk => ?_⟩
  · exact done_commit.mpr (.inr (h.late k (editors_commit.2 ▸ hk)))
  · rw [done_commit, not_or] at hk
    obtain rfl : i = !k := Bool.eq_not.mpr (Ne.symm hk.1)
    -- The other edit is not committed yet when this one is, so that it has not found anything left.
    have hlate : (σ.editors k).late = false := by
      cases hl : (σ.editors k).late with
      | false => rfl
      | true => exact absurd (h.late k hl) hopen
    rw [commit_of_ne hk.1]
    refine (h.fair k hk.2).spare (fun p hp => hopen hp.1) hlate fun l hl => ⟨done_commit.mpr (.inl rfl), ?_⟩
    exact h.given (!k) ▸ (hfair.own l hl).2
  · obtain rfl : i = k := Option.some.inj hk
    refine ⟨done_commit.mpr (.inl rfl), fun p hp => hfair.complete hi p (h.given i ▸ hp), fun p hp => ?_⟩
    rw [editors_commit.2, done_commit]
    rcases Draft.mem_onto.mp hp with ⟨hp, hno⟩ | hp
    · have hleft := hfair.cleared (.inr hi) p hp hno
      exact .inr ⟨hleft.1, .inr hleft.2.1, hleft.2.2⟩
    · exact .inl (h.given i ▸ (hfair.own _ hp).2)

theorem step {σ' : System} (h : σ.Sound id projects) (hst : Step id σ σ') : σ'.Sound id projects := by
  cases hst with
  | @read i s t current hi hs hrun =>
    have hopen : ¬ σ.Done i := by simp [Done, hi]
    exact h.put hopen (by simp) (h.given i) (h.late i) ((h.fair i hopen).read hi)
  | @remove i s t n hi hs hrun =>
    have hopen : ¬ σ.Done i := by simp [Done, hi]
    have ht := (unlink_ok hrun).tables
    rw [hs.tables] at ht ⊢
    exact h.put hopen (by simp) (h.given i) (by simp) ((h.fair i hopen).unlinked hi ht)
  | @add i s t ps hi hs hrun =>
    have hopen : ¬ σ.Done i := by simp [Done, hi]
    obtain ⟨_, hgives⟩ := link_ok hrun
    have ht := hgives.tables
    rw [hs.tables] at ht ⊢
    exact h.put hopen (by simp) (h.given i) (h.late i) ((h.fair i hopen).linked hi h.stored ht)
  | @commit i s t hi hs hrun =>
    rw [commit_ok hrun, hs.tables]
    exact h.commit hi
  | @fail i hi => exact h.put hi (by simp) (h.given i) (h.late i) (.idle (by simp))

end Sound

end System

theorem Reached.sound {id : String} {projects : Bool → List String} {σ : System} (h : Reached id projects σ) :
    σ.Sound id projects := by
  induction h with
  | start committed hcommitted =>
    refine ⟨hcommitted, fun _ => rfl, fun _ hl => ?_, fun _ _ => .idle (by simp), fun _ hd => ?_, fun _ hl => ?_⟩
    · cases hl
    · cases hd
    · cases hl
  | step _ hst ih => exact ih.step hst

/-! ### An edit by itself -/

/-- A statement leaves a state that the next one starts in. -/
theorem System.Shows.put {σ : System} {i : Bool} {e : Editor} {s t : State} {v : Tables} {p : Pending}
    (h : σ.Shows i s) (ht : s.Gives t v p) (hv : v = e.draft.onto σ.committed) : (σ.put i e).Shows i t where
  committed := ht.committed.trans h.committed
  view := by
    have hopen : t.session.view ≠ none := fun hclosed => by
      rw [ht.closed hclosed, h.view] at hclosed
      cases hclosed
    obtain ⟨w, hw⟩ := Option.ne_none_iff_exists'.mp hopen
    have htables := ht.tables
    rw [State.tables, hw] at htables
    rw [hw, System.put_self]
    exact congrArg some (htables.trans hv)

namespace Reached

variable {id : String} {projects : Bool → List String} {σ : System} {i : Bool} {s t : State}

theorem blank (h : Reached id projects σ) (hi : (σ.editors i).stage = .started ∨ (σ.editors i).stage = .read) :
    (σ.editors i).draft = {} :=
  (h.sound.fair i (by rcases hi with hi | hi <;> simp [System.Done, hi])).blank hi

theorem read {ps : List String} (h : Reached id projects σ) (hi : (σ.editors i).stage = .started) (hs : σ.Shows i s)
    (hrun : Catalog.members id s = (.ok ps, t)) :
    ∃ σ', Reached id projects σ' ∧ (σ'.editors i).stage = .read ∧ σ'.Shows i t :=
  ⟨_, h.step (.read hi hs hrun), by simp, hs.put (members_ok hrun) hs.tables⟩

theorem removed {n : Nat} (h : Reached id projects σ) (hi : (σ.editors i).stage = .read) (hs : σ.Shows i s)
    (hrun : Catalog.unlink id s = (.ok n, t)) :
    ∃ σ', Reached id projects σ' ∧ (σ'.editors i).stage = .removed ∧ σ'.Shows i t := by
  refine ⟨_, h.step (.remove hi hs hrun), by simp, hs.put (unlink_ok hrun) ?_⟩
  rw [(unlink_ok hrun).tables, hs.tables, h.blank (.inr hi), Draft.onto_blank, Draft.onto_deleteLinks]

theorem added {linked : List String} (h : Reached id projects σ) (hi : (σ.editors i).stage = .removed)
    (hs : σ.Shows i s) (hrun : Catalog.link id (projects i) s = (.ok linked, t)) :
    ∃ σ', Reached id projects σ' ∧ (σ'.editors i).stage = .added ∧ σ'.Shows i t := by
  rw [← h.sound.given i] at hrun
  obtain ⟨_, hgives⟩ := link_ok hrun
  refine ⟨_, h.step (.add hi hs hrun), by simp, hs.put hgives ?_⟩
  rw [hgives.tables, hs.tables, Draft.onto_addLinks]

/-- The statements of an edit are those that replace its members: that they come one after the other is one of the
    things that can happen. -/
theorem replaceMembers {r : Catalog.Replacement} (h : Reached id projects σ) (hi : (σ.editors i).stage = .started)
    (hs : σ.Shows i s) (hrun : Catalog.replaceMembers id (projects i) true s = (.ok r, t)) :
    ∃ σ', Reached id projects σ' ∧ (σ'.editors i).stage = .added ∧ σ'.Shows i t := by
  have hends : Ends (Catalog.replaceMembers id (projects i) true) s
      (fun _ t => ∃ σ', Reached id projects σ' ∧ (σ'.editors i).stage = .added ∧ σ'.Shows i t) fun _ _ => True := by
    unfold Catalog.replaceMembers
    simp only [if_true, ends_bind, ends_pure]
    refine ends_iff.mpr ⟨fun _ u hu => ?_, fun _ _ _ => trivial⟩
    obtain ⟨σ₁, h₁, hi₁, hs₁⟩ := h.read hi hs hu
    refine ends_iff.mpr ⟨fun _ v hv => ?_, fun _ _ _ => trivial⟩
    obtain ⟨σ₂, h₂, hi₂, hs₂⟩ := h₁.removed hi₁ hs₁ hv
    exact ends_iff.mpr ⟨fun _ w hw => h₂.added hi₂ hs₂ hw, fun _ _ _ => trivial⟩
  exact hends.of_ok hrun

end Reached

/-! ### Both edits -/

/-- When both edits are committed, the members are those of the one that was committed last, and with them some of those
    of the other, if that was committed after the last one had removed the members. -/
theorem members_of_last {id : String} {projects : Bool → List String} {σ : System} (h : Reached id projects σ)
    (hdone : ∀ i, σ.Done i) :
    ∃ i, σ.last = some i ∧ (∀ p ∈ projects i, p ∈ σ.committed.membersOf id) ∧
      (∀ p ∈ σ.committed.membersOf id, p ∈ projects false ∨ p ∈ projects true) ∧
      ((σ.editors i).late = true → ∀ p, p ∈ σ.committed.membersOf id ↔ p ∈ projects i) ∧
      (σ.committed.membersOf id).length ≤ (projects false).length + (projects true).length := by
  obtain ⟨i, hi⟩ := h.sound.settled false (hdone false)
  obtain ⟨-, hall, hno⟩ := h.sound.last i hi
  have hwithin : ∀ p ∈ σ.committed.membersOf id, p ∈ projects false ∨ p ∈ projects true := by
    intro p hp
    have hp := hno p (Tables.mem_membersOf.mp hp)
    cases i with
    | false => exact hp.imp_right (·.2.2)
    | true => exact hp.symm.imp_left (·.2.2)
  have hall : ∀ p ∈ projects i, p ∈ σ.committed.membersOf id := fun p hp => Tables.mem_membersOf.mpr (hall p hp)
  refine ⟨i, hi, hall, hwithin, fun hlate p => ⟨fun hp => ?_, hall p⟩, ?_⟩
  · refine (hno p (Tables.mem_membersOf.mp hp)).resolve_right fun hleft => ?_
    rw [hlate] at hleft
    cases hleft.1
  · have hnodup : (σ.committed.membersOf id).Nodup :=
      (Tables.membersOf_strict h.sound.stored id).imp String.ne_of_lt
    rw [← List.length_append]
    exact (hnodup.subperm fun p hp => List.mem_append.mpr (hwithin p hp)).length_le

/-- A collection with two projects that may be members of it, and a third one that is. -/
def stored : Tables where
  collections := [Catalog.newRow "c" "u" "Tools" "Things to work with" .listed 0]
  projects := [⟨"p", "P"⟩, ⟨"q", "Q"⟩, ⟨"r", "R"⟩]
  links := [⟨"c", "r"⟩]

/-- The lists of two edits. -/
def lists (i : Bool) : List String := if i then ["q"] else ["p"]

theorem members_of_last_in_turn :
    let σ := [false, false, false, false, true, true, true, true].foldl (System.next "c") (.start stored lists)
    Reached "c" lists σ ∧ (∀ i, σ.Done i) ∧ σ.last = some true ∧ σ.committed.membersOf "c" = ["q"] ∧
      ∃ i, σ.last = some i ∧ (∀ p ∈ lists i, p ∈ σ.committed.membersOf "c") ∧
        (∀ p ∈ σ.committed.membersOf "c", p ∈ lists false ∨ p ∈ lists true) ∧
        ((σ.editors i).late = true → ∀ p, p ∈ σ.committed.membersOf "c" ↔ p ∈ lists i) ∧
        (σ.committed.membersOf "c").length ≤ (lists false).length + (lists true).length := by
  intro σ
  have hreached : Reached "c" lists σ := reached_schedule (by decide) _
  have hdone : ∀ i, σ.Done i := by decide +kernel
  exact ⟨hreached, hdone, by decide +kernel, by decide +kernel, members_of_last hreached hdone⟩

/-- Two edits of a collection without members, neither of which finds anything to remove, are both committed, and the
    members are those of both. -/
theorem lists_mixed :
    let t := { stored with links := [] }
    let σ := [false, true, false, true, false, true, false, true].foldl (System.next "c") (.start t lists)
    (t.row? "c").isSome ∧ (∀ i, ∀ p ∈ lists i, t.hasProject p = true) ∧ Reached "c" lists σ ∧ (∀ i, σ.Done i) ∧
      (∀ p, p ∈ σ.committed.membersOf "c" ↔ p = "p" ∨ p = "q") ∧
      ∀ i, ¬ ∀ p, p ∈ σ.committed.membersOf "c" ↔ p ∈ lists i := by
  intro t σ
  have hlinks : σ.committed.links = [⟨"c", "p"⟩, ⟨"c", "q"⟩] := by decide +kernel
  have hmembers : ∀ p, p ∈ σ.committed.membersOf "c" ↔ p = "p" ∨ p = "q" := by
    simp [Tables.mem_membersOf, hlinks]
  refine ⟨by decide +kernel, by decide, reached_schedule (by decide) _, by decide +kernel, hmembers, fun i hi => ?_⟩
  have hp : "p" ∈ lists i := (hi "p").mp ((hmembers "p").mpr (.inl rfl))
  have hq : "q" ∈ lists i := (hi "q").mp ((hmembers "q").mpr (.inr rfl))
  cases i with
  | false => exact absurd hq (by decide)
  | true => exact absurd hp (by decide)

end Replacing

end Curation
