import Mathlib.Logic.Function.Basic
import Curation.Proofs.Session

/-! Any number of sessions that share one cache and one database, and whose statements come in any order. A statement
    sees what is committed at that moment and the writes of its own session. A commit and what it then does to the
    cache are two steps, between which other sessions may act; only for the ids of such a commit may the cache be
    behind what is committed. -/

namespace Curation.Sessions

open Act (Ends)
open Catalog (Plan Work lookUp loadRows loadMembers finish)

/-- What a session is in the middle of: nothing, a fetch after one of its phases, or a commit that has not yet done
    to the cache what waited for it. -/
inductive Task where
  | idle
  | planned (plan : Plan)
  | withRows (plan : Plan) (rows : List Row)
  | withMembers (plan : Plan) (found : Keyed Collection)
  | committed

/-- The plan of the fetch that is under way. -/
def Task.plan? : Task → Option Plan
  | planned plan | withRows plan _ | withMembers plan _ => some plan
  | idle | committed => none

/-- A session at work. -/
structure Worker where
  session : Session := {}
  /-- The ids under which its statements have changed something that is not committed. -/
  changed : String → Prop := fun _ => False
  task : Task := .idle

/-- A collection that the session has created waits under the id to be stored in the cache. -/
def Worker.Owns (w : Worker) (id : String) : Prop := ∃ c, w.session.pending.get? id = some (some c)

/-- The sessions, numbered, with what they share. -/
structure System where
  now : Time.Instant
  committed : Tables
  cache : Cache
  workers : Nat → Worker := fun _ => {}

namespace System

/-- The system after a session has gone on to another state and has left the cache in the given one. -/
def put (S : System) (i : Nat) (w : Worker) (c : Cache) : System :=
  { S with cache := c, workers := Function.update S.workers i w }

/-- No commit is between the database and the cache with changes to an id. -/
def Quiet (S : System) (id : String) : Prop :=
  ∀ i, (S.workers i).task = .committed → (S.workers i).session.pending.get? id = none

/-- What one session has created is left alone by all others until the cache has been told. -/
def Apart (S : System) : Prop := ∀ i j id, i ≠ j → (S.workers i).Owns id → ¬ (S.workers j).changed id

/-- What a statement of a session may see: what is committed where the session itself has changed nothing, and
    whatever it has created as it saw it before. -/
structure Sees (S : System) (i : Nat) (v : Tables) : Prop where
  distinct : v.Distinct
  others : ∀ id, ¬ (S.workers i).changed id → v.AgreeAt S.committed id
  own : ∀ id, (S.workers i).Owns id → v.AgreeAt ((S.workers i).session.view.getD S.committed) id

/-- The state that an operation of a session starts in when it sees the given tables. -/
structure Shows (S : System) (i : Nat) (v : Tables) (s : State) : Prop where
  now : s.now = S.now
  committed : s.db.committed = S.committed
  cache : s.cache = S.cache
  session : s.session = { (S.workers i).session with view := some v }

end System

/-- One step of one session, of the clock or of the upkeep of the cache. -/
inductive Step (S : System) : System → Prop
  /-- The first phase of a fetch. -/
  | look {i v s ids plan t} (hi : (S.workers i).task = .idle) (hs : S.Shows i v s)
      (h : lookUp ids s = (.ok plan, t)) : Step S (S.put i { S.workers i with task := .planned plan } t.cache)
  /-- The first statement of a load. -/
  | rows {i v s plan rows t} (hi : (S.workers i).task = .planned plan) (hv : S.Sees i v) (hs : S.Shows i v s)
      (h : loadRows plan.misses s = (.ok rows, t)) :
      Step S (S.put i { S.workers i with session := t.session, task := .withRows plan rows } t.cache)
  /-- The second statement of a load. -/
  | members {i v s plan rows found t} (hi : (S.workers i).task = .withRows plan rows) (hv : S.Sees i v)
      (hs : S.Shows i v s) (h : loadMembers rows s = (.ok found, t)) :
      Step S (S.put i { S.workers i with session := t.session, task := .withMembers plan found } t.cache)
  /-- The last phase of a fetch. -/
  | finish {i v s plan found cs t} (hi : (S.workers i).task = .withMembers plan found) (hs : S.Shows i v s)
      (h : finish plan found s = (.ok cs, t)) : Step S (S.put i { S.workers i with task := .idle } t.cache)
  /-- A fetch is given up, in whatever phase. -/
  | giveUp {i} (hi : (S.workers i).task ≠ .committed) : Step S (S.put i { S.workers i with task := .idle } S.cache)
  /-- A write. References are enforced, so that what it creates had no members before. -/
  | write {i v s t} (w : Work) (hw : w.reads = false) (hi : (S.workers i).task = .idle) (hv : S.Sees i v)
      (hs : S.Shows i v s) (h : w.run s = (.ok (), t))
      (hnew : ∀ id c, t.session.pending.get? id = some (some c) → v.row? id = none → v.membersOf id = []) :
      Step S (S.put i { session := t.session,
                        changed := fun id => (S.workers i).changed id ∨ ¬ t.tables.AgreeAt v id } t.cache)
  /-- A write that fails, after which the session is rolled back. -/
  | fail {i v s e t} (w : Work) (hw : w.reads = false) (hi : (S.workers i).task = .idle) (hv : S.Sees i v)
      (hs : S.Shows i v s) (h : w.run s = (.error e, t)) : Step S (S.put i {} t.rolledBack.cache)
  | rollback {i} (hi : (S.workers i).task ≠ .committed) :
      Step S (S.put i {} ((S.workers i).session.pending.apply false S.now S.cache))
  | close {i} (hi : (S.workers i).task ≠ .committed) : Step S (S.put i {} S.cache)
  /-- A commit in the database: what the session sees is committed. -/
  | commit {i v} (hi : (S.workers i).task = .idle) (hv : S.Sees i v) :
      Step S { S.put i { session := { (S.workers i).session with view := none }, task := .committed } S.cache with
               committed := v }
  /-- What a commit does to the cache. -/
  | apply {i} (hi : (S.workers i).task = .committed) :
      Step S (S.put i {} ((S.workers i).session.pending.apply true S.now S.cache))
  | clock (now : Time.Instant) (h : Time.inRange now = true) : Step S { S with now }
  | get (id : String) : Step S { S with cache := (S.cache.get S.now id).2 }
  | getAll (ids : List String) : Step S { S with cache := (S.cache.getAll S.now ids).2 }
  | invalidate (id : String) : Step S { S with cache := S.cache.invalidate id }
  | invalidateAll : Step S { S with cache := S.cache.invalidateAll }
  | sweep : Step S { S with cache := (S.cache.sweep S.now).2 }

/-- What the sessions come to, in any order of steps, from a start with an empty cache, as long as they stay apart. -/
inductive Reached : System → Prop
  | start {now committed cache} (hnow : Time.inRange now = true) (hcache : cache.entries = []) :
      Reached { now, committed, cache }
  | step {S T : System} (hS : Reached S) (h : Step S T) (hT : T.Apart) : Reached T

/-! ### The invariant -/

/-- What holds of each session. What a fetch has loaded is what is committed, unless the generation of the id has
    moved on since the plan, or is still to be moved on by a commit. -/
structure Worker.Sound (committed : Tables) (cache : Cache) (quiet : String → Prop) (w : Worker) : Prop where
  waiting : w.session.pending.keys.Nodup
  changed : ∀ id, w.changed id → w.session.pending.get? id ≠ none
  created : ∀ id c, w.session.pending.get? id = some (some c) → (w.session.view.getD committed).held? id = some c
  closed : w.task = .committed → w.session.view = none ∧ ∀ id, ¬ w.changed id
  planned : ∀ plan, w.task.plan? = some plan → ∀ id g, plan.generations.get? id = some g → g ≤ cache.generation id
  rows : ∀ plan rows, w.task = .withRows plan rows → ∀ r ∈ rows, quiet r.id →
    w.session.pending.get? r.id = none → plan.generations.get? r.id = some (cache.generation r.id) →
    committed.row? r.id = some r
  members : ∀ plan found, w.task = .withMembers plan found → ∀ e ∈ found, e.2.id = e.1 ∧ (quiet e.1 →
    w.session.pending.get? e.1 = none → plan.generations.get? e.1 = some (cache.generation e.1) →
    committed.held? e.1 = some e.2)

/-- What holds of all sessions together: the cache is behind only where a commit is still to reach it. -/
structure Inv (S : System) : Prop where
  dated : Time.inRange S.now = true
  keyed : S.cache.entries.keys.Nodup
  entries : ∀ id e, S.Quiet id → S.cache.entries.get? id = some e → S.committed.held? id = some e.value
  workers : ∀ i, (S.workers i).Sound S.committed S.cache S.Quiet

namespace Worker.Sound

variable {committed committed' : Tables} {cache cache' : Cache} {quiet quiet' : String → Prop} {w : Worker}

/-- A session is not disturbed by steps that move on the generation of what they change. -/
theorem mono (h : w.Sound committed cache quiet) (hgen : ∀ id, cache.generation id ≤ cache'.generation id)
    (hquiet : ∀ id, quiet' id → cache'.generation id = cache.generation id →
      quiet id ∧ committed'.AgreeAt committed id)
    (hown : ∀ id, w.Owns id → committed'.AgreeAt committed id) : w.Sound committed' cache' quiet' where
  waiting := h.waiting
  changed := h.changed
  created id c hc := by
    have hheld := h.created id c hc
    cases hv : w.session.view with
    | none =>
      rw [hv] at hheld
      exact (hown id ⟨c, hc⟩).held?.trans hheld
    | some v => rwa [hv] at hheld
  closed := h.closed
  planned plan hplan id g hg := Generation.le_trans (h.planned plan hplan id g hg) (hgen id)
  rows plan rows htask r hr hq hwait hg := by
    -- The noted generation is not past the old one, so that the old one is still current.
    have hle := h.planned plan (by rw [htask]; rfl) r.id _ hg
    have heq := Generation.le_antisymm hle (hgen r.id)
    obtain ⟨hq, hagree⟩ := hquiet r.id hq heq
    rw [hagree.row]
    exact h.rows plan rows htask r hr hq hwait (heq ▸ hg)
  members plan found htask e he := by
    refine ⟨(h.members plan found htask e he).1, fun hq hwait hg => ?_⟩
    have hle := h.planned plan (by rw [htask]; rfl) e.1 _ hg
    have heq := Generation.le_antisymm hle (hgen e.1)
    obtain ⟨hq, hagree⟩ := hquiet e.1 hq heq
    rw [hagree.held?]
    exact (h.members plan found htask e he).2 hq hwait (heq ▸ hg)

theorem idle (h : w.Sound committed cache quiet) : { w with task := .idle }.Sound committed cache quiet :=
  ⟨h.waiting, h.changed, h.created, nofun, nofun, nofun, nofun⟩

/-- A session that has done nothing. -/
theorem new : ({} : Worker).Sound committed cache quiet where
  waiting := List.nodup_nil
  changed _ h := h.elim
  created _ _ h := by cases h
  closed h := by cases h
  planned _ h := by cases h
  rows _ _ h := by cases h
  members _ _ h := by cases h

theorem named (h : w.Sound committed cache quiet) : w.session.pending.Named := fun id c hc =>
  Tables.id_of_held? (h.created id c (Keyed.get?_of_mem h.waiting hc))

end Worker.Sound

variable {S T : System} {i : Nat} {v : Tables} {s t : State} {w : Worker} {c : Cache}

theorem System.Shows.tables (hs : S.Shows i v s) : s.tables = v := by simp [State.tables, hs.session]

theorem System.Shows.pending (hs : S.Shows i v s) : s.session.pending = (S.workers i).session.pending := by
  rw [hs.session]

/-- What a session sees after work of it. -/
theorem System.Shows.seen (hs : S.Shows i v s) (hst : s.Within t) : t.session.view.getD S.committed = t.tables := by
  rw [State.tables, hst.committed, hs.committed]

@[simp] theorem System.put_self : (S.put i w c).workers i = w := Function.update_self ..

theorem System.put_other {j : Nat} (h : j ≠ i) : (S.put i w c).workers j = S.workers j := Function.update_of_ne h ..

theorem System.quiet_of_put {id : String} (hi : (S.workers i).task = .committed →
    (S.workers i).session.pending.get? id = none) (h : (S.put i w c).Quiet id) : S.Quiet id := by
  intro j hj
  by_cases hji : j = i
  · exact hji ▸ hi (hji ▸ hj)
  · have := h j
    rw [System.put_other hji] at this
    exact this hj

namespace Inv

/-- A step of a session moves on the generations of what it changes, and leaves all other sessions sound. -/
theorem put (h : Inv S) (hgen : ∀ id, S.cache.generation id ≤ c.generation id) (hkeyed : c.entries.keys.Nodup)
    (hquiet : ∀ id, (S.put i w c).Quiet id → c.generation id = S.cache.generation id → S.Quiet id)
    (hentries : ∀ id e, (S.put i w c).Quiet id → c.entries.get? id = some e → S.committed.held? id = some e.value)
    (hw : w.Sound S.committed c (S.put i w c).Quiet) : Inv (S.put i w c) where
  dated := h.dated
  keyed := hkeyed
  entries := hentries
  workers j := by
    by_cases hji : j = i
    · subst hji
      rw [System.put_self]
      exact hw
    · have hsound := (h.workers j).mono hgen (fun id hq heq => ⟨hquiet id hq heq, .refl _ id⟩) fun id _ => .refl _ id
      rw [System.put_other hji]
      exact hsound

/-- The same of a step that leaves in the cache only what was there. -/
theorem put_sheds (h : Inv S) (hi : (S.workers i).task ≠ .committed) (hc : S.cache.Sheds c)
    (hw : w.Sound S.committed c (S.put i w c).Quiet) : Inv (S.put i w c) := by
  have hquiet : ∀ id, (S.put i w c).Quiet id → S.Quiet id := fun id =>
    System.quiet_of_put fun htask => absurd htask hi
  exact h.put hc.generation (hc.keyed h.keyed) (fun id hq _ => hquiet id hq)
    (fun id e hq he => h.entries id e (hquiet id hq) (hc.entries id e he)) hw

theorem sheds (h : Inv S) (hc : S.cache.Sheds c) : Inv { S with cache := c } where
  dated := h.dated
  keyed := hc.keyed h.keyed
  entries id e hq he := h.entries id e hq (hc.entries id e he)
  workers j := (h.workers j).mono hc.generation (fun _ hq _ => ⟨hq, .refl _ _⟩) fun _ _ => .refl _ _

/-- After a statement that reads, a session still sees what it has created. -/
theorem created_read (h : Inv S) (hv : S.Sees i v) (hs : S.Shows i v s)
    (hst : s.Gives t s.tables s.session.pending) {id : String} {c : Collection}
    (hc : t.session.pending.get? id = some (some c)) : (t.session.view.getD S.committed).held? id = some c := by
  rw [hst.pending, hs.pending] at hc
  rw [hs.seen hst.toWithin, hst.tables, hs.tables, (hv.own id ⟨c, hc⟩).held?]
  exact (h.workers i).created id c hc

/-! ### The steps -/

theorem look {ids : List String} {plan : Plan} (h : Inv S) (hi : (S.workers i).task = .idle) (hs : S.Shows i v s)
    (hl : lookUp ids s = (.ok plan, t)) : Inv (S.put i { S.workers i with task := .planned plan } t.cache) := by
  have hi : (S.workers i).task ≠ .committed := by simp [hi]
  obtain ⟨c, hc, hgen, hplan, rfl⟩ := Catalog.lookUp_ok hl
  rw [hs.cache] at hc
  have hsound := h.workers i
  refine h.put_sheds hi hc ⟨hsound.waiting, hsound.changed, hsound.created, nofun, ?_, nofun, nofun⟩
  rintro _ ⟨⟩ id g hg
  rw [hplan.generations] at hg
  split at hg
  · cases hg
    exact Generation.le_of_eq (hgen id).symm
  · cases hg

theorem rows {plan : Plan} {rows : List Row} (h : Inv S) (hi : (S.workers i).task = .planned plan) (hv : S.Sees i v)
    (hs : S.Shows i v s) (hl : loadRows plan.misses s = (.ok rows, t)) :
    Inv (S.put i { S.workers i with session := t.session, task := .withRows plan rows } t.cache) := by
  have hsound := h.workers i
  have hplanned := hsound.planned plan (by rw [hi]; rfl)
  have hi : (S.workers i).task ≠ .committed := by simp [hi]
  obtain ⟨hrows, hst⟩ := Catalog.loadRows_ok hl
  have hcache : t.cache = S.cache := hst.cache.trans hs.cache
  have hpending : t.session.pending = (S.workers i).session.pending := hst.pending.trans hs.pending
  rw [hcache]
  refine h.put_sheds hi (.refl _) ⟨hpending ▸ hsound.waiting, fun id hid => hpending ▸ hsound.changed id hid,
    fun id c hc => h.created_read hv hs hst hc, nofun, ?_, ?_, nofun⟩
  · rintro _ ⟨⟩
    exact hplanned
  · rintro _ _ ⟨⟩ r hr - hwait -
    rw [hrows, hs.tables] at hr
    have hagree := hv.others r.id fun hch => hsound.changed r.id hch (hpending ▸ hwait)
    rw [← hagree.row]
    exact hv.distinct.row?_of_mem (Tables.mem_rowsOf.mp hr).1

theorem members {plan : Plan} {rows : List Row} {found : Keyed Collection} (h : Inv S)
    (hi : (S.workers i).task = .withRows plan rows) (hv : S.Sees i v) (hs : S.Shows i v s)
    (hl : loadMembers rows s = (.ok found, t)) :
    Inv (S.put i { S.workers i with session := t.session, task := .withMembers plan found } t.cache) := by
  have hsound := h.workers i
  have hplanned := hsound.planned plan (by rw [hi]; rfl)
  have hrows := hsound.rows plan rows hi
  have hi : (S.workers i).task ≠ .committed := by simp [hi]
  obtain ⟨hread, hst⟩ := Catalog.loadMembers_ok hl
  have hcache : t.cache = S.cache := hst.cache.trans hs.cache
  have hpending : t.session.pending = (S.workers i).session.pending := hst.pending.trans hs.pending
  rw [hcache]
  refine h.put_sheds hi (.refl _) ⟨hpending ▸ hsound.waiting, fun id hid => hpending ▸ hsound.changed id hid,
    fun id c hc => h.created_read hv hs hst hc, nofun, ?_, nofun, ?_⟩
  · rintro _ ⟨⟩
    exact hplanned
  · rintro _ _ ⟨⟩ ⟨k, c⟩ he
    rw [hs.tables] at hread
    obtain ⟨_, -, hread⟩ := bind_eq_ok.mp hread
    obtain ⟨r, hr, he⟩ := mem_mapM_eq_ok hread he
    obtain ⟨rfl, hc⟩ := Tables.entryOf_eq_ok.mp he
    refine ⟨Row.id_of_toCollection hc, fun hq hwait hg => ?_⟩
    have hwait : (S.workers i).session.pending.get? r.id = none := hpending ▸ hwait
    -- The row is the committed one by now, and the members have been read of the same tables.
    have hrow := hrows r hr (System.quiet_of_put (fun htask => absurd htask hi) hq) hwait hg
    have hagree := hv.others r.id fun hch => hsound.changed r.id hch hwait
    exact Tables.held?_eq_some.mpr ⟨r, hrow, hagree.members ▸ hc⟩

theorem finish {plan : Plan} {found : Keyed Collection} {cs : List Collection} (h : Inv S)
    (hi : (S.workers i).task = .withMembers plan found) (hs : S.Shows i v s)
    (hl : Catalog.finish plan found s = (.ok cs, t)) :
    Inv (S.put i { S.workers i with task := .idle } t.cache) := by
  have hplanned := (h.workers i).planned plan (by rw [hi]; rfl)
  have hmembers := (h.workers i).members plan found hi
  have hi : (S.workers i).task ≠ .committed := by simp [hi]
  have hfilled := Catalog.finish_ok hl
  have hgen : ∀ id, S.cache.generation id ≤ t.cache.generation id := hs.cache ▸ hfilled.generation
  have hquiet : ∀ id, (S.put i { S.workers i with task := .idle } t.cache).Quiet id → S.Quiet id := fun id =>
    System.quiet_of_put fun htask => absurd htask hi
  refine h.put hgen (hfilled.keyed (hs.cache ▸ h.keyed)) (fun id hq _ => hquiet id hq) (fun id e hq he => ?_) ?_
  · rcases hfilled.entries id e he with he | ⟨⟨k, hk⟩, hid, hwait, g, hg, hle⟩
    · exact h.entries id e (hquiet id hq) (hs.cache ▸ he)
    · obtain ⟨hek, hheld⟩ := hmembers _ hk
      obtain rfl : id = k := hid.symm.trans hek
      rw [hs.cache] at hle
      rw [hs.pending] at hwait
      have heq := Generation.le_antisymm (hplanned id g hg) hle
      exact hheld (hquiet id hq) hwait (heq ▸ hg)
  · exact ((h.workers i).mono hgen (fun id hq _ => ⟨hquiet id hq, .refl _ id⟩) fun _ _ => .refl _ _).idle

theorem write {w : Work} (h : Inv S) (hw : w.reads = false) (hi : (S.workers i).task = .idle) (hv : S.Sees i v)
    (hs : S.Shows i v s) (hl : w.run s = (.ok (), t))
    (hnew : ∀ id c, t.session.pending.get? id = some (some c) → v.row? id = none → v.membersOf id = []) :
    Inv (S.put i { session := t.session,
                   changed := fun id => (S.workers i).changed id ∨ ¬ t.tables.AgreeAt v id } t.cache) := by
  have hsound := h.workers i
  obtain ⟨v', p, hmarks, hst⟩ := (Work.writes_ends hw).of_ok hl
  have hcache : t.cache = S.cache := hst.cache.trans hs.cache
  have hseen : t.session.view.getD S.committed = v' := (hs.seen hst.toWithin).trans hst.tables
  have hown : ∀ id c, (S.workers i).session.pending.get? id = some (some c) → v.held? id = some c := fun id c hc =>
    (hv.own id ⟨c, hc⟩).held?.trans (hsound.created id c hc)
  rw [hcache, hst.tables]
  refine h.put_sheds (by simp [hi]) (.refl _) ⟨?_, ?_, ?_, nofun, nofun, nofun, nofun⟩
  · show t.session.pending.keys.Nodup
    rw [hst.pending]
    cases hmarks with
    | same => exact hs.pending ▸ hsound.waiting
    | one id w => exact Keyed.nodup_keys_put (hs.pending ▸ hsound.waiting) id w
  · show ∀ id, (S.workers i).changed id ∨ ¬ v'.AgreeAt v id → t.session.pending.get? id ≠ none
    intro id hid
    rw [hst.pending]
    cases hmarks with
    | same =>
      rw [hs.tables] at hid
      rw [hs.pending]
      exact hsound.changed id (hid.resolve_right fun hne => hne (.refl v id))
    | one id' w agree =>
      rw [hs.tables] at agree
      rw [Keyed.get?_put, hs.pending]
      split
      · exact Option.some_ne_none _
      · rename_i hne
        exact hsound.changed id (hid.resolve_right fun hnot => hnot (agree id (Ne.symm hne)))
  · show ∀ id c, t.session.pending.get? id = some (some c) → (t.session.view.getD S.committed).held? id = some c
    intro id c hc
    have hfresh := hnew id c hc
    rw [hst.pending] at hc
    rw [hseen]
    cases hmarks with
    | same =>
      rw [hs.pending] at hc
      exact hs.tables ▸ hown id c hc
    | one id' w agree _ created =>
      rw [hs.tables] at agree created
      rw [Keyed.get?_put, hs.pending] at hc
      split at hc
      · rename_i heq
        subst heq
        cases hc
        obtain ⟨hrow, hheld⟩ := created c rfl
        exact hheld (hfresh hrow) (hs.now ▸ h.dated)
      · rename_i hne
        rw [(agree id (Ne.symm hne)).held?]
        exact hown id c hc

theorem fail {w : Work} {e : Failure} (h : Inv S) (hw : w.reads = false) (hi : (S.workers i).task = .idle)
    (hs : S.Shows i v s) (hl : w.run s = (.error e, t)) : Inv (S.put i {} t.rolledBack.cache) := by
  have hworks : s.Works t := (Work.writes_ends hw).of_error hl
  exact h.put_sheds (by simp [hi]) (hs.cache ▸ hworks.cache.trans (State.sheds_rolledBack t)) .new

theorem commit (h : Inv S) (hapart : S.Apart) (hi : (S.workers i).task = .idle) (hv : S.Sees i v) :
    Inv { S.put i { session := { (S.workers i).session with view := none }, task := .committed } S.cache with
          committed := v } := by
  have hsound := h.workers i
  set T : System :=
    { S.put i { session := { (S.workers i).session with view := none }, task := .committed } S.cache with
      committed := v } with hT
  -- What is quiet after the commit has not been changed by it.
  have hquiet : ∀ id, T.Quiet id → S.Quiet id ∧ v.AgreeAt S.committed id := by
    intro id hq
    refine ⟨System.quiet_of_put (c := S.cache) (fun htask => by simp [hi] at htask) hq, hv.others id fun hch => ?_⟩
    refine hsound.changed id hch ?_
    have := hq i
    simp only [hT, System.put_self] at this
    exact this trivial
  refine ⟨h.dated, h.keyed, fun id e hq he => ?_, fun j => ?_⟩
  · obtain ⟨hq, hagree⟩ := hquiet id hq
    exact hagree.held?.trans (h.entries id e hq he)
  · by_cases hji : j = i
    · subst hji
      simp only [hT, System.put_self]
      refine ⟨hsound.waiting, fun _ hch => hch.elim, fun id c hc => ?_, fun _ => ⟨rfl, fun _ hch => hch.elim⟩,
        ?_, ?_, ?_⟩
      · exact (hv.own id ⟨c, hc⟩).held?.trans (hsound.created id c hc)
      · exact fun _ hplan => by cases hplan
      · exact fun _ _ htask => by cases htask
      · exact fun _ _ htask => by cases htask
    · have hother := (h.workers j).mono (fun _ => Generation.le_refl _) (fun id hq _ => hquiet id hq)
        fun id hown => hv.others id (hapart j i id hji hown)
      simp only [hT, System.put_other hji]
      exact hother

theorem apply (h : Inv S) (hi : (S.workers i).task = .committed) :
    Inv (S.put i {} ((S.workers i).session.pending.apply true S.now S.cache)) := by
  have hsound := h.workers i
  have hquiet : ∀ id, (S.put i {} ((S.workers i).session.pending.apply true S.now S.cache)).Quiet id →
      (S.workers i).session.pending.get? id = none → S.Quiet id := fun id hq hnone =>
    System.quiet_of_put (fun _ => hnone) hq
  refine h.put (Pending.generation_le_apply · S.cache) (Pending.keyed_apply h.keyed) (fun id hq heq => ?_)
    (fun id e hq he => ?_) .new
  · refine hquiet id hq (Keyed.get?_eq_none_iff.mpr fun hmem => ?_)
    exact Generation.ne_of_lt (Pending.generation_lt_apply hsound.named hmem S.cache) heq.symm
  · rcases Pending.get?_apply hsound.named he with ⟨hmem, he⟩ | hmem
    · exact h.entries id e (hquiet id hq (Keyed.get?_eq_none_iff.mpr hmem)) he
    · have hheld := hsound.created id e.value (Keyed.get?_of_mem hsound.waiting hmem)
      rwa [(hsound.closed hi).1] at hheld

end Inv

/-- Every step keeps the invariant, as long as the sessions stay apart. -/
theorem Step.inv (h : Inv S) (hapart : S.Apart) (hstep : Step S T) : Inv T := by
  cases hstep with
  | look hi hs hl => exact h.look hi hs hl
  | rows hi hv hs hl => exact h.rows hi hv hs hl
  | members hi hv hs hl => exact h.members hi hv hs hl
  | finish hi hs hl => exact h.finish hi hs hl
  | @giveUp i hi =>
    refine h.put_sheds hi (.refl _) ?_
    have hquiet : ∀ id, (S.put i { S.workers i with task := .idle } S.cache).Quiet id → S.Quiet id := fun id =>
      System.quiet_of_put fun htask => absurd htask hi
    exact ((h.workers i).mono (fun _ => Generation.le_refl _) (fun id hq _ => ⟨hquiet id hq, .refl _ id⟩)
      fun _ _ => .refl _ _).idle
  | write w hw hi hv hs hl hnew => exact h.write hw hi hv hs hl hnew
  | fail w hw hi hv hs hl => exact h.fail hw hi hs hl
  | rollback hi => exact h.put_sheds hi (Pending.sheds_apply_false _) .new
  | close hi => exact h.put_sheds hi (.refl _) .new
  | commit hi hv => exact h.commit hapart hi hv
  | apply hi => exact h.apply hi
  | clock now hnow => exact ⟨hnow, h.keyed, h.entries, h.workers⟩
  | get id => exact h.sheds (Cache.sheds_get _ _ _)
  | getAll ids => exact h.sheds (Cache.sheds_getAll _ _ _)
  | invalidate id => exact h.sheds (Cache.sheds_invalidate _ _)
  | invalidateAll => exact h.sheds (Cache.sheds_invalidateAll _)
  | sweep => exact h.sheds (Cache.sheds_sweep _ h.keyed _)

theorem Reached.inv (h : Reached S) : Inv S ∧ S.Apart := by
  induction h with
  | start hnow hcache =>
    refine ⟨⟨hnow, ?_, fun id e _ he => ?_, fun _ => .new⟩, fun i j id _ hown _ => ?_⟩
    · simp [hcache, Keyed.keys]
    · simp [hcache] at he
    · obtain ⟨c, hc⟩ := hown
      cases hc
  | step _ hstep hT ih => exact ⟨hstep.inv ih.1 ih.2, hT⟩

/-- No stale entry survives a race: whatever the sessions have done, and in whatever order, what the cache holds under
    an id that no commit is about to tell it of is made of the committed row and the committed members. -/
theorem no_stale_entry (h : Reached S) {id : String} (hq : S.Quiet id) {e : CacheEntry}
    (he : S.cache.entries.get? id = some e) :
    ∃ r, S.committed.row? id = some r ∧ r.toCollection (S.committed.membersOf id) = .ok e.value :=
  Tables.held?_eq_some.mp (h.inv.1.entries id e hq he)

/-! ### Sessions one after another -/

/-- Where no session has created anything, all of them are apart. -/
theorem System.apart_of_none (h : ∀ j id, ¬ (S.workers j).Owns id) : S.Apart := fun j _ id _ hown =>
  absurd hown (h j id)

theorem System.forall_put {P : Worker → Prop} {w : Worker} {c : Cache} (hw : P w) (h : ∀ j, P (S.workers j)) (j : Nat) :
    P ((S.put i w c).workers j) := by
  by_cases hj : j = i
  · rw [hj, System.put_self]
    exact hw
  · rw [System.put_other hj]
    exact h j

theorem System.put_owns_none {w : Worker} {c : Cache} (hw : ∀ id, ¬ w.Owns id)
    (h : ∀ j id, ¬ (S.workers j).Owns id) : ∀ j id, ¬ ((S.put i w c).workers j).Owns id :=
  System.forall_put (P := fun w => ∀ id, ¬ w.Owns id) hw h

@[simp] theorem System.put_put {w w' : Worker} {c c' : Cache} : (S.put i w c).put i w' c' = S.put i w' c' := by
  simp [System.put]

/-- The session has created nothing, and no commit of it is between the database and the cache. -/
structure Worker.Calm (w : Worker) : Prop where
  created : ∀ id, ¬ w.Owns id
  told : w.task ≠ .committed

theorem Worker.Calm.of_nil {w : Worker} (h : w.session.pending = []) (htask : w.task ≠ .committed) : w.Calm where
  created id := by
    rintro ⟨c, hc⟩
    rw [h] at hc
    cases hc
  told := htask

/-- A system that has been come to, and in which no session has created anything or is committing. -/
structure System.Calm (S : System) : Prop where
  reached : Reached S
  workers : ∀ j, (S.workers j).Calm

namespace System.Calm

theorem quiet (h : S.Calm) (id : String) : S.Quiet id := fun j hj => absurd hj (h.workers j).told

/-- A step of a session that stays calm. -/
theorem step {w : Worker} {c : Cache} (h : S.Calm) (hw : w.Calm) (hstep : Step S (S.put i w c)) :
    (S.put i w c).Calm where
  reached := .step h.reached hstep (apart_of_none fun j => (forall_put hw h.workers j).created)
  workers := forall_put hw h.workers

/-- A session that has done nothing yet loads collections, but does not store them yet. -/
theorem loads {ids : List String} {plan : Plan} {rows : List Row} {found : Keyed Collection} (h : S.Calm)
    (hi : S.workers i = {}) (hd : S.committed.Distinct) (hs : S.Shows i S.committed s)
    (hplan : lookUp ids s = (.ok plan, s)) (hrows : loadRows plan.misses s = (.ok rows, s))
    (hfound : loadMembers rows s = (.ok found, s)) :
    (S.put i { session := s.session, task := .withMembers plan found } S.cache).Calm := by
  have hsession : s.session = { view := some S.committed } := by rw [hs.session, hi]
  have hnil : s.session.pending = [] := by rw [hsession]
  have hsees {w : Worker} (hw : w.Calm) : (S.put i w S.cache).Sees i S.committed :=
    ⟨hd, fun id _ => .refl _ id, fun id hid => absurd hid ((forall_put hw h.workers i).created id)⟩
  have hshows {w : Worker} (hw : { w.session with view := some S.committed } = s.session) :
      (S.put i w S.cache).Shows i S.committed s :=
    ⟨hs.now, hs.committed, hs.cache, by rw [put_self, hw]⟩
  have hopen : { s.session with view := some S.committed } = s.session := by rw [hsession]
  let w₁ : Worker := { task := .planned plan }
  let w₂ : Worker := { session := s.session, task := .withRows plan rows }
  have hw₁ : w₁.Calm := .of_nil rfl nofun
  have hw₂ : w₂.Calm := .of_nil hnil nofun
  have h₁ : (S.put i w₁ S.cache).Calm := by
    refine h.step hw₁ ?_
    have hstep : Step S (S.put i { S.workers i with task := .planned plan } s.cache) := .look (by rw [hi]) hs hplan
    rwa [hi, hs.cache] at hstep
  have h₂ : (S.put i w₂ S.cache).Calm := by
    rw [← put_put (w := w₁) (c := S.cache)]
    refine h₁.step hw₂ ?_
    have hstep := Step.rows (S := S.put i w₁ S.cache) (i := i) (by rw [put_self]) (hsees hw₁)
      (hshows hsession.symm) hrows
    rwa [put_self, hs.cache] at hstep
  rw [← put_put (w := w₂) (c := S.cache)]
  refine h₂.step (.of_nil hnil nofun) ?_
  have hstep := Step.members (S := S.put i w₂ S.cache) (i := i) (by rw [put_self]) (hsees hw₂)
    (hshows hopen) hfound
  rwa [put_self, hs.cache] at hstep

/-- A session stores what it has loaded, as far as it may. -/
theorem stores {plan : Plan} {found : Keyed Collection} {cs : List Collection} (h : S.Calm)
    (hi : (S.workers i).task = .withMembers plan found) (hs : S.Shows i S.committed s)
    (hfinish : finish plan found s = (.ok cs, t)) :
    (S.put i { S.workers i with task := .idle } t.cache).Calm :=
  h.step ⟨(h.workers i).created, nofun⟩ (.finish hi hs hfinish)

/-- A session that has done nothing yet writes, but creates nothing. It commits that, and tells the cache. -/
theorem writes {w : Work} (h : S.Calm) (hi : S.workers i = {}) (hd : S.committed.Distinct)
    (hs : S.Shows i S.committed s) (hw : w.reads = false) (hrun : w.run s = (.ok (), t)) (hd' : t.tables.Distinct)
    (hnone : ∀ id c, t.session.pending.get? id ≠ some (some c)) :
    System.Calm { S.put i {} (t.session.pending.apply true S.now t.cache) with committed := t.tables } := by
  let w₁ : Worker := {
    session := t.session
    changed := fun id => (S.workers i).changed id ∨ ¬ t.tables.AgreeAt S.committed id }
  let w₂ : Worker := { session := { t.session with view := none }, task := .committed }
  have hw₁ : w₁.Calm := ⟨fun id ⟨c, hc⟩ => hnone id c hc, nofun⟩
  have h₁ : (S.put i w₁ t.cache).Calm := by
    refine h.step hw₁ (.write w hw (by rw [hi]) ?_ hs hrun fun id c hc => absurd hc (hnone id c))
    exact ⟨hd, fun id _ => .refl _ id, fun id hid => absurd hid ((h.workers i).created id)⟩
  let S₂ : System := { (S.put i w₁ t.cache).put i w₂ t.cache with committed := t.tables }
  have hcommit : Step (S.put i w₁ t.cache) S₂ := by
    have hsees : (S.put i w₁ t.cache).Sees i t.tables := by
      refine ⟨hd', fun id hid => ?_, fun id hid => absurd hid ((h₁.workers i).created id)⟩
      rw [put_self] at hid
      exact not_not.mp fun hne => hid (Or.inr hne)
    have hstep := Step.commit (S := S.put i w₁ t.cache) (by rw [put_self]) hsees
    rwa [put_self] at hstep
  have hcreated : ∀ j id, ¬ (S₂.workers j).Owns id :=
    put_owns_none (c := t.cache) (fun id ⟨c, hc⟩ => hnone id c hc) fun j => (h₁.workers j).created
  have h₂ : Reached S₂ := .step h₁.reached hcommit (apart_of_none hcreated)
  have htold : Step S₂ { S.put i {} (t.session.pending.apply true S.now t.cache) with committed := t.tables } := by
    have hworker : S₂.workers i = w₂ := put_self (c := t.cache)
    have hstep := Step.apply (S := S₂) (i := i) (by rw [hworker])
    rw [hworker] at hstep
    simpa [S₂, put] using hstep
  have hcalm : ∀ j, ((S.put i {} (t.session.pending.apply true S.now t.cache)).workers j).Calm :=
    forall_put (.of_nil rfl nofun) h.workers
  exact ⟨.step h₂ htold (apart_of_none fun j => (hcalm j).created), hcalm⟩

end System.Calm

/-- A session loads the only collection. Before it stores that, another session gives the collection a new title,
    commits, and tells the cache. What was loaded is not stored then, so that a third session loads it anew. -/
theorem no_stale_entry_raced :
    ∃ S e, Reached S ∧ S.Quiet "c" ∧ S.cache.entries.get? "c" = some e ∧ e.value.title = "Toolbox" ∧
      ∃ r, S.committed.row? "c" = some r ∧ r.toCollection (S.committed.membersOf "c") = .ok e.value := by
  let shown (t : Tables) (cache : Cache) : State :=
    { now := 0, db := { committed := t }, cache, session := { view := some t } }
  let found (t : Tables) : Keyed Collection := ((t.held? "c").map fun c => ("c", c)).toList
  let plan (g : Generation) : Plan := { ids := ["c"], found := [], misses := ["c"], generations := [("c", g)] }
  let v := State.lone.db.committed
  let t := ((Work.revise "c" (some "Toolbox") none none).run (shown v {})).2
  let S₀ : System := { now := 0, committed := v, cache := {} }
  let S₁ := S₀.put 1 { session := { view := some v }, task := .withMembers (plan ⟨0, 0⟩) (found v) } {}
  let S₂ : System := { S₁.put 0 {} (t.session.pending.apply true 0 t.cache) with committed := t.tables }
  let S₃ := S₂.put 1 { S₂.workers 1 with task := .idle }
    (finish (plan ⟨0, 0⟩) (found v) (shown t.tables S₂.cache)).2.cache
  let S₄ := S₃.put 2
    { session := { view := some t.tables }, task := .withMembers (plan ⟨0, 1⟩) (found t.tables) } S₃.cache
  let S₅ := S₄.put 2 { S₄.workers 2 with task := .idle }
    (finish (plan ⟨0, 1⟩) (found t.tables) (shown t.tables S₃.cache)).2.cache
  have h₀ : S₀.Calm := ⟨.start (by decide) rfl, fun _ => .of_nil rfl nofun⟩
  have h₁ : S₁.Calm := by
    have hplan : lookUp ["c"] (shown v {}) = (.ok (plan ⟨0, 0⟩), shown v {}) := rfl
    have hrows : loadRows ["c"] (shown v {}) = (.ok v.collections, shown v {}) := Prod.ext (by decide +kernel) rfl
    have hfound : loadMembers v.collections (shown v {}) = (.ok (found v), shown v {}) :=
      Prod.ext (by decide +kernel) rfl
    exact h₀.loads (s := shown v {}) rfl State.intact_lone.rows ⟨rfl, rfl, rfl, rfl⟩ hplan hrows hfound
  have hdistinct : t.tables.Distinct := by
    show (t.tables.collections.map (·.id)).Nodup
    decide +kernel
  have h₂ : S₂.Calm := by
    have hrun : (Work.revise "c" (some "Toolbox") none none).run (shown v {}) = (.ok (), t) :=
      Prod.ext (by decide +kernel) rfl
    have hdrops : t.session.pending = [("c", none)] := rfl
    refine h₁.writes (s := shown v {}) rfl State.intact_lone.rows ⟨rfl, rfl, rfl, rfl⟩ rfl hrun hdistinct fun id c => ?_
    rw [hdrops, Keyed.get?_cons]
    split <;> nofun
  have h₃ : S₃.Calm := h₂.stores (s := shown t.tables S₂.cache) rfl ⟨rfl, rfl, rfl, rfl⟩ rfl
  have h₄ : S₄.Calm := by
    let s := shown t.tables S₃.cache
    have hplan : lookUp ["c"] s = (.ok (plan ⟨0, 1⟩), s) := rfl
    have hrows : loadRows ["c"] s = (.ok t.tables.collections, s) := Prod.ext (by decide +kernel) rfl
    have hfound : loadMembers t.tables.collections s = (.ok (found t.tables), s) := Prod.ext (by decide +kernel) rfl
    exact h₃.loads (s := s) rfl hdistinct ⟨rfl, rfl, rfl, rfl⟩ hplan hrows hfound
  have h₅ : S₅.Calm := h₄.stores (s := shown t.tables S₃.cache) rfl ⟨rfl, rfl, rfl, rfl⟩ rfl
  have hentry : (S₅.cache.entries.get? "c").map (·.value.title) = some "Toolbox" := by decide +kernel
  obtain ⟨e, he, htitle⟩ := Option.map_eq_some_iff.mp hentry
  exact ⟨S₅, e, h₅.reached, h₅.quiet "c", he, htitle, no_stale_entry h₅.reached (h₅.quiet "c") he⟩

end Curation.Sessions
