import Curation.Proofs.Fetching
import Curation.Proofs.Writing

/-! What may be asked of the catalog in a session, as data. Each write is about one collection: it leaves all others
    alone, and makes the cache wait for the end of the transaction unless it changes nothing. -/

namespace Curation

open Act (Ends ends_bind ends_pure)

namespace Tables

variable {t : Tables} {id owner title description : String} {status : Status} {now : Time.Instant}

/-- A new collection is read as it was returned when it was added, if its id had no members before. -/
theorem held?_addLinks (hid : t.row? id = none) (hmembers : t.membersOf id = []) (hnow : Time.inRange now = true)
    {ps : List String} {c : Collection}
    (hc : c = Catalog.newCollection id owner title description status now (sorted ps)) (hs : c.Sound) :
    ((t.withRow (Catalog.newRow id owner title description status now)).addLinks id ps).held? id = some c := by
  have hmembers : (t.withRow (Catalog.newRow id owner title description status now)).membersOf id = [] := hmembers
  refine held?_eq_some.mpr ⟨Catalog.newRow id owner title description status now, ?_, ?_⟩
  · exact (row?_withRow hid id).trans (if_pos rfl)
  · have hutc : inUtc (.ofInstant now) = .ok (.ofInstant now) := by
      simp [inUtc, Time.Timestamp.toUtc?, Time.Timestamp.ofInstant, hnow]
    rw [membersOf_addLinks hmembers]
    subst hc
    simp only [Row.toCollection, Row.times, Catalog.newRow, RowTime.read, Status.ofWord?_word]
    change (inUtc (.ofInstant now) >>= fun created => inUtc (.ofInstant now) >>= fun updated => Collection.checked
      { id, owner, title, description, status, created, updated, projects := sorted ps }) = _
    rw [hutc]
    exact Collection.checked_eq_ok_iff.mpr ⟨rfl, hs⟩

end Tables

/-- What a write makes of the tables that the session sees and of what waits for the end of its transaction: nothing,
    or a change to one collection for which the cache then waits. A collection that is to be stored is a new one. -/
inductive State.Marks (s : State) : Tables → Pending → Prop
  | same : s.Marks s.tables s.session.pending
  | one {v : Tables} (id : String) (w : Option Collection) (agree : ∀ id', id' ≠ id → v.AgreeAt s.tables id')
      (intact : s.db.enforce = true → s.tables.Intact → v.Intact)
      (created : ∀ c, w = some c → s.tables.row? id = none ∧
        (s.tables.membersOf id = [] → Time.inRange s.now = true → v.held? id = some c)) :
      s.Marks v (s.session.pending.put id w)

namespace State.Marks

open Catalog (newRow newCollection revisions)

variable {s : State} {v : Tables} {p : Pending} {id : String}

theorem intact (h : s.Marks v p) (henf : s.db.enforce = true) (hs : s.tables.Intact) : v.Intact := by
  cases h with
  | same => exact hs
  | one _ _ _ intact => exact intact henf hs

/-- A write that makes the cache wait for nothing changes nothing. -/
theorem orSame {c : Prop} [Decidable c] (hc : c → v = s.tables) (agree : ∀ id', id' ≠ id → v.AgreeAt s.tables id')
    (intact : s.db.enforce = true → s.tables.Intact → v.Intact) :
    s.Marks v (if c then s.session.pending else s.session.pending.put id none) := by
  split
  · rename_i h
    rw [hc h]
    exact .same
  · exact .one id none agree intact fun _ h => nomatch h

theorem add {owner title description : String} {status : Status} {ps : List String} {c : Collection}
    (hid : s.tables.row? id = none) (hc : c = newCollection id owner title description status s.now (sorted ps))
    (hsound : c.Sound) (hps : ps.Nodup)
    (hs : s.db.enforce = true → ((s.tables.withRow (newRow id owner title description status s.now)).fresh
      (ps.map fun p => ⟨id, p⟩)).all (s.tables.withRow (newRow id owner title description status s.now)).supports) :
    s.Marks ((s.tables.withRow (newRow id owner title description status s.now)).addLinks id ps)
      (s.session.pending.put id (some c)) := by
  refine .one id (some c) (fun id' hne => ?_) (fun henf hv => (hv.withRow hid).addLinks hps (hs henf)) ?_
  · exact (Tables.addLinks_agreeAt hne).trans (Tables.withRow_agreeAt hid hne)
  · rintro _ ⟨⟩
    exact ⟨hid, fun hmembers hnow => Tables.held?_addLinks hid hmembers hnow hc hsound⟩

theorem revise {title description : Option String} {status : Option Status} :
    s.Marks (s.tables.updateRows s.now id (revisions title description status))
      (if revisions title description status = [] then s.session.pending else s.session.pending.put id none) := by
  refine .orSame (fun hnil => ?_) (fun id' hne => ?_) fun _ hv => ?_
  · rw [hnil]
    rfl
  · exact Tables.updateRows_agreeAt Catalog.id_of_mem_revisions hne
  · exact hv.updateRows Catalog.id_of_mem_revisions

theorem icon {url : Option String} {color : Option Int} :
    s.Marks (s.tables.updateRow s.now id (Catalog.withIcon url color)).2 (s.session.pending.put id none) :=
  .one id none (fun _ hne => Tables.updateRow_agreeAt Catalog.id_withIcon hne)
    (fun _ hv => hv.updateRow Catalog.id_withIcon) fun _ hc => nomatch hc

theorem erase : s.Marks ((s.tables.deleteLinks id).2.deleteRow true id).2 (s.session.pending.put id none) :=
  .one id none (fun _ hne => (Tables.deleteRow_agreeAt hne).trans (Tables.deleteLinks_agreeAt hne))
    (fun _ hv => hv.deleteLinks.deleteRow) fun _ hc => nomatch hc

theorem unlink : s.Marks (s.tables.deleteLinks id).2 (s.session.pending.put id none) :=
  .one id none (fun _ hne => Tables.deleteLinks_agreeAt hne) (fun _ hv => hv.deleteLinks) fun _ hc => nomatch hc

theorem link {ps : List String} (hps : ps.Nodup)
    (hs : s.db.enforce = true → (s.tables.fresh (ps.map fun p => ⟨id, p⟩)).all s.tables.supports) :
    s.Marks (s.tables.addLinks id ps) (if ps = [] then s.session.pending else s.session.pending.put id none) := by
  refine .orSame (fun hnil => ?_) (fun _ hne => Tables.addLinks_agreeAt hne) fun henf hv => hv.addLinks hps (hs henf)
  rw [hnil, Tables.addLinks_nil]

theorem replace {ps : List String} (hps : ps.Nodup) (hs : s.db.enforce = true →
      ((s.tables.deleteLinks id).2.fresh (ps.map fun p => ⟨id, p⟩)).all s.tables.supports) :
    s.Marks ((s.tables.deleteLinks id).2.addLinks id ps) (s.session.pending.put id none) :=
  .one id none (fun _ hne => (Tables.addLinks_agreeAt hne).trans (Tables.deleteLinks_agreeAt hne))
    (fun henf hv => hv.deleteLinks.addLinks hps (hs henf)) fun _ hc => nomatch hc

end State.Marks

namespace Catalog

/-- What may be asked of the catalog in a session. -/
inductive Work where
  | fetch (id : String)
  | fetchAll (ids : List String)
  | members (id : String)
  | add (owner title description : String) (projects : List String) (status : Status)
  | revise (id : String) (title description status : Option String)
  | writeIcon (id : String) (url : Option String) (color : Option Int)
  | erase (id : String)
  | unlink (id : String)
  | link (id : String) (projects : List String)
  deriving DecidableEq, Repr

namespace Work

/-- Does the work; what it gives is of no interest here. -/
def run : Work → Act Unit
  | fetch id => do let _ ← Catalog.fetch id
  | fetchAll ids => do let _ ← Catalog.fetchAll ids
  | members id => do let _ ← Catalog.members id
  | add owner title description projects status => do let _ ← Catalog.add owner title description projects status
  | revise id title description status => Catalog.revise id title description status
  | writeIcon id url color => Catalog.writeIcon id url color
  | erase id => do let _ ← Catalog.erase id
  | unlink id => do let _ ← Catalog.unlink id
  | link id projects => do let _ ← Catalog.link id projects

/-- The work only reads. -/
def reads : Work → Bool
  | fetch _ | fetchAll _ | members _ => true
  | _ => false

variable {s : State} {w : Work}

/-- Work that reads changes nothing that the session sees, even if it fails. -/
theorem reads_ends (hs : s.tables.Distinct) (hfit : s.Fit) (hw : w.reads) :
    Ends w.run s (fun _ t => s.Reads t) (fun _ t => s.Reads t) := by
  cases w with
  | fetch id =>
    unfold run
    simp only [ends_bind, ends_pure]
    exact fetch_ends hs hfit (fun _ ht => ht) fun _ _ ht _ => ht
  | fetchAll ids =>
    unfold run
    simp only [ends_bind, ends_pure]
    exact fetchAll_ends hs hfit (fun _ _ ht _ => ht) fun _ _ ht _ => ht
  | members id =>
    unfold run
    simp only [ends_bind, ends_pure]
    exact Act.query_ends (.of_gives (State.Wrote.ran s).gives) fun _ _ =>
      ⟨.refl s, .of_gives (State.Wrote.ran s).gives⟩
  | _ => cases hw

/-- Work that writes changes one collection at most. -/
theorem writes_ends (hw : w.reads = false) :
    Ends w.run s (fun _ t => ∃ v p, s.Marks v p ∧ s.Gives t v p) (fun _ t => s.Works t) := by
  have hworks : ∀ (e : Failure) t, s.Works t → s.Works t := fun _ _ ht => ht
  cases w with
  | fetch | fetchAll | members => cases hw
  | add owner title description projects status =>
    unfold run
    simp only [ends_bind, ends_pure]
    exact add_ends hworks fun id c t hid hc hsound hs ht => ⟨_, _, .add hid hc hsound (nodup_distinct _) hs, ht⟩
  | revise id title description status => exact revise_ends hworks fun t st _ _ ht => ⟨_, _, .revise, ht⟩
  | writeIcon id url color => exact writeIcon_ends hworks fun t _ ht => ⟨_, _, .icon, ht⟩
  | erase id =>
    unfold run
    simp only [ends_bind, ends_pure]
    exact erase_ends hworks fun t ht => ⟨_, _, .erase, ht⟩
  | unlink id =>
    unfold run
    simp only [ends_bind, ends_pure]
    exact unlink_ends hworks fun _ t ht => ⟨_, _, .unlink, ht.gives⟩
  | link id projects =>
    unfold run
    simp only [ends_bind, ends_pure]
    exact link_ends hworks fun t hs ht => ⟨_, _, .link (nodup_distinct _) hs, ht⟩

end Work

end Catalog

end Curation
