import Curation.Catalog.Membership
import Curation.Proofs.Ending
import Curation.Proofs.Tables

/-! What each write of the catalog gives: the tables that the session sees after it, and what waits for the end of
    its transaction. A write that fails commits nothing and stores nothing in the cache (`State.Works`). -/

namespace Curation

open Act (Ends ends_bind ends_pure ends_throw ends_get ends_set ends_update ends_ite)

namespace Act

variable {α : Type} {s : State} {err : Failure → State → Prop}

theorem query_gives {f : Tables → α} {ok : α → State → Prop}
    (hok : ∀ t, s.Wrote t s.tables s.session.pending → ok (f s.tables) t)
    (herr : ∀ e t, s.Gives t s.tables s.session.pending → err e t) : Ends (query f) s ok err :=
  query_ends (hok _ (.ran s)) fun _ _ => ⟨herr _ _ (.refl s), herr _ _ (State.Wrote.ran s).gives⟩

/-- A statement that reads fails only where the database does not answer, and then breaks nothing. -/
theorem query_decides {f : Tables → α} {ok : α → State → Prop}
    (hok : ∀ t, s.Wrote t s.tables s.session.pending → ok (f s.tables) t)
    (hunable : ∀ r t, r ≠ .integrity → ¬ s.Answers → s.Gives t s.tables s.session.pending → err (.database r) t) :
    Ends (query f) s ok err := by
  have hran : s.Gives s.ran s.tables s.session.pending := (State.Wrote.ran s).gives
  unfold query begin unstuck
  simp only [ends_bind, ends_get, ends_update, ends_ite, ends_throw, ends_pure]
  refine ⟨fun hstuck => hunable _ s (nomatch ·) (fun h => ?_) (.refl s),
    fun _ => ⟨fun hout => hunable _ s.ran (nomatch ·) (fun h => ?_) hran, fun _ => hok _ (.ran s)⟩⟩
  · exact absurd hstuck (by simp [h.stuck])
  · have houtage : s.begin.outage = false := h.outage
    have hpresent : s.begin.db.absent = false := h.present
    simp [houtage, hpresent] at hout

/-- A statement that writes fails because of what it is about, or where the database does not answer or takes no
    writes, and then it breaks nothing. -/
theorem execute_decides {f : Tables → Except Refusal (α × Tables)} {ok : α → State → Prop}
    (hok : ∀ x v t, f s.tables = .ok (x, v) → s.Wrote t v s.session.pending → ok x t)
    (hrefused : ∀ r t, f s.tables = .error r → s.Wrote t s.tables s.session.pending → err (.database r) t)
    (hunable : ∀ r t, r ≠ .integrity → ¬ (s.Answers ∧ s.db.readOnly = false) →
      s.Gives t s.tables s.session.pending → err (.database r) t) :
    Ends (execute f) s ok err := by
  have hran : s.Gives s.ran s.tables s.session.pending := (State.Wrote.ran s).gives
  unfold execute begin unstuck
  simp only [ends_bind, ends_get, ends_update, ends_ite, ends_throw, ends_pure]
  refine ⟨fun hstuck => hunable _ s (nomatch ·) (fun h => ?_) (.refl s),
    fun _ => ⟨fun hout => hunable _ s.ran (nomatch ·) (fun h => ?_) hran, fun _ => ?_⟩⟩
  · exact absurd hstuck (by simp [h.1.stuck])
  · have houtage : s.begin.outage = false := h.1.outage
    have hpresent : s.begin.db.absent = false := h.1.present
    have hwritable : s.begin.db.readOnly = false := h.2
    simp [houtage, hpresent, hwritable] at hout
  · split
    · exact ends_throw.mpr (hrefused _ _ ‹_› (.ran s))
    · rename_i x v hf
      rw [ends_bind, ends_update, ends_pure]
      exact hok x v _ hf (.execute s v)

/-- A number that fits is sent unless the session is stuck, and one that does not fit is not. -/
theorem bindInteger_decides {n : Int} {ok : Unit → State → Prop} (hok : ok () s.begin)
    (hoverflow : Cell.fits n = false → err (.overflow .integer) s.begin)
    (hunable : ¬ s.Answers → err (.database .pendingRollback) s) : Ends (bindInteger n) s ok err := by
  unfold bindInteger begin unstuck
  simp only [ends_bind, ends_get, ends_update, ends_ite, ends_throw, ends_pure]
  refine ⟨fun hstuck => hunable fun h => ?_, fun _ => ⟨fun _ => hok, fun hn => hoverflow (by simpa using hn)⟩⟩
  exact absurd hstuck (by simp [h.stuck])

theorem execute_gives {f : Tables → Except Refusal (α × Tables)} {ok : α → State → Prop}
    (hok : ∀ x v t, f s.tables = .ok (x, v) → s.Wrote t v s.session.pending → ok x t)
    (herr : ∀ e t, s.Works t → err e t) : Ends (execute f) s ok err :=
  execute_decides hok (fun _ _ _ ht => herr _ _ ht.gives.works) fun _ _ _ _ ht => herr _ _ ht.works

end Act

/-- What is to be stored takes the place of what was to be dropped. -/
theorem Pending.put_of_forgotten {c : Prop} [Decidable c] (p : Pending) (id : String) (v : Option Collection) :
    Keyed.put (if c then p else p.put id none) id v = p.put id v := by
  split
  · rfl
  · exact Keyed.put_put _ _ _ _

namespace Catalog

variable {s : State} {id : String} {err : Failure → State → Prop}

theorem check_ends {α : Type} {x : Except Failure α} {ok : α → State → Prop} (hok : ∀ a, x = .ok a → ok a s)
    (herr : ∀ e, x = .error e → err e s) : Ends (check x) s ok err := by
  cases x with
  | error e => exact ends_throw.mpr (herr e rfl)
  | ok a => exact ends_pure.mpr (hok a rfl)

/-! ### Finding projects -/

theorem knownProjects_ends {ids : List String} {ok : List String → State → Prop}
    (hok : ∀ t, s.Gives t s.tables s.session.pending → ok (s.tables.knownProjects ids) t)
    (herr : ∀ e t, s.Gives t s.tables s.session.pending → err e t) : Ends (knownProjects ids) s ok err := by
  unfold knownProjects
  simp only [ends_ite, ends_pure, List.isEmpty_iff]
  refine ⟨fun hnil => ?_, fun _ => Act.query_gives (fun t ht => ?_) herr⟩
  · simpa [Tables.knownProjects, hnil] using hok s (.refl s)
  · simpa [Tables.knownProjects] using hok t ht.gives

/-- Projects are resolved if all of them are there. -/
theorem resolve_ends {ids : List String} {ok : List String → State → Prop}
    (hok : ∀ t, (∀ p ∈ ids, s.tables.hasProject p) → s.Gives t s.tables s.session.pending → ok (distinct ids) t)
    (herr : ∀ e t, s.Gives t s.tables s.session.pending → err e t) : Ends (resolve ids) s ok err := by
  unfold resolve
  rw [ends_bind]
  refine knownProjects_ends (fun t ht => ?_) herr
  split
  · exact ends_throw.mpr (herr _ _ ht)
  · rename_i hnone
    refine ends_pure.mpr (hok t (fun p hp => ?_) ht)
    have hp := List.find?_eq_none.mp hnone p (mem_distinct.mpr hp)
    simp only [Tables.knownProjects, Bool.not_eq_true', Bool.not_eq_false, List.contains_iff_mem, List.mem_filter] at hp
    exact hp.2

/-! ### Changing a row -/

/-- The changes to a row that an edit of fields makes. -/
def revisions (title description : Option String) (status : Option Status) : List (Row → Row) :=
  (title.map fun t r => { r with title := t }).toList ++
    (description.map fun d r => { r with description := d }).toList ++
    (status.map fun st r => { r with status := st.word }).toList

theorem id_of_mem_revisions {title description : Option String} {status : Option Status} :
    ∀ f ∈ revisions title description status, ∀ r, (f r).id = r.id := by
  cases title <;> cases description <;> cases status <;> simp [revisions]

theorem revisions_eq_nil {title description : Option String} {status : Option Status} :
    revisions title description status = [] ↔ title = none ∧ description = none ∧ status = none := by
  cases title <;> cases description <;> cases status <;> simp [revisions]

/-- An edit of fields makes one statement of each change. -/
theorem forM_revisions {title description : Option String} {status : Option Status} :
    (revisions title description status).forM (change id) = (do
      title.forM fun t => change id ({ · with title := t })
      description.forM fun d => change id ({ · with description := d })
      status.forM fun s => change id ({ · with status := s.word })) := by
  cases title <;> cases description <;> cases status <;> simp [revisions]

/-- The change to a row that sets an icon or clears it. -/
def withIcon (url : Option String) (color : Option Int) (r : Row) : Row :=
  { r with iconUrl := url, color := color.map Cell.integer }

theorem id_withIcon {url : Option String} {color : Option Int} (r : Row) : (withIcon url color r).id = r.id := rfl

/-! ### What decides how a write ends -/

section Deciding

variable {ps : List String} (hunable : ∀ r t, r ≠ .integrity → ¬ (s.Answers ∧ s.db.readOnly = false) →
  s.Gives t s.tables s.session.pending → err (.database r) t)
include hunable

/-- A change to a row is made unless the row is not there. -/
theorem change_decides {f : Row → Row} {ok : Unit → State → Prop}
    (hok : ∀ t, (s.tables.row? id).isSome →
      s.Wrote t (s.tables.updateRow s.now id f).2 (s.session.pending.put id none) → ok () t)
    (hmissing : ∀ t, s.tables.row? id = none →
      s.Gives t (s.tables.updateRow s.now id f).2 s.session.pending → err (.notFound id) t) :
    Ends (change id f) s ok err := by
  unfold change
  simp only [ends_bind, ends_get, ends_ite, ends_throw]
  refine Act.execute_decides (fun n v t hf ht => ?_) (fun r t hf _ => nomatch hf) hunable
  have hf : s.tables.updateRow s.now id f = (n, v) := Except.ok.inj hf
  have hcount : n = 0 ↔ s.tables.row? id = none := by
    rw [← Tables.updateRow_count, hf]
  refine ⟨fun hn => hmissing t (hcount.mp hn) (hf ▸ ht.gives), fun hn => Act.forget_ends ht fun u hu => hok u ?_ (hf ▸ hu)⟩
  exact Option.isSome_iff_ne_none.mpr fun hnone => hn (hcount.mpr hnone)

/-- An icon is set or cleared unless the row is not there, or its colour is no number that the database takes. -/
theorem writeIcon_decides {url : Option String} {color : Option Int} {ok : Unit → State → Prop}
    (hok : ∀ t, (s.tables.row? id).isSome →
      s.Gives t (s.tables.updateRow s.now id (withIcon url color)).2 (s.session.pending.put id none) → ok () t)
    (hmissing : ∀ t, s.tables.row? id = none →
      s.Gives t (s.tables.updateRow s.now id (withIcon url color)).2 s.session.pending → err (.notFound id) t)
    (hoverflow : ∀ n t, color = some n → Cell.fits n = false → s.Gives t s.tables s.session.pending →
      err (.overflow .integer) t) :
    Ends (writeIcon id url color) s ok err := by
  unfold writeIcon
  rw [ends_bind]
  refine Act.option_ends (fun _ => change_decides hunable (fun t hrow ht => hok t hrow ht.gives) hmissing) fun n hn => ?_
  have hbegin : s.Gives s.begin s.tables s.session.pending :=
    ⟨⟨rfl, rfl, List.suffix_refl _⟩, rfl, rfl, rfl, rfl, fun h => nomatch h⟩
  refine Act.bindInteger_decides ?_ (fun hfits => hoverflow n _ hn hfits hbegin)
    fun hno => hunable _ s (nomatch ·) (fun h => hno h.1) (.refl s)
  refine change_decides (s := s.begin) (fun r t hr hno ht => hunable r t hr (fun h => hno ⟨?_, h.2⟩) (hbegin.trans ht))
    (fun t hrow ht => hok t hrow (hbegin.trans ht.gives)) fun t hrow ht => hmissing t hrow (hbegin.trans ht)
  exact h.1.within hbegin.toWithin hbegin.stuck

/-- The step at which all ways to add memberships meet: some of them are inserted, among them all that are not there
    yet. -/
theorem insertLinks_decides {ls : List Link} {skip : Bool} {t : State} (ht : s.Gives t s.tables s.session.pending)
    (hskip : skip = true ∨ ∀ l ∈ ls, l ∉ s.tables.links)
    (hls : s.tables.fresh ls = s.tables.fresh (ps.map fun p => ⟨id, p⟩)) {ok : Unit → State → Prop}
    (hok : ∀ u, (s.db.enforce = true → (s.tables.fresh (ps.map fun p => ⟨id, p⟩)).all s.tables.supports) →
      s.Wrote u (s.tables.addLinks id ps) s.session.pending → ok () u)
    (hrefused : ∀ u, ¬ (s.db.enforce = true → (s.tables.fresh (ps.map fun p => ⟨id, p⟩)).all s.tables.supports) →
      s.Gives u s.tables s.session.pending → err (.database .integrity) u) :
    Ends (Act.execute (·.insertLinks s.db.enforce skip ls)) t ok err := by
  have hresult := Tables.insertLinks_eq s.db.enforce hskip
  rw [hls] at hresult
  refine Act.execute_decides (fun x v u hf hu => ?_) (fun r u hf hu => ?_) fun r u hr hno hu => ?_
  · rw [ht.tables, hresult] at hf
    rw [ht.pending] at hu
    split at hf
    · rename_i hs
      cases hf
      exact hok u hs (ht.trans_wrote hu)
    · cases hf
  · rw [ht.tables, hresult] at hf
    rw [ht.tables, ht.pending] at hu
    split at hf
    · cases hf
    · rename_i hs
      cases hf
      exact hrefused u hs (ht.trans hu.gives)
  · rw [ht.tables, ht.pending] at hu
    refine hunable r u hr (fun h => hno ⟨h.1.within ht.toWithin ht.stuck, ?_⟩) (ht.trans hu)
    rw [ht.db]
    exact h.2

/-- Adding projects gives all of them unless one that is new is refused, whatever way the database has to skip those
    that are there. -/
theorem link_decides {projects : List String} {ok : List String → State → Prop}
    (hok : ∀ t, (s.db.enforce = true →
        (s.tables.fresh ((distinct projects).map fun p => ⟨id, p⟩)).all s.tables.supports) →
      s.Gives t (s.tables.addLinks id (distinct projects))
        (if distinct projects = [] then s.session.pending else s.session.pending.put id none) →
      ok (distinct projects) t)
    (hrefused : ∀ t, ¬ (s.db.enforce = true →
        (s.tables.fresh ((distinct projects).map fun p => ⟨id, p⟩)).all s.tables.supports) →
      s.Gives t s.tables s.session.pending → err (.database .integrity) t) :
    Ends (link id projects) s ok err := by
  unfold link
  simp only [ends_ite, ends_pure, List.isEmpty_iff]
  refine ⟨fun hnil => hok s (fun _ => by simp [hnil, Tables.fresh]) ?_, fun hne => ?_⟩
  · simpa [hnil, Tables.addLinks, Tables.fresh] using State.Gives.refl s
  rw [if_neg hne] at hok
  have hforget : ∀ t, (s.db.enforce = true →
        (s.tables.fresh ((distinct projects).map fun p => ⟨id, p⟩)).all s.tables.supports) →
      s.Wrote t (s.tables.addLinks id (distinct projects)) s.session.pending →
      Ends (Act.forget id >>= fun _ => pure (distinct projects)) t ok err := fun t hs ht => by
    rw [ends_bind]
    exact Act.forget_ends ht fun u hu => ends_pure.mpr (hok u hs hu.gives)
  simp only [ends_bind, ends_get]
  cases s.db.dialect with
  | sqlite =>
    show Ends (Act.execute _ >>= fun _ => Act.forget id >>= fun _ => pure (distinct projects)) s ok err
    rw [ends_bind]
    exact insertLinks_decides hunable (.refl s) (Or.inl rfl) rfl hforget hrefused
  | postgresql =>
    show Ends (Act.execute _ >>= fun _ => Act.forget id >>= fun _ => pure (distinct projects)) s ok err
    rw [ends_bind]
    exact insertLinks_decides hunable (.refl s) (Or.inl rfl) rfl hforget hrefused
  | generic =>
    dsimp only
    rw [ends_bind]
    refine Act.query_decides (fun t ht => ?_) fun r t hr hno ht => hunable r t hr (fun h => hno h.1) ht
    rw [Tables.filter_membersOf]
    by_cases hnil : s.tables.fresh ((distinct projects).map fun p => ⟨id, p⟩) = []
    · rw [if_pos hnil]
      refine hforget t (fun _ => by simp [hnil]) ?_
      simpa [Tables.addLinks, hnil] using ht
    · rw [if_neg hnil, ends_bind]
      exact insertLinks_decides hunable ht.gives (Or.inr fun l hl => Tables.not_mem_of_fresh hl) Tables.fresh_fresh
        hforget hrefused

end Deciding

section Writes

variable (herr : ∀ e t, s.Works t → err e t)
include herr

theorem change_ends {f : Row → Row} {ok : Unit → State → Prop}
    (hok : ∀ t, (s.tables.row? id).isSome →
      s.Wrote t (s.tables.updateRow s.now id f).2 (s.session.pending.put id none) → ok () t) :
    Ends (change id f) s ok err :=
  change_decides (fun _ _ _ _ ht => herr _ _ ht.works) hok fun _ _ ht => herr _ _ ht.works

/-- Changing a row several times gives all of the changes, and fails as a whole if the row is not there. -/
theorem changes_ends {fs : List (Row → Row)} {ok : PUnit → State → Prop}
    (hok : ∀ t, (fs ≠ [] → (s.tables.row? id).isSome) →
      s.Gives t (s.tables.updateRows s.now id fs)
        (if fs = [] then s.session.pending else s.session.pending.put id none) → ok ⟨⟩ t) :
    Ends (fs.forM (change id)) s ok err := by
  induction fs generalizing s with
  | nil => exact ends_pure.mpr (hok s (fun h => absurd rfl h) (by simpa [Tables.updateRows] using State.Gives.refl s))
  | cons f fs ih =>
    change Ends (change id f >>= fun _ => fs.forM (change id)) s ok err
    rw [ends_bind]
    refine change_ends herr fun t hrow ht => ih (fun e u hu => herr e u (ht.gives.works.trans hu)) fun u _ hu => ?_
    refine hok u (fun _ => hrow) ?_
    have hnow : t.now = s.now := ht.now
    rw [ht.gives.tables, ht.gives.pending, hnow, Keyed.put_put, ite_self] at hu
    exact ht.gives.trans hu

theorem revise_ends {title description status : Option String} {ok : Unit → State → Prop}
    (hok : ∀ t st, status.mapM parseStatus = .ok st →
      (revisions title description st ≠ [] → (s.tables.row? id).isSome) →
      s.Gives t (s.tables.updateRows s.now id (revisions title description st))
        (if revisions title description st = [] then s.session.pending else s.session.pending.put id none) →
      ok () t) :
    Ends (revise id title description status) s ok err := by
  unfold revise
  rw [ends_bind]
  refine check_ends (fun _ _ => ?_) fun e _ => herr e s (.refl s)
  rw [ends_bind]
  refine check_ends (fun st hst => ?_) fun e _ => herr e s (.refl s)
  rw [← forM_revisions]
  exact changes_ends herr fun t hrow ht => hok t st hst hrow ht

theorem writeIcon_ends {url : Option String} {color : Option Int} {ok : Unit → State → Prop}
    (hok : ∀ t, (s.tables.row? id).isSome →
      s.Gives t (s.tables.updateRow s.now id (withIcon url color)).2
        (s.session.pending.put id none) → ok () t) :
    Ends (writeIcon id url color) s ok err :=
  writeIcon_decides (fun _ _ _ _ ht => herr _ _ ht.works) hok (fun _ _ ht => herr _ _ ht.works)
    fun _ _ _ _ ht => herr _ _ ht.works

/-! ### Members -/

theorem members_ends {ok : List String → State → Prop}
    (hok : ∀ t, s.Wrote t s.tables s.session.pending → ok (s.tables.membersOf id) t) :
    Ends (members id) s ok err := Act.query_gives hok fun e t ht => herr e t ht.works

/-- Adding projects gives all of them, whatever way the database has to skip those that are there. -/
theorem link_ends {projects : List String} {ok : List String → State → Prop}
    (hok : ∀ t, (s.db.enforce = true →
        (s.tables.fresh ((distinct projects).map fun p => ⟨id, p⟩)).all s.tables.supports) →
      s.Gives t (s.tables.addLinks id (distinct projects))
        (if distinct projects = [] then s.session.pending else s.session.pending.put id none) →
      ok (distinct projects) t) :
    Ends (link id projects) s ok err :=
  link_decides (fun _ _ _ _ ht => herr _ _ ht.works) hok fun _ _ ht => herr _ _ ht.works

theorem unlink_ends {ok : Nat → State → Prop}
    (hok : ∀ n t, s.Wrote t (s.tables.deleteLinks id).2 (s.session.pending.put id none) → ok n t) :
    Ends (unlink id) s ok err := by
  unfold unlink
  rw [ends_bind]
  refine Act.execute_gives (fun n v t hf ht => ?_) herr
  have hf : s.tables.deleteLinks id = (n, v) := Except.ok.inj hf
  rw [ends_bind]
  exact Act.forget_ends ht fun u hu => ends_pure.mpr (hok n u (hf ▸ hu))

theorem erase_ends {ok : Bool → State → Prop}
    (hok : ∀ t, s.Gives t ((s.tables.deleteLinks id).2.deleteRow true id).2 (s.session.pending.put id none) →
      ok (s.tables.row? id).isSome t) :
    Ends (erase id) s ok err := by
  unfold erase
  rw [ends_bind]
  refine unlink_ends herr fun _ t ht => ?_
  simp only [ends_bind, ends_get, ends_pure]
  refine Act.execute_gives (fun n v u hf hu => ?_) fun e u hu => herr e u (ht.gives.works.trans hu)
  have hf : (s.tables.deleteLinks id).2.deleteRow t.db.enforce id = (n, v) := by
    rw [ht.gives.tables] at hf
    exact Except.ok.inj hf
  have hv : v = ((s.tables.deleteLinks id).2.deleteRow true id).2 := by
    rw [← Tables.deleteRow_deleteLinks, hf]
  have hn : decide (0 < n) = (s.tables.row? id).isSome := by
    have hcount : 0 < ((s.tables.deleteLinks id).2.deleteRow t.db.enforce id).1 ↔
        ((s.tables.deleteLinks id).2.row? id).isSome := Tables.deleteRow_count
    rw [hf] at hcount
    rw [Bool.eq_iff_iff, decide_eq_true_iff]
    exact hcount
  refine Act.forget_ends hu fun w hw => hn ▸ hok w ?_
  rw [ht.gives.pending, Keyed.put_put] at hw
  exact ht.gives.trans (hv ▸ hw.gives)

theorem replaceMembers_ends {projects : List String} {ok : Replacement → State → Prop}
    {resolved : Bool}
    (hok : ∀ r t, (s.db.enforce = true →
        ((s.tables.deleteLinks id).2.fresh ((distinct projects).map fun p => ⟨id, p⟩)).all s.tables.supports) →
      s.Gives t ((s.tables.deleteLinks id).2.addLinks id (distinct projects)) (s.session.pending.put id none) →
      ok r t) :
    Ends (replaceMembers id projects resolved) s ok err := by
  have hrest : ∀ t ps, distinct ps = distinct projects → s.Gives t s.tables s.session.pending → Ends (do
      let current ← members id
      let _ ← unlink id
      let _ ← link id ps
      return Replacement.between current (distinct ps)) t ok err := by
    intro t ps hps ht
    simp only [ends_bind, ends_pure]
    refine members_ends (fun e u hu => herr e u (ht.works.trans hu)) fun u hu => ?_
    have hu := ht.trans hu.gives
    refine unlink_ends (fun e v hv => herr e v (hu.works.trans hv)) fun _ v hv => ?_
    rw [hu.tables, ht.tables, hu.pending, ht.pending] at hv
    have hv := hu.trans hv.gives
    refine link_ends (fun e w hw => herr e w (hv.works.trans hw)) fun w hs hw => ?_
    rw [hv.tables, hps, hv.enforce] at hs
    rw [hv.tables, hv.pending, hps, Keyed.put_put, ite_self] at hw
    exact hok _ w hs (hv.trans hw)
  unfold replaceMembers
  show Ends (if resolved then _ else resolve projects >>= fun ps => _) s ok err
  rw [ends_ite]
  constructor
  · exact fun _ => hrest s projects rfl (.refl s)
  · intro _
    rw [ends_bind]
    refine resolve_ends (fun t _ ht => hrest t _ ?_ ht) fun e t ht => herr e t ht.works
    exact distinct_distinct projects

/-! ### New collections -/

theorem drawId_ends {fuel : Nat} {ok : String → State → Prop}
    (hok : ∀ id t, s.tables.row? id = none → s.Wrote t s.tables s.session.pending → ok id t) :
    Ends (drawId fuel) s ok err := by
  induction fuel generalizing s with
  | zero => exact ends_throw.mpr (herr _ _ (.refl s))
  | succ fuel ih =>
    unfold drawId
    simp only [ends_bind, ends_get, ends_set]
    have hnext : s.Gives { s with ids := s.ids.next.2 } s.tables s.session.pending :=
      ⟨⟨rfl, rfl, List.suffix_refl _⟩, rfl, rfl, rfl, rfl, fun _ => rfl⟩
    refine Act.query_gives (fun t ht => ?_) fun e t ht => herr e t (hnext.works.trans ht.works)
    have ht : s.Wrote t s.tables s.session.pending := hnext.trans_wrote ht
    rw [ends_ite]
    refine ⟨fun _ => ih (fun e u hu => herr e u (ht.gives.works.trans hu)) fun id u hid hu => ?_, fun hfree => ?_⟩
    · rw [ht.gives.tables] at hid hu
      rw [ht.gives.pending] at hu
      exact hok id u hid (ht.gives.trans_wrote hu)
    · refine ends_pure.mpr (hok _ t ?_ ht)
      exact Option.not_isSome_iff_eq_none.mp hfree

/-- The row of a new collection. -/
def newRow (id owner title description : String) (status : Status) (now : Time.Instant) : Row :=
  { id, owner, title, description, status := status.word, iconUrl := none, color := none
    created := .stamp (.exact now), updated := .stamp (.exact now) }

/-- A new collection as it is returned. -/
def newCollection (id owner title description : String) (status : Status) (now : Time.Instant)
    (projects : List String) : Collection :=
  { id, owner, title, description, status, created := .ofInstant now, updated := .ofInstant now, projects }

theorem add_ends {owner title description : String} {projects : List String} {status : Status}
    {ok : Collection → State → Prop}
    (hok : ∀ id c t, s.tables.row? id = none →
      c = newCollection id owner title description status s.now (sorted (distinct projects)) → c.Sound →
      let v := s.tables.withRow (newRow id owner title description status s.now)
      (s.db.enforce = true → (v.fresh ((distinct projects).map fun p => ⟨id, p⟩)).all v.supports) →
      s.Gives t (v.addLinks id (distinct projects)) (s.session.pending.put id (some c)) → ok c t) :
    Ends (add owner title description projects status) s ok err := by
  unfold add freshId
  simp only [ends_bind, ends_get, ends_pure]
  refine drawId_ends herr fun id t hid ht => ?_
  have hnow : t.now = s.now := ht.now
  rw [hnow]
  refine Act.flush_ends (fun x v hf => ?_) fun r => ⟨?_, ?_⟩
  · rw [ht.gives.tables] at hf
    obtain ⟨-, rfl⟩ := Tables.insertRow_eq_ok hf
    have hu := ht.gives.trans_wrote (State.Wrote.execute t (s.tables.withRow
      (newRow id owner title description status s.now)))
    rw [ht.gives.pending] at hu
    refine link_ends (fun e u hw => herr e u (hu.gives.works.trans hw)) fun u hs hw => ?_
    rw [hu.gives.tables, hu.enforce] at hs
    rw [hu.gives.tables] at hw
    rw [hu.gives.pending] at hw
    have hw := hu.trans_gives hw
    refine check_ends (fun c hc => ?_) fun e _ => herr e u hw.gives.works
    obtain ⟨rfl, hsound⟩ := Collection.checked_eq_ok_iff.mp hc
    refine Act.remember_ends hw fun w hv => hok id _ w hid rfl hsound hs ?_
    have hv := hv.gives
    rwa [Pending.put_of_forgotten] at hv
  · exact herr _ _ (ht.gives.works.trans (.lost t))
  · exact herr _ _ ((ht.gives.works.trans (.ran t)).trans (.lost _))

end Writes

end Catalog

end Curation
