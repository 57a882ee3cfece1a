import Curation.Proofs.Outcomes

/-! Operations on a collection that has vanished. An operation reads its collection before its transaction, from the
    cache if it is there, and by the time of the transaction others may have deleted it. A statement that changes or
    deletes the row counts the rows it has found, so that an operation with such a statement notices; the statements on
    the memberships find nothing to miss. -/

namespace Curation

open Act (Ends ends_bind ends_pure ends_throw ends_get ends_set ends_update ends_ite ends_iff)
open Catalog (check check_ends revisions)

/-! ### Where the database answers -/

/-- The session may use the database, which answers every statement to come and takes writes. -/
structure State.Serves (s : State) : Prop extends s.Answers where
  writable : s.db.readOnly = false

theorem State.Serves.gives {s t : State} {v : Tables} {p : Pending} (h : s.Serves) (ht : s.Gives t v p) : t.Serves where
  toAnswers := h.toAnswers.within ht.toWithin ht.stuck
  writable := by
    rw [ht.db]
    exact h.writable

theorem State.Serves.still {s t : State} (h : s.Serves) (ht : s.Still t) : t.Serves where
  toAnswers := ht.answers h.toAnswers
  writable := by
    rw [ht.db]
    exact h.writable

namespace Act

variable {α : Type} {s : State} {err : Failure → State → Prop}

theorem query_serves {f : Tables → α} {ok : α → State → Prop} (h : s.Answers)
    (hok : ∀ t, s.Wrote t s.tables s.session.pending → ok (f s.tables) t) : Ends (query f) s ok err :=
  query_ends (hok _ (.ran s)) fun _ hno => absurd h hno

theorem execute_serves {f : Tables → Except Refusal (α × Tables)} {ok : α → State → Prop} (h : s.Serves)
    (hok : ∀ x v t, f s.tables = .ok (x, v) → s.Wrote t v s.session.pending → ok x t)
    (herr : ∀ r t, f s.tables = .error r → s.Wrote t s.tables s.session.pending → err (.database r) t) :
    Ends (execute f) s ok err :=
  execute_decides hok herr fun _ _ _ hno _ => absurd ⟨h.toAnswers, h.writable⟩ hno

variable {a : Act α}

/-- A block whose work is sure to fail fails in the same way, and commits nothing. -/
theorem atomically_fails {cause : Failure} (ha : Ends a s (fun _ _ => False) fun e t => e = cause ∧ s.Within t) :
    Ends (atomically a) s (fun _ _ => False)
      fun e t => e = cause.aborted ∧ s.Over t ∧ t.db.committed = s.db.committed := by
  have hover : Ends (atomically a) s (fun _ t => s.Over t ∧ True) fun _ t => s.Over t ∧ t.db.committed = s.db.committed :=
    atomically_over (fun _ _ => True) (ha.mono (fun _ _ hfalse => hfalse.elim) fun _ _ ht => ht.2)
  have hfails : Ends (atomically a) s (fun _ _ => False) fun e _ => e = cause.aborted := by
    rw [atomically_ends]
    exact ha.mono (fun _ _ hfalse => hfalse.elim) fun _ _ ht => congrArg Failure.aborted ht.1
  exact (hfails.and hover).mono (fun _ _ ht => ht.1) fun _ _ ht => ht

/-- A commit is not refused where the database answers. -/
theorem commit_serves {s : State} {ok : Unit → State → Prop} {err : Failure → State → Prop} (h : s.Answers)
    (hok : ok () s.committed ∧ ok () s.passOutage.committed) : Ends commit s ok err := by
  unfold commit unstuck
  simp only [ends_bind, ends_get, ends_update, ends_ite, ends_throw, ends_pure, h.stuck, h.outage]
  exact ⟨(nomatch ·), fun _ => ⟨fun _ => ⟨(nomatch ·), fun _ => hok.2⟩, fun _ => hok.1⟩⟩

/-- A block whose work is sure to succeed commits what that gives, if the database answers. -/
theorem atomically_succeeds {x : α} {v : Tables} {p : Pending} (hs : s.Answers)
    (ha : Ends a s (fun y t => y = x ∧ s.Gives t v p) fun _ _ => False) :
    Ends (atomically a) s (fun y t => y = x ∧ t.db.committed = v) fun _ _ => False := by
  rw [atomically_ends]
  refine ha.mono (fun y t ht => ?_) fun _ _ hfalse => hfalse
  obtain ⟨rfl, ht⟩ := ht
  exact commit_serves (hs.within ht.toWithin ht.stuck) ⟨⟨rfl, ht.tables⟩, rfl, ht.tables⟩

end Act

/-! ### Before the transaction -/

section Before

variable {s : State} {α : Type} {err : Failure → State → Prop}

theorem check_passes {x : Except Failure α} {a : α} {ok : α → State → Prop} (hx : x = .ok a) (hok : ok a s) :
    Ends (check x) s ok err := by
  subst hx
  exact ends_pure.mpr hok

/-- An operation on a collection that it has read, and the transaction that it comes to if it passes every check. -/
inductive Operation.Admitted (s : State) (c : Collection) : Operation → Transaction → Prop
  | edit {a : Actor} {e : Service.Edit} {status : Option Status} (scope : a.hasScope .write = true)
    (maintains : Gate.maintains c a = true)
    (valid : Validation.ensure (Validation.edit (e.title.map Text.strip) e.description e.projects) = .ok ())
    (read : e.status.mapM Catalog.parseStatus = .ok status)
    (allowed : ∀ st, status = some st → Gate.mayChangeStatus a c.status st = true)
    (known : ∀ ps, e.projects = some ps → ∀ p ∈ ps, s.tables.hasProject p = true) :
    Admitted s c (.edit (some a) c.id e)
      (.edit c.id (e.title.map Text.strip) e.description status (e.projects.map distinct))
  | setIcon {a : Actor} {extension contentType : String} {payload : Payload} {data : ByteArray}
    (scope : a.hasScope .write = true) (maintains : Gate.maintains c a = true)
    (accepted : Icon.requireContentType extension = .ok contentType)
    (read : (payload.read s.place.maxSize s.place.sizeMessage).1 = .ok data)
    (stored : (s.blobs.upload contentType (s.place.path c.id (Digest.hex data) extension) data).1 = .ok ()) :
    Admitted s c (.setIcon (some a) c.id extension payload)
      (.setIcon c s.place (s.place.path c.id (Digest.hex data) extension)
        ((Image.colorOf? s.place.images data).map fun n => (n : Int)))
  | clearIcon {a : Actor} (scope : a.hasScope .write = true) (maintains : Gate.maintains c a = true) :
    Admitted s c (.clearIcon (some a) c.id) (.clearIcon c.id)
  | delete {a : Actor} (scope : a.hasScope .delete = true) (maintains : Gate.maintains c a = true) :
    Admitted s c (.delete (some a) c.id) (.delete c.id c.id)

theorem writer_passes {a : Actor} {scope : Scope} {ok : Actor → State → Prop} (hscope : a.hasScope scope = true)
    (hok : ok a s) : Ends (check (Gate.writer (some a) scope)) s ok err :=
  check_passes (by simp [Gate.writer, hscope]) hok

/-- What has been read is handed on if the actor may change it. -/
theorem fetchMaintained_passes {a : Actor} {id : String} {c : Collection} {ok : Collection → State → Prop}
    (hread : (Catalog.fetch id s).1 = .ok (some c)) (hmaintains : Gate.maintains c a = true)
    (hok : ∀ t, s.Still t → t.blobs = s.blobs → ok c t) : Ends (Service.fetchMaintained a id) s ok err := by
  unfold Service.fetchMaintained
  rw [ends_bind, ends_iff]
  refine ⟨fun found t hfetch => ?_, fun e t hfetch => ?_⟩
  · rw [hfetch] at hread
    cases hread
    have ht : s.Still t ∧ t.blobs = s.blobs := Catalog.fetch_still.of_ok hfetch
    exact check_passes (by simp [Gate.maintained, hmaintains]) (hok t ht.1 ht.2)
  · rw [hfetch] at hread
    cases hread

theorem knownProjects_passes {ids : List String} {ok : List String → State → Prop} (h : s.Answers)
    (hok : ∀ t, s.Gives t s.tables s.session.pending → t.ids = s.ids → ok (s.tables.knownProjects ids) t) :
    Ends (Catalog.knownProjects ids) s ok err := by
  unfold Catalog.knownProjects
  simp only [ends_ite, ends_pure, List.isEmpty_iff]
  refine ⟨fun hnil => ?_, fun _ => Act.query_ends ?_ fun _ hno => absurd h hno⟩
  · simpa [Tables.knownProjects, hnil] using hok s (.refl s) rfl
  · simpa [Tables.knownProjects] using hok _ (State.Wrote.ran s).gives rfl

/-- The projects are those that are asked for, or the first id without one is reported. -/
theorem resolve_answers {ids : List String} {ok : List String → State → Prop} (h : s.Answers)
    (hok : ∀ t, (∀ p ∈ ids, s.tables.hasProject p = true) → s.Still t → ok (distinct ids) t)
    (herr : ∀ p t, ids.find? (fun p => !s.tables.hasProject p) = some p → s.Still t → err (.missingProject p) t) :
    Ends (Catalog.resolve ids) s ok err := by
  have hknown : ∀ p ∈ distinct ids, (s.tables.knownProjects (distinct ids)).contains p = s.tables.hasProject p := by
    intro p hp
    rw [Tables.knownProjects, distinct_distinct, Bool.eq_iff_iff, List.contains_iff_mem,
      List.mem_filter, and_iff_right hp]
  have hfind : (distinct ids).find? (fun p => !(s.tables.knownProjects (distinct ids)).contains p) =
      ids.find? fun p => !s.tables.hasProject p := by
    rw [← find?_distinct _ ids]
    exact find?_congr_mem fun p hp => congrArg not (hknown p hp)
  unfold Catalog.resolve
  rw [ends_bind]
  refine knownProjects_passes h fun t hgives _ => ?_
  have ht : s.Still t := .of_gives hgives
  rw [hfind]
  cases hfound : ids.find? fun p => !s.tables.hasProject p with
  | some p => exact ends_throw.mpr (herr p t hfound ht)
  | none => exact ends_pure.mpr (hok t (fun p hp => by simpa using List.find?_eq_none.mp hfound p hp) ht)

theorem resolve_passes {ids : List String} {ok : List String → State → Prop} (h : s.Answers)
    (hknown : ∀ p ∈ ids, s.tables.hasProject p = true)
    (hok : ∀ t, s.Still t → ok (distinct ids) t) : Ends (Catalog.resolve ids) s ok err :=
  resolve_answers h (fun t _ ht => hok t ht) fun _ _ hp _ => absurd hknown (not_forall_of_find? hp)

theorem resolve_fails {ids : List String} {p : String} {ok : List String → State → Prop} (h : s.Answers)
    (hfound : (ids.find? fun p => !s.tables.hasProject p) = some p)
    (herr : ∀ t, s.Still t → err (.missingProject p) t) : Ends (Catalog.resolve ids) s ok err := by
  refine resolve_answers h (fun _ hknown _ => absurd hknown (not_forall_of_find? hfound)) fun q t hq ht => ?_
  rw [hfound] at hq
  cases hq
  exact herr t ht

theorem resolved_passes {projects : Option (List String)} {ok : Option (List String) → State → Prop} (h : s.Answers)
    (hknown : ∀ ps, projects = some ps → ∀ p ∈ ps, s.tables.hasProject p = true)
    (hok : ∀ t, s.Still t → ok (projects.map distinct) t) : Ends (projects.mapM Catalog.resolve) s ok err := by
  cases projects with
  | none => exact ends_pure.mpr (hok s (.refl s))
  | some ps =>
    show Ends (some <$> Catalog.resolve ps) s ok err
    rw [Act.ends_map]
    exact resolve_passes h (hknown ps rfl) hok

theorem allowStatus_passes {a : Actor} {current : Status} {status : Option Status} {ok : PUnit → State → Prop}
    (hallowed : ∀ st, status = some st → Gate.mayChangeStatus a current st = true) (hok : ok ⟨⟩ s) :
    Ends (status.forM fun st => check (Gate.allowStatus a current st)) s ok err :=
  Act.option_ends (fun _ => hok) fun st hst => check_passes (by simp [Gate.allowStatus, hallowed st hst]) hok

theorem readPayload_passes {payload : Payload} {data : ByteArray} {ok : ByteArray → State → Prop}
    (hread : (payload.read s.place.maxSize s.place.sizeMessage).1 = .ok data) (hok : ∀ n, ok data { s with pulled := n }) :
    Ends (Icon.readPayload payload) s ok err := by
  unfold Icon.readPayload
  simp only [ends_bind, ends_get, ends_set]
  exact check_passes hread (hok _)

theorem upload_passes {contentType path : String} {data : ByteArray} {ok : Unit → State → Prop}
    (hstored : (s.blobs.upload contentType path data).1 = .ok ()) (hok : ∀ blobs, ok () { s with blobs }) :
    Ends (Icon.upload contentType path data) s ok err := by
  unfold Icon.upload
  simp only [ends_bind, ends_get, ends_set]
  exact check_passes hstored (hok _)

/-- An operation that is admitted comes to its transaction, with no write before it. -/
theorem Operation.Admitted.prepares {o : Operation} {c : Collection} {j : Transaction} (h : o.Admitted s c j)
    (hread : (Catalog.fetch c.id s).1 = .ok (some c)) (ha : s.Answers) :
    ∃ t, o.prepare s = (.ok j, t) ∧ s.Still t := by
  have hends : Ends o.prepare s (fun j' t => j' = j ∧ s.Still t) fun _ _ => False := by
    cases h with
    | edit scope maintains valid read allowed known =>
      simp only [prepare, ends_bind, ends_pure]
      refine writer_passes scope (check_passes valid (check_passes read ?_))
      refine fetchMaintained_passes hread maintains fun t ht _ => allowStatus_passes allowed ?_
      refine resolved_passes (ht.answers ha) (fun ps hps p hp => ?_) fun u hu => ⟨rfl, ht.trans hu⟩
      rw [ht.tables]
      exact known ps hps p hp
    | setIcon scope maintains accepted read stored =>
      unfold prepare
      simp only [ends_bind, ends_get, ends_pure]
      refine check_passes accepted (writer_passes scope ?_)
      refine fetchMaintained_passes hread maintains fun t ht hblobs => check_passes accepted ?_
      rw [← ht.place] at read stored ⊢
      rw [← hblobs] at stored
      exact readPayload_passes read fun n => upload_passes stored fun blobs => ⟨rfl, ht.trans (.beside rfl)⟩
    | clearIcon scope maintains =>
      unfold prepare
      simp only [ends_bind, ends_get, ends_pure]
      refine writer_passes scope (fetchMaintained_passes hread maintains fun t ht _ => ?_)
      exact Act.option_ends (fun _ => ⟨rfl, ht⟩) fun path _ => ends_update.mpr ⟨rfl, ht.trans (.beside rfl)⟩
    | delete scope maintains =>
      unfold prepare
      simp only [ends_bind, ends_pure]
      exact writer_passes scope (fetchMaintained_passes hread maintains fun t ht _ => ⟨rfl, ht⟩)
  obtain ⟨_, t, hprepare, rfl, ht⟩ := hends.exists_ok
  exact ⟨t, hprepare, ht⟩

end Before

/-! ### Statements about a collection that is not there -/

namespace Tables

variable {t : Tables} {id : String}

theorem deleteRow_of_none (h : t.row? id = none) : ((t.deleteLinks id).2.deleteRow true id).2 = (t.deleteLinks id).2 := by
  have hrows : t.collections.filter (fun r => r.id != id) = t.collections :=
    List.filter_eq_self.mpr fun r hr => by simpa using row?_eq_none_iff.mp h r hr
  simp [deleteRow, deleteLinks, hrows]

/-- A collection without members has none to lose. -/
theorem deleteLinks_of_nil (h : t.membersOf id = []) : (t.deleteLinks id).2 = t := by
  have hlinks : t.links.filter (fun l => l.collection != id) = t.links := by
    refine List.filter_eq_self.mpr fun l hl => ?_
    obtain ⟨c, p⟩ := l
    have hnot : c ≠ id := by
      rintro rfl
      have := mem_membersOf.mpr hl
      simp [h] at this
    simpa using hnot
  simp [deleteLinks, hlinks]

/-- What there is to add to a collection without members is supported only if it is nothing, where the collection is not
    there. -/
theorem supports_fresh_of_none (hrow : t.row? id = none) (hnone : t.membersOf id = []) {ps : List String} :
    (t.fresh (ps.map fun p => ⟨id, p⟩)).all t.supports = true ↔ ps = [] := by
  have hnot : ∀ p, (⟨id, p⟩ : Link) ∉ t.links := fun p hp => by
    have := mem_membersOf.mpr hp
    simp [hnone] at this
  have hfresh : t.fresh (ps.map fun p => ⟨id, p⟩) = ps.map fun p => (⟨id, p⟩ : Link) := by
    refine List.filter_eq_self.mpr fun l hl => ?_
    obtain ⟨p, -, rfl⟩ := List.mem_map.mp hl
    simpa using hnot p
  rw [hfresh, List.all_eq_true]
  refine ⟨fun h => List.eq_nil_iff_forall_not_mem.mpr fun p hp => ?_, fun h => by simp [h]⟩
  have hsupports := h _ (List.mem_map_of_mem hp)
  simp [supports, hrow] at hsupports

end Tables

namespace Catalog

variable {s : State} {id : String}

theorem change_vanished {f : Row → Row} (h : s.Serves) (hrow : s.tables.row? id = none) :
    Ends (change id f) s (fun _ _ => False) fun e t => e = .notFound id ∧ s.Within t := by
  refine change_decides (fun _ _ _ hno _ => absurd ⟨h.toAnswers, h.writable⟩ hno) (fun _ hthere _ => ?_)
    fun t _ ht => ⟨rfl, ht.toWithin⟩
  rw [hrow] at hthere
  cases hthere

/-- An edit that brings a field does not find the row. -/
theorem revise_vanished {title description : Option String} {status : Option Status} (h : s.Serves)
    (hrow : s.tables.row? id = none) (hvalid : Validation.ensure (Validation.edit title description none) = .ok ())
    (hfields : revisions title description status ≠ []) :
    Ends (revise id title description (status.map Status.word)) s (fun _ _ => False)
      fun e t => e = .notFound id ∧ s.Within t := by
  unfold revise
  rw [ends_bind]
  refine check_passes hvalid ?_
  rw [ends_bind]
  refine check_passes parseStatus_words ?_
  rw [← forM_revisions]
  obtain ⟨f, fs, hfs⟩ := List.exists_cons_of_ne_nil hfields
  rw [hfs]
  show Ends (change id f >>= fun _ => fs.forM (change id)) s _ _
  rw [ends_bind]
  exact (change_vanished h hrow).mono (fun _ _ hfalse => hfalse.elim) fun _ _ ht => ht

/-- An edit that brings no field makes no statement about the row. -/
theorem revise_nothing {ok : Unit → State → Prop} {err : Failure → State → Prop} (hok : ok () s) :
    Ends (revise id none none none) s ok err := by
  unfold revise
  rw [ends_bind]
  refine check_passes rfl ?_
  rw [ends_bind]
  refine check_passes (x := none.mapM Catalog.parseStatus) rfl ?_
  rw [← forM_revisions]
  exact ends_pure.mpr hok

theorem writeIcon_vanished {url : Option String} {color : Option Int} (h : s.Serves) (hrow : s.tables.row? id = none)
    (hcolor : ∀ n, color = some n → Cell.fits n = true) :
    Ends (writeIcon id url color) s (fun _ _ => False) fun e t => e = .notFound id ∧ s.Within t := by
  refine writeIcon_decides (fun _ _ _ hno _ => absurd ⟨h.toAnswers, h.writable⟩ hno) (fun _ hthere _ => ?_)
    (fun t _ ht => ⟨rfl, ht.toWithin⟩) fun n _ hn hfits _ => absurd (hcolor n hn) (by simp [hfits])
  rw [hrow] at hthere
  cases hthere

theorem unlink_serves {ok : Nat → State → Prop} {err : Failure → State → Prop} (h : s.Serves)
    (hok : ∀ n t, s.Wrote t (s.tables.deleteLinks id).2 (s.session.pending.put id none) → ok n t) :
    Ends (unlink id) s ok err := by
  unfold unlink
  rw [ends_bind]
  refine Act.execute_serves h (fun n v t hf ht => ?_) fun r t hf => nomatch hf
  have hf : s.tables.deleteLinks id = (n, v) := Except.ok.inj hf
  rw [ends_bind]
  exact Act.forget_ends ht fun u hu => ends_pure.mpr (hok n u (hf ▸ hu))

/-- A deletion takes the memberships that are left, and tells that the row was not there. -/
theorem erase_vanished (h : s.Serves) (hrow : s.tables.row? id = none) :
    Ends (erase id) s (fun found t => found = false ∧
      s.Gives t (s.tables.deleteLinks id).2 (s.session.pending.put id none)) fun _ _ => False := by
  unfold erase
  rw [ends_bind]
  refine unlink_serves h fun _ t ht => ?_
  simp only [ends_bind, ends_get, ends_pure]
  refine Act.execute_serves (h.gives ht.gives) (fun n v u hf hu => ?_) fun r u hf => nomatch hf
  have hf : (s.tables.deleteLinks id).2.deleteRow t.db.enforce id = (n, v) := by
    rw [ht.gives.tables] at hf
    exact Except.ok.inj hf
  have hv : v = (s.tables.deleteLinks id).2 := by
    rw [← Tables.deleteRow_of_none hrow, ← Tables.deleteRow_deleteLinks, hf]
  have hn : ¬ 0 < n := by
    have hcount : 0 < ((s.tables.deleteLinks id).2.deleteRow t.db.enforce id).1 ↔
        ((s.tables.deleteLinks id).2.row? id).isSome := Tables.deleteRow_count
    rw [hf] at hcount
    rw [hcount]
    show ¬ (s.tables.row? id).isSome
    simp [hrow]
  refine Act.forget_ends hu fun w hw => ⟨by simpa using hn, ?_⟩
  rw [ht.gives.pending, Keyed.put_put] at hw
  exact ht.gives.trans (hv ▸ hw.gives)

/-- The members that a collection is given which is not there: refused where references are enforced, and taken
    elsewhere. -/
theorem link_vanished {projects : List String} {ok : List String → State → Prop} {err : Failure → State → Prop}
    (h : s.Serves) (hrow : s.tables.row? id = none) (hnone : s.tables.membersOf id = [])
    (hok : projects = [] ∨ s.db.enforce = false → ∀ t, s.Gives t (s.tables.addLinks id (distinct projects))
      (if distinct projects = [] then s.session.pending else s.session.pending.put id none) →
      ok (distinct projects) t)
    (herr : projects ≠ [] → s.db.enforce = true → ∀ t, s.Within t → err (.database .integrity) t) :
    Ends (link id projects) s ok err := by
  have hsupports : (s.tables.fresh ((distinct projects).map fun p => ⟨id, p⟩)).all s.tables.supports = true ↔ projects = [] :=
    (Tables.supports_fresh_of_none hrow hnone).trans distinct_eq_nil
  refine link_decides (fun _ _ _ hno _ => absurd ⟨h.toAnswers, h.writable⟩ hno) (fun t htaken ht => ?_) fun t hno ht => ?_
  · refine hok ?_ t ht
    cases henf : s.db.enforce with
    | false => exact Or.inr rfl
    | true => exact Or.inl (hsupports.mp (htaken henf))
  · rw [Classical.not_imp, hsupports] at hno
    exact herr hno.2 hno.1 t ht.toWithin

theorem replaceMembers_vanished {projects : List String} {ok : Replacement → State → Prop}
    {err : Failure → State → Prop} (h : s.Serves) (hrow : s.tables.row? id = none)
    (hok : projects = [] ∨ s.db.enforce = false → ∀ r t,
      s.Gives t ((s.tables.deleteLinks id).2.addLinks id (distinct projects)) (s.session.pending.put id none) → ok r t)
    (herr : projects ≠ [] → s.db.enforce = true → ∀ t, s.Within t → err (.database .integrity) t) :
    Ends (replaceMembers id projects true) s ok err := by
  unfold replaceMembers
  show Ends (do
    let current ← members id
    let _ ← unlink id
    let _ ← link id projects
    return Replacement.between current (distinct projects)) s ok err
  simp only [ends_bind, ends_pure]
  refine Act.query_serves h.toAnswers fun t ht => unlink_serves (h.gives ht.gives) fun _ u hu => ?_
  rw [ht.gives.tables, ht.gives.pending] at hu
  have hu := ht.gives.trans hu.gives
  refine link_vanished (h.gives hu) ?_ ?_ (fun hcase v hv => ?_) fun hne henf v hv => ?_
  · rw [hu.tables]
    exact hrow
  · rw [hu.tables]
    exact Tables.membersOf_deleteLinks
  · rw [hu.tables, hu.pending, Keyed.put_put, ite_self] at hv
    exact hok (hu.enforce ▸ hcase) _ v (hu.trans hv)
  · exact herr hne (hu.enforce.symm.trans henf) v (hu.toWithin.trans hv)

end Catalog

/-! ### The transaction of an operation -/

/-- The database answers and takes writes, and has no collection under an id. -/
structure State.Lacks (s : State) (id : String) : Prop extends s.Serves where
  seen : s.tables = s.db.committed
  vanished : s.db.committed.row? id = none

theorem State.Lacks.still {s t : State} {id : String} (h : s.Lacks id) (ht : s.Still t) : t.Lacks id where
  toAnswers := ht.answers h.toAnswers
  writable := by
    rw [ht.db]
    exact h.writable
  seen := ht.tables.trans (h.seen.trans ht.committed.symm)
  vanished := ht.committed ▸ h.vanished

/-- Carries out a transaction and what comes after it. -/
def Transaction.finish (j : Transaction) : Act Unit := do
  let found ← Act.atomically j.work
  j.after found

namespace Operation

/-- The operation makes a statement about the row of its collection. -/
def writesRow : Operation → Bool
  | create .. => false
  | edit _ _ e => e.title.isSome || e.description.isSome || e.status.isSome
  | setIcon .. | clearIcon .. | delete .. => true

theorem run_eq_finish (o : Operation) : o.run = o.prepare >>= Transaction.finish := o.run_eq

variable {s u : State} {o : Operation} {c : Collection} {j : Transaction}

/-- What is committed after a collection was found to have vanished: the same as before, except that a deletion takes
    with it what memberships are left. -/
def Spared (u v : State) (o : Operation) (id : String) : Prop :=
  v.db.committed = u.db.committed ∨ (∃ actor, o = .delete actor id) ∧ u.db.committed.membersOf id ≠ [] ∧
    v.db.committed = (u.db.committed.deleteLinks id).2

/-- A transaction that makes a statement about the row finds that the row is not there. -/
theorem Admitted.misses (h : o.Admitted s c j) (hrow : o.writesRow = true) (hu : u.Lacks c.id) :
    Ends j.finish u (fun _ _ => False) fun e v => e = .notFound c.id ∧ Spared u v o c.id := by
  have hvanished : u.tables.row? c.id = none := hu.seen ▸ hu.vanished
  have hfails : ∀ {j : Transaction}, Ends j.work u (fun _ _ => False) (fun e v => e = .notFound c.id ∧ u.Within v) →
      Ends j.finish u (fun _ _ => False) fun e v => e = .notFound c.id ∧ Spared u v o c.id := by
    intro j hwork
    unfold Transaction.finish
    rw [ends_bind]
    refine (Act.atomically_fails hwork).mono (fun _ _ hfalse => hfalse.elim) fun e v hv => ?_
    exact ⟨hv.1, Or.inl hv.2.2⟩
  cases h with
  | @edit a e status _ _ valid read _ _ =>
    refine hfails ?_
    unfold Transaction.edit
    rw [Act.ends_map, ends_bind]
    refine (Catalog.revise_vanished hu.toServes hvanished (Validation.ensure_edit_fields valid) fun hnil => ?_).mono
      (fun _ _ hfalse => hfalse.elim) fun _ _ hv => hv
    obtain ⟨htitle, hdescription, hstatus⟩ := Catalog.revisions_eq_nil.mp hnil
    rw [hstatus] at read
    simp [writesRow, Option.map_eq_none_iff.mp htitle, hdescription, eq_words_of_read read] at hrow
  | setIcon =>
    refine hfails ?_
    unfold Transaction.setIcon
    rw [Act.ends_map]
    refine Catalog.writeIcon_vanished hu.toServes hvanished fun n hn => ?_
    obtain ⟨hlow, hhigh⟩ := Image.colorOf?_range hn
    have hfits : ∀ m : Int, 0 ≤ m → m ≤ 16777215 → -9223372036854775808 ≤ m ∧ m ≤ 9223372036854775807 := by omega
    simpa [Cell.fits] using hfits n hlow hhigh
  | clearIcon =>
    refine hfails ?_
    unfold Transaction.clearIcon
    rw [Act.ends_map]
    exact Catalog.writeIcon_vanished hu.toServes hvanished fun _ hn => nomatch hn
  | @delete a =>
    unfold Transaction.finish
    rw [ends_bind]
    refine (Act.atomically_succeeds hu.toAnswers (Catalog.erase_vanished hu.toServes hvanished)).mono
      (fun found v hv => ?_) fun _ _ hfalse => hfalse.elim
    obtain ⟨rfl, hv⟩ := hv
    rw [hu.seen] at hv
    refine ends_throw.mpr ⟨rfl, ?_⟩
    by_cases hnone : u.db.committed.membersOf c.id = []
    · exact Or.inl (hv.trans (Tables.deleteLinks_of_nil hnone))
    · exact Or.inr ⟨⟨_, rfl⟩, hnone, hv⟩

/-- A transaction that only replaces the members does not find that the row is not there: members are refused where
    references are enforced, and stored elsewhere. -/
theorem Admitted.overlooks {a : Option Actor} {e : Service.Edit} {ps : List String}
    (h : (Operation.edit a c.id e).Admitted s c j) (hrow : (Operation.edit a c.id e).writesRow = false)
    (hps : e.projects = some ps) (hu : u.Lacks c.id) :
    Ends j.finish u
      (fun _ v => (ps = [] ∨ u.db.enforce = false) ∧
        v.db.committed = (u.db.committed.deleteLinks c.id).2.addLinks c.id (distinct ps))
      fun e v => (ps ≠ [] ∧ u.db.enforce = true) ∧ e = .persistence Refusal.integrity.message ∧
        v.db.committed = u.db.committed := by
  cases h with
  | @edit a _ status _ _ valid read _ _ =>
    obtain ⟨title, description, word, projects⟩ := e
    obtain rfl : projects = some ps := hps
    simp only [writesRow, Bool.or_eq_false_iff, Option.isSome_eq_false_iff, Option.isNone_iff_eq_none] at hrow
    obtain ⟨⟨rfl, rfl⟩, rfl⟩ := hrow
    obtain rfl : status = none := (Except.ok.inj read).symm
    have hvanished : u.tables.row? c.id = none := hu.seen ▸ hu.vanished
    have hwork : ∀ {ok : Bool → State → Prop} {err : Failure → State → Prop},
        Ends (Catalog.replaceMembers c.id (distinct ps) true) u (fun _ v => ok true v) err →
        Ends (Transaction.edit c.id none none none (some (distinct ps))).work u ok err := by
      intro ok err hreplace
      unfold Transaction.edit
      rw [Act.ends_map, ends_bind]
      refine Catalog.revise_nothing (Act.option_ends (fun hnone => nomatch hnone) fun _ hps => ?_)
      cases hps
      simp only [ends_bind, ends_pure]
      exact hreplace
    unfold Transaction.finish
    rw [ends_bind]
    by_cases hcase : ps ≠ [] ∧ u.db.enforce = true
    · have hfails : Ends (Transaction.edit c.id none none none (some (distinct ps))).work u (fun _ _ => False)
          fun e v => e = .database .integrity ∧ u.Within v := by
        refine hwork (Catalog.replaceMembers_vanished hu.toServes hvanished (fun hno => ?_) fun _ _ v hv => ⟨rfl, hv⟩)
        rcases hno with hnil | henf
        · exact absurd (distinct_eq_nil.mp hnil) hcase.1
        · exact absurd hcase.2 (by simp [henf])
      exact (Act.atomically_fails hfails).mono (fun _ _ hfalse => hfalse.elim) fun _ _ hv => ⟨hcase, hv.1, hv.2.2⟩
    · have hdone : Ends (Transaction.edit c.id none none none (some (distinct ps))).work u
          (fun found v => found = true ∧ u.Gives v ((u.tables.deleteLinks c.id).2.addLinks c.id (distinct ps))
            (u.session.pending.put c.id none)) fun _ _ => False := by
        refine hwork (Catalog.replaceMembers_vanished hu.toServes hvanished (fun _ _ v hv => ⟨rfl, ?_⟩) fun hne henf => ?_)
        · rwa [distinct_distinct] at hv
        · exact absurd ⟨fun hnil => hne (distinct_eq_nil.mpr hnil), henf⟩ hcase
      refine (Act.atomically_succeeds hu.toAnswers hdone).mono (fun found v hv => ?_) fun _ _ hfalse => hfalse.elim
      obtain ⟨rfl, hv⟩ := hv
      rw [hu.seen] at hv
      refine ends_pure.mpr ⟨?_, hv⟩
      by_cases hnil : ps = []
      · exact Or.inl hnil
      · exact Or.inr (by simpa [hnil] using hcase)

/-! ### Results -/

/-- Where the collection had vanished already when the operation began, and was found in the cache, the operation fails
    as a whole. -/
theorem Admitted.run_stale (h : o.Admitted s c j) (hread : (Catalog.fetch c.id s).1 = .ok (some c)) (hs : s.Lacks c.id)
    (hrow : o.writesRow = true) : ∃ v, o.run s = (.error (.notFound c.id), v) ∧ Spared s v o c.id := by
  have hends : Ends o.run s (fun _ _ => False) fun e v => e = .notFound c.id ∧ Spared s v o c.id := by
    rw [run_eq_finish, ends_bind]
    obtain ⟨t, hprepare, ht⟩ := h.prepares hread hs.toAnswers
    refine ends_iff.mpr ⟨fun j' t' hj' => ?_, fun e t' he => ?_⟩
    · obtain ⟨rfl, rfl⟩ : j = j' ∧ t = t' := by
        rw [hprepare] at hj'
        cases hj'
        exact ⟨rfl, rfl⟩
      exact (h.misses hrow (hs.still ht)).mono (fun _ _ hfalse => hfalse) fun e v hv => by
        simpa [Spared, ht.committed] using hv
    · rw [hprepare] at he
      cases he
  obtain ⟨e, v, hrun, rfl, hv⟩ := hends.exists_error
  exact ⟨v, hrun, hv⟩

/-- An operation that passes all of its checks on a collection which it has read, be it in the cache or in the database,
    comes to its transaction without any write. If then the collection is not there any more, the operation fails of
    that, and commits nothing but the removal of memberships that a deletion finds left over; unless all that it brings
    is a list of projects. Such an edit overlooks that the collection has vanished: if references are enforced and there
    are projects in the list the database refuses them, which is a failure to persist, and if not, the edit succeeds,
    and leaves the projects as members of a collection that is not there. -/
theorem vanished_found_by_row (h : o.Admitted s c j) (hread : (Catalog.fetch c.id s).1 = .ok (some c))
    (ha : s.Answers) :
    ∃ t, o.prepare s = (.ok j, t) ∧ t.db.committed = s.db.committed ∧ ∀ u, u.Lacks c.id →
      (o.writesRow = true → ∃ v, j.finish u = (.error (.notFound c.id), v) ∧ Spared u v o c.id) ∧
      (∀ a e ps, o = .edit a c.id e → o.writesRow = false → e.projects = some ps →
        if ps ≠ [] ∧ u.db.enforce = true then
          ∃ v, j.finish u = (.error (.persistence Refusal.integrity.message), v) ∧ v.db.committed = u.db.committed
        else
          ∃ v, j.finish u = (.ok (), v) ∧
            v.db.committed = (u.db.committed.deleteLinks c.id).2.addLinks c.id (distinct ps)) := by
  obtain ⟨t, hprepare, ht⟩ := h.prepares hread ha
  refine ⟨t, hprepare, ht.committed, fun u hu => ⟨fun hrow => ?_, ?_⟩⟩
  · rcases (h.misses hrow hu).result with ⟨_, _, _, hfalse⟩ | ⟨e, v, hfinish, rfl, hv⟩
    · exact hfalse.elim
    · exact ⟨v, hfinish, hv⟩
  · rintro a e ps rfl hrow hps
    rcases (h.overlooks hrow hps hu).result with ⟨_, v, hfinish, hcase, hv⟩ | ⟨e, v, hfinish, hcase, rfl, hv⟩
    · rw [if_neg (by rcases hcase with rfl | henf <;> simp_all)]
      exact ⟨v, hfinish, hv⟩
    · rw [if_pos hcase]
      exact ⟨v, hfinish, hv⟩

/-- A catalog without collections, one of which is still in the cache. -/
def stale (enforce : Bool) : State :=
  { State.lone with
    db := { committed := { projects := [⟨"p", "P"⟩] }, enforce }
    cache := (Catalog.fetch "c" .lone).2.cache }

/-- The collection that is still in the cache. -/
def cached : Collection :=
  { id := "c", owner := "u", title := "Tools", description := "Things to work with", status := .listed
    created := .ofInstant 0, updated := .ofInstant 0 }

theorem fetch_stale (enforce : Bool) : (Catalog.fetch "c" (stale enforce)).1 = .ok (some cached) := by
  cases enforce <;> decide +kernel

theorem lacks_stale (enforce : Bool) : (stale enforce).Lacks "c" :=
  ⟨⟨⟨rfl, rfl, fun _ ho => nomatch ho⟩, rfl⟩, rfl, rfl⟩

theorem vanished_found_by_row_title :
    let o := Operation.edit (some { userId := "u" }) "c" { title := some " Shed ", projects := some ["p"] }
    let j := Transaction.edit "c" (some "Shed") none none (some ["p"])
    let s := stale true
    o.Admitted s cached j ∧ (Catalog.fetch "c" s).1 = .ok (some cached) ∧ s.Answers ∧ s.Lacks "c" ∧
      ∃ v, j.finish s = (.error (.notFound "c"), v) ∧ v.db.committed = s.db.committed := by
  intro o j s
  have hlacks : s.Lacks "c" := lacks_stale true
  have hanswers := hlacks.toAnswers
  have hadmitted : o.Admitted s cached j := by
    refine .edit (a := { userId := "u" }) rfl rfl (by decide +kernel) rfl (fun _ hst => nomatch hst) ?_
    rintro ps hps
    cases hps
    decide
  have hread := fetch_stale true
  obtain ⟨t, -, -, hfinish⟩ := vanished_found_by_row hadmitted hread hanswers
  obtain ⟨v, hv, hspared⟩ := (hfinish s hlacks).1 rfl
  refine ⟨hadmitted, hread, hanswers, hlacks, v, hv, hspared.resolve_right ?_⟩
  rintro ⟨⟨_, hdelete⟩, -⟩
  change Operation.edit _ _ _ = Operation.delete _ _ at hdelete
  cases hdelete

/-- An edit that brings nothing but a list of projects does not find that the collection has vanished: an empty list is
    taken, a list of existing projects is refused by the database if references are enforced, and if not, it is stored
    for the collection that is not there. -/
theorem vanished_overlooked :
    let o (ps : List String) := Operation.edit (some { userId := "u" }) "c" { projects := some ps }
    (stale true).Lacks "c" ∧ (stale false).Lacks "c" ∧
      (∀ enforce, (Catalog.fetch "c" (stale enforce)).1 = .ok (some cached)) ∧
      ((o []).run (stale true)).1 = .ok () ∧ ((o []).run (stale false)).1 = .ok () ∧
      ((o ["p"]).run (stale true)).1 = .error (.persistence Refusal.integrity.message) ∧
      ((o ["p"]).run (stale false)).1 = .ok () ∧
      ((o ["p"]).run (stale false)).2.db.committed = { projects := [⟨"p", "P"⟩], links := [⟨"c", "p"⟩] } := by
  intro o
  exact ⟨lacks_stale true, lacks_stale false, fetch_stale, by decide +kernel, by decide +kernel, by decide +kernel,
    by decide +kernel, by decide +kernel⟩

end Operation

end Curation
