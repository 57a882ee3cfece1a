import Curation.Proofs.Vanished

/-! Operations that are sure to succeed. Where the database answers and takes writes, a statement about a row that is
    there is not refused, and neither are memberships in projects that are there. So an operation that passes all of its
    checks on a collection which is there succeeds. -/

namespace Curation

open Act (Ends ends_bind ends_pure ends_get ends_ite ends_throw ends_iff)
open Catalog (revisions)

/-! ### Statements about a collection that is there -/

namespace Tables

variable {t : Tables} {id : String}

theorem hasProject_congr {u : Tables} (h : u.projects = t.projects) (p : String) : u.hasProject p = t.hasProject p := by
  rw [hasProject, hasProject, h]

theorem projects_updateRows {now : Time.Instant} {fs : List (Row → Row)} :
    (t.updateRows now id fs).projects = t.projects := by
  induction fs generalizing t with
  | nil => rfl
  | cons f fs ih => exact ih

end Tables

namespace Catalog

variable {s : State} {id : String} {err : Failure → State → Prop}

theorem change_serves {f : Row → Row} {ok : Unit → State → Prop} (h : s.Serves) (hrow : (s.tables.row? id).isSome)
    (hok : ∀ t, s.Wrote t (s.tables.updateRow s.now id f).2 (s.session.pending.put id none) → ok () t) :
    Ends (change id f) s ok err := by
  refine change_decides (fun _ _ _ hno _ => absurd ⟨h.toAnswers, h.writable⟩ hno) (fun t _ ht => hok t ht) fun _ hnone _ => ?_
  rw [hnone] at hrow
  cases hrow

theorem changes_serves {fs : List (Row → Row)} (hfs : ∀ f ∈ fs, ∀ r, (f r).id = r.id) {ok : PUnit → State → Prop}
    (h : s.Serves) (hrow : (s.tables.row? id).isSome)
    (hok : ∀ t, s.Gives t (s.tables.updateRows s.now id fs)
      (if fs = [] then s.session.pending else s.session.pending.put id none) → ok ⟨⟩ t) :
    Ends (fs.forM (change id)) s ok err := by
  induction fs generalizing s with
  | nil => exact ends_pure.mpr (hok s (by simpa [Tables.updateRows] using State.Gives.refl s))
  | cons f fs ih =>
    change Ends (change id f >>= fun _ => fs.forM (change id)) s ok err
    rw [ends_bind]
    refine change_serves h hrow fun t ht => ?_
    have hthere : (t.tables.row? id).isSome := by
      rw [ht.gives.tables, Tables.isSome_row?_updateRow (hfs f List.mem_cons_self)]
      exact hrow
    refine ih (fun g hg => hfs g (List.mem_cons_of_mem _ hg)) (h.gives ht.gives) hthere fun u hu => hok u ?_
    have hnow : t.now = s.now := ht.now
    rw [ht.gives.tables, ht.gives.pending, hnow, Keyed.put_put, ite_self] at hu
    exact ht.gives.trans hu

theorem revise_serves {title description : Option String} {status : Option Status} {ok : Unit → State → Prop}
    (h : s.Serves) (hrow : (s.tables.row? id).isSome)
    (hvalid : Validation.ensure (Validation.edit title description none) = .ok ())
    (hok : ∀ t, s.Gives t (s.tables.updateRows s.now id (revisions title description status))
      (if revisions title description status = [] then s.session.pending else s.session.pending.put id none) →
      ok () t) :
    Ends (revise id title description (status.map Status.word)) s ok err := by
  unfold revise
  rw [ends_bind]
  refine check_passes hvalid ?_
  rw [ends_bind]
  refine check_passes parseStatus_words ?_
  rw [← forM_revisions]
  exact changes_serves id_of_mem_revisions h hrow hok

theorem writeIcon_serves {url : Option String} {color : Option Int} {ok : Unit → State → Prop} (h : s.Serves)
    (hrow : (s.tables.row? id).isSome) (hcolor : ∀ n, color = some n → Cell.fits n = true)
    (hok : ∀ t, s.Gives t (s.tables.updateRow s.now id (withIcon url color)).2 (s.session.pending.put id none) → ok () t) :
    Ends (writeIcon id url color) s ok err := by
  refine writeIcon_decides (fun _ _ _ hno _ => absurd ⟨h.toAnswers, h.writable⟩ hno) (fun t _ ht => hok t ht)
    (fun _ hnone _ => ?_) fun n _ hn hfits _ => absurd (hcolor n hn) (by simp [hfits])
  rw [hnone] at hrow
  cases hrow

theorem link_serves {projects : List String} {ok : List String → State → Prop} (h : s.Serves)
    (hrow : (s.tables.row? id).isSome) (hknown : ∀ p ∈ projects, s.tables.hasProject p = true)
    (hok : ∀ t, s.Gives t (s.tables.addLinks id (distinct projects))
      (if distinct projects = [] then s.session.pending else s.session.pending.put id none) →
      ok (distinct projects) t) :
    Ends (link id projects) s ok err := by
  have hsupports : (s.tables.fresh ((distinct projects).map fun p => ⟨id, p⟩)).all s.tables.supports = true := by
    rw [List.all_eq_true]
    intro l hl
    obtain ⟨p, hp, rfl⟩ := List.mem_map.mp (List.mem_filter.mp hl).1
    simp [Tables.supports, hrow, hknown p (mem_distinct.mp hp)]
  refine link_decides (fun _ _ _ hno _ => absurd ⟨h.toAnswers, h.writable⟩ hno) (fun t _ ht => hok t ht) fun t hno _ => ?_
  exact absurd (fun _ => hsupports) hno

theorem replaceMembers_serves {projects : List String} {ok : Replacement → State → Prop} (h : s.Serves)
    (hrow : (s.tables.row? id).isSome) (hknown : ∀ p ∈ projects, s.tables.hasProject p = true)
    (hok : ∀ t, s.Gives t ((s.tables.deleteLinks id).2.addLinks id (distinct projects))
      (s.session.pending.put id none) → ok (.between (s.tables.membersOf id) (distinct projects)) t) :
    Ends (replaceMembers id projects true) s ok err := by
  unfold replaceMembers
  show Ends (do
    let current ← members id
    let _ ← unlink id
    let _ ← link id projects
    return Replacement.between current (distinct projects)) s ok err
  simp only [ends_bind, ends_pure]
  refine Act.query_serves h.toAnswers fun t ht => unlink_serves (h.gives ht.gives) fun _ u hu => ?_
  rw [ht.gives.tables, ht.gives.pending] at hu
  have hu := ht.gives.trans hu.gives
  have hrow : (u.tables.row? id).isSome := by
    rw [hu.tables]
    exact hrow
  refine link_serves (h.gives hu) hrow (fun p hp => ?_) fun v hv => ?_
  · rw [hu.tables]
    exact hknown p hp
  · rw [hu.tables, hu.pending, Keyed.put_put, ite_self] at hv
    exact hok v (hu.trans hv)

theorem erase_serves {ok : Bool → State → Prop} (h : s.Serves) (hrow : (s.tables.row? id).isSome)
    (hok : ∀ t, s.Gives t ((s.tables.deleteLinks id).2.deleteRow true id).2 (s.session.pending.put id none) → ok true t) :
    Ends (erase id) s ok err := by
  unfold erase
  rw [ends_bind]
  refine unlink_serves h fun _ t ht => ?_
  simp only [ends_bind, ends_get, ends_pure]
  refine Act.execute_serves (h.gives ht.gives) (fun n v u hf hu => ?_) fun r u hf => nomatch hf
  have hf : (s.tables.deleteLinks id).2.deleteRow t.db.enforce id = (n, v) := by
    rw [ht.gives.tables] at hf
    exact Except.ok.inj hf
  have hn : 0 < n := by
    have hcount : 0 < ((s.tables.deleteLinks id).2.deleteRow t.db.enforce id).1 := Tables.deleteRow_count.mpr hrow
    rwa [hf] at hcount
  refine Act.forget_ends hu fun w hw => ?_
  rw [decide_eq_true hn]
  refine hok w ?_
  rw [ht.gives.pending, Keyed.put_put] at hw
  rw [← Tables.deleteRow_deleteLinks, hf]
  exact ht.gives.trans hw.gives

end Catalog

/-! ### Whole operations -/

/-- A block whose work succeeds is committed if the database still answers then. -/
theorem Act.atomically_answers {α : Type} {a : Act α} {s : State} {ok : α → Prop}
    (ha : Ends a s (fun x t => ok x ∧ t.Answers) fun _ _ => False) :
    Ends (Act.atomically a) s (fun x _ => ok x) fun _ _ => False := by
  rw [Act.atomically_ends]
  exact ha.mono (fun x t ht => Act.commit_serves ht.2 ⟨ht.1, ht.1⟩) fun _ _ hfalse => hfalse

theorem Image.fits_colorOf? {images : Image.Library} {data : ByteArray} {n : Int}
    (h : ((Image.colorOf? images data).map fun n => (n : Int)) = some n) : Cell.fits n = true := by
  obtain ⟨hlow, hhigh⟩ := Image.colorOf?_range h
  have hfits : ∀ m : Int, 0 ≤ m → m ≤ 16777215 → -9223372036854775808 ≤ m ∧ m ≤ 9223372036854775807 := by omega
  simpa [Cell.fits] using hfits n hlow hhigh

namespace Operation

variable {s t u : State} {o : Operation} {c : Collection} {j : Transaction}

/-- The transaction of an operation that has passed its checks succeeds if nothing has changed since. -/
theorem Admitted.finishes (h : o.Admitted s c j) (hu : u.Serves) (hrow : (u.tables.row? c.id).isSome)
    (hprojects : u.tables.projects = s.tables.projects) : Ends j.finish u (fun _ _ => True) fun _ _ => False := by
  have hpasses : ∀ {a : Act Bool} {after : Bool → Act Unit},
      Ends a u (fun found t => found = true ∧ t.Answers) (fun _ _ => False) →
      (∀ v, Ends (after true) v (fun _ _ => True) fun _ _ => False) →
      Ends (Act.atomically a >>= after) u (fun _ _ => True) fun _ _ => False := by
    intro a after hwork hafter
    rw [ends_bind]
    exact (Act.atomically_answers hwork).mono (fun found v hfound => hfound ▸ hafter v) fun _ _ hfalse => hfalse
  cases h with
  | @edit a e status _ _ valid _ _ known =>
    refine hpasses ?_ fun v => ends_pure.mpr trivial
    unfold Transaction.edit
    rw [Act.ends_map, ends_bind]
    refine Catalog.revise_serves hu hrow (Validation.ensure_edit_fields valid) fun t ht => ?_
    have hserves : t.Serves := hu.gives ht
    refine Act.option_ends (fun _ => ⟨rfl, hserves.toAnswers⟩) fun ps hps => ?_
    obtain ⟨qs, hqs, rfl⟩ := Option.map_eq_some_iff.mp hps
    simp only [ends_bind, ends_pure]
    have hthere : (t.tables.row? c.id).isSome := by
      rw [ht.tables, Tables.isSome_row?_updateRows Catalog.id_of_mem_revisions]
      exact hrow
    refine Catalog.replaceMembers_serves hserves hthere (fun p hp => ?_) fun v hv =>
      ⟨trivial, (hserves.gives hv).toAnswers⟩
    rw [ht.tables, Tables.hasProject_congr (Tables.projects_updateRows.trans hprojects)]
    exact known qs hqs p (mem_distinct.mp hp)
  | @setIcon a extension contentType payload data =>
    refine hpasses ?_ fun v => ?_
    · unfold Transaction.setIcon
      rw [Act.ends_map]
      exact Catalog.writeIcon_serves hu hrow (fun n hn => Image.fits_colorOf? hn) fun t ht =>
        ⟨rfl, (hu.gives ht).toAnswers⟩
    · unfold Transaction.setIcon
      dsimp only
      cases c.iconUrl.bind s.place.pathOfUrl? with
      | none => exact ends_pure.mpr trivial
      | some old => exact ends_ite.mpr ⟨fun _ => Act.ends_update.mpr trivial, fun _ => ends_pure.mpr trivial⟩
  | clearIcon =>
    refine hpasses ?_ fun v => ends_pure.mpr trivial
    unfold Transaction.clearIcon
    rw [Act.ends_map]
    exact Catalog.writeIcon_serves hu hrow (fun _ hn => nomatch hn) fun t ht => ⟨rfl, (hu.gives ht).toAnswers⟩
  | delete =>
    refine hpasses ?_ fun v => ends_pure.mpr trivial
    exact Catalog.erase_serves hu hrow fun t ht => ⟨rfl, (hu.gives ht).toAnswers⟩

/-- An operation that passes all of its checks on a collection which it has read, and which is there, succeeds. -/
theorem Admitted.succeeds (h : o.Admitted s c j) (hread : (Catalog.fetch c.id s).1 = .ok (some c)) (hs : s.Serves)
    (hrow : (s.tables.row? c.id).isSome) : ∃ t, o.run s = (.ok (), t) := by
  obtain ⟨u, hprepare, hu⟩ := h.prepares hread hs.toAnswers
  have hfinish : Ends j.finish u (fun _ _ => True) fun _ _ => False :=
    h.finishes (hs.still hu) (by rw [hu.tables]; exact hrow) (by rw [hu.tables])
  have hends : Ends o.run s (fun _ _ => True) fun _ _ => False := by
    rw [run_eq_finish, ends_bind, ends_iff]
    refine ⟨fun j' t' hj' => ?_, fun e t' he => ?_⟩
    · rw [hprepare] at hj'
      cases hj'
      exact hfinish
    · rw [hprepare] at he
      cases he
  obtain ⟨_, t, hrun, -⟩ := hends.exists_ok
  exact ⟨t, hrun⟩

end Operation

end Curation
