import Curation.Proofs.Authority
import Curation.Proofs.Disclosure
import Curation.Proofs.Icons
import Curation.Proofs.Succeeding

/-! Requests that are made twice. An edit of a collection, and setting or clearing its icon, are judged the second time
    against what they have made of the collection the first time. They pass again, and make the same of it: but for the
    time of the last change neither the rows nor the memberships nor the blobs are changed any more. -/

namespace Curation

open Act (Ends ends_bind ends_pure ends_get ends_ite ends_throw ends_update)
open Time (Instant)
open Catalog (check check_ends revisions)

/-! ### A change that is made again -/

namespace Keyed

theorem put_of_get? {α : Type} {m : Keyed α} {key : String} {v : α} (h : m.get? key = some v) : m.put key v = m := by
  induction m with
  | nil => cases h
  | cons e m ih =>
    obtain ⟨k, w⟩ := e
    rw [get?_cons] at h
    by_cases hk : k = key
    · rw [if_pos hk] at h
      cases h
      simp [put, hk]
    · rw [if_neg hk] at h
      simp [put, hk, ih h]

end Keyed

namespace Tables

variable {t : Tables} {now now' : Instant} {id : String}

/-- The tables after a change to the row of a collection that sets nothing but the time of the change. -/
def touched (t : Tables) (now : Instant) (id : String) : Tables := (t.updateRow now id fun r => r).2

theorem row?_touched (id' : String) : (t.touched now id).row? id' =
    if id' = id then (t.row? id).map fun r => { r with updated := .stamp (.second now) } else t.row? id' :=
  row?_updateRow (fun _ => rfl) id'

theorem touched_touched : (t.touched now id).touched now id = t.touched now id := by
  simp only [touched, updateRow, List.map_map]
  congr 1
  refine List.map_congr_left fun r _ => ?_
  by_cases hr : r.id = id <;> simp [hr]

theorem Distinct.touched (h : t.Distinct) : (t.touched now id).Distinct := h.updateRow fun _ => rfl

/-- A change that the row of a collection shows already. -/
theorem Distinct.updateRow_of_fixed (h : t.Distinct) {f : Row → Row} (hf : ∀ r, t.row? id = some r → f r = r) :
    (t.updateRow now id f).2 = t.touched now id := by
  simp only [Tables.touched, Tables.updateRow]
  congr 1
  refine List.map_congr_left fun r hr => ?_
  by_cases hid : r.id = id
  · have hrow : t.row? id = some r := hid ▸ h.row?_of_mem hr
    simp [hid, hf r hrow]
  · simp [hid]

/-- Changes that the row shows already, none of which is about the time of the last change. -/
theorem Distinct.updateRows_of_fixed (h : t.Distinct) {fs : List (Row → Row)}
    (hblind : ∀ f ∈ fs, ∀ (r : Row) x, f { r with updated := x } = { f r with updated := x })
    (hfs : ∀ f ∈ fs, ∀ r, t.row? id = some r → f r = r) :
    t.updateRows now id fs = if fs = [] then t else t.touched now id := by
  induction fs generalizing t with
  | nil => rfl
  | cons f fs ih =>
    have hrest : ∀ g ∈ fs, ∀ r, (t.touched now id).row? id = some r → g r = r := by
      intro g hg r hr
      rw [row?_touched, if_pos rfl] at hr
      obtain ⟨r₀, hr₀, rfl⟩ := Option.map_eq_some_iff.mp hr
      rw [hblind g (List.mem_cons_of_mem _ hg), hfs g (List.mem_cons_of_mem _ hg) r₀ hr₀]
    show ((t.updateRow now id f).2).updateRows now id fs = _
    rw [h.updateRow_of_fixed (hfs f List.mem_cons_self),
      ih h.touched (fun g hg => hblind g (List.mem_cons_of_mem _ hg)) hrest, touched_touched, ite_self]
    simp

theorem blind_of_mem_revisions {title description : Option String} {status : Option Status} :
    ∀ f ∈ revisions title description status, ∀ (r : Row) x, f { r with updated := x } = { f r with updated := x } := by
  cases title <;> cases description <;> cases status <;> simp [revisions]

theorem fixed_of_mem_revisions {title description : Option String} {status : Option Status} {r : Row}
    (hr : (t.updateRows now id (revisions title description status)).row? id = some r) :
    ∀ f ∈ revisions title description status, f r = r := by
  cases hrow : t.row? id with
  | none =>
    have hnone : ((t.updateRows now id (revisions title description status)).row? id).isSome = false := by
      rw [isSome_row?_updateRows Catalog.id_of_mem_revisions, hrow]
      rfl
    rw [hr] at hnone
    cases hnone
  | some r₀ =>
    cases title <;> cases description <;> cases status <;>
      simp [revisions, updateRows, row?_updateRow, hrow] at hr <;> subst hr <;> simp [revisions]

theorem isSome_row?_edited {title description : Option String} {status : Option Status}
    {projects : Option (List String)} :
    ((t.edited now id title description status projects).row? id).isSome = (t.row? id).isSome := by
  have hrevised : ((t.updateRows now id (revisions title description status)).row? id).isSome = (t.row? id).isSome :=
    isSome_row?_updateRows Catalog.id_of_mem_revisions
  cases projects with
  | none => exact hrevised
  | some ps => exact hrevised

theorem projects_edited {title description : Option String} {status : Option Status} {projects : Option (List String)} :
    (t.edited now id title description status projects).projects = t.projects := by
  cases projects with
  | none => exact projects_updateRows
  | some ps => exact projects_updateRows

theorem links_deleteLinks_addLinks {ps : List String} : ((t.deleteLinks id).2.addLinks id ps).links =
    t.links.filter (fun l => l.collection != id) ++ ps.map fun p => ⟨id, p⟩ := by
  have hfresh : (t.deleteLinks id).2.fresh (ps.map fun p => ⟨id, p⟩) = ps.map fun p => ⟨id, p⟩ := by
    refine List.filter_eq_self.mpr fun l hl => ?_
    obtain ⟨p, -, rfl⟩ := List.mem_map.mp hl
    simp [deleteLinks]
  show (t.deleteLinks id).2.links ++ (t.deleteLinks id).2.fresh (ps.map fun p => ⟨id, p⟩) = _
  rw [hfresh]
  rfl

/-- Replacing the members by the same ones again. -/
theorem links_replaced_again {ps : List String} {u : Tables}
    (h : u.links = ((t.deleteLinks id).2.addLinks id ps).links) :
    ((u.deleteLinks id).2.addLinks id ps).links = u.links := by
  have hold : (t.links.filter (fun l => l.collection != id) ++ ps.map fun p => (⟨id, p⟩ : Link)).filter
      (fun l => l.collection != id) = t.links.filter fun l => l.collection != id := by
    simp [List.filter_append, List.filter_filter, List.filter_map, Function.comp_def]
  rw [links_deleteLinks_addLinks, h, links_deleteLinks_addLinks, hold]

theorem edited_again {title description : Option String} {status : Option Status} {projects : Option (List String)}
    (h : t.Distinct) {v : Tables} (hv : v = t.edited now id title description status projects) :
    v.edited now' id title description status projects = v ∨
      v.edited now' id title description status projects = v.touched now' id := by
  have hrows : v.collections = (t.updateRows now id (revisions title description status)).collections := by
    subst hv
    cases projects with
    | none => rfl
    | some ps => rfl
  have hdistinct : v.Distinct := by
    rw [Distinct, hrows]
    exact h.updateRows Catalog.id_of_mem_revisions
  have hfixed : ∀ f ∈ revisions title description status, ∀ r, v.row? id = some r → f r = r := by
    intro f hf r hr
    rw [row?, hrows] at hr
    exact fixed_of_mem_revisions hr f hf
  have hrevised : v.updateRows now' id (revisions title description status) = v ∨
      v.updateRows now' id (revisions title description status) = v.touched now' id := by
    rw [hdistinct.updateRows_of_fixed blind_of_mem_revisions hfixed]
    split
    · exact Or.inl rfl
    · exact Or.inr rfl
  cases projects with
  | none => exact hrevised
  | some ps =>
    -- The members are replaced by themselves, so that only what becomes of the row is left.
    have hsame : ∀ u : Tables, u.links = v.links → (u.deleteLinks id).2.addLinks id (distinct ps) = u := by
      intro u hu
      have hlinks : ((u.deleteLinks id).2.addLinks id (distinct ps)).links = u.links :=
        links_replaced_again (hu.trans (congrArg Tables.links hv))
      show Tables.mk u.collections ((u.deleteLinks id).2.addLinks id (distinct ps)).links u.projects = u
      rw [hlinks]
    show ((v.updateRows now' id (revisions title description status)).deleteLinks id).2.addLinks id (distinct ps) = v ∨
      ((v.updateRows now' id (revisions title description status)).deleteLinks id).2.addLinks id (distinct ps) = _
    rw [hsame _ links_updateRows]
    exact hrevised

end Tables

/-! ### What an operation does again -/

/-- The operation changes a collection that is there, or its icon. -/
def Operation.amends (id : String) : Operation → Prop
  | edit _ id' _ | setIcon _ id' _ _ | clearIcon _ id' => id' = id
  | create .. | delete .. => False

namespace Operation

variable {s t u : State} {o : Operation} {id : String} {v w : Tables}

/-- An operation that has had its effect, and has it again, changes nothing but the time of the last change. -/
theorem Effect.again (h : o.Effect s v) (h' : o.Effect t w) (ho : o.amends id) (hs : s.db.committed.Distinct)
    (hv : t.db.committed = v) (hplace : t.place = s.place) : w = v ∨ w = v.touched t.now id := by
  cases h with
  | create | delete => cases ho
  | @edit a _ e c status grants valid read allowed known =>
    obtain rfl := ho
    cases h' with
    | @edit _ _ _ c' status' _ _ read' =>
      obtain rfl : status = status' := Except.ok.inj (read.symm.trans read')
      rw [hv]
      exact Tables.edited_again hs rfl
  | @setIcon a _ extension payload c data grants read =>
    obtain rfl := ho
    cases h' with
    | @setIcon _ _ _ _ c' data' _ read' =>
      rw [hplace] at read' ⊢
      obtain rfl : data = data' := Except.ok.inj (read.symm.trans read')
      right
      rw [hv]
      refine (hs.updateRow Catalog.id_withIcon).updateRow_of_fixed fun r hr => ?_
      rw [Tables.row?_updateRow Catalog.id_withIcon, if_pos rfl] at hr
      obtain ⟨r₀, -, rfl⟩ := Option.map_eq_some_iff.mp hr
      rfl
  | @clearIcon a _ c grants =>
    obtain rfl := ho
    cases h' with
    | clearIcon =>
      right
      rw [hv]
      refine (hs.updateRow Catalog.id_withIcon).updateRow_of_fixed fun r hr => ?_
      rw [Tables.row?_updateRow Catalog.id_withIcon, if_pos rfl] at hr
      obtain ⟨r₀, -, rfl⟩ := Option.map_eq_some_iff.mp hr
      rfl

end Operation

/-! ### The second judgement -/

theorem Status.isApproved_of_isRequestable {st : Status} (h : st.isRequestable = true) : st.isApproved = true := by
  cases st <;> first | rfl | cases h

/-- A row that can be read stands for a collection of its owner, in its status. -/
theorem Tables.Legible.held?_of_row {v : Tables} (h : v.Legible) {id : String} {r : Row} (hr : v.row? id = some r) :
    ∃ c, v.held? id = some c ∧ c.owner = r.owner ∧ Status.ofWord? r.status = some c.status := by
  obtain ⟨c, hc⟩ := (h r (Tables.row?_eq_some hr).1).toCollection (v.membersOf id)
  refine ⟨c, Tables.held?_eq_some.mpr ⟨r, hr, hc⟩, ?_⟩
  obtain ⟨_, status, _, _, -, hstatus, rfl⟩ := Row.toCollection_eq_ok hc
  exact ⟨rfl, hstatus⟩

theorem State.Settled.fetch_of_answers {s : State} (h : s.Settled) (hlegible : s.db.committed.Legible)
    (ha : s.Answers) (id : String) : (Catalog.fetch id s).1 = .ok (s.db.committed.held? id) := by
  have hends : Ends (Catalog.fetch id) s (fun found _ => found = s.db.committed.held? id) fun _ _ => False := by
    refine Catalog.fetch_ends h.view.rows h.fit (fun t _ => by rw [h.seen]) fun e t _ he => ?_
    rcases he with he | ⟨hno, -⟩
    · rw [h.seen, hlegible.answer h.committed.rows] at he
      cases he
    · exact hno ha
  obtain ⟨found, t, hfetch, rfl⟩ := hends.exists_ok
  rw [hfetch]

theorem Icon.requireContentType_of_contentType? {extension contentType : String}
    (h : Icon.contentType? extension = some contentType) : Icon.requireContentType extension = .ok contentType := by
  rw [Icon.requireContentType, h]

namespace Operation

variable {s t u : State} {o : Operation} {id : String} {v w : Tables} {b : Blobs}

/-- The collection that an operation was about is there again afterwards, and the actor may still write to it. -/
theorem Effect.held_again {a : Actor} {c : Collection} (h : o.Effect s v) (hgrants : s.db.committed.Grants a .write id c)
    (hsome : (v.row? id).isSome = (s.db.committed.row? id).isSome) (hlegible : v.Legible) :
    ∃ c' r r', v.held? id = some c' ∧ Gate.maintains c' a = true ∧ s.db.committed.row? id = some r ∧
      v.row? id = some r' ∧ Status.ofWord? r.status = some c.status ∧ Status.ofWord? r'.status = some c'.status := by
  obtain ⟨r, hr, howner, hstatus⟩ := hgrants.row
  rw [hr] at hsome
  obtain ⟨r', hr'⟩ := Option.isSome_iff_exists.mp hsome
  obtain ⟨c', hc', howner', hstatus'⟩ := hlegible.held?_of_row hr'
  have hkept : c'.owner = c.owner := howner'.trans ((h.row hr hr').1.owner.trans howner)
  have hmaintains : Gate.maintains c' a = true := by
    have hwas := hgrants.maintains
    rwa [Gate.maintains, ← hkept] at hwas
  exact ⟨c', r, r', hc', hmaintains, hr, hr', hstatus, hstatus'⟩

/-- An operation that has succeeded passes its checks again. A status that its actor could ask for is one from which the
    actor may ask for it. -/
theorem Effect.admits_again (h : o.Effect s v) (hstocks : o.Stocks s b) (ho : o.amends id) (ht : t.Settled)
    (hv : t.db.committed = v) (hlegible : v.Legible) (hplace : t.place = s.place) (hkeyed : t.blobs.disk = none)
    (hstore : t.blobs.failUploads = none) :
    ∃ c j, t.db.committed.held? id = some c ∧ o.Admitted t c j := by
  have heffect := h
  cases h with
  | create | delete => cases ho
  | @edit a _ e c status grants valid read allowed known =>
    obtain rfl := ho
    obtain ⟨c', r, r', hheld, hmaintains, hr, hr', hstatus, hstatus'⟩ :=
      heffect.held_again grants Tables.isSome_row?_edited hlegible
    have hallowed : ∀ st, status = some st → Gate.mayChangeStatus a c'.status st = true := by
      rintro st rfl
      have hword : r'.status = st.word := (Tables.row?_edited hr hr').2
      rw [hword, Status.ofWord?_word] at hstatus'
      cases hstatus'
      have hmay := allowed _ rfl
      simp only [Gate.mayChangeStatus, Bool.or_eq_true, Bool.and_eq_true] at hmay ⊢
      exact hmay.imp_right fun hmay => ⟨Status.isApproved_of_isRequestable hmay.2, hmay.2⟩
    have hknown : ∀ ps, e.projects = some ps → ∀ p ∈ ps, t.tables.hasProject p = true := by
      intro ps hps p hp
      rw [ht.seen, hv, Tables.hasProject_congr Tables.projects_edited]
      exact known ps hps p hp
    obtain rfl := Tables.id_of_held? hheld
    exact ⟨c', _, hv ▸ hheld, .edit grants.scope hmaintains valid read hallowed hknown⟩
  | @setIcon a _ extension payload c data grants read =>
    obtain rfl := ho
    obtain ⟨c', -, -, hheld, hmaintains, -⟩ :=
      heffect.held_again grants (Tables.isSome_row?_updateRow Catalog.id_withIcon) hlegible
    obtain rfl := Tables.id_of_held? hheld
    cases hstocks with
    | @setIcon _ _ _ contentType _ _ _ accepted =>
      have hstored : (t.blobs.upload contentType (t.place.path c'.id (Digest.hex data) extension) data).1 = .ok () := by
        simp [Blobs.upload, hkeyed, hstore]
      rw [← hplace] at read
      exact ⟨c', _, hv ▸ hheld, .setIcon grants.scope hmaintains (Icon.requireContentType_of_contentType? accepted)
        read hstored⟩
  | @clearIcon a _ c grants =>
    obtain rfl := ho
    obtain ⟨c', -, -, hheld, hmaintains, -⟩ :=
      heffect.held_again grants (Tables.isSome_row?_updateRow Catalog.id_withIcon) hlegible
    obtain rfl := Tables.id_of_held? hheld
    exact ⟨c', _, hv ▸ hheld, .clearIcon grants.scope hmaintains⟩

end Operation

/-! ### The blobs -/

namespace Blobs

variable {b b' : Blobs} {path path' contentType : String} {data : ByteArray}

/-- A blob that is stored again under the same path. -/
theorem upload_again (h : b.disk = none) (hthere : b.files.get? path = some data)
    (hup : b.upload contentType path data = (.ok (), b')) :
    b'.files = b.files ∧ b'.calls = b.calls ++ [.upload path contentType data.size] := by
  rw [upload_eq_ok h hup]
  exact ⟨Keyed.put_of_get? hthere, rfl⟩

end Blobs

namespace Operation

variable {s t u : State} {o : Operation} {id : String} {v w : Tables} {b b' : Blobs}

/-- What an operation has put into the store, and the icon that it has set. -/
structure Left (o : Operation) (id : String) (s t : State) : Prop where
  keyed : t.blobs.disk = none
  place : t.place = s.place
  stored : ∀ actor extension payload data, o = .setIcon actor id extension payload →
    (payload.read s.place.maxSize s.place.sizeMessage).1 = .ok data →
    t.blobs.files.get? (s.place.path id (Digest.hex data) extension) = some data ∧
      t.iconPath? id = some (s.place.path id (Digest.hex data) extension) ∧
      s.place.path id (Digest.hex data) extension ∉ t.cleanups
  cleared : ∀ actor, o = .clearIcon actor id → t.iconPath? id = none

theorem left_of_ok (hs : s.Settled) (hkeyed : s.blobs.disk = none) (hdrained : s.cleanups = [])
    (hrun : o.run s = (.ok (), t)) : o.Left id s t := by
  obtain ⟨-, heffect, hplace, hcleanups, hstocks⟩ := (o.run_spec hs).of_ok hrun
  refine ⟨(hstocks.keeps hkeyed).1, hplace, ?_, ?_⟩
  · rintro actor extension payload data rfl hread
    have hstores : (setIcon actor id extension payload).stores? s = some (s.place.path id (Digest.hex data) extension) :=
      stores?_of_read hread
    refine ⟨?_, (iconPath?_of_set hs hrun).trans hstores, ?_⟩
    · cases hstocks with
      | @setIcon _ _ _ _ _ data' _ _ read stored =>
        obtain rfl : data = data' := Except.ok.inj (hread.symm.trans read)
        rw [Blobs.upload_eq_ok hkeyed stored, Keyed.get?_put, if_pos rfl]
    · rw [hcleanups, hdrained]
      exact not_mem_leaves hstores
  · rintro actor rfl
    rw [State.iconPath?, heffect.icon? id]
    simp [icon?]

/-- The second time an operation stores nothing that is not there, and deletes nothing. -/
theorem Stocks.again (h : o.Stocks t b') (hleft : o.Left id s t) (ho : o.amends id) :
    b'.files = t.blobs.files ∧ (∃ calls, b'.calls = t.blobs.calls ++ calls ∧ ∀ path, .delete path ∉ calls) ∧
      o.leaves t = [] := by
  have hsame : t.blobs.files = t.blobs.files ∧
      ∃ calls, t.blobs.calls = t.blobs.calls ++ calls ∧ ∀ path, .delete path ∉ calls :=
    ⟨rfl, [], (List.append_nil _).symm, fun _ => List.not_mem_nil⟩
  cases h with
  | create | delete => cases ho
  | edit => exact ⟨hsame.1, hsame.2, rfl⟩
  | @clearIcon actor _ =>
    obtain rfl := ho
    rw [hleft.cleared actor rfl]
    exact ⟨hsame.1, hsame.2, rfl⟩
  | @setIcon actor id' extension contentType payload data _ accepted read stored =>
    obtain rfl := ho
    rw [hleft.place] at read stored
    obtain ⟨hthere, hicon, -⟩ := hleft.stored actor extension payload data rfl read
    obtain ⟨hfiles, hcalls⟩ := Blobs.upload_again hleft.keyed hthere stored
    refine ⟨hfiles, ⟨_, hcalls, fun path hmem => by simp at hmem⟩, ?_⟩
    have hstores : (Operation.setIcon actor id' extension payload).stores? t =
        some (s.place.path id' (Digest.hex data) extension) := by
      simp [stores?, hleft.place, read, Except.toOption]
    simp only [leaves, hstores, hicon]
    simp [Option.filter]

end Operation

/-! ### Between the calls -/

namespace Service

variable {s t u : State} {o : Operation} {id : String}

/-- Until the call is made again nothing else is asked for that changes anything, and blobs are not touched except that
    those which wait to be deleted are deleted. -/
def waiting (o : Option Operation) (s t : State) : Prop := quiet o s t ∧ tended o s t

theorem Runs.left (ht : t.Settled) (hleft : o.Left id s t) (hruns : Runs waiting t u) : o.Left id s u := by
  induction hruns with
  | refl => exact hleft
  | @step u w _ hu hstep hallowed ih =>
    obtain ⟨rfl, htended⟩ := hallowed
    have husettled : u.Settled := hu.settled ht
    have hicon : ∀ id, w.iconPath? id = u.iconPath? id :=
      State.iconPath?_congr (hstep.committed husettled) (hstep.place husettled)
    have hcleared : ∀ actor, o = .clearIcon actor id → w.iconPath? id = none := fun actor hactor =>
      (hicon id).trans (ih.cleared actor hactor)
    have hplace : w.place = s.place := (hstep.place husettled).trans ih.place
    rcases htended rfl with ⟨hfiles, hdisk, hcleanups⟩ | hclean
    · refine ⟨hdisk.trans ih.keyed, hplace, fun actor extension payload data hset hread => ?_, hcleared⟩
      rw [hfiles, hcleanups, hicon]
      exact ih.stored actor extension payload data hset hread
    · obtain ⟨before, path, after, hcleanups, rfl⟩ := hclean
      refine ⟨Blobs.disk_delete ih.keyed, hplace, fun actor extension payload data hset hread => ?_, hcleared⟩
      obtain ⟨hthere, hpath, hspared⟩ := ih.stored actor extension payload data hset hread
      rw [hcleanups] at hspared
      refine ⟨?_, (hicon id).trans hpath, fun hmem => hspared ?_⟩
      · refine (Blobs.get?_delete ih.keyed fun heq => hspared ?_).trans hthere
        rw [heq]
        exact List.mem_append_right _ List.mem_cons_self
      · rcases List.mem_append.mp hmem with hmem | hmem
        · exact List.mem_append_left _ hmem
        · exact List.mem_append_right _ (List.mem_cons_of_mem _ hmem)

end Service

/-! ### The answers -/

/-- The collection without the time of its last change, if it has the id. -/
def Collection.timeless (id : String) (c : Collection) : Collection :=
  if c.id = id then { c with updated := c.created } else c

/-- Two states give the same answer to every query but for the time of the last change of a collection, unless the
    database of one of them does not answer. -/
def State.AnswersUpTo (id : String) (s t : State) : Prop :=
  ∀ q : Query, (q.run s).1.map (·.map (Collection.timeless id)) = (q.run t).1.map (·.map (Collection.timeless id)) ∨
    s.Refuses q ∨ t.Refuses q

theorem Row.toCollection_touched {r : Row} {x : RowTime} {members : List String} {c c' : Collection}
    (h : r.toCollection members = .ok c) (h' : Row.toCollection { r with updated := x } members = .ok c') :
    c' = { c with updated := c'.updated } := by
  unfold Row.toCollection at h h'
  obtain ⟨⟨created, updated⟩, htimes, h⟩ := bind_eq_ok.mp h
  obtain ⟨⟨created', updated'⟩, htimes', h'⟩ := bind_eq_ok.mp h'
  obtain ⟨_, hread, htimes⟩ := bind_eq_ok.mp htimes
  obtain ⟨_, hread', htimes'⟩ := bind_eq_ok.mp htimes'
  obtain ⟨_, -, htimes⟩ := bind_eq_ok.mp htimes
  obtain ⟨_, -, htimes'⟩ := bind_eq_ok.mp htimes'
  cases htimes
  cases htimes'
  obtain rfl : created = created' := Except.ok.inj (hread.symm.trans hread')
  dsimp only at h h'
  cases hstatus : Status.ofWord? r.status with
  | none =>
    rw [hstatus] at h
    cases h
  | some status =>
    rw [hstatus] at h h'
    obtain ⟨utc, hutc, h⟩ := bind_eq_ok.mp h
    obtain ⟨utc', hutc', h'⟩ := bind_eq_ok.mp h'
    obtain rfl : utc = utc' := Except.ok.inj (hutc.symm.trans hutc')
    obtain ⟨_, -, h⟩ := bind_eq_ok.mp h
    obtain ⟨_, -, h'⟩ := bind_eq_ok.mp h'
    obtain ⟨rfl, -⟩ := Collection.checked_eq_ok_iff.mp h
    obtain ⟨rfl, -⟩ := Collection.checked_eq_ok_iff.mp h'
    rfl

namespace Tables

variable {v w : Tables} {now : Instant} {id : String}

/-- What an actor may see, but for the time of the last change. -/
theorem seen?_touched (hv : v.Legible) (hw : (v.touched now id).Legible) (viewer : Option Actor) (id' : String) :
    ((v.touched now id).seen? viewer id').map (Collection.timeless id) =
      (v.seen? viewer id').map (Collection.timeless id) := by
  by_cases hid : id' = id
  · subst hid
    have hrow : (v.touched now id').row? id' = _ := row?_touched id'
    rw [if_pos rfl] at hrow
    cases hr : v.row? id' with
    | none =>
      rw [hr] at hrow
      simp [seen?, held?, collection?, hr, hrow]
    | some r =>
      rw [hr] at hrow
      obtain ⟨c, hc⟩ := (hv r (row?_eq_some hr).1).toCollection (v.membersOf id')
      obtain ⟨c', hc'⟩ := (hw _ (row?_eq_some hrow).1).toCollection (v.membersOf id')
      have hheld : v.held? id' = some c := held?_eq_some.mpr ⟨r, hr, hc⟩
      have hheld' : (v.touched now id').held? id' = some c' := held?_eq_some.mpr ⟨_, hrow, hc'⟩
      have hsame : c' = { c with updated := c'.updated } := Row.toCollection_touched hc hc'
      have hsees : Gate.sees c' viewer = Gate.sees c viewer := by rw [hsame]; rfl
      have htimeless : c'.timeless id' = c.timeless id' := by
        rw [hsame]
        simp [Collection.timeless, id_of_held? hheld]
      rw [seen?, seen?, hheld, hheld']
      cases hview : Gate.sees c viewer with
      | true => simp [Option.filter, hsees, hview, htimeless]
      | false => simp [Option.filter, hsees, hview]
  · have hagree : (v.touched now id).AgreeAt v id' := updateRow_agreeAt (fun _ => rfl) hid
    rw [seen?, seen?, hagree.held?]

/-- Answers are made of what the actor may see. -/
theorem answer_congr (hv : v.Legible) (hdv : v.Distinct) (hw : w.Legible) (hdw : w.Distinct) {f : Collection → Collection}
    (h : ∀ viewer id, (w.seen? viewer id).map f = (v.seen? viewer id).map f) (q : Query) :
    (q.answer w).map (·.map f) = (q.answer v).map (·.map f) := by
  cases q with
  | get actor id =>
    have hsame := h (Gate.reader actor) id
    rw [Query.answer_get hv hdv, Query.answer_get hw hdw, shown, shown]
    cases hseen : w.seen? (Gate.reader actor) id with
    | none =>
      rw [hseen] at hsame
      rw [Option.map_eq_none_iff.mp hsame.symm]
    | some c =>
      rw [hseen] at hsame
      obtain ⟨c', hc', hf⟩ := Option.map_eq_some_iff.mp hsame.symm
      rw [hc']
      simp [Except.map, hf]
  | list actor ids =>
    rw [Query.answer_list hv hdv, Query.answer_list hw hdw]
    simp only [Except.map, List.map_filterMap, h]

end Tables

namespace Service

variable {s t u : State} {id : String}

/-- The answers depend on the committed tables, and not on the time of the last change if that is left out. -/
theorem answersUpTo_of_touched (hs : Served s) (ht : Served t) {now : Instant}
    (h : t.db.committed = s.db.committed ∨ t.db.committed = s.db.committed.touched now id) : s.AnswersUpTo id t := by
  intro q
  rcases hs.settled.query q with hq | hq
  · rcases ht.settled.query q with hq' | hq'
    · left
      rw [hq, hq', hs.settled.seen, ht.settled.seen]
      rcases h with h | h
      · rw [h]
      · have hlegible := ht.legible
        have hrows := ht.settled.committed.rows
        rw [h] at hlegible hrows ⊢
        exact (Tables.answer_congr hs.legible hs.settled.committed.rows hlegible hrows
          (Tables.seen?_touched hs.legible hlegible) q).symm
    · exact Or.inr (Or.inr hq')
  · exact Or.inr (Or.inl hq)

theorem Served.runs {allowed : Option Operation → State → State → Prop} (h : Served s) (hruns : Runs allowed s t) :
    Served t := by
  obtain ⟨s₀, hstart, hlegible, hruns₀⟩ := h
  refine ⟨s₀, hstart, hlegible, ?_⟩
  induction hruns with
  | refl => exact hruns₀
  | step _ hstep _ ih => exact ih.step hstep trivial

/-- The address that is returned for an icon is that of the blob that was stored. -/
theorem setIcon_url (hs : s.Settled) (actor : Option Actor) (id extension : String) (payload : Payload) :
    Ends (Service.setIcon actor id extension payload) s
      (fun url _ => ((Operation.setIcon actor id extension payload).stores? s).map s.place.url = some url)
      fun _ _ => True := by
  unfold Service.setIcon Icon.replace
  simp only [ends_bind]
  refine check_ends (fun _ _ => ?_) fun _ _ => trivial
  refine writer_ends (fun a _ _ => ?_) fun _ => trivial
  refine fetchMaintained_ends hs (fun c t ht hheld _ => ?_) fun _ _ _ => trivial
  refine check_ends (fun contentType _ => ?_) fun _ _ => trivial
  refine readPayload_ends (fun data n hdata => ?_) fun _ _ _ => trivial
  rw [ends_get]
  have hplace : t.place = s.place := ht.place
  have hurl : ((Operation.setIcon actor id extension payload).stores? s).map s.place.url =
      some (t.place.url (t.place.path c.id (Digest.hex data) extension)) := by
    rw [hplace] at hdata ⊢
    rw [Operation.stores?_of_read hdata, Tables.id_of_held? hheld, Option.map_some]
  refine Act.ends_iff.mpr ⟨fun _ _ _ => Act.ends_iff.mpr ⟨fun _ v _ => ?_, fun _ _ _ => trivial⟩, fun _ _ _ => trivial⟩
  -- The blob of the old icon makes no difference to what is returned.
  cases c.iconUrl.bind t.place.pathOfUrl? with
  | none => exact ends_pure.mpr hurl
  | some old =>
    dsimp only
    rw [ends_ite, ends_bind]
    exact ⟨fun _ => Act.ends_iff.mpr ⟨fun _ _ _ => ends_pure.mpr hurl, fun _ _ _ => trivial⟩, fun _ => ends_pure.mpr hurl⟩

theorem setIcon_of_run {actor : Option Actor} {extension : String} {payload : Payload} (hs : s.Settled)
    (hrun : (Operation.setIcon actor id extension payload).run s = (.ok (), t)) :
    ∃ url, Service.setIcon actor id extension payload s = (.ok url, t) ∧
      ((Operation.setIcon actor id extension payload).stores? s).map s.place.url = some url := by
  have hends : Ends (Operation.setIcon actor id extension payload).run s
      (fun _ t => ∃ url, Service.setIcon actor id extension payload s = (.ok url, t)) fun _ _ => True := by
    unfold Operation.run
    rw [ends_bind]
    exact Act.ends_iff.mpr ⟨fun url t hurl => ends_pure.mpr ⟨url, hurl⟩, fun _ _ _ => trivial⟩
  obtain ⟨url, hurl⟩ := hends.of_ok hrun
  exact ⟨url, hurl, (setIcon_url hs actor id extension payload).of_ok hurl⟩

/-- The same call made again: it has its effect, and leaves a state that the service can come to. -/
theorem succeeds_again {o : Operation} (hs : Served s) (hdrained : s.cleanups = []) (hkeyed : s.blobs.disk = none)
    (ho : o.amends id) (hrun : o.run s = (.ok (), t)) (hwait : Runs waiting t u) (hserves : u.Serves)
    (hstore : u.blobs.failUploads = none) : ∃ v, o.run u = (.ok (), v) := by
  have ht : Served t := hs.runs (.step .refl (.operation o hrun) trivial : Runs anything s t)
  have hu : Served u := ht.runs hwait
  obtain ⟨-, heffect, -, -, hstocks⟩ := (o.run_spec hs.settled).of_ok hrun
  have hleft : o.Left id s u := hwait.left ht.settled (Operation.left_of_ok hs.settled hkeyed hdrained hrun)
  have hcommitted : u.db.committed = t.db.committed :=
    (hwait.mono fun _ _ _ hquiet => hquiet.1).committed ht.settled
  obtain ⟨c, j, hheld, hadmitted⟩ := heffect.admits_again hstocks ho hu.settled hcommitted ht.legible hleft.place
    hleft.keyed hstore
  have hid : c.id = id := Tables.id_of_held? hheld
  have hread : (Catalog.fetch c.id u).1 = .ok (some c) := by
    rw [hid, ← hheld]
    exact hu.settled.fetch_of_answers hu.legible hserves.toAnswers id
  refine hadmitted.succeeds hread hserves ?_
  obtain ⟨r, hr, -⟩ := Tables.held?_eq_some.mp hheld
  rw [hu.settled.seen, hid, hr]
  rfl

/-- Let an edit of a collection, or of its icon, succeed while nothing waits to be deleted, and let nothing be asked for
    after it that changes anything. Where the database answers and takes writes, and the store takes blobs, the same
    call succeeds again. It leaves the rows and the memberships as they are but for the time of the last change, all
    blobs, and what waits to be deleted; it deletes no blob; an icon has the same address again; and whatever is read
    afterwards is what was read after the first call, but for the time of the last change. -/
theorem amended_again {o : Operation} (hs : Served s) (hdrained : s.cleanups = []) (hkeyed : s.blobs.disk = none)
    (ho : o.amends id) (hrun : o.run s = (.ok (), t)) (hwait : Runs waiting t u) (hserves : u.Serves)
    (hstore : u.blobs.failUploads = none) :
    ∃ v, o.run u = (.ok (), v) ∧
      (v.db.committed = t.db.committed ∨ v.db.committed = t.db.committed.touched u.now id) ∧
      v.blobs.files = u.blobs.files ∧ v.cleanups = u.cleanups ∧
      (∃ calls, v.blobs.calls = u.blobs.calls ++ calls ∧ ∀ path, .delete path ∉ calls) ∧
      (∀ actor extension payload, o = .setIcon actor id extension payload →
        ∃ url, Service.setIcon actor id extension payload s = (.ok url, t) ∧
          Service.setIcon actor id extension payload u = (.ok url, v)) ∧
      ∀ t' v', Runs quiet t t' → Runs quiet v v' → t'.AnswersUpTo id v' := by
  have ht : Served t := hs.runs (.step .refl (.operation o hrun) trivial : Runs anything s t)
  have hu : Served u := ht.runs hwait
  obtain ⟨v, hagain⟩ := succeeds_again hs hdrained hkeyed ho hrun hwait hserves hstore
  have hv : Served v := hu.runs (.step .refl (.operation o hagain) trivial : Runs anything u v)
  obtain ⟨-, heffect, -⟩ := (o.run_spec hs.settled).of_ok hrun
  obtain ⟨-, heffect', -, hcleanups, hstocks⟩ := (o.run_spec hu.settled).of_ok hagain
  have hleft : o.Left id s u := hwait.left ht.settled (Operation.left_of_ok hs.settled hkeyed hdrained hrun)
  have hcommitted : u.db.committed = t.db.committed :=
    (hwait.mono fun _ _ _ hquiet => hquiet.1).committed ht.settled
  have htables : v.db.committed = t.db.committed ∨ v.db.committed = t.db.committed.touched u.now id :=
    heffect.again heffect' ho hs.settled.committed.rows hcommitted hleft.place
  obtain ⟨hfiles, hcalls, hnone⟩ := hstocks.again hleft ho
  refine ⟨v, hagain, htables, hfiles, ?_, hcalls, ?_, fun t' v' ht' hv' => ?_⟩
  · rw [hcleanups, hnone, List.append_nil]
  · rintro actor extension payload rfl
    obtain ⟨url, hfirst, hurl⟩ := setIcon_of_run hs.settled hrun
    obtain ⟨url', hsecond, hurl'⟩ := setIcon_of_run hu.settled hagain
    have hsame : (Operation.setIcon actor id extension payload).stores? u =
        (Operation.setIcon actor id extension payload).stores? s := by
      simp only [Operation.stores?, hleft.place]
    rw [hsame, hleft.place, hurl] at hurl'
    cases hurl'
    exact ⟨url, hfirst, hsecond⟩
  · rw [← ht'.committed ht.settled, ← hv'.committed hv.settled] at htables
    exact answersUpTo_of_touched (ht.runs ht') (hv.runs hv') htables

theorem served_lone : Served .lone := by
  refine ⟨.lone, start_lone, fun r hr => ?_, .refl⟩
  obtain rfl := List.mem_singleton.mp hr
  exact ⟨by decide, by decide, by decide, fun _ => rfl, legible_exact (by decide), legible_exact (by decide)⟩

theorem serves_lone : State.lone.Serves := ⟨⟨rfl, rfl, fun _ ho => nomatch ho⟩, rfl⟩

/-- The owner sets an icon, and sets it again as soon as it is set. -/
theorem amended_again_icon :
    let t := ((setLone "png").run .lone).2
    Served .lone ∧ (setLone "png").run .lone = (.ok (), t) ∧ t.Serves ∧
      ∃ v, (setLone "png").run t = (.ok (), v) ∧ v.blobs.files = t.blobs.files ∧ t.AnswersUpTo "c" v := by
  intro t
  have hrun : (setLone "png").run .lone = (.ok (), t) := run_of_isOk isOk_setLone
  have hserves : t.Serves := ⟨⟨by decide +kernel, by decide +kernel, by decide +kernel⟩, by decide +kernel⟩
  have hstore : t.blobs.failUploads = none := by decide +kernel
  obtain ⟨v, hagain, -, hfiles, -, -, -, hanswers⟩ :=
    amended_again (o := setLone "png") served_lone rfl rfl (rfl : (setLone "png").amends "c") hrun .refl hserves hstore
  exact ⟨served_lone, hrun, hserves, v, hagain, hfiles, hanswers t v .refl .refl⟩

end Service

end Curation
