import Curation.Proofs.IconPaths
import Curation.Proofs.Serving

/-! The icons of the collections and the blobs that they are kept in. The catalog and the store of the blobs have no
    transaction in common, so that what keeps every icon in the store is the order of the writes: a blob is stored
    before a row leads to it, and goes only when no row does any more. Two things break this. A path can be taken again
    while its blob still waits to be deleted, and the blob of an icon that is cleared goes before the row is changed. In
    all runs without these the icons stay in the store. -/

namespace Curation

open Time (Instant)

/-! ### The store -/

namespace Blobs

variable {b b' : Blobs} {path path' contentType : String} {data : ByteArray}

def Has (b : Blobs) (path : String) : Prop := (b.files.get? path).isSome

instance : Decidable (b.Has path) := inferInstanceAs (Decidable (_ = true))

theorem disk_delete (h : b.disk = none) : (b.delete path).2.disk = none := by
  unfold delete
  rw [h]
  dsimp only
  split
  · rfl
  · rfl

theorem get?_delete (h : b.disk = none) (hne : path ≠ path') :
    (b.delete path).2.files.get? path' = b.files.get? path' := by
  unfold delete
  rw [h]
  dsimp only
  split
  · rfl
  · rw [Keyed.get?_drop, if_neg hne]

theorem Has.delete (hhas : b.Has path') (h : b.disk = none) (hne : path ≠ path') : (b.delete path).2.Has path' := by
  rw [Has, get?_delete h hne]
  exact hhas

theorem upload_eq_ok (h : b.disk = none) (hup : b.upload contentType path data = (.ok (), b')) :
    b' = { b with
      files := b.files.put path data
      calls := b.calls ++ [.upload path contentType data.size] } := by
  unfold upload at hup
  rw [h] at hup
  dsimp only at hup
  split at hup
  · cases hup
  · cases hup
    rw [h]

theorem upload_eq_error {e : Failure} (h : b.disk = none) (hup : b.upload contentType path data = (.error e, b')) :
    b' = b ∧ ∃ text, e = .storage text := by
  unfold upload at hup
  rw [h] at hup
  dsimp only at hup
  split at hup
  · cases hup
    exact ⟨rfl, _, rfl⟩
  · cases hup

end Blobs

/-! ### What an operation leaves -/

namespace Tables

variable {t : Tables} {now : Instant} {id : String}

theorem icon?_updateRow {f : Row → Row} (hf : ∀ r, (f r).id = r.id) (id' : String) :
    (t.updateRow now id f).2.icon? id' =
      if id' = id then (t.row? id).bind fun r => (f r).iconUrl else t.icon? id' := by
  rw [icon?, row?_updateRow hf]
  split
  · rw [Option.bind_map]
    rfl
  · rfl

theorem icon?_updateRows {fs : List (Row → Row)} (hid : ∀ f ∈ fs, ∀ r, (f r).id = r.id)
    (hicon : ∀ f ∈ fs, ∀ r, (f r).iconUrl = r.iconUrl) (id' : String) :
    (t.updateRows now id fs).icon? id' = t.icon? id' := by
  induction fs generalizing t with
  | nil => rfl
  | cons f fs ih =>
    have ih := ih (t := (t.updateRow now id f).2) (fun g hg => hid g (List.mem_cons_of_mem _ hg))
      fun g hg => hicon g (List.mem_cons_of_mem _ hg)
    refine ih.trans ?_
    rw [icon?_updateRow (hid f List.mem_cons_self)]
    split
    · rename_i heq
      rw [heq, icon?]
      exact Option.bind_congr fun r _ => hicon f List.mem_cons_self r
    · rfl

theorem icon?_edited {title description : Option String} {status : Option Status} {projects : Option (List String)}
    (id' : String) : (t.edited now id title description status projects).icon? id' = t.icon? id' := by
  have hicon : ∀ f ∈ Catalog.revisions title description status, ∀ r, (f r).iconUrl = r.iconUrl := by
    cases title <;> cases description <;> cases status <;> simp [Catalog.revisions]
  have hrevised : (t.updateRows now id (Catalog.revisions title description status)).icon? id' = t.icon? id' :=
    icon?_updateRows Catalog.id_of_mem_revisions hicon id'
  cases projects with
  | none => exact hrevised
  | some ps => exact hrevised

end Tables

namespace Operation

variable {s : State} {o : Operation} {v : Tables} {b : Blobs}

/-- The address of the icon that a collection has after an operation. -/
def icon? (s : State) (id : String) : Operation → Option String
  | o@(setIcon _ id' _ _) => if id = id' then (o.stores? s).map s.place.url else s.db.committed.icon? id
  | clearIcon _ id' | delete _ id' => if id = id' then none else s.db.committed.icon? id
  | create .. | edit .. => s.db.committed.icon? id

/-- The path of the blob that an operation deletes before its transaction. -/
def discards? (s : State) : Operation → Option String
  | clearIcon _ id => s.iconPath? id
  | _ => none

theorem Effect.icon? (h : o.Effect s v) (id : String) : v.icon? id = o.icon? s id := by
  cases h with
  | @create a title description projects id' scope valid free named owned =>
    have hrow : ((s.db.committed.withRow (Catalog.newRow id' a.userId (Text.strip title) description .initial
        s.now)).addLinks id' (s.db.committed.knownProjects projects)).row? id = _ := Tables.row?_withRow free id
    rw [Tables.icon?, hrow]
    show _ = s.db.committed.icon? id
    by_cases hid : id = id'
    · rw [if_pos (show id = (Catalog.newRow id' a.userId (Text.strip title) description .initial s.now).id from hid),
        Tables.icon?, hid, free]
      rfl
    · rw [if_neg (show id ≠ (Catalog.newRow id' a.userId (Text.strip title) description .initial s.now).id from hid)]
      rfl
  | edit => exact Tables.icon?_edited id
  | @setIcon a id' extension payload c data grants read =>
    obtain ⟨r, hr, -⟩ := Tables.held?_eq_some.mp grants.held
    rw [Tables.icon?_updateRow Catalog.id_withIcon, hr]
    simp [Operation.icon?, stores?_of_read read, Catalog.withIcon]
  | @clearIcon a id' c grants =>
    obtain ⟨r, hr, -⟩ := Tables.held?_eq_some.mp grants.held
    rw [Tables.icon?_updateRow Catalog.id_withIcon, hr]
    rfl
  | delete =>
    rw [Tables.icon?, Tables.row?_deleteRow]
    simp only [Operation.icon?]
    split
    · rfl
    · rfl

/-- Until its transaction an operation deletes no blob but one that it discards, and has stored the one that it
    stores. -/
theorem Stocks.keeps (h : o.Stocks s b) (hkeyed : s.blobs.disk = none) :
    b.disk = none ∧ (∀ path, s.blobs.Has path → o.discards? s ≠ some path → b.Has path) ∧
      ∀ path, o.stores? s = some path → b.Has path := by
  cases h with
  | create | edit | delete => exact ⟨hkeyed, fun _ hhas _ => hhas, fun _ hstores => by cases hstores⟩
  | @setIcon actor id extension contentType payload data blobs accepted read stored =>
    rw [Blobs.upload_eq_ok hkeyed stored]
    refine ⟨hkeyed, fun path hhas _ => ?_, fun path hstores => ?_⟩
    · rw [Blobs.Has, Keyed.get?_put]
      split
      · rfl
      · exact hhas
    · rw [stores?_of_read read, Option.some.injEq] at hstores
      rw [Blobs.Has, Keyed.get?_put, if_pos hstores]
      rfl
  | @clearIcon actor id =>
    refine ⟨?_, fun path hhas hne => ?_, fun _ hstores => by cases hstores⟩
    · cases s.iconPath? id with
      | none => exact hkeyed
      | some old => exact Blobs.disk_delete hkeyed
    · simp only [discards?] at hne
      cases hold : s.iconPath? id with
      | none => exact hhas
      | some old =>
        rw [hold] at hne
        exact hhas.delete hkeyed fun heq => hne (congrArg some heq)

theorem Spares.keeps (h : o.Spares s b) (hkeyed : s.blobs.disk = none) :
    b.disk = none ∧ ∀ path, s.blobs.Has path → o.discards? s ≠ some path → b.Has path := by
  cases h with
  | same => exact ⟨hkeyed, fun _ hhas _ => hhas⟩
  | refused _ _ hup =>
    rw [(Blobs.upload_eq_error hkeyed hup).1]
    exact ⟨hkeyed, fun _ hhas _ => hhas⟩
  | stocks hstocks =>
    obtain ⟨hdisk, hhas, -⟩ := hstocks.keeps hkeyed
    exact ⟨hdisk, hhas⟩

end Operation

/-! ### The invariant -/

namespace State

variable {s t : State}

/-- A blob that was stored for a collection is there, and is not to be deleted. -/
structure Shelves (s : State) (id path : String) : Prop where
  own : s.place.Owns id path
  there : s.blobs.Has path
  spared : path ∉ s.cleanups

/-- Every icon lies under a path of its own collection, unless its address is a foreign one. -/
def Owned (s : State) : Prop := ∀ id path, s.iconPath? id = some path → s.place.Owns id path

/-- Every icon that the service has set is in the store. -/
structure Shelved (s : State) : Prop where
  keyed : s.blobs.disk = none
  icons : ∀ id path, s.iconPath? id = some path → s.Shelves id path

/-- One of the blobs that wait to be deleted is deleted, whichever it is. -/
def CleansUp (s t : State) : Prop :=
  ∃ before path after, s.cleanups = before ++ path :: after ∧
    t = { s with cleanups := before ++ after, blobs := (s.blobs.delete path).2 }

theorem cleansUp_runCleanup (h : s.cleanups ≠ []) : s.CleansUp (Icon.runCleanup s) := by
  unfold Icon.runCleanup
  split
  · rename_i hnil
    exact absurd hnil h
  · rename_i path after hcleanups
    exact ⟨[], path, after, hcleanups, rfl⟩

theorem iconPath?_congr (hcommitted : t.db.committed = s.db.committed) (hplace : t.place = s.place) (id : String) :
    t.iconPath? id = s.iconPath? id := by
  rw [iconPath?, iconPath?, hcommitted, hplace]

theorem Owned.still (h : s.Owned) (hcommitted : t.db.committed = s.db.committed) (hplace : t.place = s.place) :
    t.Owned := by
  intro id path hicon
  rw [iconPath?_congr hcommitted hplace] at hicon
  exact hplace ▸ h id path hicon

theorem owned_of_none (h : ∀ id, s.iconPath? id = none) : s.Owned := by
  intro id path hicon
  rw [h] at hicon
  cases hicon

theorem Shelved.owned (h : s.Shelved) : s.Owned := fun id path hicon => (h.icons id path hicon).own

theorem Shelved.still (h : s.Shelved) (hcommitted : t.db.committed = s.db.committed) (hplace : t.place = s.place)
    (hkeyed : t.blobs.disk = none)
    (hhas : ∀ id path, s.iconPath? id = some path → s.blobs.Has path → t.blobs.Has path)
    (hcleanups : ∀ path ∈ t.cleanups, path ∈ s.cleanups) : t.Shelved where
  keyed := hkeyed
  icons id path hicon := by
    rw [iconPath?_congr hcommitted hplace] at hicon
    obtain ⟨hown, hthere, hspared⟩ := h.icons id path hicon
    exact ⟨hplace ▸ hown, hhas id path hicon hthere, fun hmem => hspared (hcleanups path hmem)⟩

theorem Shelved.cleansUp (h : s.Shelved) (hclean : s.CleansUp t) : t.Shelved := by
  obtain ⟨before, path, after, hcleanups, rfl⟩ := hclean
  refine h.still rfl rfl (Blobs.disk_delete h.keyed) (fun id path' hicon hhas => ?_) fun path' hmem => ?_
  · -- What waits to be deleted is no icon.
    refine hhas.delete h.keyed fun heq => (h.icons id path' hicon).spared ?_
    rw [hcleanups, heq]
    exact List.mem_append_right _ List.mem_cons_self
  · rw [hcleanups]
    rcases List.mem_append.mp hmem with hmem | hmem
    · exact List.mem_append_left _ hmem
    · exact List.mem_append_right _ (List.mem_cons_of_mem _ hmem)

end State

namespace Operation

variable {s t : State} {o : Operation} {id path : String}

theorem mem_leaves {actor : Option Actor} {extension : String} {payload : Payload} :
    path ∈ (setIcon actor id extension payload).leaves s ↔
      s.iconPath? id = some path ∧ (setIcon actor id extension payload).stores? s ≠ some path := by
  simp [leaves, Option.filter_eq_some_iff]

/-- An icon that a collection has after an operation is either one that it had before, which the operation does not
    delete, or the one that the operation has set. -/
theorem icon_kept_or_set (h : s.Owned) (hicon : (o.icon? s id).bind s.place.pathOfUrl? = some path) :
    (s.iconPath? id = some path ∧ o.discards? s ≠ some path ∧ path ∉ o.leaves s) ∨
      ∃ actor extension payload stored, o = .setIcon actor id extension payload ∧ o.stores? s = some stored ∧
        s.place.pathOfUrl? (s.place.url stored) = some path := by
  -- The paths of two collections differ, so that an operation on one of them spares the icon of the other.
  have hother : ∀ id', id ≠ id' → s.iconPath? id = some path → s.iconPath? id' ≠ some path := by
    intro id' hne hid hid'
    exact hne ((h id path hid).id_eq (h id' path hid'))
  cases o with
  | create | edit => exact Or.inl ⟨hicon, by simp [discards?], by simp [leaves]⟩
  | setIcon actor id' extension payload =>
    simp only [icon?] at hicon
    split at hicon
    · rename_i hid
      subst hid
      obtain ⟨url, hurl, hpath⟩ := Option.bind_eq_some_iff.mp hicon
      obtain ⟨stored, hstored, rfl⟩ := Option.map_eq_some_iff.mp hurl
      exact Or.inr ⟨actor, extension, payload, stored, rfl, hstored, hpath⟩
    · rename_i hne
      exact Or.inl ⟨hicon, by simp [discards?], fun hmem => hother id' hne hicon (mem_leaves.mp hmem).1⟩
  | clearIcon actor id' =>
    simp only [icon?] at hicon
    split at hicon
    · cases hicon
    · rename_i hne
      exact Or.inl ⟨hicon, hother id' hne hicon, by simp [leaves]⟩
  | delete actor id' =>
    simp only [icon?] at hicon
    split at hicon
    · cases hicon
    · exact Or.inl ⟨hicon, by simp [discards?], by simp [leaves]⟩

theorem not_mem_leaves (hstores : o.stores? s = some path) : path ∉ o.leaves s := by
  cases o with
  | setIcon actor id extension payload => exact fun hmem => (mem_leaves.mp hmem).2 hstores
  | _ => cases hstores

theorem Stocks.own {actor : Option Actor} {extension : String} {payload : Payload} {b : Blobs}
    (h : (Operation.setIcon actor id extension payload).Stocks s b)
    (hstores : (Operation.setIcon actor id extension payload).stores? s = some path) : s.place.Owns id path := by
  cases h with
  | @setIcon _ _ _ _ _ data _ accepted read stored =>
    rw [stores?_of_read read, Option.some.injEq] at hstores
    rw [← hstores]
    exact Icon.Place.owns_path (Digest.isHex_hex data) accepted

theorem owned_of_ok (hs : s.Settled) (h : s.Owned) (hrun : o.run s = (.ok (), t)) : t.Owned := by
  obtain ⟨-, heffect, hplace, -, hstocks⟩ := (o.run_spec hs).of_ok hrun
  intro id path hicon
  rw [State.iconPath?, heffect.icon? id, hplace] at hicon
  rw [hplace]
  rcases icon_kept_or_set h hicon with ⟨hkept, -⟩ | ⟨actor, extension, payload, stored, rfl, hset, hpath⟩
  · exact h id path hkept
  · have hown := hstocks.own hset
    obtain rfl : stored = path := Option.some.inj (hown.pathOfUrl?_url.symm.trans hpath)
    exact hown

/-- An operation that succeeds keeps the icons in the store unless it stores a blob that waits to be deleted. -/
theorem shelved_of_ok (hs : s.Settled) (h : s.Shelved) (hrun : o.run s = (.ok (), t))
    (hfree : ∀ path, o.stores? s = some path → path ∉ s.cleanups) : t.Shelved := by
  obtain ⟨-, heffect, hplace, hcleanups, hstocks⟩ := (o.run_spec hs).of_ok hrun
  obtain ⟨hkeyed, hhas, hstored⟩ := hstocks.keeps h.keyed
  refine ⟨hkeyed, fun id path hicon => ?_⟩
  rw [State.iconPath?, heffect.icon? id, hplace] at hicon
  have hspared : path ∉ s.cleanups → path ∉ o.leaves s → path ∉ t.cleanups := by
    intro hold hnew
    rw [hcleanups, List.mem_append]
    exact fun hmem => hmem.elim hold hnew
  rcases icon_kept_or_set h.owned hicon with hkept | ⟨actor, extension, payload, stored, rfl, hset, hpath⟩
  · obtain ⟨hicon, hdiscards, hleaves⟩ := hkept
    obtain ⟨hown, hthere, hold⟩ := h.icons id path hicon
    exact ⟨hplace ▸ hown, hhas path hthere hdiscards, hspared hold hleaves⟩
  · have hown := hstocks.own hset
    obtain rfl : stored = path := Option.some.inj (hown.pathOfUrl?_url.symm.trans hpath)
    exact ⟨hplace ▸ hown, hstored stored hset, hspared (hfree stored hset) (not_mem_leaves hset)⟩

theorem iconPath?_of_set {actor : Option Actor} {extension : String} {payload : Payload} (hs : s.Settled)
    (hrun : (setIcon actor id extension payload).run s = (.ok (), t)) :
    t.iconPath? id = (setIcon actor id extension payload).stores? s := by
  obtain ⟨-, heffect, hplace, -, hstocks⟩ := (run_spec hs _).of_ok hrun
  have hicon : t.db.committed.icon? id = ((setIcon actor id extension payload).stores? s).map s.place.url := by
    rw [heffect.icon? id]
    exact if_pos rfl
  rw [State.iconPath?, hicon, hplace]
  cases hstores : (setIcon actor id extension payload).stores? s with
  | none => rfl
  | some stored => exact (hstocks.own hstores).pathOfUrl?_url

/-- An operation that fails keeps the icons in the store unless it was to clear one. -/
theorem shelved_of_error {e : Failure} (hs : s.Settled) (h : s.Shelved) (hrun : o.run s = (.error e, t))
    (hclear : ∀ path, o.discards? s = some path → t.blobs = s.blobs) : t.Shelved := by
  obtain ⟨hstays, hcleanups, hspares⟩ := (o.run_spec hs).of_error hrun
  obtain ⟨hkeyed, hhas⟩ := hspares.keeps h.keyed
  refine h.still hstays.committed hstays.place hkeyed (fun id path _ hthere => ?_) fun path hmem => hcleanups ▸ hmem
  by_cases hdiscards : o.discards? s = some path
  · rw [hclear path hdiscards]
    exact hthere
  · exact hhas path hthere hdiscards

end Operation

/-! ### Runs -/

namespace Service

variable {s t : State} {o : Option Operation}

/-- Between the operations blobs are not touched, except that those which wait to be deleted are deleted, at any moment
    and in any order. -/
def tended (o : Option Operation) (s t : State) : Prop :=
  o = none → (t.blobs.files = s.blobs.files ∧ t.blobs.disk = s.blobs.disk ∧ t.cleanups = s.cleanups) ∨ s.CleansUp t

def succeeding (o : Option Operation) (s _ : State) : Prop := ∀ op, o = some op → (op.run s).1 = .ok ()

/-- No blob waits to be deleted when an operation begins. -/
def cleaned (o : Option Operation) (s _ : State) : Prop := ∀ op, o = some op → s.cleanups = []

/-- No blob is stored under a path that waits to be deleted. -/
def untaken (o : Option Operation) (s _ : State) : Prop :=
  ∀ op path, o = some op → op.stores? s = some path → path ∉ s.cleanups

/-- An icon is cleared, or its blob is not touched. -/
def clearing (o : Option Operation) (s t : State) : Prop :=
  ∀ op path, o = some op → op.discards? s = some path → (op.run s).1 = .ok () ∨ t.blobs = s.blobs

theorem Step.of_cleansUp (h : s.CleansUp t) : Step none s t := by
  obtain ⟨before, path, after, -, rfl⟩ := h
  exact .beside s.db.readOnly s.db.absent s.db.outages s.ids (s.blobs.delete path).2 (before ++ after)

theorem Step.readOnly (s : State) : Step none s { s with db := { s.db with readOnly := true } } :=
  .beside true s.db.absent s.db.outages s.ids s.blobs s.cleanups

theorem Step.owned (h : s.Settled) (hs : s.Owned) (hstep : Step o s t) : t.Owned := by
  rcases hstep.ok_or_stays h with ⟨op, -, hrun⟩ | ⟨-, hcommitted, hplace⟩
  · exact op.owned_of_ok h hs hrun
  · exact hs.still hcommitted hplace

theorem Step.shelved (h : s.Settled) (hs : s.Shelved) (hstep : Step o s t) (htended : tended o s t)
    (huntaken : untaken o s t) (hclearing : clearing o s t) : t.Shelved := by
  cases o with
  | none =>
    rcases htended rfl with ⟨hfiles, hdisk, hcleanups⟩ | hclean
    · refine hs.still (hstep.committed h) (hstep.place h) (hdisk.trans hs.keyed) (fun _ path _ hthere => ?_) ?_
      · rw [Blobs.Has, hfiles]
        exact hthere
      · exact fun path hmem => hcleanups ▸ hmem
    · exact hs.cleansUp hclean
  | some op =>
    cases hstep with
    | @operation _ _ r _ ho =>
      cases r with
      | ok x => exact op.shelved_of_ok h hs ho fun path => huntaken op path rfl
      | error e =>
        refine op.shelved_of_error h hs ho fun path hdiscards => ?_
        refine (hclearing op path rfl hdiscards).resolve_left fun hok => ?_
        rw [ho] at hok
        cases hok

theorem Runs.owned {allowed : Option Operation → State → State → Prop} (h : s.Settled) (hs : s.Owned)
    (hruns : Runs allowed s t) : t.Owned := by
  induction hruns with
  | refl => exact hs
  | step ht hstep _ ih => exact hstep.owned (ht.settled h) ih

theorem Runs.shelved (h : s.Settled) (hs : s.Shelved)
    (hruns : Runs (fun o s t => tended o s t ∧ untaken o s t ∧ clearing o s t) s t) : t.Shelved := by
  induction hruns with
  | refl => exact hs
  | step ht hstep hallowed ih =>
    obtain ⟨htended, huntaken, hclearing⟩ := hallowed
    exact hstep.shelved (ht.settled h) ih htended huntaken hclearing

/-- Before any icon is set, none is missing. -/
theorem shelved_of_start (hkeyed : s.blobs.disk = none) (hnew : ∀ id, s.iconPath? id = none) : s.Shelved where
  keyed := hkeyed
  icons id path hicon := by
    rw [hnew] at hicon
    cases hicon

theorem Runs.icon_stored {id path : String} (hstart : Catalog.Start s) (hkeyed : s.blobs.disk = none)
    (hnew : ∀ id, s.iconPath? id = none)
    (hruns : Runs (fun o s t => tended o s t ∧ untaken o s t ∧ clearing o s t) s t)
    (hicon : t.iconPath? id = some path) : t.blobs.Has path := by
  have hshelved : t.Shelved := hruns.shelved (Reached.of_start hstart).settled (shelved_of_start hkeyed hnew)
  exact (hshelved.icons id path hicon).there

/-! ### Icons of one collection -/

theorem tended_operation (op : Operation) : tended (some op) s t := fun hnone => by cases hnone

theorem run_of_isOk {op : Operation} (h : (op.run s).1.isOk = true) : op.run s = (.ok (), (op.run s).2) := by
  cases hrun : op.run s with
  | mk r t =>
    cases r with
    | ok x => rfl
    | error e =>
      rw [hrun] at h
      cases h

theorem succeeding_of_isOk {op : Operation} (h : (op.run s).1.isOk = true) : succeeding (some op) s t := by
  intro op' ho
  cases ho
  rw [run_of_isOk h]

theorem cleaned_of_isEmpty {op : Operation} (h : s.cleanups.isEmpty = true) : cleaned (some op) s t :=
  fun _ _ => List.isEmpty_iff.mp h

theorem untaken_of_isEmpty {op : Operation} (h : s.cleanups.isEmpty = true) : untaken (some op) s t := by
  intro op' path _ _ hmem
  rw [List.isEmpty_iff.mp h] at hmem
  cases hmem

/-- The owner of the only collection sets an icon of a kind, which is empty. -/
def setLone (extension : String) : Operation := .setIcon (some { userId := "u" }) "c" extension (.whole .empty)

def clearLone : Operation := .clearIcon (some { userId := "u" }) "c"

def lonePath : String := State.lone.place.path "c" (Digest.hex .empty) "png"

/-- The first icon is set, and from then on the database refuses every write. -/
def refusing : State :=
  let s := ((setLone "png").run .lone).2
  { s with db := { s.db with readOnly := true } }

theorem clearing_setLone (extension : String) : clearing (some (setLone extension)) s t := by
  intro op path ho hdiscards
  cases ho
  cases hdiscards

theorem isOk_setLone : ((setLone "png").run .lone).1.isOk = true := by decide +kernel

theorem iconPath?_setLone : ((setLone "png").run .lone).2.iconPath? "c" = some lonePath :=
  Operation.iconPath?_of_set (Reached.of_start start_lone).settled (run_of_isOk isOk_setLone)

theorem iconPath?_refusing : refusing.iconPath? "c" = some lonePath :=
  (State.iconPath?_congr rfl rfl "c").trans iconPath?_setLone

theorem cleanups_refusing : refusing.cleanups.isEmpty = true := by decide +kernel

theorem runs_refusing : Runs (fun o s t => tended o s t ∧ cleaned o s t ∧ clearing o s t) .lone refusing := by
  have hset : Runs (fun o s t => tended o s t ∧ cleaned o s t ∧ clearing o s t) .lone ((setLone "png").run .lone).2 :=
    Runs.refl.operate _ ⟨tended_operation _, cleaned_of_isEmpty rfl, clearing_setLone _⟩
  refine hset.step (.readOnly _) ⟨fun _ => Or.inl ⟨rfl, rfl, rfl⟩, fun op ho => ?_, fun op path ho => ?_⟩
  · cases ho
  · cases ho

theorem iconPath?_lone (id : String) : State.lone.iconPath? id = none := by
  have hicon : State.lone.db.committed.icon? id = none := by
    cases hrow : State.lone.db.committed.row? id with
    | none => simp [Tables.icon?, hrow]
    | some r =>
      obtain rfl := List.mem_singleton.mp (Tables.row?_eq_some hrow).1
      simp [Tables.icon?, hrow]
  rw [State.iconPath?, hicon]
  rfl

/-! ### Results -/

/-- When all operations succeed, and what they leave to be deleted is deleted at any later moment, every icon that is
    committed is in the store, provided that no operation stores a blob under a path while that path waits to be
    deleted. -/
theorem icon_stored_of_untaken {id path : String} (hstart : Catalog.Start s) (hkeyed : s.blobs.disk = none)
    (hnew : ∀ id, s.iconPath? id = none)
    (hruns : Runs (fun o s t => tended o s t ∧ succeeding o s t ∧ untaken o s t) s t)
    (hicon : t.iconPath? id = some path) : t.blobs.Has path := by
  refine Runs.icon_stored hstart hkeyed hnew (hruns.mono fun o s t => ?_) hicon
  rintro ⟨htended, hsucceeding, huntaken⟩
  exact ⟨htended, huntaken, fun op _ ho _ => Or.inl (hsucceeding op ho)⟩

theorem icon_stored_of_untaken_set :
    let t := ((setLone "png").run .lone).2
    Catalog.Start .lone ∧ Runs (fun o s t => tended o s t ∧ succeeding o s t ∧ untaken o s t) .lone t ∧
      t.iconPath? "c" = some lonePath ∧ t.blobs.Has lonePath := by
  intro t
  have hruns : Runs (fun o s t => tended o s t ∧ succeeding o s t ∧ untaken o s t) .lone t :=
    Runs.refl.operate _ ⟨tended_operation _, succeeding_of_isOk isOk_setLone, untaken_of_isEmpty rfl⟩
  exact ⟨start_lone, hruns, iconPath?_setLone,
    icon_stored_of_untaken start_lone rfl iconPath?_lone hruns iconPath?_setLone⟩

/-- An icon is lost when it is set again while its blob still waits to be deleted, and this is done afterwards. -/
theorem icon_lost_of_taken : ∃ t path, Catalog.Start .lone ∧
    Runs (fun o s t => tended o s t ∧ succeeding o s t) .lone t ∧ t.iconPath? "c" = some path ∧
      ¬ t.blobs.Has path := by
  have hfacts :
      let s₂ := ((setLone "gif").run ((setLone "png").run .lone).2).2
      let s₃ := ((setLone "png").run s₂).2
      let t := Icon.runCleanup s₃
      ((setLone "gif").run ((setLone "png").run .lone).2).1.isOk = true ∧ ((setLone "png").run s₂).1.isOk = true ∧
        s₃.cleanups ≠ [] ∧ t.iconPath? "c" = some lonePath ∧ ¬ t.blobs.Has lonePath := by
    decide +kernel
  obtain ⟨h₂, h₃, hcleanups, hicon, hlost⟩ := hfacts
  have hruns₁ : Runs (fun o s t => tended o s t ∧ succeeding o s t) .lone ((setLone "png").run .lone).2 :=
    Runs.refl.operate _ ⟨tended_operation _, succeeding_of_isOk isOk_setLone⟩
  have hruns₂ := hruns₁.operate _ ⟨tended_operation _, succeeding_of_isOk h₂⟩
  have hruns₃ := hruns₂.operate _ ⟨tended_operation _, succeeding_of_isOk h₃⟩
  have hclean := State.cleansUp_runCleanup hcleanups
  have hruns₄ := hruns₃.step (.of_cleansUp hclean) ⟨fun _ => Or.inr hclean, fun op ho => by cases ho⟩
  exact ⟨_, lonePath, start_lone, hruns₄, hicon, hlost⟩

/-- When anything may fail, but nothing waits to be deleted when an operation begins, every icon that is committed is in
    the store, provided that no icon is lost in an attempt to clear it. -/
theorem icon_stored_of_clearing {id path : String} (hstart : Catalog.Start s) (hkeyed : s.blobs.disk = none)
    (hnew : ∀ id, s.iconPath? id = none)
    (hruns : Runs (fun o s t => tended o s t ∧ cleaned o s t ∧ clearing o s t) s t)
    (hicon : t.iconPath? id = some path) : t.blobs.Has path := by
  refine Runs.icon_stored hstart hkeyed hnew (hruns.mono fun o s t => ?_) hicon
  rintro ⟨htended, hcleaned, hclearing⟩
  refine ⟨htended, fun op path ho _ hmem => ?_, hclearing⟩
  rw [hcleaned op ho] at hmem
  cases hmem

theorem icon_stored_of_clearing_refused :
    let t := ((setLone "gif").run refusing).2
    Catalog.Start .lone ∧ Runs (fun o s t => tended o s t ∧ cleaned o s t ∧ clearing o s t) .lone t ∧
      ((setLone "gif").run refusing).1.isOk = false ∧ t.iconPath? "c" = some lonePath ∧ t.blobs.Has lonePath := by
  intro t
  have hfails : ((setLone "gif").run refusing).1.isOk = false := by decide +kernel
  have hruns : Runs (fun o s t => tended o s t ∧ cleaned o s t ∧ clearing o s t) .lone t :=
    runs_refusing.operate _ ⟨tended_operation _, cleaned_of_isEmpty cleanups_refusing, clearing_setLone _⟩
  have hicon : t.iconPath? "c" = some lonePath := by
    cases hrun : (setLone "gif").run refusing with
    | mk r u =>
      rw [hrun] at hfails
      cases r with
      | ok x => cases hfails
      | error e =>
        have hsettled := runs_refusing.settled (Reached.of_start start_lone).settled
        have hstays := ((setLone "gif").run_ends hsettled).of_error hrun
        have ht : t = u := congrArg Prod.snd hrun
        rw [ht, State.iconPath?_congr hstays.committed hstays.place]
        exact iconPath?_refusing
  exact ⟨start_lone, hruns, hfails, hicon, icon_stored_of_clearing start_lone rfl iconPath?_lone hruns hicon⟩

/-- An icon is lost when the database refuses to clear it, for its blob is gone by then. -/
theorem icon_lost_of_clear : ∃ t path, Catalog.Start .lone ∧ Runs (fun o s t => tended o s t ∧ cleaned o s t) .lone t ∧
    t.iconPath? "c" = some path ∧ ¬ t.blobs.Has path := by
  have hfacts :
      let t := (clearLone.run refusing).2
      t.iconPath? "c" = some lonePath ∧ ¬ t.blobs.Has lonePath := by decide +kernel
  obtain ⟨hicon, hlost⟩ := hfacts
  have hruns : Runs (fun o s t => tended o s t ∧ cleaned o s t) .lone refusing :=
    runs_refusing.mono fun o s t h => ⟨h.1, h.2.1⟩
  have hcleared := hruns.operate clearLone ⟨tended_operation _, cleaned_of_isEmpty cleanups_refusing⟩
  exact ⟨_, lonePath, start_lone, hcleared, hicon, hlost⟩

end Service

end Curation
