import Curation.Proofs.Icons
import Curation.Proofs.Timestamps

/-! The store of the blobs and the rows, held against each other. While nothing fails and what waits to be deleted is
    deleted before the next operation, the blobs are the icons of the collections, and besides them those of the
    collections that were deleted: setting and clearing an icon see to its blob, deleting its collection does not. -/

namespace Curation

/-! ### The store -/

namespace Blobs

variable {b : Blobs} {path path' : String}

theorem Has.of_delete (hhas : (b.delete path).2.Has path') (hkeyed : b.disk = none) (hobeys : b.failDeletes = none) :
    path ≠ path' ∧ b.Has path' := by
  have hfiles : (b.delete path).2.files = b.files.drop path := by simp [Blobs.delete, hkeyed, hobeys]
  rw [Has, hfiles, Keyed.get?_drop] at hhas
  split at hhas
  · cases hhas
  · exact ⟨‹_›, hhas⟩

end Blobs

/-! ### What an operation makes of a blob -/

namespace Operation

variable {s t : State} {o : Operation} {b : Blobs} {id path : String}

/-- A blob that is there when an operation comes to its transaction was there before, or is the one that it stores. -/
theorem Stocks.origin (h : o.Stocks s b) (hkeyed : s.blobs.disk = none) (hobeys : s.blobs.failDeletes = none)
    (hhas : b.Has path) : (s.blobs.Has path ∧ o.discards? s ≠ some path) ∨ o.stores? s = some path := by
  cases h with
  | create | edit | delete => exact Or.inl ⟨hhas, by simp [discards?]⟩
  | @setIcon actor id extension contentType payload data blobs accepted read stored =>
    rw [Blobs.upload_eq_ok hkeyed stored, Blobs.Has, Keyed.get?_put] at hhas
    split at hhas
    · rename_i heq
      exact Or.inr (heq ▸ stores?_of_read read)
    · exact Or.inl ⟨hhas, by simp [discards?]⟩
  | @clearIcon actor id =>
    left
    simp only [discards?]
    cases hold : s.iconPath? id with
    | none =>
      rw [hold] at hhas
      exact ⟨hhas, by simp⟩
    | some old =>
      rw [hold] at hhas
      obtain ⟨hne, hhas⟩ := hhas.of_delete hkeyed hobeys
      exact ⟨hhas, by simpa using hne⟩

/-- What becomes of an icon: the collection keeps it, or its blob is deleted or left to be deleted, or the collection is
    deleted. -/
theorem icon_goes (h : s.Shelves id path) (hicon : s.iconPath? id = some path) :
    (o.icon? s id).bind s.place.pathOfUrl? = some path ∨ path ∈ o.leaves s ∨ o.discards? s = some path ∨
      ∃ actor, o = .delete actor id := by
  cases o with
  | create | edit => exact Or.inl hicon
  | setIcon actor id' extension payload =>
    by_cases hid : id = id'
    · subst hid
      by_cases hsame : (setIcon actor id extension payload).stores? s = some path
      · left
        simp only [icon?, if_true, hsame]
        exact h.own.pathOfUrl?_url
      · right
        left
        simp only [leaves, Option.mem_toList]
        exact Option.filter_eq_some_iff.mpr ⟨hicon, by simpa using hsame⟩
    · left
      simp only [icon?, if_neg hid]
      exact hicon
  | clearIcon actor id' =>
    by_cases hid : id = id'
    · subst hid
      exact Or.inr (Or.inr (Or.inl hicon))
    · left
      simp only [icon?, if_neg hid]
      exact hicon
  | delete actor id' =>
    by_cases hid : id = id'
    · subst hid
      exact Or.inr (Or.inr (Or.inr ⟨actor, rfl⟩))
    · left
      simp only [icon?, if_neg hid]
      exact hicon

end Operation

/-! ### The invariant -/

/-- Every icon is in the store, and every blob there is an icon, or waits to be deleted, or is one of those left over.
    -/
structure State.Accounted (s : State) (left : String → Prop) : Prop extends s.Shelved where
  addressed : ∀ id, (s.db.committed.icon? id).isSome → (s.iconPath? id).isSome
  accounted : ∀ path, s.blobs.Has path → (∃ id, s.iconPath? id = some path) ∨ path ∈ s.cleanups ∨ left path

namespace Operation

variable {s t : State} {o : Operation} {left : String → Prop}

theorem addressed_of_ok (hs : s.Settled) (hrun : o.run s = (.ok (), t))
    (h : ∀ id, (s.db.committed.icon? id).isSome → (s.iconPath? id).isSome) (id : String)
    (hicon : (t.db.committed.icon? id).isSome) : (t.iconPath? id).isSome := by
  obtain ⟨-, heffect, hplace, -, -⟩ := (o.run_spec hs).of_ok hrun
  have hwas := h id
  rw [State.iconPath?] at hwas
  by_cases hset : ∃ actor extension payload, o = .setIcon actor id extension payload
  · obtain ⟨actor, extension, payload, rfl⟩ := hset
    rw [heffect.icon? id] at hicon
    simpa [iconPath?_of_set hs hrun, icon?] using hicon
  · rw [State.iconPath?, heffect.icon? id, hplace]
    rw [heffect.icon? id] at hicon
    cases o with
    | create | edit => exact hwas hicon
    | setIcon actor id' extension payload =>
      have hne : id ≠ id' := fun hid => hset ⟨actor, extension, payload, hid ▸ rfl⟩
      simp only [icon?, if_neg hne] at hicon ⊢
      exact hwas hicon
    | clearIcon actor id' | delete actor id' =>
      simp only [icon?] at hicon ⊢
      split at hicon
      · cases hicon
      · rename_i hne
        rw [if_neg hne]
        exact hwas hicon

/-- An operation that succeeds leaves over no blob but that of the icon of the collection that it deletes. -/
theorem accounted_of_ok (hs : s.Settled) (h : s.Accounted left) (hrun : o.run s = (.ok (), t))
    (hfree : ∀ path, o.stores? s = some path → path ∉ s.cleanups) (hobeys : s.blobs.failDeletes = none)
    {left' : String → Prop} (hleft : ∀ path, left path → left' path)
    (hdeleted : ∀ actor id path, o = .delete actor id → s.iconPath? id = some path → left' path) :
    t.Accounted left' where
  toShelved := o.shelved_of_ok hs h.toShelved hrun hfree
  addressed := addressed_of_ok hs hrun h.addressed
  accounted path hhas := by
    obtain ⟨-, heffect, hplace, hcleanups, hstocks⟩ := (o.run_spec hs).of_ok hrun
    rcases hstocks.origin h.keyed hobeys hhas with ⟨hwas, hkept⟩ | hstored
    · rcases h.accounted path hwas with ⟨id, hicon⟩ | hwaits | hover
      · rcases icon_goes (o := o) (h.icons id path hicon) hicon with hstays | hleaves | hgone | ⟨actor, ho⟩
        · exact Or.inl ⟨id, by rw [State.iconPath?, heffect.icon? id, hplace, hstays]⟩
        · exact Or.inr (Or.inl (hcleanups ▸ List.mem_append_right _ hleaves))
        · exact absurd hgone hkept
        · exact Or.inr (Or.inr (hdeleted actor id path ho hicon))
      · exact Or.inr (Or.inl (hcleanups ▸ List.mem_append_left _ hwaits))
      · exact Or.inr (Or.inr (hleft path hover))
    · cases o with
      | setIcon actor id extension payload => exact Or.inl ⟨id, (iconPath?_of_set hs hrun).trans hstored⟩
      | _ => cases hstored

end Operation

namespace State.Accounted

variable {s t : State} {left : String → Prop}

theorem still (h : s.Accounted left) (hshelved : t.Shelved) (hcommitted : t.db.committed = s.db.committed)
    (hplace : t.place = s.place)
    (hhas : ∀ path, t.blobs.Has path → s.blobs.Has path ∧ (path ∈ s.cleanups → path ∈ t.cleanups)) :
    t.Accounted left where
  toShelved := hshelved
  addressed id hicon := by
    rw [iconPath?_congr hcommitted hplace]
    exact h.addressed id (hcommitted ▸ hicon)
  accounted path hthere := by
    obtain ⟨hwas, hwaits⟩ := hhas path hthere
    rcases h.accounted path hwas with ⟨id, hicon⟩ | hmem | hover
    · exact Or.inl ⟨id, (iconPath?_congr hcommitted hplace id).trans hicon⟩
    · exact Or.inr (Or.inl (hwaits hmem))
    · exact Or.inr (Or.inr hover)

theorem cleansUp (h : s.Accounted left) (hobeys : s.blobs.failDeletes = none) (hclean : s.CleansUp t) :
    t.Accounted left := by
  have hshelved : t.Shelved := h.toShelved.cleansUp hclean
  obtain ⟨before, path, after, hcleanups, rfl⟩ := hclean
  refine h.still hshelved rfl rfl fun path' hhas => ?_
  obtain ⟨hne, hwas⟩ := hhas.of_delete h.keyed hobeys
  refine ⟨hwas, fun hmem => ?_⟩
  rw [hcleanups] at hmem
  rcases List.mem_append.mp hmem with hmem | hmem
  · exact List.mem_append_left _ hmem
  · rcases List.mem_cons.mp hmem with heq | hmem
    · exact absurd heq.symm hne
    · exact List.mem_append_right _ hmem

end State.Accounted

/-! ### Runs -/

namespace Service

variable {s t u : State} {o : Option Operation}

/-- Nothing fails, and nothing waits to be deleted when an operation begins. -/
def careful (o : Option Operation) (s t : State) : Prop :=
  tended o s t ∧ succeeding o s t ∧ cleaned o s t ∧ s.blobs.failDeletes = none

/-- On the way to a state a collection was deleted whose icon lies under the path. -/
def Abandoned (s t : State) (path : String) : Prop :=
  ∃ u v actor id, Runs careful s u ∧ careful (some (.delete actor id)) u v ∧ Step (some (.delete actor id)) u v ∧
    u.iconPath? id = some path ∧ Runs careful v t

theorem Abandoned.step {path : String} (h : Abandoned s t path) (hstep : Step o t u) (ho : careful o t u) :
    Abandoned s u path := by
  obtain ⟨u', v, actor, id, hfront, hcareful, hdelete, hicon, hback⟩ := h
  exact ⟨u', v, actor, id, hfront, hcareful, hdelete, hicon, hback.step hstep ho⟩

theorem Step.accounted (hs : s.Settled) (hruns : Runs careful s t) (h : t.Accounted (Abandoned s t))
    (hstep : Step o t u) (ho : careful o t u) : u.Accounted (Abandoned s u) := by
  have ht : t.Settled := hruns.settled hs
  have hon : ∀ path, Abandoned s t path → Abandoned s u path := fun path hleft => hleft.step hstep ho
  obtain ⟨htended, hsucceeding, hcleaned, hobeys⟩ := id ho
  cases o with
  | none =>
    have hu : u.Accounted (Abandoned s t) := by
      rcases htended rfl with ⟨hfiles, hdisk, hcleanups⟩ | hclean
      · have hhas : ∀ path, u.blobs.Has path ↔ t.blobs.Has path := fun path => by rw [Blobs.Has, Blobs.Has, hfiles]
        have hshelved : u.Shelved :=
          h.toShelved.still (hstep.committed ht) (hstep.place ht) (hdisk.trans h.keyed)
            (fun _ path _ hthere => (hhas path).mpr hthere) fun path hmem => hcleanups ▸ hmem
        exact h.still hshelved (hstep.committed ht) (hstep.place ht) fun path hthere =>
          ⟨(hhas path).mp hthere, fun hmem => hcleanups ▸ hmem⟩
      · exact h.cleansUp hobeys hclean
    exact { hu with accounted := fun path hhas => (hu.accounted path hhas).imp_right (Or.imp_right (hon path)) }
  | some op =>
    have hdone : op.run t = (.ok (), u) := by
      cases hstep with
      | operation _ hrun => rw [hrun, ← hsucceeding op rfl, hrun]
    refine op.accounted_of_ok ht h hdone (fun path _ => ?_) hobeys hon fun actor id path hop hicon => ?_
    · rw [hcleaned op rfl]
      exact List.not_mem_nil
    · subst hop
      exact ⟨t, u, actor, id, hruns, ho, hstep, hicon, .refl⟩

theorem Runs.accounted (hs : s.Settled) (h : s.Accounted (Abandoned s s)) (hruns : Runs careful s t) :
    t.Accounted (Abandoned s t) := by
  induction hruns with
  | refl => exact h
  | step ht hstep ho ih => exact hstep.accounted hs ht ih ho

theorem icon?_of_nil {v : Tables} (h : v.collections = []) (id : String) : v.icon? id = none := by
  simp [Tables.icon?, Tables.row?, h]

/-- With neither a collection nor a blob, all blobs are accounted for. -/
theorem accounted_of_nil {left : String → Prop} (hkeyed : s.blobs.disk = none) (hfiles : s.blobs.files = [])
    (hrows : s.db.committed.collections = []) : s.Accounted left where
  toShelved := shelved_of_start hkeyed fun id => by rw [State.iconPath?, icon?_of_nil hrows]; rfl
  addressed id hicon := by
    rw [icon?_of_nil hrows] at hicon
    cases hicon
  accounted path hhas := by
    rw [Blobs.Has, hfiles] at hhas
    cases hhas

/-! ### One collection, and then none -/

/-- The id of the collection that was added. -/
def addedId : String := "00000000-0000-4000-8000-000000000001"

/-- The collection is given an icon, which is empty. -/
def setAdded : Operation := .setIcon (some { userId := "u" }) addedId "png" (.whole .empty)

def deleteAdded : Operation := .delete (some { userId := "u" }) addedId

def addedPath : String := vacant.place.path addedId (Digest.hex .empty) "png"

theorem start_vacant : Catalog.Start vacant :=
  ⟨rfl, by decide, ⟨List.nodup_nil, List.nodup_nil, List.nodup_nil, fun _ hl => nomatch hl⟩, rfl, rfl⟩

theorem careful_operation {op : Operation} (hok : (op.run s).1.isOk = true) (hclean : s.cleanups.isEmpty = true)
    (hobeys : s.blobs.failDeletes = none) : careful (some op) s t :=
  ⟨tended_operation op, succeeding_of_isOk hok, cleaned_of_isEmpty hclean, hobeys⟩

theorem runs_setAdded : Runs careful vacant (setAdded.run added).2 := by
  have hadded : Runs careful vacant added := Runs.refl.operate _ (careful_operation (by decide +kernel) rfl rfl)
  exact hadded.operate _ (careful_operation (by decide +kernel) (by decide +kernel) (by decide +kernel))

theorem isOk_deleteAdded : (deleteAdded.run (setAdded.run added).2).1.isOk = true := by decide +kernel

/-! ### Results -/

/-- Begin with neither collections nor blobs, and let nothing fail. Whenever nothing waits to be deleted, every icon has
    its blob in the store, and what is there besides the icons was the icon of a collection that has been deleted. Each
    deletion of a collection that has an icon leaves such a blob. -/
theorem icons_stored_exactly (hstart : Catalog.Start s) (hrows : s.db.committed.collections = [])
    (hkeyed : s.blobs.disk = none) (hfiles : s.blobs.files = []) (hruns : Runs careful s t) (hdrained : t.cleanups = []) :
    (∀ id url, t.db.committed.icon? id = some url → ∃ path, t.place.pathOfUrl? url = some path ∧ t.blobs.Has path) ∧
      (∀ path, ¬ Abandoned s t path → (t.blobs.Has path ↔ ∃ id, t.iconPath? id = some path)) ∧
      ∀ actor id path u, t.iconPath? id = some path → (Operation.delete actor id).run t = (.ok (), u) →
        u.blobs.Has path ∧ ∀ id', u.iconPath? id' ≠ some path := by
  have hs : s.Settled := (Reached.of_start hstart).settled
  have ht : t.Accounted (Abandoned s t) := hruns.accounted hs (accounted_of_nil hkeyed hfiles hrows)
  refine ⟨fun id url hurl => ?_, fun path hkept => ⟨fun hhas => ?_, ?_⟩, fun actor id path u hicon hrun => ?_⟩
  · obtain ⟨path, hpath⟩ := Option.isSome_iff_exists.mp (ht.addressed id (by rw [hurl]; rfl))
    refine ⟨path, ?_, (ht.icons id path hpath).there⟩
    rwa [State.iconPath?, hurl] at hpath
  · rcases ht.accounted path hhas with hicon | hwaits | hleft
    · exact hicon
    · rw [hdrained] at hwaits
      cases hwaits
    · exact absurd hleft hkept
  · rintro ⟨id, hicon⟩
    exact (ht.icons id path hicon).there
  · obtain ⟨hown, hthere, -⟩ := ht.icons id path hicon
    obtain ⟨-, heffect, hplace, -, hstocks⟩ := (Operation.run_spec (hruns.settled hs) _).of_ok hrun
    refine ⟨?_, fun id' hicon' => ?_⟩
    · exact (hstocks.keeps ht.keyed).2.1 path hthere (by simp [Operation.discards?])
    · rw [State.iconPath?, heffect.icon? id', hplace] at hicon'
      by_cases hid : id' = id
      · simp only [Operation.icon?, if_pos hid] at hicon'
        cases hicon'
      · simp only [Operation.icon?, if_neg hid] at hicon'
        exact hid ((ht.icons id' path hicon').own.id_eq hown)

theorem icons_stored_exactly_set :
    let t := (setAdded.run added).2
    Catalog.Start vacant ∧ Runs careful vacant t ∧ t.cleanups = [] ∧ t.iconPath? addedId = some addedPath ∧
      (deleteAdded.run t).1.isOk = true ∧ (deleteAdded.run t).2.blobs.Has addedPath := by
  intro t
  have hdrained : t.cleanups = [] := List.isEmpty_iff.mp (by decide +kernel)
  have hicon : t.iconPath? addedId = some addedPath := by decide +kernel
  obtain ⟨-, -, hdeleted⟩ := icons_stored_exactly start_vacant rfl rfl rfl runs_setAdded hdrained
  exact ⟨start_vacant, runs_setAdded, hdrained, hicon, isOk_deleteAdded,
    (hdeleted _ addedId addedPath _ hicon (run_of_isOk isOk_deleteAdded)).1⟩

/-- A collection is added, given an icon and deleted. Then there is no collection, but still the blob. -/
theorem blob_orphaned_of_delete : ∃ t, Catalog.Start vacant ∧ vacant.db.committed.collections = [] ∧
    vacant.blobs.files = [] ∧ Runs careful vacant t ∧ t.cleanups = [] ∧ t.db.committed.collections = [] ∧
      t.blobs.Has addedPath := by
  have hfacts :
      let t := (deleteAdded.run (setAdded.run added).2).2
      t.cleanups.isEmpty = true ∧ t.db.committed.collections.isEmpty = true ∧ t.blobs.Has addedPath := by decide +kernel
  obtain ⟨hdrained, hrows, hhas⟩ := hfacts
  have hruns := runs_setAdded.operate deleteAdded
    (careful_operation isOk_deleteAdded (by decide +kernel) (by decide +kernel))
  exact ⟨_, start_vacant, rfl, rfl, hruns, List.isEmpty_iff.mp hdrained, List.isEmpty_iff.mp hrows, hhas⟩

end Service

end Curation
