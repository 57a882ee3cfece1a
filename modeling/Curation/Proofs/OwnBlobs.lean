import Curation.Proofs.Icons

/-! Whose blobs the operations on an icon concern. The blob of a new icon goes under a path of its own collection, and
    the old one is found from the address in the row of that collection, which is a foreign one or was set there by the
    service. So no operation stores or deletes a blob that the icon of another collection ever leads to. -/

namespace Curation

/-- Paths tell the collections apart, and addresses tell the paths apart. -/
structure Icon.Place.Unambiguous (p : Icon.Place) : Prop where
  /-- Different collections never share a path. -/
  apart : ∀ id id' digest digest' extension extension', Digest.IsHex digest → Digest.IsHex digest' →
    (Icon.contentType? extension).isSome → (Icon.contentType? extension').isSome → id ≠ id' →
      p.path id digest extension ≠ p.path id' digest' extension'
  /-- The address of a path leads to the path, and no other address does. -/
  leads : ∀ address path, p.pathOfUrl? address = some path ↔ path ≠ "" ∧ p.url path = address

theorem Icon.Place.unambiguous (p : Icon.Place) : p.Unambiguous where
  apart id id' digest digest' extension extension' hdigest hdigest' haccepted haccepted' hne hpath := by
    obtain ⟨contentType, haccepted⟩ := Option.isSome_iff_exists.mp haccepted
    obtain ⟨contentType', haccepted'⟩ := Option.isSome_iff_exists.mp haccepted'
    have hown : p.Owns id (p.path id digest extension) := owns_path hdigest haccepted
    have hown' : p.Owns id' (p.path id' digest' extension') := owns_path hdigest' haccepted'
    exact hne (hown.id_eq (hpath ▸ hown'))
  leads _ _ := pathOfUrl?_eq_some_iff

/-! ### One operation -/

/-- What is done to the blobs from one state to another, with the paths under which a blob is stored, whether or not the
    store takes it, and those from which one is deleted, be it at once or later. -/
inductive State.Uses (s t : State) : List String → List String → Prop
  | nothing (blobs : t.blobs = s.blobs) (waiting : t.cleanups = s.cleanups) : Uses s t [] []
  | store {contentType path : String} {data : ByteArray} {later : List String}
    (blobs : t.blobs = (s.blobs.upload contentType path data).2) (waiting : t.cleanups = s.cleanups ++ later) :
    Uses s t [path] later
  | delete {path : String} (blobs : t.blobs = (s.blobs.delete path).2) (waiting : t.cleanups = s.cleanups) :
    Uses s t [] [path]

namespace Operation

variable {s t : State} {o : Operation} {id : String}

/-- The collection whose icon an operation sets or clears. -/
def iconOf? : Operation → Option String
  | setIcon _ id _ _ | clearIcon _ id => some id
  | create .. | edit .. | delete .. => none

/-- What an operation stores lies under a path of one collection, and what it deletes is the blob of the icon that this
    collection has, but never the one that it stores. -/
def Confined (o : Operation) (id : String) (s t : State) : Prop :=
  ∃ stored deleted, s.Uses t stored deleted ∧ (∀ path ∈ stored, s.place.Owns id path ∧ o.stores? s = some path) ∧
    ∀ path ∈ deleted, s.iconPath? id = some path ∧ o.stores? s ≠ some path

theorem confined_of_upload {actor : Option Actor} {extension contentType : String} {payload : Payload} {data : ByteArray}
    {result : Except Failure Unit} {later : List String} (accepted : Icon.contentType? extension = some contentType)
    (read : (payload.read s.place.maxSize s.place.sizeMessage).1 = .ok data)
    (called : s.blobs.upload contentType (s.place.path id (Digest.hex data) extension) data = (result, t.blobs))
    (waiting : t.cleanups = s.cleanups ++ later)
    (hlater : ∀ path ∈ later, path ∈ (setIcon actor id extension payload).leaves s) :
    (setIcon actor id extension payload).Confined id s t := by
  refine ⟨[s.place.path id (Digest.hex data) extension], later, .store (by rw [called]) waiting, fun path hpath => ?_,
    fun path hpath => mem_leaves.mp (hlater path hpath)⟩
  cases List.mem_singleton.mp hpath
  exact ⟨Icon.Place.owns_path (Digest.isHex_hex data) accepted, stores?_of_read read⟩

/-- Once the transaction is reached: whether it is committed makes a difference only to what is queued. -/
theorem confined_of_stocks {later : List String} (hid : o.iconOf? = some id) (h : o.Stocks s t.blobs)
    (waiting : t.cleanups = s.cleanups ++ later) (hlater : ∀ path ∈ later, path ∈ o.leaves s) : o.Confined id s t := by
  generalize hblobs : t.blobs = b at h
  cases h with
  | create | edit | delete => cases hid
  | setIcon accepted read stored =>
    cases hid
    exact confined_of_upload accepted read (hblobs ▸ stored) waiting hlater
  | clearIcon =>
    cases hid
    obtain rfl : later = [] := List.eq_nil_iff_forall_not_mem.mpr fun path hpath => by cases hlater path hpath
    rw [List.append_nil] at waiting
    cases hicon : s.iconPath? id with
    | none =>
      rw [hicon] at hblobs
      exact ⟨[], [], .nothing hblobs waiting, by simp, by simp⟩
    | some old =>
      rw [hicon] at hblobs
      exact ⟨[], [old], .delete hblobs waiting, by simp, by simp [hicon, stores?]⟩

theorem run_confined {r : Except Failure Unit} (hs : s.Settled) (hid : o.iconOf? = some id) (hrun : o.run s = (r, t)) :
    o.Confined id s t := by
  cases r with
  | ok _ =>
    obtain ⟨-, -, -, hwaiting, hstocks⟩ := (o.run_spec hs).of_ok hrun
    exact confined_of_stocks hid hstocks hwaiting fun _ hpath => hpath
  | error e =>
    obtain ⟨-, hwaiting, hspares⟩ := (o.run_spec hs).of_error hrun
    have hwaiting' : t.cleanups = s.cleanups ++ [] := by rw [hwaiting, List.append_nil]
    generalize hblobs : t.blobs = b at hspares
    cases hspares with
    | same => exact ⟨[], [], .nothing hblobs hwaiting, by simp, by simp⟩
    | refused accepted read refused =>
      cases hid
      exact confined_of_upload accepted read (hblobs ▸ refused) hwaiting' (by simp)
    | stocks hstocks => exact confined_of_stocks hid (hblobs ▸ hstocks) hwaiting' (by simp)

end Operation

/-! ### Runs -/

namespace Service

variable {s : State}

/-- An operation on the icon of a collection leaves the icons of the others alone. From icons that lie in the place of
    their own collection or outside of the store, it stores and deletes blobs only under paths to which no icon of
    another collection leads at any moment of any run. What it deletes is found from the address of the icon that the
    collection has, which is the address of just this path, and is not what it has stored. -/
theorem other_icons_untouched (hstart : Catalog.Start s) (hown : s.Owned) :
    (∀ p : Icon.Place, p.Unambiguous) ∧
      ∀ (t u : State) (o : Operation) (id : String) (r : Except Failure Unit),
        Runs anything s t → o.iconOf? = some id → o.run t = (r, u) →
        ∃ stored deleted, t.Uses u stored deleted ∧
          (∀ path ∈ stored ++ deleted, ∀ v id', Runs anything s v → id' ≠ id →
            v.db.committed.icon? id' ≠ some (v.place.url path)) ∧
          (∀ path ∈ deleted, t.db.committed.icon? id = some (t.place.url path)) ∧
          ∀ path ∈ stored, path ∉ deleted := by
  refine ⟨Icon.Place.unambiguous, fun t u o id r hruns hid hrun => ?_⟩
  have hsettled : s.Settled := (Reached.of_start hstart).settled
  obtain ⟨stored, deleted, huses, hstored, hdeleted⟩ := Operation.run_confined (hruns.settled hsettled) hid hrun
  refine ⟨stored, deleted, huses, fun path hpath v id' hv hne hicon => ?_, fun path hpath => ?_, fun path hpath hmem => ?_⟩
  · have howns : t.place.Owns id path := (List.mem_append.mp hpath).elim (fun h => (hstored path h).1)
      fun h => hruns.owned hsettled hown id path (hdeleted path h).1
    have hplace : v.place = t.place := (hv.place hsettled).trans (hruns.place hsettled).symm
    -- An address leads to one path only, so that the other collection would own it as well.
    have hicon' : v.iconPath? id' = some path := by
      rw [State.iconPath?, hicon, hplace]
      exact howns.pathOfUrl?_url
    have howns' : t.place.Owns id' path := hplace ▸ hv.owned hsettled hown id' path hicon'
    exact hne (howns'.id_eq howns)
  · obtain ⟨url, hurl, hpath⟩ := Option.bind_eq_some_iff.mp (hdeleted path hpath).1
    rw [hurl, (Icon.Place.pathOfUrl?_eq_some_iff.mp hpath).2]
  · exact (hdeleted path hmem).2 (hstored path hpath).2

/-- The only collection has an icon, and is given one of another kind. -/
theorem other_icons_untouched_lone :
    let t := ((setLone "png").run .lone).2
    let u := ((setLone "gif").run t).2
    Catalog.Start .lone ∧ State.lone.Owned ∧ Runs anything .lone t ∧ (setLone "gif").iconOf? = some "c" ∧
      u.cleanups = [lonePath] ∧ ∃ stored deleted, t.Uses u stored deleted ∧
        (∀ path ∈ deleted, t.db.committed.icon? "c" = some (t.place.url path)) ∧ ∀ path ∈ stored, path ∉ deleted := by
  intro t u
  have hown : State.lone.Owned := State.owned_of_none iconPath?_lone
  have hruns : Runs anything .lone t := Runs.refl.operate (setLone "png") trivial
  have hwaits : u.cleanups = [lonePath] := by decide +kernel
  obtain ⟨stored, deleted, huses, -, hdeleted, hapart⟩ :=
    (other_icons_untouched start_lone hown).2 t u (setLone "gif") "c" _ hruns rfl rfl
  exact ⟨start_lone, hown, hruns, rfl, hwaits, stored, deleted, huses, hdeleted, hapart⟩

end Service

end Curation
