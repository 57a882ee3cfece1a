import Curation.LocalStore
import Curation.Proofs.Results
import Curation.Proofs.Places

/-! A local store never leaves its directory. -/

namespace Curation

open Files

namespace Files

namespace Tree

variable {t u v : Tree} {place q : List String} {names : List String} {e : Entry}

/-! ### Entries -/

theorem find?_top (t : Tree) : t.find? [] = some .directory := if_pos rfl

theorem find?_of_ne_nil (t : Tree) (h : q ≠ []) : t.find? q = t.entries.lookup q := if_neg h

theorem ne_nil_of_find?_eq_none (h : t.find? q = none) : q ≠ [] := by
  rintro rfl
  rw [find?_top] at h
  cases h

theorem lookup_filter_ne (entries : List (List String × Entry)) (place q : List String) :
    (entries.filter fun e => e.1 ≠ place).lookup q = if q = place then none else entries.lookup q := by
  induction entries with
  | nil => split <;> rfl
  | cons first entries ih =>
    obtain ⟨at_, e⟩ := first
    by_cases hfirst : at_ = place
    · subst hfirst
      rw [List.filter_cons_of_neg (by simp), ih]
      by_cases hq : q = at_
      · rw [if_pos hq, if_pos hq]
      · rw [if_neg hq, if_neg hq, List.lookup_cons, beq_eq_false_iff_ne.mpr hq]
    · rw [List.filter_cons_of_pos (by simpa using hfirst), List.lookup_cons, List.lookup_cons, ih]
      by_cases hq : q = place
      · have hne : (q == at_) = false := beq_eq_false_iff_ne.mpr fun h => hfirst (h.symm.trans hq)
        rw [if_pos hq, hne, if_pos hq]
      · rw [if_neg hq, if_neg hq]

theorem find?_erase_of_ne (h : q ≠ place) : (t.erase place).find? q = t.find? q := by
  by_cases hq : q = []
  · rw [hq, find?_top, find?_top]
  · rw [find?_of_ne_nil _ hq, find?_of_ne_nil _ hq]
    exact (lookup_filter_ne _ _ _).trans (if_neg h)

theorem find?_erase_self (h : place ≠ []) : (t.erase place).find? place = none := by
  rw [find?_of_ne_nil _ h]
  exact (lookup_filter_ne _ _ _).trans (if_pos rfl)

theorem find?_insert_of_ne (h : q ≠ place) : (t.insert place e).find? q = t.find? q := by
  rw [← find?_erase_of_ne (t := t) h]
  by_cases hq : q = []
  · rw [hq, find?_top, find?_top]
  · rw [find?_of_ne_nil _ hq, find?_of_ne_nil _ hq, insert, List.lookup_append, List.lookup_cons,
      beq_eq_false_iff_ne.mpr h]
    exact Option.or_none

theorem find?_insert_self (h : place ≠ []) : (t.insert place e).find? place = some e := by
  have hnone : (t.erase place).entries.lookup place = none := by
    rw [← find?_of_ne_nil _ h, find?_erase_self h]
  rw [find?_of_ne_nil _ h, insert, List.lookup_append, hnone, List.lookup_cons, beq_self_eq_true]
  rfl

theorem isDirectoryAt_congr (h : u.find? q = t.find? q) : u.isDirectoryAt q = t.isDirectoryAt q := by
  rw [isDirectoryAt, isDirectoryAt, h]

/-! ### The way to a place -/

theorem walk_eq_ok {p : List String} (hnames : ∀ name ∈ names, IsName name) (h : t.walk place names = .ok p) :
    p = place ++ names := by
  induction names generalizing place with
  | nil =>
    cases h
    exact (List.append_nil _).symm
  | cons name names ih =>
    unfold walk at h
    rw [step_of_isName (hnames name List.mem_cons_self)] at h
    split at h
    · cases h
    split at h
    · cases h
    simp only at h
    split at h
    · rw [ih (fun n hn => hnames n (List.mem_cons_of_mem _ hn)) h, List.append_assoc, List.singleton_append]
    · cases h

/-- Trees that agree on the way agree on where it leads. -/
theorem walk_congr (hnames : ∀ name ∈ names, IsName name)
    (hsame : ∀ q, place <+: q → q <+: place ++ names → u.find? q = t.find? q) :
    u.walk place names = t.walk place names := by
  induction names generalizing place with
  | nil => rfl
  | cons name names ih =>
    have hnext : place ++ [name] <+: place ++ name :: names := ⟨names, by simp⟩
    have hrest : u.walk (place ++ [name]) names = t.walk (place ++ [name]) names := by
      refine ih (fun n hn => hnames n (List.mem_cons_of_mem _ hn)) fun q hafter hbefore => ?_
      rw [List.append_assoc, List.singleton_append] at hbefore
      exact hsame q ((List.prefix_append ..).trans hafter) hbefore
    have hhere : u.isDirectoryAt place = t.isDirectoryAt place :=
      isDirectoryAt_congr (hsame place List.prefix_rfl (List.prefix_append ..))
    have hfind : u.find? (place ++ [name]) = t.find? (place ++ [name]) := hsame _ (List.prefix_append ..) hnext
    simp only [walk, step_of_isName (hnames name List.mem_cons_self), hhere, hfind, hrest]

/-- A place is found from the one above it. -/
theorem locate_concat (t : Tree) {up : List String} {name : String} (hplace : ∀ n ∈ up ++ [name], IsName n) :
    t.locate [] (.ofPlace (up ++ [name])) =
      if maxPath < (Path.ofPlace (up ++ [name])).text.utf8ByteSize then .error .nameTooLong
      else (t.walk [] up).bind fun above =>
        if !t.isDirectoryAt above then .error .notDirectory
        else if maxName < name.utf8ByteSize then .error .nameTooLong
        else .ok (above ++ [name]) := by
  have hname : IsName name := hplace name (by simp)
  have habsolute : (Path.ofPlace (up ++ [name])).isAbsolute = true := rfl
  have hlast : (Path.ofPlace (up ++ [name])).names.getLast? = some name := by simp [Path.ofPlace]
  have hup : (Path.ofPlace (up ++ [name])).names.dropLast = up := by simp [Path.ofPlace]
  unfold locate
  simp only [habsolute, hlast, hup, if_true, step_of_isName hname]
  split <;> rfl

theorem locate_eq_ok {p : List String} (hplace : ∀ name ∈ place, IsName name)
    (h : t.locate [] (.ofPlace place) = .ok p) : p = place := by
  rcases List.eq_nil_or_concat' place with rfl | ⟨up, name, rfl⟩
  · cases h
    rfl
  · rw [locate_concat t hplace] at h
    split at h
    · cases h
    cases hwalk : t.walk [] up with
    | error fault =>
      rw [hwalk] at h
      cases h
    | ok above =>
      have habove : above = up := walk_eq_ok (fun n hn => hplace n (List.mem_append_left _ hn)) hwalk
      rw [hwalk, Except.bind, habove] at h
      split at h
      · cases h
      split at h
      · cases h
      · cases h
        rfl

/-- Trees that agree above a place agree on whether it is found. -/
theorem locate_congr (hplace : ∀ name ∈ place, IsName name)
    (hsame : ∀ q, q <+: place → q ≠ place → u.find? q = t.find? q) :
    u.locate [] (.ofPlace place) = t.locate [] (.ofPlace place) := by
  rcases List.eq_nil_or_concat' place with rfl | ⟨up, name, rfl⟩
  · rfl
  · have hnames : ∀ n ∈ up, IsName n := fun n hn => hplace n (List.mem_append_left _ hn)
    have habove (q : List String) (hq : q <+: up) : u.find? q = t.find? q := by
      refine hsame q (hq.trans (List.prefix_append ..)) ?_
      rintro rfl
      have hlength := hq.length_le
      rw [List.length_append, List.length_singleton] at hlength
      omega
    have hwalk : u.walk [] up = t.walk [] up := walk_congr hnames fun q _ hq => habove q hq
    rw [locate_concat u hplace, locate_concat t hplace, hwalk]
    cases hup : t.walk [] up with
    | error fault => rfl
    | ok above =>
      obtain rfl : above = up := walk_eq_ok hnames hup
      simp only [Except.bind, isDirectoryAt_congr (habove above List.prefix_rfl)]

/-! ### What each operation does -/

theorem makeDirectory_eq_ok (hplace : ∀ name ∈ place, IsName name) (h : t.makeDirectory [] (.ofPlace place) = .ok u) :
    t.find? place = none ∧ u = t.insert place .directory := by
  obtain ⟨p, hlocate, hdone⟩ := bind_eq_ok.mp h
  obtain rfl := locate_eq_ok hplace hlocate
  split at hdone
  · cases hdone
  next hnone =>
    cases hdone
    exact ⟨Option.not_isSome_iff_eq_none.mp hnone, rfl⟩

theorem write_eq_ok {data : ByteArray} (hplace : ∀ name ∈ place, IsName name)
    (h : t.write [] (.ofPlace place) data = .ok u) :
    t.locate [] (.ofPlace place) = .ok place ∧ place ≠ [] ∧ u = t.insert place (.file data) := by
  obtain ⟨p, hlocate, hdone⟩ := bind_eq_ok.mp h
  obtain rfl := locate_eq_ok hplace hlocate
  split at hdone
  · cases hdone
  next hdirectory =>
    cases hdone
    refine ⟨hlocate, ?_, rfl⟩
    rintro rfl
    exact hdirectory rfl

theorem remove_eq_ok (hplace : ∀ name ∈ place, IsName name) (h : t.remove [] (.ofPlace place) = .ok u) :
    (∃ data, t.find? place = some (.file data)) ∧ u = t.erase place := by
  obtain ⟨p, hlocate, hdone⟩ := bind_eq_ok.mp h
  obtain rfl := locate_eq_ok hplace hlocate
  split at hdone
  · cases hdone
  · cases hdone
  next data hfile =>
    cases hdone
    exact ⟨⟨data, hfile⟩, rfl⟩

theorem remove_of_file {data : ByteArray} (hlocate : t.locate [] (.ofPlace place) = .ok place)
    (hfile : t.find? place = some (.file data)) : t.remove [] (.ofPlace place) = .ok (t.erase place) :=
  bind_eq_ok.mpr ⟨place, hlocate, by rw [hfile]; rfl⟩

/-! ### Directories on the way -/

/-- Directories that were missing on the way to a place have been made, and nothing else has changed. -/
def Grows (place : List String) (t u : Tree) : Prop :=
  ∀ q, u.find? q = t.find? q ∨ q <+: place ∧ t.find? q = none ∧ u.find? q = some .directory

theorem Grows.refl (place : List String) (t : Tree) : Grows place t t := fun _ => .inl rfl

theorem Grows.trans (h : Grows place t u) (h' : Grows place u v) : Grows place t v := by
  intro q
  rcases h' q with hsame | ⟨hway, hnone, hmade⟩
  · rw [hsame]
    exact h q
  · rcases h q with hsame | ⟨_, _, hdirectory⟩
    · exact .inr ⟨hway, hsame ▸ hnone, hmade⟩
    · rw [hdirectory] at hnone
      cases hnone

theorem grows_insert_directory (hway : q <+: place) (hnone : t.find? q = none) :
    Grows place t (t.insert q .directory) := by
  intro r
  by_cases hr : r = q
  · subst hr
    exact .inr ⟨hway, hnone, find?_insert_self (ne_nil_of_find?_eq_none hnone)⟩
  · exact .inl (find?_insert_of_ne hr)

end Tree

namespace FileAct

variable {place up : List String}

theorem grows_makeDirectory (hnames : ∀ name ∈ place, IsName name) (hup : up <+: place) (t : Tree) :
    t.Grows place (makeDirectory [] (.ofPlace up) t).2 := by
  unfold makeDirectory
  split
  next u hmade =>
    obtain ⟨hnone, rfl⟩ := Tree.makeDirectory_eq_ok (fun n hn => hnames n (hup.subset hn)) hmade
    exact Tree.grows_insert_directory hup hnone
  next => exact Tree.Grows.refl place t

/-- The second of two operations goes on from what the first one leaves, unless that fails. -/
theorem run_bind {α β : Type} (a : FileAct α) (f : α → FileAct β) (t : Tree) :
    (a >>= f : FileAct β) t =
      match a t with
      | (.ok x, u) => f x u
      | (.error e, u) => (.error e, u) := by
  change ExceptT.bind a f t = _
  simp only [ExceptT.bind, ExceptT.mk, bind, StateT.bind]
  rcases a t with ⟨_ | x, u⟩ <;> rfl

theorem grows_bind {α β : Type} {a : FileAct α} {f : α → FileAct β} {t : Tree} (ha : t.Grows place (a t).2)
    (hf : ∀ x (u : Tree), u.Grows place (f x u).2) : t.Grows place ((a >>= f : FileAct β) t).2 := by
  rw [run_bind]
  split
  next x u hmade =>
    rw [hmade] at ha
    exact ha.trans (hf x u)
  next e u hmade =>
    rw [hmade] at ha
    exact ha

-- whether making a directory fails makes no difference here: a failure leaves what has been made up to then
theorem grows_makeDirectoriesUp (hnames : ∀ name ∈ place, IsName name) (names : List String)
    (hup : names.reverse <+: place) (t : Tree) : t.Grows place (makeDirectoriesUp [] "/" names t).2 := by
  induction names generalizing t with
  | nil => exact grows_makeDirectory hnames hup t
  | cons name names ih =>
    have habove : names.reverse <+: place := by
      rw [List.reverse_cons] at hup
      exact (List.prefix_append ..).trans hup
    unfold makeDirectoriesUp
    simp only
    split
    · exact grows_bind (ih habove t) fun _ u => grows_makeDirectory hnames hup u
    · exact grows_makeDirectory hnames hup t

theorem grows_makeDirectories (hnames : ∀ name ∈ place, IsName name) (hup : up <+: place) (t : Tree) :
    t.Grows place (makeDirectories [] (.ofPlace up) t).2 :=
  grows_makeDirectoriesUp hnames up.reverse (by rwa [List.reverse_reverse]) t

end FileAct

end Files

namespace LocalStore

variable {t t' : Tree} {place : List String} {data : ByteArray}

/-- A tree has become another one by a file that was written: directories above it may have been made, and nothing else
    has changed. -/
structure Written (place : List String) (data : ByteArray) (t t' : Tree) : Prop where
  found : t'.find? place = some (.file data)
  rest : ∀ q ≠ place, t'.find? q = t.find? q ∨ q <+: place ∧ t.find? q = none ∧ t'.find? q = some .directory

/-- A tree has become another one by a file that was removed, and nothing else has changed. -/
structure Removed (place : List String) (t t' : Tree) : Prop where
  found : ∃ data, t.find? place = some (.file data)
  gone : t'.find? place = none
  rest : ∀ q ≠ place, t'.find? q = t.find? q

/-! ### What is written and removed -/

/-- What is written is found again, below directories that are there or have been made. -/
theorem writeBlob_eq_ok (hplace : ∀ name ∈ place, IsName name) (h : writeBlob place data t = (.ok (), t')) :
    Written place data t t' ∧ t'.locate [] (.ofPlace place) = .ok place := by
  have habove : place.dropLast <+: place := List.dropLast_prefix place
  have hgrows := FileAct.grows_makeDirectories (fun n hn => hplace n (habove.subset hn)) List.prefix_rfl t
  rw [writeBlob, FileAct.run_bind] at h
  split at h
  next u hmade =>
    rw [hmade] at hgrows
    unfold FileAct.change at h
    split at h
    next v hwrite =>
      obtain ⟨hlocate, hne, rfl⟩ := Tree.write_eq_ok hplace hwrite
      cases h
      refine ⟨⟨Tree.find?_insert_self hne, fun q hq => ?_⟩, ?_⟩
      · rw [Tree.find?_insert_of_ne hq]
        exact (hgrows q).imp_right fun ⟨hway, hmissing⟩ => ⟨hway.trans habove, hmissing⟩
      · rw [Tree.locate_congr hplace fun q _ hq => Tree.find?_insert_of_ne hq, hlocate]
    next => cases h
  next => cases h

theorem removed_of_remove (hplace : ∀ name ∈ place, IsName name) (h : t.remove [] (.ofPlace place) = .ok t') :
    Removed place t t' := by
  obtain ⟨⟨data, hfile⟩, rfl⟩ := Tree.remove_eq_ok hplace h
  have hne : place ≠ [] := by
    rintro rfl
    rw [Tree.find?_top] at hfile
    cases hfile
  exact ⟨⟨data, hfile⟩, Tree.find?_erase_self hne, fun q hq => Tree.find?_erase_of_ne hq⟩

/-! ### The store -/

section Store

variable {s : LocalStore} {path contentType : String} {blob : StoredBlob}

/-- The place of a blob is accepted if it lies in the directory, and only then. -/
theorem target_eq (s : LocalStore) (hnames : ∀ name ∈ s.directory.names, '\x00' ∉ name.toList)
    (hpath : '\x00' ∉ path.toList) :
    s.target path =
      if s.place <+: (Path.ofText path).resolve s.place then .ok ((Path.ofText path).resolve s.place)
      else .error (.storage s!"Invalid asset path: {path}") := by
  have hlegal : ((s.directory.names ++ (Path.ofText path).names).any fun n => n.toList.contains '\x00') = false := by
    rw [List.any_eq_false]
    intro name hname
    rw [List.contains_iff_mem]
    rcases List.mem_append.mp hname with hname | hname
    · exact hnames name hname
    · exact fun hnull => hpath (mem_of_mem_namesOf hname hnull)
  have hplace : (s.directory.join (Path.ofText path)).resolve s.home = (Path.ofText path).resolve s.place :=
    resolve_join ..
  simp only [target, hlegal, hplace, isWithin, List.isPrefixOf_iff_prefix]
  rfl

theorem upload_of_target_error {e : Failure} (h : s.target path = .error e) (contentType : String) (data : ByteArray)
    (t : Tree) : s.upload contentType path data t = (.error e, t) := by
  rw [upload, h]

theorem delete_of_target_error {e : Failure} (h : s.target path = .error e) (t : Tree) :
    s.delete path t = (.error e, t) := by
  rw [delete, h]

theorem upload_eq_ok (h : s.upload contentType path data t = (.ok blob, t')) :
    ∃ place, s.target path = .ok place ∧ writeBlob place data t = (.ok (), t') := by
  unfold upload at h
  split at h
  · cases h
  next place htarget =>
    split at h
    next u hwrite =>
      cases h
      exact ⟨place, htarget, hwrite⟩
    next => cases h

theorem delete_eq_ok_iff : s.delete path t = (.ok (), t') ↔
    ∃ place, s.target path = .ok place ∧ t.remove [] (.ofPlace place) = .ok t' := by
  unfold delete
  cases htarget : s.target path with
  | error e => simp
  | ok place =>
    cases hremove : t.remove [] (.ofPlace place) with
    | ok u => simp [hremove]
    | error fault => cases fault <;> simp [hremove]

end Store

/-- A store takes the path of a blob if that leads into its directory, and only then. What it writes is the file where
    the path leads, which every path that leads there removes again; what it removes is that file. -/
theorem stays_within {cwd storage path : String} {home : List String} (hcwd : LeadsTo cwd home)
    (hstorage : '\x00' ∉ storage.toList) (hpath : '\x00' ∉ path.toList) :
    ∃ root place, LeadsTo (joined cwd storage) root ∧ LeadsTo (joined (joined cwd storage) path) place ∧
      let s : LocalStore := ⟨.ofText storage, home⟩
      let invalid := Failure.storage s!"Invalid asset path: {path}"
      (root <+: place → s.target path = .ok place) ∧
      (¬ root <+: place → s.target path = .error invalid ∧
        (∀ contentType data t, s.upload contentType path data t = (.error invalid, t)) ∧
        ∀ t, s.delete path t = (.error invalid, t)) ∧
      (∀ contentType data t blob t', s.upload contentType path data t = (.ok blob, t') →
        root <+: place ∧ Written place data t t' ∧
          ∀ path', '\x00' ∉ path'.toList → LeadsTo (joined (joined cwd storage) path') place →
            ∃ t'', s.delete path' t' = (.ok (), t'') ∧ Removed place t' t'') ∧
      ∀ t t', s.delete path t = (.ok (), t') → root <+: place ∧ Removed place t t' := by
  obtain ⟨s, hs⟩ : ∃ s : LocalStore, s = ⟨.ofText storage, home⟩ := ⟨_, rfl⟩
  have hroot : LeadsTo (joined cwd storage) s.place := hs ▸ resolve_ofText hcwd storage
  have hnames : ∀ name ∈ s.directory.names, '\x00' ∉ name.toList := by
    rw [hs]
    exact fun name hname hnull => hstorage (mem_of_mem_namesOf hname hnull)
  have htarget {path : String} (hpath : '\x00' ∉ path.toList) := target_eq s hnames hpath
  have hplace := resolve_ofText hroot path
  have haccepted {found : List String} (h : s.target path = .ok found) :
      s.place <+: found ∧ found = (Path.ofText path).resolve s.place := by
    rw [htarget hpath] at h
    split at h
    · cases h
      exact ⟨‹_›, rfl⟩
    · cases h
  refine ⟨s.place, _, hroot, hplace, ?_⟩
  rw [← hs]
  refine ⟨fun hin => (htarget hpath).trans (if_pos hin), fun hout => ?_, ?_, ?_⟩
  · have hinvalid := (htarget hpath).trans (if_neg hout)
    exact ⟨hinvalid, upload_of_target_error hinvalid, delete_of_target_error hinvalid⟩
  · intro contentType data t blob t' hupload
    obtain ⟨found, hfound, hwrite⟩ := upload_eq_ok hupload
    obtain ⟨hin, rfl⟩ := haccepted hfound
    obtain ⟨hwritten, hlocate⟩ := writeBlob_eq_ok hplace.named hwrite
    refine ⟨hin, hwritten, fun path' hpath' hleads => ?_⟩
    have hsame := (resolve_ofText hroot path').unique hleads
    have hfound' := (htarget hpath').trans (if_pos (hsame ▸ hin))
    rw [hsame] at hfound'
    have hremove := Tree.remove_of_file hlocate hwritten.found
    exact ⟨_, delete_eq_ok_iff.mpr ⟨_, hfound', hremove⟩, removed_of_remove hplace.named hremove⟩
  · intro t t' hdelete
    obtain ⟨found, hfound, hremove⟩ := delete_eq_ok_iff.mp hdelete
    obtain ⟨hin, rfl⟩ := haccepted hfound
    exact ⟨hin, removed_of_remove hplace.named hremove⟩

/-- The store "assets" of "/srv" takes a path that goes up and down within it, and refuses one that leads beside it. -/
theorem stays_within_assets :
    let s : LocalStore := ⟨.ofText "assets", ["srv"]⟩
    s.target "icons//../a.png" = .ok ["srv", "assets", "a.png"] ∧
      s.target "../assets-old/a.png" = .error (.storage "Invalid asset path: ../assets-old/a.png") := by
  have hhome : LeadsTo "/srv" ["srv"] := leadsTo_iff.mpr (by decide)
  have hdirectory : LeadsTo (joined "/srv" "assets") ["srv", "assets"] := leadsTo_iff.mpr (by decide)
  constructor
  · obtain ⟨root, place, hroot, hplace, haccepts, -⟩ :=
      stays_within hhome (by decide : '\x00' ∉ "assets".toList) (by decide : '\x00' ∉ "icons//../a.png".toList)
    obtain rfl := hroot.unique hdirectory
    obtain rfl : place = ["srv", "assets", "a.png"] := hplace.unique (leadsTo_iff.mpr (by decide))
    exact haccepts (by decide)
  · obtain ⟨root, place, hroot, hplace, -, hrefuses, -⟩ :=
      stays_within hhome (by decide : '\x00' ∉ "assets".toList) (by decide : '\x00' ∉ "../assets-old/a.png".toList)
    obtain rfl := hroot.unique hdirectory
    obtain rfl : place = ["srv", "assets-old", "a.png"] := hplace.unique (leadsTo_iff.mpr (by decide))
    exact (hrefuses (by decide)).1

end LocalStore

end Curation
