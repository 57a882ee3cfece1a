import Curation.Proofs.Judging
import Curation.Proofs.MainColor
import Curation.Proofs.Payloads

/-! The ways in which setting an icon can end, one after another: it is refused, its body is not read, its blob is not
    stored, its row is not written, or all of it is done. Each of them leaves traces of its own in the rows, among the
    blobs and in what waits to be deleted (`Icon.Exit`). -/

namespace Curation

open Act (Ends Judged judged_check ends_bind ends_pure ends_get ends_ite ends_update ends_iff)
open Catalog (check)

/-! ### Why it may fail -/

/-- Icons of the kind that the extension stands for are not taken. -/
def Reason.badExtension (extension : String) : Option Failure :=
  if Icon.contentType? extension = none then
    some (.field "ext" s!"Invalid format for collection icon: {extension}" "invalid_extension")
  else none

/-- What may be the matter with setting an icon before anything of the icon is looked at, in the order in which it is
    reported. -/
def Icon.refusals (s : State) (actor : Option Actor) (id extension : String) : List (Option Failure) := [
  Reason.badExtension extension, Reason.unknownActor actor, Reason.unscoped actor .write, Reason.unread s id,
  Reason.missing s.db.committed id, Reason.foreign s.db.committed id actor]

theorem LocalStore.upload_error {l : LocalStore} {contentType path : String} {data : ByteArray} {cause : Failure}
    {t t' : Files.Tree} (h : l.upload contentType path data t = (.error cause, t')) :
    (∃ text, cause = .storage text) ∨ cause = .badValue .nullCharacter := by
  unfold LocalStore.upload at h
  split at h
  · rename_i e he
    cases h
    unfold LocalStore.target at he
    dsimp only at he
    split at he
    · cases he
      exact Or.inr rfl
    · split at he
      · cases he
      · cases he
        exact Or.inl ⟨_, rfl⟩
  · split at h
    · cases h
    · cases h
      exact Or.inl ⟨_, rfl⟩

namespace Blobs

variable {b b' : Blobs} {contentType path : String} {data : ByteArray} {cause : Failure}

/-- The store was called once, and took the blob. -/
structure Took (b : Blobs) (contentType path : String) (data : ByteArray) (b' : Blobs) : Prop where
  upload : b.upload contentType path data = (.ok (), b')
  calls : b.disk = none → b'.calls = b.calls ++ [.upload path contentType data.size]

/-- The store was called once, and refused the blob: it failed, or the path is none that a file can have. -/
structure Refused (b : Blobs) (contentType path : String) (data : ByteArray) (cause : Failure) (b' : Blobs) : Prop where
  upload : b.upload contentType path data = (.error cause, b')
  kind : (∃ text, cause = .storage text) ∨ b.disk.isSome = true ∧ cause = .badValue .nullCharacter
  untouched : b.disk = none → b' = b

theorem took_of_upload (h : b.upload contentType path data = (.ok (), b')) : b.Took contentType path data b' := by
  refine ⟨h, fun hdisk => ?_⟩
  rw [upload_eq_ok hdisk h]

theorem refused_of_upload (h : b.upload contentType path data = (.error cause, b')) :
    b.Refused contentType path data cause b' := by
  refine ⟨h, ?_, fun hdisk => (upload_eq_error hdisk h).1⟩
  cases hdisk : b.disk with
  | none => exact Or.inl (upload_eq_error hdisk h).2
  | some disk =>
    unfold upload at h
    rw [hdisk] at h
    dsimp only at h
    cases hstore : disk.store.upload contentType path data disk.tree with
    | mk result tree =>
      rw [hstore] at h
      cases result with
      | ok _ => cases h
      | error e =>
        cases h
        exact (LocalStore.upload_error hstore).imp_right fun hnull => ⟨rfl, hnull⟩

end Blobs

/-! ### How it ends -/

/-- The row of a collection has another icon and its colour, and was changed at the given time; nothing else differs. -/
structure Tables.Painted (t : Tables) (now : Time.Instant) (id url : String) (color : Option Nat) (v : Tables) : Prop where
  row : ∃ r, t.row? id = some r ∧ v.row? id = some { r with
    iconUrl := some url, color := color.map fun n => .integer n, updated := .stamp (.second now) }
  others : ∀ id', id' ≠ id → v.AgreeAt t id'
  links : v.links = t.links
  projects : v.projects = t.projects

namespace Icon

/-- Where the blob of a new icon goes. -/
def newPath (s : State) (id extension : String) (payload : Payload) : String :=
  s.place.path id (Digest.hex payload.content) extension

/-- The ways to end, with what each of them leaves. -/
inductive Exit (s : State) (actor : Option Actor) (id extension : String) (payload : Payload) :
    Except Failure String → State → Prop
  /-- Something is the matter before the icon is looked at: nothing of it is pulled. -/
  | refused {cause : Failure} {t : State} (first : Reason.first (refusals s actor id extension) = some cause)
    (pulled : t.pulled = s.pulled) (blobs : t.blobs = s.blobs) (rows : t.db.committed = s.db.committed)
    (waiting : t.cleanups = s.cleanups) : Exit s actor id extension payload (.error cause) t
  /-- The body is too large, or does not end: the store is not called. -/
  | unread {cause : Failure} {t : State} (admitted : Reason.first (refusals s actor id extension) = none)
    (fault : payload.fault? s.place.maxSize s.place.sizeMessage = some cause) (blobs : t.blobs = s.blobs)
    (rows : t.db.committed = s.db.committed) (waiting : t.cleanups = s.cleanups) :
    Exit s actor id extension payload (.error cause) t
  /-- The store refuses the blob. -/
  | unstored {cause : Failure} {t : State} {contentType : String}
    (admitted : Reason.first (refusals s actor id extension) = none)
    (sound : payload.fault? s.place.maxSize s.place.sizeMessage = none)
    (accepted : contentType? extension = some contentType)
    (blobs : s.blobs.Refused contentType (newPath s id extension payload) payload.content cause t.blobs)
    (rows : t.db.committed = s.db.committed) (waiting : t.cleanups = s.cleanups) :
    Exit s actor id extension payload (.error cause) t
  /-- The database refuses the change of the row: the blob stays. -/
  | unwritten {r : Refusal} {t : State} {contentType : String}
    (admitted : Reason.first (refusals s actor id extension) = none)
    (sound : payload.fault? s.place.maxSize s.place.sizeMessage = none)
    (accepted : contentType? extension = some contentType)
    (blobs : s.blobs.Took contentType (newPath s id extension payload) payload.content t.blobs)
    (refuses : ¬ s.Serves) (rows : t.db.committed = s.db.committed) (waiting : t.cleanups = s.cleanups) :
    Exit s actor id extension payload (.error (.persistence r.message)) t
  /-- The icon is set. The blob of the old one is left to be deleted later, if it is another one, and however that ends
      it changes nothing but the blobs. -/
  | set {t : State} {contentType : String} (admitted : Reason.first (refusals s actor id extension) = none)
    (sound : payload.fault? s.place.maxSize s.place.sizeMessage = none)
    (accepted : contentType? extension = some contentType)
    (blobs : s.blobs.Took contentType (newPath s id extension payload) payload.content t.blobs)
    (rows : s.db.committed.Painted s.now id (s.place.url (newPath s id extension payload))
      (Image.colorOf? s.place.images payload.content) t.db.committed)
    (waiting : t.cleanups = s.cleanups ++ ((s.iconPath? id).filter (· ≠ newPath s id extension payload)).toList)
    (quiet : ∀ b, ∃ b' left, runCleanups { t with blobs := b } = { t with blobs := b', cleanups := left }) :
    Exit s actor id extension payload (.ok (s.place.url (newPath s id extension payload))) t

variable {s t : State} {actor : Option Actor} {id extension contentType : String} {payload : Payload} {c : Collection}

/-! ### Before the icon is read -/

theorem requireContentType_judged {left : State → Prop} (hs : left s) :
    Judged (check (requireContentType extension)) s [Reason.badExtension extension]
      (fun contentType t => contentType? extension = some contentType ∧ t = s) left := by
  refine judged_check (fun contentType hok => ?_) (fun e he => ?_) hs
  · have haccepted := contentType?_of_require hok
    exact ⟨if_neg (by simp [haccepted]), haccepted, rfl⟩
  · unfold requireContentType at he
    split at he
    · cases he
    · rename_i hnone
      cases he
      exact if_pos hnone

/-- The checks come in the order of the refusals, and after them nothing but reading has been done. -/
theorem admitted_judged (hs : Service.Served s) : Judged
    (do
      let _ ← check (requireContentType extension)
      let actor ← check (Gate.writer actor .write)
      Service.fetchMaintained actor id) s (refusals s actor id extension)
    (fun c t => s.Reads t ∧ (contentType? extension).isSome = true ∧ ∃ a, s.db.committed.Grants a .write id c)
    fun t => s.Reads t := by
  show Judged _ s ([_] ++ ([_, _] ++ [_, _, _])) _ _
  refine (requireContentType_judged (.refl s)).bind fun contentType _ haccepted => ?_
  obtain ⟨haccepted, rfl⟩ := haccepted
  refine (writer_judged (.refl _)).bind fun a _ hactor => ?_
  obtain ⟨rfl, hscope, rfl⟩ := hactor
  refine (fetchMaintained_weighed hs.settled hs.legible a id fun _ ht => ht).mono (fun c t hc => ?_) fun _ _ he => he
  obtain ⟨hnone, ht, hheld, hmaintains⟩ := hc
  exact ⟨hnone, ht, Option.isSome_of_mem haccepted, a, hscope, hheld, hmaintains⟩

/-! ### The transaction -/

/-- The row is there, so that the change is committed unless the database refuses it. -/
theorem writeIcon_commits {url : Option String} {color : Option Int} (h : s.Settled)
    (hrow : (s.db.committed.row? id).isSome) (hcolor : ∀ n, color = some n → Cell.fits n = true) :
    Ends (Act.atomically (Catalog.writeIcon id url color)) s
      (fun _ t => s.Over t ∧ t.db.committed = (s.db.committed.updateRow s.now id (Catalog.withIcon url color)).2)
      fun e t => s.Over t ∧ t.db.committed = s.db.committed ∧ (∃ r : Refusal, e = .persistence r.message) ∧
        ¬ s.Serves := by
  have hthere : (s.tables.row? id).isSome := h.seen ▸ hrow
  have hover := Act.atomically_over
    (fun (_ : Unit) v => v = (s.db.committed.updateRow s.now id (Catalog.withIcon url color)).2)
    (Catalog.writeIcon_ends (fun _ _ ht => ht.toWithin) fun t _ ht => ⟨ht.toWithin, by rw [ht.tables, h.seen]⟩)
  have hkind : Ends (Act.atomically (Catalog.writeIcon id url color)) s (fun _ _ => True)
      fun e _ => ∃ r : Refusal, e = .persistence r.message := by
    rw [Act.atomically_ends]
    refine Catalog.writeIcon_decides (fun r _ _ _ _ => ⟨r, rfl⟩) (fun t _ ht => ?_) (fun _ hnone _ => ?_)
      fun n _ hn hfits _ => ?_
    · exact Act.commit_ends (ht.stuck.trans h.unstuck) ⟨trivial, trivial⟩ fun r => ⟨r, rfl⟩
    · rw [hnone] at hthere
      cases hthere
    · exact absurd (hcolor n hn) (by simp [hfits])
  have hserves : Ends (Act.atomically (Catalog.writeIcon id url color)) s (fun _ _ => True) fun _ _ => ¬ s.Serves := by
    by_cases hs : s.Serves
    · have hwork : Ends (Catalog.writeIcon id url color) s (fun _ t => True ∧ t.Answers) fun _ _ => False :=
        Catalog.writeIcon_serves hs hthere hcolor fun t ht => ⟨trivial, (hs.gives ht).toAnswers⟩
      exact (Act.atomically_answers hwork).mono (fun _ _ _ => trivial) fun _ _ hfalse => hfalse.elim
    · exact ends_iff.mpr ⟨fun _ _ _ => trivial, fun _ _ _ => hs⟩
  refine ((hover.and hkind).and hserves).mono (fun _ t ht => ht.1.1) fun e t ht => ?_
  obtain ⟨⟨⟨hover, hcommitted⟩, hkind⟩, hserves⟩ := ht
  exact ⟨hover, hcommitted, hkind, hserves⟩

theorem painted_updateRow {t : Tables} {now : Time.Instant} {url : String} {color : Option Nat}
    (hrow : (t.row? id).isSome) :
    t.Painted now id url color (t.updateRow now id (Catalog.withIcon (some url) (color.map fun n => (n : Int)))).2 where
  row := by
    obtain ⟨r, hr⟩ := Option.isSome_iff_exists.mp hrow
    refine ⟨r, hr, ?_⟩
    rw [Tables.row?_updateRow Catalog.id_withIcon, if_pos rfl, hr, Option.map_some, Catalog.withIcon, Option.map_map]
    rfl
  others _ hne := Tables.updateRow_agreeAt Catalog.id_withIcon hne
  links := rfl
  projects := rfl

/-- The transaction and what comes after it, once the blob is stored. -/
theorem written_exit {a : Actor} (hadmitted : Reason.first (refusals s actor id extension) = none)
    (hsound : payload.fault? s.place.maxSize s.place.sizeMessage = none)
    (haccepted : contentType? extension = some contentType) (hgrants : s.db.committed.Grants a .write id c)
    (hsettled : t.Settled) (hstill : s.Still t) (hwaiting : t.cleanups = s.cleanups)
    (htook : s.blobs.Took contentType (newPath s id extension payload) payload.content t.blobs) :
    Ends (do
      Act.atomically (Catalog.writeIcon id (some (s.place.url (newPath s id extension payload)))
        ((Image.colorOf? s.place.images payload.content).map fun n => (n : Int)))
      match c.iconUrl.bind s.place.pathOfUrl? with
      | some old => if old ≠ newPath s id extension payload then discardLater old
      | none => return s.place.url (newPath s id extension payload)
      return s.place.url (newPath s id extension payload)) t
      (fun url u => Exit s actor id extension payload (.ok url) u)
      fun e u => Exit s actor id extension payload (.error e) u := by
  obtain ⟨r, hr, -⟩ := Tables.held?_eq_some.mp hgrants.held
  have hrow : (s.db.committed.row? id).isSome := Option.isSome_of_mem hr
  have hthere : (t.db.committed.row? id).isSome := hstill.committed.symm ▸ hrow
  rw [ends_bind]
  refine (writeIcon_commits hsettled hthere fun n hn => Image.fits_colorOf? hn).mono (fun _ u hu => ?_) fun e u hu => ?_
  · obtain ⟨hover, hu⟩ := hu
    rw [hstill.committed, hstill.now] at hu
    have hdone : ∀ v, v = { u with
        cleanups := u.cleanups ++ ((s.iconPath? id).filter (· ≠ newPath s id extension payload)).toList } →
        Exit s actor id extension payload (.ok (s.place.url (newPath s id extension payload))) v := by
      rintro v rfl
      refine .set hadmitted hsound haccepted (hover.blobs.symm ▸ htook) ?_ ?_ fun b => ⟨_, _, runCleanups_eq _⟩
      · rw [hu]
        exact painted_updateRow hrow
      · rw [hover.cleanups, hwaiting]
    rw [hgrants.iconPath?] at hdone
    -- The blob of the old icon is queued if its address leads to one, and to another one.
    generalize c.iconUrl.bind s.place.pathOfUrl? = earlier at hdone ⊢
    cases earlier with
    | none => exact ends_pure.mpr (hdone u (by simp))
    | some old =>
      dsimp only
      rw [ends_ite, ends_bind]
      refine ⟨fun hne => ends_update.mpr (ends_pure.mpr (hdone _ ?_)), fun heq => ends_pure.mpr (hdone u ?_)⟩
      · simp [Option.filter, hne]
      · simp [Option.filter, Decidable.not_not.mp heq]
  · obtain ⟨hover, hu, ⟨r, rfl⟩, hrefuses⟩ := hu
    exact .unwritten hadmitted hsound haccepted (hover.blobs.symm ▸ htook) (fun h => hrefuses (h.still hstill))
      (hu.trans hstill.committed) (hover.cleanups.trans hwaiting)

/-! ### The whole -/

theorem readPayload_decides {ok : ByteArray → State → Prop} {err : Failure → State → Prop}
    (hok : ∀ n, payload.fault? s.place.maxSize s.place.sizeMessage = none → ok payload.content { s with pulled := n })
    (herr : ∀ cause n, payload.fault? s.place.maxSize s.place.sizeMessage = some cause → err cause { s with pulled := n }) :
    Ends (readPayload payload) s ok err := by
  refine readPayload_ends (fun data n hread => ?_) fun e n hread => ?_
  · rw [Payload.read_fst] at hread
    cases hfault : payload.fault? s.place.maxSize s.place.sizeMessage with
    | none =>
      rw [hfault] at hread
      exact Except.ok.inj hread ▸ hok n hfault
    | some cause =>
      rw [hfault] at hread
      cases hread
  · rw [Payload.read_fst] at hread
    cases hfault : payload.fault? s.place.maxSize s.place.sizeMessage with
    | none =>
      rw [hfault] at hread
      cases hread
    | some cause =>
      rw [hfault] at hread
      exact Except.error.inj hread ▸ herr cause n hfault

/-- What comes after the checks, in the order in which it is done. -/
theorem replace_exit {a : Actor} (hs : s.Settled) (hadmitted : Reason.first (refusals s actor id extension) = none)
    (ht : s.Reads t) (haccepted : contentType? extension = some contentType)
    (hgrants : s.db.committed.Grants a .write id c) :
    Ends (replace c extension payload) t (fun url u => Exit s actor id extension payload (.ok url) u)
      fun e u => Exit s actor id extension payload (.error e) u := by
  have hstill : s.Still t := .of_reads ht
  have hblobs : t.blobs = s.blobs := ht.toWithin.blobs
  have hwaiting : t.cleanups = s.cleanups := ht.toWithin.cleanups
  unfold replace
  rw [ends_bind]
  refine check_passes (requireContentType_of_contentType? haccepted) ?_
  rw [ends_bind]
  refine readPayload_decides (fun n hsound => ?_) fun cause n hfault => ?_
  · rw [hstill.place] at hsound
    rw [ends_bind, ends_get, ends_bind]
    dsimp only
    rw [hstill.place, hgrants.id, ← newPath]
    refine upload_ends (fun blobs hup => ?_) fun e blobs hup => ?_
    · exact written_exit hadmitted hsound haccepted hgrants ((hs.reads ht).alike rfl rfl rfl rfl rfl)
        ⟨hstill.now, rfl, hstill.db, hstill.outages, hstill.stuck, hstill.tables⟩ hwaiting
        (Blobs.took_of_upload (hblobs ▸ hup))
    · exact .unstored hadmitted hsound haccepted (Blobs.refused_of_upload (hblobs ▸ hup)) hstill.committed hwaiting
  · exact .unread hadmitted (hstill.place ▸ hfault) hblobs hstill.committed hwaiting

end Icon

end Curation
