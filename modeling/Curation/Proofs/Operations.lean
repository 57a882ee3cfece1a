import Curation.Proofs.Session
import Curation.Service

/-! The operations that change the catalog, as data, each in its parts: it checks and reads all that it needs, then it
    does its work in one transaction, and then whatever may be left for afterwards. -/

namespace Curation

open Act (Ends ends_bind ends_pure ends_throw ends_get ends_set ends_update ends_ite)
open Catalog (check check_ends)

/-- What callers may ask for that changes the catalog. -/
inductive Operation where
  | create (actor : Option Actor) (title description : String) (projects : List String)
  | edit (actor : Option Actor) (id : String) (e : Service.Edit)
  | setIcon (actor : Option Actor) (id extension : String) (payload : Payload)
  | clearIcon (actor : Option Actor) (id : String)
  | delete (actor : Option Actor) (id : String)

/-- The work of one transaction, which tells whether it found what it is about, and what comes after it. -/
structure Transaction where
  work : Act Bool
  after : Bool → Act Unit := fun _ => pure ()

namespace Transaction

def create (a : Actor) (title description : String) (projects : List String) : Transaction where
  work := (fun _ => true) <$> do
    let known ← Catalog.knownProjects projects
    Catalog.add a.userId title description known

def edit (id : String) (title description : Option String) (status : Option Status)
    (projects : Option (List String)) : Transaction where
  work := (fun _ => true) <$> do
    Catalog.revise id title description (status.map Status.word)
    projects.forM fun ps => do
      let _ ← Catalog.replaceMembers id ps true

/-- Sets the icon of a collection; the blob of the old one goes afterwards. -/
def setIcon (c : Collection) (place : Icon.Place) (path : String) (color : Option Int) : Transaction where
  work := (fun _ => true) <$> Catalog.writeIcon c.id (some (place.url path)) color
  after _ :=
    match c.iconUrl.bind place.pathOfUrl? with
    | some old => if old ≠ path then Icon.discardLater old else pure ()
    | none => pure ()

def clearIcon (id : String) : Transaction where
  work := (fun _ => true) <$> Catalog.writeIcon id none none

def delete (id asked : String) : Transaction where
  work := Catalog.erase id
  after found := if found then pure () else throw (.notFound asked)

end Transaction

namespace Operation

/-- Carries an operation out; what it gives is of no interest here. -/
def run : Operation → Act Unit
  | create actor title description projects => do let _ ← Service.create actor title description projects
  | edit actor id e => Service.edit actor id e
  | setIcon actor id extension payload => do let _ ← Service.setIcon actor id extension payload
  | clearIcon actor id => Service.clearIcon actor id
  | delete actor id => Service.delete actor id

/-- The part of an operation before its transaction. -/
def prepare : Operation → Act Transaction
  | create actor title description projects => do
    let actor ← check (Gate.writer actor .create)
    let title := Text.strip title
    check (Validation.ensure (Validation.create title description projects))
    return .create actor title description projects
  | edit actor id e => do
    let actor ← check (Gate.writer actor .write)
    let title := e.title.map Text.strip
    check (Validation.ensure (Validation.edit title e.description e.projects))
    let status ← check (e.status.mapM Catalog.parseStatus)
    let c ← Service.fetchMaintained actor id
    status.forM fun s => check (Gate.allowStatus actor c.status s)
    let projects ← e.projects.mapM Catalog.resolve
    return .edit c.id title e.description status projects
  | setIcon actor id extension payload => do
    let _ ← check (Icon.requireContentType extension)
    let actor ← check (Gate.writer actor .write)
    let c ← Service.fetchMaintained actor id
    let contentType ← check (Icon.requireContentType extension)
    let data ← Icon.readPayload payload
    let place := (← get).place
    let path := place.path c.id (Digest.hex data) extension
    Icon.upload contentType path data
    return .setIcon c place path ((Image.colorOf? place.images data).map fun n => (n : Int))
  | clearIcon actor id => do
    let actor ← check (Gate.writer actor .write)
    let c ← Service.fetchMaintained actor id
    let place := (← get).place
    (c.iconUrl.bind place.pathOfUrl?).forM Icon.discard
    return .clearIcon c.id
  | delete actor id => do
    let actor ← check (Gate.writer actor .delete)
    let c ← Service.fetchMaintained actor id
    return .delete c.id id

/-- Every operation is made of these parts. -/
theorem run_eq (o : Operation) : o.run = (do
    let j ← o.prepare
    let found ← Act.atomically j.work
    j.after found) := by
  cases o with
  | create actor title description projects =>
    simp only [run, prepare, Service.create, Transaction.create, Act.atomically_map, bind_map_left, bind_assoc,
      pure_bind]
  | edit actor id e =>
    simp only [run, prepare, Service.edit, Transaction.edit, Act.atomically_map, bind_map_left, bind_assoc, pure_bind,
      bind_pure_unit]
  | setIcon actor id extension payload =>
    simp only [run, prepare, Service.setIcon, Icon.replace, Transaction.setIcon, Act.atomically_map, bind_map_left,
      bind_assoc, pure_bind]
    refine bind_congr fun _ => bind_congr fun actor => bind_congr fun c => bind_congr fun contentType => ?_
    refine bind_congr fun data => bind_congr fun s => bind_congr fun _ => bind_congr fun _ => ?_
    cases c.iconUrl.bind s.place.pathOfUrl? with
    | none => exact pure_bind _ _
    | some old =>
      by_cases hold : old ≠ s.place.path c.id (Digest.hex data) extension
      · simp only [if_pos hold, bind_assoc, pure_bind, bind_pure_unit]
      · simp only [if_neg hold, pure_bind]
  | clearIcon actor id =>
    simp only [run, prepare, Service.clearIcon, Icon.remove, Transaction.clearIcon, Act.atomically_map, bind_map_left,
      bind_assoc, pure_bind, bind_pure_unit]
  | delete actor id =>
    simp only [run, prepare, Service.delete, Transaction.delete, bind_assoc, pure_bind]

end Operation

/-! ### What an operation needs and what it gives -/

namespace Tables

/-- The actor may write to the collection that the tables hold under an id. -/
structure Grants (t : Tables) (a : Actor) (scope : Scope) (id : String) (c : Collection) : Prop where
  scope : a.hasScope scope = true
  held : t.held? id = some c
  maintains : Gate.maintains c a = true

theorem Grants.id {t : Tables} {a : Actor} {scope : Scope} {id : String} {c : Collection}
    (h : t.Grants a scope id c) : c.id = id := id_of_held? h.held

/-- The tables after a collection is edited. -/
def edited (t : Tables) (now : Time.Instant) (id : String) (title description : Option String)
    (status : Option Status) (projects : Option (List String)) : Tables :=
  let t := t.updateRows now id (Catalog.revisions title description status)
  match projects with
  | none => t
  | some ps => (t.deleteLinks id).2.addLinks id (distinct ps)

end Tables

/-- What an operation that succeeds in a state makes of the committed tables, and what must hold for that. -/
inductive Operation.Effect (s : State) : Tables → Operation → Prop
  | create {a : Actor} {title description : String} {projects : List String} {id : String}
    (scope : a.hasScope .create = true)
    (valid : Validation.ensure (Validation.create (Text.strip title) description projects) = .ok ())
    (free : s.db.committed.row? id = none) (named : id ≠ "") (owned : a.userId ≠ "") :
    Effect s
      ((s.db.committed.withRow (Catalog.newRow id a.userId (Text.strip title) description .initial s.now)).addLinks id
        (s.db.committed.knownProjects projects))
      (.create (some a) title description projects)
  | edit {a : Actor} {id : String} {e : Service.Edit} {c : Collection} {status : Option Status}
    (grants : s.db.committed.Grants a .write id c)
    (valid : Validation.ensure (Validation.edit (e.title.map Text.strip) e.description e.projects) = .ok ())
    (read : e.status.mapM Catalog.parseStatus = .ok status)
    (allowed : ∀ st, status = some st → Gate.mayChangeStatus a c.status st = true)
    (known : ∀ ps, e.projects = some ps → ∀ p ∈ ps, s.db.committed.hasProject p = true) :
    Effect s (s.db.committed.edited s.now id (e.title.map Text.strip) e.description status e.projects)
      (.edit (some a) id e)
  | setIcon {a : Actor} {id extension : String} {payload : Payload} {c : Collection} {data : ByteArray}
    (grants : s.db.committed.Grants a .write id c)
    (read : (payload.read s.place.maxSize s.place.sizeMessage).1 = .ok data) :
    Effect s
      (s.db.committed.updateRow s.now id
        (Catalog.withIcon (some (s.place.url (s.place.path id (Digest.hex data) extension)))
          ((Image.colorOf? s.place.images data).map fun n => (n : Int)))).2
      (.setIcon (some a) id extension payload)
  | clearIcon {a : Actor} {id : String} {c : Collection} (grants : s.db.committed.Grants a .write id c) :
    Effect s (s.db.committed.updateRow s.now id (Catalog.withIcon none none)).2 (.clearIcon (some a) id)
  | delete {a : Actor} {id : String} {c : Collection} (grants : s.db.committed.Grants a .delete id c) :
    Effect s ((s.db.committed.deleteLinks id).2.deleteRow true id).2 (.delete (some a) id)

/-- The address of the icon of a collection. -/
def Tables.icon? (t : Tables) (id : String) : Option String := (t.row? id).bind (·.iconUrl)

/-- The path of the blob of the icon that is committed for a collection, if its address is one of the service. -/
def State.iconPath? (s : State) (id : String) : Option String := (s.db.committed.icon? id).bind s.place.pathOfUrl?

namespace Operation

/-- The path that an operation stores a blob under, if it comes to that. -/
def stores? (s : State) : Operation → Option String
  | setIcon _ id extension payload =>
    (payload.read s.place.maxSize s.place.sizeMessage).1.toOption.map fun data =>
      s.place.path id (Digest.hex data) extension
  | _ => none

theorem stores?_of_read {s : State} {actor : Option Actor} {id extension : String} {payload : Payload} {data : ByteArray}
    (hread : (payload.read s.place.maxSize s.place.sizeMessage).1 = .ok data) :
    (setIcon actor id extension payload).stores? s = some (s.place.path id (Digest.hex data) extension) := by
  simp [stores?, hread, Except.toOption]

/-- The paths of the blobs that an operation which succeeds leaves to be deleted afterwards. -/
def leaves (s : State) : Operation → List String
  | o@(setIcon _ id _ _) => ((s.iconPath? id).filter fun old => o.stores? s ≠ some old).toList
  | _ => []

/-- What has become of the blobs when an operation comes to its transaction. -/
inductive Stocks (s : State) : Operation → Blobs → Prop
  | create {actor : Option Actor} {title description : String} {projects : List String} :
    Stocks s (.create actor title description projects) s.blobs
  | edit {actor : Option Actor} {id : String} {e : Service.Edit} : Stocks s (.edit actor id e) s.blobs
  | setIcon {actor : Option Actor} {id extension contentType : String} {payload : Payload} {data : ByteArray}
    {blobs : Blobs} (accepted : Icon.contentType? extension = some contentType)
    (read : (payload.read s.place.maxSize s.place.sizeMessage).1 = .ok data)
    (stored : s.blobs.upload contentType (s.place.path id (Digest.hex data) extension) data = (.ok (), blobs)) :
    Stocks s (.setIcon actor id extension payload) blobs
  | clearIcon {actor : Option Actor} {id : String} :
    Stocks s (.clearIcon actor id) ((s.iconPath? id).elim s.blobs fun path => (s.blobs.delete path).2)
  | delete {actor : Option Actor} {id : String} : Stocks s (.delete actor id) s.blobs

/-- What has become of the blobs when an operation fails. -/
inductive Spares (s : State) : Operation → Blobs → Prop
  | same {o : Operation} : Spares s o s.blobs
  | refused {actor : Option Actor} {id extension contentType : String} {payload : Payload} {data : ByteArray}
    {e : Failure} {blobs : Blobs} (accepted : Icon.contentType? extension = some contentType)
    (read : (payload.read s.place.maxSize s.place.sizeMessage).1 = .ok data)
    (refused : s.blobs.upload contentType (s.place.path id (Digest.hex data) extension) data = (.error e, blobs)) :
    Spares s (.setIcon actor id extension payload) blobs
  | stocks {o : Operation} {blobs : Blobs} (stocks : o.Stocks s blobs) : Spares s o blobs

end Operation

/-- Work that is ready to be done for an operation: in a state where the same is committed it either gives what the
    operation is for, or commits nothing. After it nothing fails, and some blobs are left to be deleted. -/
structure State.Ready (s : State) (o : Operation) (j : Transaction) : Prop where
  work : ∀ u, s.Stays u →
    Ends j.work u (fun found v => v.Coherent ∧ u.Within v ∧ found = true ∧ o.Effect s v.tables) fun _ v => u.Works v
  after : ∀ u, Ends (j.after true) u (fun _ v => v = { u with cleanups := u.cleanups ++ o.leaves s }) fun _ _ => False

/-- Work that is ready is done as a whole, or nothing of it is committed; its transaction is over in either case. -/
theorem State.Ready.atomically_ends {s u : State} {o : Operation} {j : Transaction} (h : s.Ready o j) (hu : s.Stays u) :
    Ends (Act.atomically j.work) u
      (fun found v => v.Settled ∧ v.session = {} ∧ found = true ∧ o.Effect s v.db.committed)
      (fun _ v => u.Stays v ∧ v.session = {}) :=
  Act.atomically_settled (fun found v => found = true ∧ o.Effect s v) hu.settled (h.work u hu)

/-! ### The parts before the transaction -/

section Parts

variable {s : State} {err : Failure → State → Prop}

theorem writer_ends {actor : Option Actor} {scope : Scope} {ok : Actor → State → Prop}
    (hok : ∀ a, actor = some a → a.hasScope scope = true → ok a s) (herr : ∀ e, err e s) :
    Ends (check (Gate.writer actor scope)) s ok err := by
  refine check_ends (fun a ha => ?_) fun e _ => herr e
  unfold Gate.writer at ha
  cases actor with
  | none => cases ha
  | some b =>
    dsimp only at ha
    split at ha
    · cases ha
      exact hok a rfl ‹_›
    · cases ha

theorem maintained_eq_ok {id : String} {found : Option Collection} {a : Actor} {c : Collection}
    (h : Gate.maintained id found a = .ok c) : found = some c ∧ Gate.maintains c a = true := by
  unfold Gate.maintained at h
  cases found with
  | none => cases h
  | some d =>
    dsimp only at h
    split at h
    · cases h
      exact ⟨rfl, ‹_›⟩
    · cases h

theorem fetchMaintained_ends {a : Actor} {id : String} {ok : Collection → State → Prop} (h : s.Settled)
    (hok : ∀ c t, s.Reads t → s.db.committed.held? id = some c → Gate.maintains c a = true → ok c t)
    (herr : ∀ e t, s.Reads t → err e t) : Ends (Service.fetchMaintained a id) s ok err := by
  unfold Service.fetchMaintained
  rw [ends_bind]
  refine Catalog.fetch_ends h.view.rows h.fit (fun t ht => ?_) fun e t ht _ => herr e t ht
  refine check_ends (fun c hc => ?_) fun e _ => herr e t ht
  obtain ⟨hheld, hmaintains⟩ := maintained_eq_ok hc
  exact hok c t ht (h.seen ▸ hheld) hmaintains

theorem fetchMaintained_ok {a : Actor} {scope : Scope} {id : String} {c : Collection} {t : State} (h : s.Settled)
    (hscope : a.hasScope scope = true) (hfetched : Service.fetchMaintained a id s = (.ok c, t)) :
    s.Reads t ∧ s.db.committed.Grants a scope id c := by
  have hends : Ends (Service.fetchMaintained a id) s
      (fun c t => s.Reads t ∧ s.db.committed.Grants a scope id c) fun _ _ => True :=
    fetchMaintained_ends h (fun c t ht hheld hmaintains => ⟨ht, hscope, hheld, hmaintains⟩) fun _ _ _ => trivial
  exact hends.of_ok hfetched

theorem fetchMaintained_reads {a : Actor} {id : String} (h : s.Settled) :
    Ends (Service.fetchMaintained a id) s (fun _ t => s.Reads t) fun _ t => s.Reads t :=
  fetchMaintained_ends h (fun _ _ ht _ _ => ht) fun _ _ ht => ht

theorem contentType?_of_require {extension contentType : String}
    (h : Icon.requireContentType extension = .ok contentType) : Icon.contentType? extension = some contentType := by
  unfold Icon.requireContentType at h
  split at h
  · cases h
    assumption
  · cases h

theorem readPayload_ends {payload : Payload} {ok : ByteArray → State → Prop}
    (hok : ∀ data n, (payload.read s.place.maxSize s.place.sizeMessage).1 = .ok data →
      ok data { s with pulled := n })
    (herr : ∀ e n, (payload.read s.place.maxSize s.place.sizeMessage).1 = .error e → err e { s with pulled := n }) :
    Ends (Icon.readPayload payload) s ok err := by
  unfold Icon.readPayload
  simp only [ends_bind, ends_get, ends_set]
  exact check_ends (fun data hdata => hok data _ hdata) fun e he => herr e _ he

theorem upload_ends {contentType path : String} {data : ByteArray} {ok : Unit → State → Prop}
    (hok : ∀ blobs, s.blobs.upload contentType path data = (.ok (), blobs) → ok () { s with blobs })
    (herr : ∀ e blobs, s.blobs.upload contentType path data = (.error e, blobs) → err e { s with blobs }) :
    Ends (Icon.upload contentType path data) s ok err := by
  unfold Icon.upload
  simp only [ends_bind, ends_get, ends_set]
  refine check_ends (fun _ hresult => hok _ ?_) fun e hresult => herr e _ ?_
  · rw [← hresult]
  · rw [← hresult]

theorem allowStatus_ends {a : Actor} {c : Collection} {status : Option Status} {ok : PUnit → State → Prop}
    (hok : (∀ st, status = some st → Gate.mayChangeStatus a c.status st = true) → ok ⟨⟩ s) (herr : ∀ e, err e s) :
    Ends (status.forM fun st => check (Gate.allowStatus a c.status st)) s ok err := by
  refine Act.option_ends (fun hnone => hok fun st hst => ?_) fun st hst => ?_
  · rw [hnone] at hst
    cases hst
  · refine check_ends (fun _ hst' => hok fun st' heq => ?_) fun e _ => herr e
    rw [hst] at heq
    cases heq
    unfold Gate.allowStatus at hst'
    split at hst'
    · assumption
    · cases hst'

theorem resolved_ends {projects : Option (List String)} {ok : Option (List String) → State → Prop}
    (hok : ∀ t, (∀ ps, projects = some ps → ∀ p ∈ ps, s.tables.hasProject p = true) →
      s.Gives t s.tables s.session.pending → ok (projects.map distinct) t)
    (herr : ∀ e t, s.Gives t s.tables s.session.pending → err e t) :
    Ends (projects.mapM Catalog.resolve) s ok err := by
  cases projects with
  | none => exact ends_pure.mpr (hok s (fun _ h => nomatch h) (.refl s))
  | some ps =>
    show Ends (some <$> Catalog.resolve ps) s ok err
    rw [Act.ends_map]
    refine Catalog.resolve_ends (fun t hknown ht => hok t (fun ps' hps => ?_) ht) herr
    cases hps
    exact hknown

end Parts

namespace Operation

variable {s : State}

/-- What an operation comes to before its transaction: unless it creates a collection it fetches the one that it is
    about, and all that it checks is in order. -/
inductive Prepared (s : State) : Operation → Transaction → State → Prop
  | create {a : Actor} {title description : String} {projects : List String} (scope : a.hasScope .create = true)
    (valid : Validation.ensure (Validation.create (Text.strip title) description projects) = .ok ()) :
    Prepared s (.create (some a) title description projects) (.create a (Text.strip title) description projects) s
  | edit {a : Actor} {id : String} {e : Service.Edit} {status : Option Status} {c : Collection} {t u : State}
    (scope : a.hasScope .write = true)
    (valid : Validation.ensure (Validation.edit (e.title.map Text.strip) e.description e.projects) = .ok ())
    (read : e.status.mapM Catalog.parseStatus = .ok status)
    (fetched : Service.fetchMaintained a id s = (.ok c, t))
    (allowed : ∀ st, status = some st → Gate.mayChangeStatus a c.status st = true)
    (known : ∀ ps, e.projects = some ps → ∀ p ∈ ps, t.tables.hasProject p = true)
    (resolved : t.Gives u t.tables t.session.pending) :
    Prepared s (.edit (some a) id e)
      (.edit c.id (e.title.map Text.strip) e.description status (e.projects.map distinct)) u
  | setIcon {a : Actor} {id extension contentType : String} {payload : Payload} {c : Collection} {t : State}
    {data : ByteArray} {pulled : Nat} {blobs : Blobs} (scope : a.hasScope .write = true)
    (accepted : Icon.contentType? extension = some contentType)
    (fetched : Service.fetchMaintained a id s = (.ok c, t))
    (read : (payload.read t.place.maxSize t.place.sizeMessage).1 = .ok data)
    (stored : t.blobs.upload contentType (t.place.path c.id (Digest.hex data) extension) data = (.ok (), blobs)) :
    Prepared s (.setIcon (some a) id extension payload)
      (.setIcon c t.place (t.place.path c.id (Digest.hex data) extension)
        ((Image.colorOf? t.place.images data).map fun n => (n : Int)))
      { t with pulled, blobs }
  | clearIcon {a : Actor} {id : String} {c : Collection} {t : State} (scope : a.hasScope .write = true)
    (fetched : Service.fetchMaintained a id s = (.ok c, t)) :
    Prepared s (.clearIcon (some a) id) (.clearIcon c.id)
      { t with blobs := (c.iconUrl.bind t.place.pathOfUrl?).elim t.blobs fun path => (t.blobs.delete path).2 }
  | delete {a : Actor} {id : String} {c : Collection} {t : State} (scope : a.hasScope .delete = true)
    (fetched : Service.fetchMaintained a id s = (.ok c, t)) :
    Prepared s (.delete (some a) id) (.delete c.id id) t

/-- What an operation leaves that fails before its transaction. -/
inductive Stopped (s : State) : Operation → State → Prop
  | unread {o : Operation} : Stopped s o s
  | fetch {o : Operation} {a : Actor} {id : String} {e : Failure} {t : State}
    (failed : Service.fetchMaintained a id s = (.error e, t)) : Stopped s o t
  | read {o : Operation} {a : Actor} {id : String} {c : Collection} {t u : State}
    (fetched : Service.fetchMaintained a id s = (.ok c, t)) (read : t.Gives u t.tables t.session.pending) :
    Stopped s o u
  | pull {o : Operation} {a : Actor} {id : String} {c : Collection} {t : State} {pulled : Nat}
    (fetched : Service.fetchMaintained a id s = (.ok c, t)) : Stopped s o { t with pulled }
  | upload {a : Actor} {id extension contentType : String} {payload : Payload} {c : Collection} {t : State}
    {data : ByteArray} {pulled : Nat} {blobs : Blobs} {e : Failure} (scope : a.hasScope .write = true)
    (accepted : Icon.contentType? extension = some contentType)
    (fetched : Service.fetchMaintained a id s = (.ok c, t))
    (read : (payload.read t.place.maxSize t.place.sizeMessage).1 = .ok data)
    (refused : t.blobs.upload contentType (t.place.path c.id (Digest.hex data) extension) data = (.error e, blobs)) :
    Stopped s (.setIcon (some a) id extension payload) { t with pulled, blobs }

/-- There is nothing else that an operation can come to before its transaction. -/
theorem prepare_prepared (o : Operation) :
    Ends o.prepare s (fun j t => o.Prepared s j t) fun _ t => o.Stopped s t := by
  cases o with
  | create actor title description projects =>
    simp only [prepare]
    rw [ends_bind]
    refine writer_ends (fun a hactor hscope => ?_) fun _ => .unread
    subst hactor
    rw [ends_bind]
    refine check_ends (fun _ hvalid => ?_) fun _ _ => .unread
    exact ends_pure.mpr (.create hscope hvalid)
  | edit actor id e =>
    simp only [prepare]
    rw [ends_bind]
    refine writer_ends (fun a hactor hscope => ?_) fun _ => .unread
    subst hactor
    rw [ends_bind]
    refine check_ends (fun _ hvalid => ?_) fun _ _ => .unread
    rw [ends_bind]
    refine check_ends (fun status hstatus => ?_) fun _ _ => .unread
    rw [ends_bind]
    refine Act.ends_iff.mpr ⟨fun c t hfetched => ?_, fun _ t hfailed => .fetch hfailed⟩
    rw [ends_bind]
    refine allowStatus_ends (fun hallowed => ?_) fun _ => .read hfetched (.refl t)
    rw [ends_bind]
    refine resolved_ends (fun u hknown hu => ?_) fun _ u hu => .read hfetched hu
    exact ends_pure.mpr (.edit hscope hvalid hstatus hfetched hallowed hknown hu)
  | setIcon actor id extension payload =>
    unfold prepare
    rw [ends_bind]
    refine check_ends (fun _ _ => ?_) fun _ _ => .unread
    rw [ends_bind]
    refine writer_ends (fun a hactor hscope => ?_) fun _ => .unread
    subst hactor
    rw [ends_bind]
    refine Act.ends_iff.mpr ⟨fun c t hfetched => ?_, fun _ t hfailed => .fetch hfailed⟩
    rw [ends_bind]
    refine check_ends (fun contentType haccepted => ?_) fun _ _ => .read hfetched (.refl t)
    rw [ends_bind]
    refine readPayload_ends (fun data n hdata => ?_) fun _ n _ => .pull hfetched
    simp only [ends_bind, ends_get, ends_pure]
    have haccepted := contentType?_of_require haccepted
    exact upload_ends (fun blobs hup => .setIcon hscope haccepted hfetched hdata hup)
      fun _ blobs hup => .upload (t := t) hscope haccepted hfetched hdata hup
  | clearIcon actor id =>
    unfold prepare
    rw [ends_bind]
    refine writer_ends (fun a hactor hscope => ?_) fun _ => .unread
    subst hactor
    rw [ends_bind]
    refine Act.ends_iff.mpr ⟨fun c t hfetched => ?_, fun _ t hfailed => .fetch hfailed⟩
    have hprepared : (clearIcon (some a) id).Prepared s (.clearIcon c.id) _ := .clearIcon hscope hfetched
    simp only [ends_bind, ends_get, ends_pure]
    refine Act.option_ends (fun hnone => ?_) fun path hpath => ends_update.mpr ?_
    · rwa [hnone] at hprepared
    · rwa [hpath] at hprepared
  | delete actor id =>
    unfold prepare
    rw [ends_bind]
    refine writer_ends (fun a hactor hscope => ?_) fun _ => .unread
    subst hactor
    rw [ends_bind]
    refine Act.ends_iff.mpr ⟨fun c t hfetched => ?_, fun _ t hfailed => .fetch hfailed⟩
    exact ends_pure.mpr (.delete hscope hfetched)

end Operation

/-! ### The work of each operation -/

section Work

variable {s : State}

theorem ready_create {a : Actor} {title description : String} {projects : List String}
    (hscope : a.hasScope .create = true)
    (hvalid : Validation.ensure (Validation.create (Text.strip title) description projects) = .ok ()) :
    s.Ready (.create (some a) title description projects) (.create a (Text.strip title) description projects) where
  work u hu := by
    unfold Transaction.create
    rw [Act.ends_map, ends_bind]
    have htables : u.tables = s.db.committed := hu.settled.seen.trans hu.committed
    refine Catalog.knownProjects_ends (fun v hv => ?_) fun e v hv => hv.works
    have hcoherent : v.Coherent := hu.settled.toCoherent.reads (.of_gives hv)
    have hnow : v.now = s.now := hv.now.trans hu.now
    refine Catalog.add_ends (fun e w hw => hv.works.trans hw) fun id c w hid hc hsound hs hw => ?_
    refine ⟨hcoherent.marks (.add hid hc hsound (nodup_distinct _) hs) hw, hv.toWithin.trans hw.toWithin, rfl, ?_⟩
    have hknown : distinct (s.db.committed.knownProjects projects) = s.db.committed.knownProjects projects :=
      distinct_of_nodup ((nodup_distinct _).filter _)
    rw [hw.tables, hv.tables, htables, hnow, hknown]
    rw [hv.tables, htables] at hid
    have hnamed : id ≠ "" := by simpa [hc, Catalog.newCollection] using hsound.id
    exact .create hscope hvalid hid hnamed (by simpa [hc, Catalog.newCollection] using hsound.owner)
  after u := by simp [ends_pure, Transaction.create, Operation.leaves]

theorem parseStatus_words {status : Option Status} :
    (status.map Status.word).mapM Catalog.parseStatus = .ok status := by
  cases status with
  | none => rfl
  | some st => simp [Catalog.parseStatus, Status.ofWord?_word]

/-- The words that can be read are those for a status. -/
theorem eq_words_of_read {status : Option String} {st : Option Status}
    (h : status.mapM Catalog.parseStatus = .ok st) : status = st.map Status.word := by
  cases status with
  | none =>
    cases h
    rfl
  | some w =>
    have h : some <$> Catalog.parseStatus w = .ok st := h
    unfold Catalog.parseStatus at h
    cases hw : Status.ofWord? w with
    | none =>
      rw [hw] at h
      cases h
    | some s =>
      rw [hw] at h
      cases h
      rw [Option.map_some, Status.word_of_ofWord? hw]

/-- The work of an edit, in whatever state it is done. -/
theorem edit_work_ends {id : String} {title description : Option String} {status : Option Status}
    {projects : Option (List String)} :
    Ends (Transaction.edit id title description status (projects.map distinct)).work s
      (fun found t => found = true ∧ s.Within t ∧ (s.Coherent → t.Coherent) ∧
        t.tables = s.tables.edited s.now id title description status projects ∧
        (s.db.enforce = true → s.tables.Intact → t.tables.Intact))
      fun _ t => s.Works t := by
  unfold Transaction.edit
  rw [Act.ends_map, ends_bind]
  refine Catalog.revise_ends (fun e t ht => ht) fun t st hst _ ht => ?_
  -- The edit sends the word for the status, which is read back as the status itself.
  obtain rfl : status = st := Except.ok.inj (parseStatus_words.symm.trans hst)
  have hcoherent : s.Coherent → t.Coherent := fun h => h.marks .revise ht
  have hintact : s.db.enforce = true → s.tables.Intact → t.tables.Intact := fun henf hs =>
    ht.tables ▸ State.Marks.revise.intact henf hs
  cases projects with
  | none => exact ends_pure.mpr ⟨rfl, ht.toWithin, hcoherent, ht.tables, hintact⟩
  | some ps =>
    refine Act.option_ends (fun hnone => nomatch hnone) fun _ hps => ?_
    cases hps
    simp only [ends_bind, ends_pure]
    refine Catalog.replaceMembers_ends (fun e u hu => ht.works.trans hu) fun r u hs hu => ?_
    have hreplace : t.Marks _ _ := .replace (nodup_distinct _) hs
    refine ⟨trivial, ht.toWithin.trans hu.toWithin, fun h => (hcoherent h).marks hreplace hu, ?_, fun henf hs => ?_⟩
    · rw [hu.tables, ht.tables, distinct_distinct]
      rfl
    · exact hu.tables ▸ hreplace.intact (ht.enforce.trans henf) (hintact henf hs)

theorem ready_edit {a : Actor} {id : String} {e : Service.Edit} {c : Collection} {status : Option Status}
    (hgrants : s.db.committed.Grants a .write id c)
    (hvalid : Validation.ensure (Validation.edit (e.title.map Text.strip) e.description e.projects) = .ok ())
    (hread : e.status.mapM Catalog.parseStatus = .ok status)
    (hallowed : ∀ st, status = some st → Gate.mayChangeStatus a c.status st = true)
    (hknown : ∀ ps, e.projects = some ps → ∀ p ∈ ps, s.db.committed.hasProject p = true) :
    s.Ready (.edit (some a) id e)
      (.edit c.id (e.title.map Text.strip) e.description status (e.projects.map distinct)) where
  work u hu := by
    have htables : u.tables = s.db.committed := hu.settled.seen.trans hu.committed
    refine edit_work_ends.mono (fun found v hv => ?_) fun e v hv => hv
    obtain ⟨hfound, hwithin, hcoherent, hv, -⟩ := hv
    refine ⟨hcoherent hu.settled.toCoherent, hwithin, hfound, ?_⟩
    rw [hv, htables, hu.now, hgrants.id]
    exact .edit hgrants hvalid hread hallowed hknown
  after u := by simp [ends_pure, Transaction.edit, Operation.leaves]

theorem ready_writeIcon {o : Operation} {id : String} {url : Option String} {color : Option Int}
    {after : Bool → Act Unit}
    (heffect : o.Effect s (s.db.committed.updateRow s.now id (Catalog.withIcon url color)).2)
    (hafter : ∀ u, Ends (after true) u (fun _ v => v = { u with cleanups := u.cleanups ++ o.leaves s }) fun _ _ => False) :
    s.Ready o { work := (fun _ => true) <$> Catalog.writeIcon id url color, after } where
  work u hu := by
    rw [Act.ends_map]
    have htables : u.tables = s.db.committed := hu.settled.seen.trans hu.committed
    refine Catalog.writeIcon_ends (fun e v hv => hv) fun v _ hv => ?_
    refine ⟨hu.settled.toCoherent.marks .icon hv, hv.toWithin, rfl, ?_⟩
    rw [hv.tables, htables, hu.now]
    exact heffect
  after := hafter

theorem Tables.Grants.iconPath? {a : Actor} {scope : Scope} {id : String} {c : Collection}
    (h : s.db.committed.Grants a scope id c) : s.iconPath? id = c.iconUrl.bind s.place.pathOfUrl? := by
  obtain ⟨r, hr, hc⟩ := Tables.held?_eq_some.mp h.held
  obtain ⟨_, _, _, _, -, -, rfl⟩ := Row.toCollection_eq_ok hc
  rw [State.iconPath?, Tables.icon?, hr]
  rfl

theorem ready_setIcon {a : Actor} {id extension : String} {payload : Payload} {c : Collection} {data : ByteArray}
    (hgrants : s.db.committed.Grants a .write id c)
    (hread : (payload.read s.place.maxSize s.place.sizeMessage).1 = .ok data) :
    s.Ready (.setIcon (some a) id extension payload)
      (.setIcon c s.place (s.place.path c.id (Digest.hex data) extension)
        ((Image.colorOf? s.place.images data).map fun n => (n : Int))) := by
  unfold Transaction.setIcon
  rw [hgrants.id]
  refine ready_writeIcon (.setIcon hgrants hread) fun u => ?_
  simp only [Operation.leaves, Operation.stores?_of_read hread, hgrants.iconPath?]
  cases c.iconUrl.bind s.place.pathOfUrl? with
  | none => exact ends_pure.mpr (by simp)
  | some old =>
    dsimp only
    rw [ends_ite]
    refine ⟨fun hne => ends_update.mpr ?_, fun heq => ends_pure.mpr ?_⟩
    · simp [Option.filter, Ne.symm hne]
    · simp [Option.filter, Decidable.not_not.mp heq]

theorem ready_clearIcon {a : Actor} {id : String} {c : Collection} (hgrants : s.db.committed.Grants a .write id c) :
    s.Ready (.clearIcon (some a) id) (.clearIcon c.id) := by
  unfold Transaction.clearIcon
  rw [hgrants.id]
  exact ready_writeIcon (.clearIcon hgrants) fun u => by simp [ends_pure, Operation.leaves]

theorem ready_delete {a : Actor} {id : String} {c : Collection} (hgrants : s.db.committed.Grants a .delete id c) :
    s.Ready (.delete (some a) id) (.delete c.id id) where
  work u hu := by
    show Ends (Catalog.erase c.id) u _ _
    rw [hgrants.id]
    have htables : u.tables = s.db.committed := hu.settled.seen.trans hu.committed
    -- The row was read before, and nothing has been committed since, so that it is found.
    obtain ⟨r, hr, -⟩ := Tables.held?_eq_some.mp hgrants.held
    refine Catalog.erase_ends (fun e v hv => hv) fun v hv => ?_
    refine ⟨hu.settled.toCoherent.marks .erase hv, hv.toWithin, ?_, ?_⟩
    · rw [htables, hr]
      rfl
    · rw [hv.tables, htables]
      exact .delete hgrants
  after u := by simp [ends_pure, Transaction.delete, Operation.leaves]

end Work

/-! ### Whole operations -/

namespace Operation

variable {s : State}

/-- What comes before the transaction commits nothing, and if it succeeds there is work that is ready to be done. -/
theorem prepare_spec (h : s.Settled) (o : Operation) :
    Ends o.prepare s
      (fun j t => s.Stays t ∧ s.Ready o j ∧ t.cleanups = s.cleanups ∧ o.Stocks s t.blobs)
      fun _ t => s.Stays t ∧ t.cleanups = s.cleanups ∧ o.Spares s t.blobs := by
  have hread : ∀ {t}, s.Reads t → s.Stays t ∧ t.cleanups = s.cleanups ∧ t.blobs = s.blobs := fun ht =>
    ⟨(State.Stays.refl h).reads ht, ht.toWithin.cleanups, ht.toWithin.blobs⟩
  refine o.prepare_prepared.mono (fun j u hj => ?_) fun _ u hu => ?_
  · cases hj with
    | create scope valid => exact ⟨.refl h, ready_create scope valid, rfl, .create⟩
    | edit scope valid read fetched allowed known resolved =>
      obtain ⟨ht, hgrants⟩ := fetchMaintained_ok h scope fetched
      obtain ⟨hstays, hcleanups, hblobs⟩ := hread (ht.trans (.of_gives resolved))
      refine ⟨hstays, ready_edit hgrants valid read allowed fun ps hps p hp => ?_, hcleanups, hblobs ▸ .edit⟩
      have hp := known ps hps p hp
      rwa [ht.tables, h.seen] at hp
    | @setIcon a id extension contentType payload c t data _ _ scope accepted fetched read stored =>
      obtain ⟨ht, hgrants⟩ := fetchMaintained_ok h scope fetched
      obtain ⟨hstays, hcleanups, hblobs⟩ := hread ht
      rw [hstays.place] at read
      rw [hblobs, hstays.place, hgrants.id] at stored
      refine ⟨hstays.beside rfl, ?_, hcleanups, .setIcon accepted read stored⟩
      show s.Ready _ (.setIcon c t.place (t.place.path c.id (Digest.hex data) extension) _)
      rw [hstays.place]
      exact ready_setIcon hgrants read
    | @clearIcon a id c t scope fetched =>
      obtain ⟨ht, hgrants⟩ := fetchMaintained_ok h scope fetched
      obtain ⟨hstays, hcleanups, hblobs⟩ := hread ht
      have hstocks : (clearIcon (some a) id).Stocks s _ := .clearIcon
      rw [hgrants.iconPath?, ← hstays.place, ← hblobs] at hstocks
      exact ⟨hstays.beside rfl, ready_clearIcon hgrants, hcleanups, hstocks⟩
    | delete scope fetched =>
      obtain ⟨ht, hgrants⟩ := fetchMaintained_ok h scope fetched
      obtain ⟨hstays, hcleanups, hblobs⟩ := hread ht
      exact ⟨hstays, ready_delete hgrants, hcleanups, hblobs ▸ .delete⟩
  · have hsame : ∀ {t}, s.Reads t → s.Stays t ∧ t.cleanups = s.cleanups ∧ o.Spares s t.blobs := fun ht =>
      ⟨(hread ht).1, (hread ht).2.1, (hread ht).2.2 ▸ .same⟩
    cases hu with
    | unread => exact hsame (.refl s)
    | fetch failed => exact hsame ((fetchMaintained_reads h).of_error failed)
    | read fetched given => exact hsame (((fetchMaintained_reads h).of_ok fetched).trans (.of_gives given))
    | pull fetched =>
      obtain ⟨hstays, hcleanups, hspares⟩ := hsame ((fetchMaintained_reads h).of_ok fetched)
      exact ⟨hstays.beside rfl, hcleanups, hspares⟩
    | upload scope accepted fetched read refused =>
      obtain ⟨ht, hgrants⟩ := fetchMaintained_ok h scope fetched
      obtain ⟨hstays, hcleanups, hblobs⟩ := hread ht
      rw [hstays.place] at read
      rw [hblobs, hstays.place, hgrants.id] at refused
      exact ⟨hstays.beside rfl, hcleanups, .refused accepted read refused⟩

theorem prepare_ends (h : s.Settled) (o : Operation) :
    Ends o.prepare s (fun j t => s.Stays t ∧ s.Ready o j) (fun _ t => s.Stays t) :=
  (prepare_spec h o).mono (fun _ _ ht => ⟨ht.1, ht.2.1⟩) fun _ _ ht => ht.1

/-- What an operation that succeeds has done, and what one that fails has. -/
theorem run_spec (h : s.Settled) (o : Operation) :
    Ends o.run s
      (fun _ t => t.Settled ∧ o.Effect s t.db.committed ∧ t.place = s.place ∧
        t.cleanups = s.cleanups ++ o.leaves s ∧ o.Stocks s t.blobs)
      fun _ t => s.Stays t ∧ t.cleanups = s.cleanups ∧ o.Spares s t.blobs := by
  rw [run_eq, ends_bind]
  refine (prepare_spec h o).mono (fun j u hu => ?_) fun _ _ ht => ht
  obtain ⟨hstays, hready, hcleanups, hstocks⟩ := hu
  rw [ends_bind]
  have houtside : Ends (Act.atomically j.work) u (fun _ v => u.Outside v) fun _ v => u.Outside v := by
    refine (Act.atomically_commits (fun _ _ => True) ?_).mono (fun _ _ hv => hv.1) fun _ _ hv => hv.1
    exact (hready.work u hstays).mono (fun _ _ hv => ⟨hv.2.1, trivial⟩) fun _ _ hv => hv.toWithin
  refine ((hready.atomically_ends hstays).and houtside).mono (fun found v hv => ?_) fun _ v hv => ?_
  · obtain ⟨⟨hsettled, -, rfl, heffect⟩, hsame⟩ := hv
    refine (hready.after v).mono (fun _ w hw => ?_) fun _ _ hfalse => hfalse.elim
    rw [hw]
    refine ⟨hsettled.alike rfl rfl rfl rfl rfl, heffect, hsame.place.trans hstays.place, ?_, ?_⟩
    · show v.cleanups ++ o.leaves s = _
      rw [hsame.cleanups, hcleanups]
    · show o.Stocks s v.blobs
      rw [hsame.blobs]
      exact hstocks
  · obtain ⟨⟨hv, -⟩, hsame⟩ := hv
    exact ⟨hstays.trans hv, hsame.cleanups.trans hcleanups, hsame.blobs ▸ .stocks hstocks⟩

/-- An operation that succeeds gives what it is for, and one that fails commits nothing. -/
theorem run_ends (h : s.Settled) (o : Operation) :
    Ends o.run s (fun _ t => t.Settled ∧ o.Effect s t.db.committed) (fun _ t => s.Stays t) :=
  (run_spec h o).mono (fun _ _ ht => ⟨ht.1, ht.2.1⟩) fun _ _ ht => ht.1

end Operation

/-! ### Cleaning up -/

namespace Icon

theorem runCleanup_eq (s : State) :
    runCleanup s = { s with cleanups := (runCleanup s).cleanups, blobs := (runCleanup s).blobs } := by
  unfold runCleanup
  split
  · rfl
  · rfl

theorem runCleanups_eq (s : State) :
    runCleanups s = { s with cleanups := (runCleanups s).cleanups, blobs := (runCleanups s).blobs } := by
  unfold runCleanups
  generalize s.cleanups = paths
  induction paths generalizing s with
  | nil => rfl
  | cons path paths ih =>
    rw [List.foldl_cons, ih, runCleanup_eq s]

end Icon

end Curation
