import Curation.Proofs.Ids
import Curation.Proofs.Reissue

/-! Creating a collection. What is returned is built from the request, without another look at the database. It is what
    the cache holds from then on, and what the database would give, until an operation is about that collection. -/

namespace Curation

open Act (Ends ends_bind ends_pure ends_get)
open Catalog (newRow newCollection check check_ends)

/-! ### Adding a collection -/

theorem Tables.insertRow_of_none {t : Tables} {r : Row} (h : t.row? r.id = none) :
    t.insertRow r = .ok ((), t.withRow r) := by
  rw [insertRow, h]
  rfl

/-- A statement that the tables accept is not refused. -/
theorem Act.flush_serves {α : Type} {s : State} {f : Tables → Except Refusal (α × Tables)} {x : α} {v : Tables}
    {ok : α → State → Prop} {err : Failure → State → Prop} (h : s.Serves) (hf : f s.tables = .ok (x, v))
    (hok : ∀ t, s.Wrote t v s.session.pending → ok x t) : Ends (flush f) s ok err := by
  have hexecute : Ends (execute f) s (fun y t => y = x ∧ s.Wrote t v s.session.pending) fun _ _ => False :=
    execute_serves h (fun y w t hy ht => by rw [hf] at hy; cases hy; exact ⟨rfl, ht⟩)
      fun r t hr _ => by rw [hf] at hr; cases hr
  obtain ⟨y, t, hrun, rfl, ht⟩ := hexecute.exists_ok
  unfold Ends flush
  rw [hrun]
  exact hok t ht

namespace Catalog

variable {s : State} {owner title description : String} {projects : List String} {status : Status}
  {err : Failure → State → Prop}

/-- A collection of some owner is added under the first free id, with projects that are there. -/
theorem add_serves {ok : Collection → State → Prop} (h : s.Serves) (howner : owner ≠ "") (hgiven : "" ∉ s.ids.given)
    (hknown : ∀ p ∈ projects, s.tables.hasProject p = true)
    (hok : ∀ id t, s.ids.FirstFree s.tables id →
      let c := newCollection id owner title description status s.now (sorted (distinct projects))
      s.Gives t ((s.tables.withRow (newRow id owner title description status s.now)).addLinks id (distinct projects))
        (s.session.pending.put id (some c)) → ok c t) :
    Ends (add owner title description projects status) s ok err := by
  unfold add
  rw [ends_bind]
  refine freshId_serves h.toAnswers fun id t hid ht => ?_
  simp only [ends_bind, ends_get, ends_pure]
  rw [ht.now]
  have hinsert : t.tables.insertRow (newRow id owner title description status s.now) = .ok ((), t.tables.withRow _) :=
    Tables.insertRow_of_none (by rw [ht.gives.tables]; exact hid.free)
  refine Act.flush_serves (h.gives ht.gives) hinsert fun u hu => ?_
  have hu : s.Wrote u (s.tables.withRow (newRow id owner title description status s.now)) s.session.pending := by
    rw [ht.gives.tables, ht.gives.pending] at hu
    exact ht.gives.trans_wrote hu
  have hrow : u.tables.row? id = some (newRow id owner title description status s.now) := by
    rw [hu.gives.tables]
    exact (Tables.row?_withRow hid.free id).trans (if_pos rfl)
  refine link_serves (h.gives hu.gives) (Option.isSome_of_mem hrow) (fun p hp => ?_) fun w hw => ?_
  · rw [hu.gives.tables]
    exact hknown p hp
  · rw [hu.gives.tables, hu.gives.pending] at hw
    refine check_passes (Collection.checked_eq_ok_iff.mpr ⟨rfl, hid.named hgiven, howner, fun _ => rfl⟩) ?_
    refine Act.remember_ends (hu.trans_gives hw) fun v hv => hok id v hid ?_
    have hv := hv.gives
    rwa [Pending.put_of_forgotten] at hv

end Catalog

namespace Service

variable {s t : State} {a : Actor} {title description : String} {projects : List String}

/-- A request to create a collection that passes every check succeeds, and what it returns is in the cache. -/
theorem create_serves (h : s.Settled) (hserves : s.Serves) (hscope : a.hasScope .create = true) (howner : a.userId ≠ "")
    (hvalid : Validation.create (Text.strip title) description projects = []) (hgiven : "" ∉ s.ids.given) :
    Ends (Service.create (some a) title description projects) s
      (fun c t => s.ids.FirstFree s.db.committed c.id ∧
        c = newCollection c.id a.userId (Text.strip title) description .initial s.now
          (sorted (s.db.committed.knownProjects projects)) ∧
        t.db.committed = (s.db.committed.withRow (newRow c.id a.userId (Text.strip title) description .initial s.now)).addLinks
          c.id (s.db.committed.knownProjects projects) ∧
        t.cache.entries.get? c.id = some ⟨c, s.now + s.cache.ttl * Time.microsPerSecond⟩)
      fun _ _ => False := by
  unfold Service.create
  rw [ends_bind]
  refine writer_passes hscope ?_
  rw [ends_bind]
  refine check_passes (Validation.ensure_eq_ok.mpr hvalid) ?_
  rw [Act.atomically_ends, ends_bind]
  refine knownProjects_passes hserves.toAnswers fun u hu hids => ?_
  have hknown : ∀ p ∈ s.tables.knownProjects projects, u.tables.hasProject p = true := fun p hp => by
    rw [hu.tables]
    exact (List.mem_filter.mp hp).2
  refine Catalog.add_serves (hserves.gives hu) howner (hids ▸ hgiven) hknown fun id t hid ht => ?_
  have hdistinct : distinct (s.tables.knownProjects projects) = s.tables.knownProjects projects :=
    distinct_of_nodup ((nodup_distinct projects).filter _)
  rw [hids, hu.tables, h.seen] at hid
  rw [hdistinct, hu.tables, hu.now, h.seen, hu.pending, h.nothing] at ht
  rw [hdistinct, hu.now, h.seen]
  -- Nothing waits but to store what is returned.
  have hcache : t.session.pending.apply true t.now t.cache = s.cache.set s.now (newCollection id a.userId
      (Text.strip title) description .initial s.now (sorted (s.db.committed.knownProjects projects))) := by
    rw [ht.pending, ht.cache, hu.cache, ht.now, hu.now]
    rfl
  have hentry : ∀ {w : State}, w.cache = t.session.pending.apply true t.now t.cache →
      w.cache.entries.get? id = some ⟨newCollection id a.userId (Text.strip title) description .initial s.now
        (sorted (s.db.committed.knownProjects projects)), s.now + s.cache.ttl * Time.microsPerSecond⟩ := fun hw => by
    rw [hw, hcache]
    exact (Keyed.get?_put _ _ _ _).trans (if_pos rfl)
  have hanswers : t.Answers := ((hserves.gives hu).gives ht).toAnswers
  exact Act.commit_serves hanswers ⟨⟨hid, rfl, ht.tables, hentry rfl⟩, hid, rfl, ht.tables, hentry rfl⟩

/-- What a request to create a collection leaves if it succeeds, whatever it returns. -/
theorem create_ends (h : s.Settled) (actor : Option Actor) (title description : String) (projects : List String) :
    Ends (Service.create actor title description projects) s
      (fun _ t => t.Settled ∧ (Operation.create actor title description projects).Effect s t.db.committed)
      fun _ t => s.Stays t := by
  have hrun := (Operation.create actor title description projects).run_ends h
  unfold Operation.run at hrun
  rw [ends_bind] at hrun
  exact hrun.mono (fun _ _ ht => ends_pure.mp ht) fun _ _ ht => ht

end Service

/-! ### What a new collection is -/

/-- The collection that a request to create one makes. It has the first id that is free, the fields of the request, the
    title without the blanks around it, no icon and the time of its creation; and its projects are those of the request
    that are there, each one once and in order. -/
structure State.Makes (s : State) (a : Actor) (title description : String) (projects : List String) (c : Collection) :
    Prop where
  id : s.ids.FirstFree s.db.committed c.id
  owner : c.owner = a.userId
  title : c.title = Text.strip title
  description : c.description = description
  status : c.status = .listed
  icon : c.iconUrl = none ∧ c.color = none
  created : c.created = .ofInstant s.now
  updated : c.updated = .ofInstant s.now
  ordered : c.projects.Pairwise (· < ·)
  members : ∀ p, p ∈ c.projects ↔ p ∈ projects ∧ s.db.committed.hasProject p = true

theorem State.makes_newCollection {s : State} {a : Actor} {id title description : String} {projects : List String}
    (hid : s.ids.FirstFree s.db.committed id) :
    s.Makes a title description projects (newCollection id a.userId (Text.strip title) description .initial s.now
      (sorted (s.db.committed.knownProjects projects))) where
  id := hid
  owner := rfl
  title := rfl
  description := rfl
  status := rfl
  icon := ⟨rfl, rfl⟩
  created := rfl
  updated := rfl
  ordered := sorted_strict ((nodup_distinct projects).filter _)
  members p := by
    rw [newCollection, mem_sorted, Tables.knownProjects, List.mem_filter, mem_distinct]

/-! ### Reading it back -/

/-- A collection is what is read under its id: from the cache, dead entries included, from the rows that are committed,
    and, unless it is hidden, by whoever asks for it. -/
structure State.ReadsBack (s : State) (c : Collection) : Prop where
  entry : ∀ e, s.cache.entries.get? c.id = some e → e.value = c
  load : (Catalog.load [c.id] s.closed.answering).1 = .ok [(c.id, c)]
  found : ∀ found, (Catalog.fetch c.id s).1 = .ok found → found = some c
  fetch : s.Answers → (Catalog.fetch c.id s).1 = .ok (some c)
  get : s.Answers → c.status.isHidden = false → ∀ viewer, (Service.get viewer c.id s).1 = .ok c

/-- What the tables hold is read, wherever it is read from. -/
theorem State.Settled.readsBack {s : State} (h : s.Settled) (hlegible : s.db.committed.Legible) {c : Collection}
    (hheld : s.db.committed.held? c.id = some c) : s.ReadsBack c where
  entry e he := by
    have hentry : s.db.committed.held? c.id = some e.value := h.entries c.id e he
    rw [hheld] at hentry
    exact (Option.some.inj hentry).symm
  load := by
    have hanswers : s.closed.answering.Answers := ⟨rfl, rfl, fun _ ho => nomatch ho⟩
    rw [Catalog.load_fst hanswers]
    exact h.committed.rows.read_singleton hheld
  found found hfound := by
    have hends : Ends (Catalog.fetch c.id) s (fun found _ => found = some c) fun _ _ => True :=
      Catalog.fetch_ends h.view.rows h.fit (fun _ _ => by rw [h.seen, hheld]) fun _ _ _ _ => trivial
    rcases hends.result with ⟨_, _, hrun, rfl⟩ | ⟨_, _, hrun, -⟩
    · rw [hrun] at hfound
      exact (Except.ok.inj hfound).symm
    · rw [hrun] at hfound
      cases hfound
  fetch hanswers := by rw [h.fetch_of_answers hlegible hanswers, hheld]
  get hanswers hshown viewer := by
    have hfetch : (Catalog.fetch c.id s).1 = .ok (some c) := by rw [h.fetch_of_answers hlegible hanswers, hheld]
    have hends : Ends (Service.get viewer c.id) s (fun d _ => d = c) fun _ _ => False := by
      unfold Service.get
      rw [ends_bind, Act.ends_iff]
      refine ⟨fun found t hrun => ?_, fun e t hrun => ?_⟩
      · rw [hrun] at hfetch
        cases hfetch
        exact check_passes (by simp [Gate.shown, Gate.sees, hshown]) rfl
      · rw [hrun] at hfetch
        cases hfetch
    obtain ⟨_, _, hrun, rfl⟩ := hends.exists_ok
    rw [hrun]

/-- The operation names the collection that it is about. -/
def Operation.targets (id : String) : Operation → Prop
  | create .. => False
  | edit _ id' _ | setIcon _ id' _ _ | clearIcon _ id' | delete _ id' => id' = id

/-- What is there and is not what an operation is about stays as it is. -/
theorem Operation.Effect.spares {s : State} {v : Tables} {o : Operation} {id : String} {c : Collection}
    (h : o.Effect s v) (ho : ¬ o.targets id) (hheld : s.db.committed.held? id = some c) : v.held? id = some c := by
  rcases h.entitled id with hsame | hentitled
  · rw [hsame.held?, hheld]
  · cases hentitled with
    | create _ free =>
      obtain ⟨r, hr, -⟩ := Tables.held?_eq_some.mp hheld
      rw [free] at hr
      cases hr
    | edit | setIcon | clearIcon | delete => exact absurd rfl ho

namespace Service

variable {s t : State} {o : Option Operation} {id : String} {c : Collection}

/-- No operation is about the collection. -/
def sparing (id : String) (o : Option Operation) (_ _ : State) : Prop := ∀ op, o = some op → ¬ op.targets id

theorem Step.held (h : s.Settled) (hstep : Step o s t) (ho : sparing id o s t)
    (hheld : s.db.committed.held? id = some c) : t.db.committed.held? id = some c := by
  rcases hstep.effect h with hsame | ⟨op, hop, heffect⟩
  · rwa [hsame]
  · exact heffect.spares (ho op hop) hheld

theorem Runs.held (h : s.Settled) (hruns : Runs (sparing id) s t) (hheld : s.db.committed.held? id = some c) :
    t.db.committed.held? id = some c := by
  induction hruns with
  | refl => exact hheld
  | step hruns hstep ho ih => exact hstep.held (hruns.settled h) ho ih

/-- Where the database answers and takes writes, a request to create a collection that passes every check succeeds, and
    returns the collection that it makes. No other row or membership changes. The collection is in the cache from then
    on, and whatever happens afterwards, it is what is read under its id, until an operation is about it. -/
theorem created_read_back (hs : Served s) (hserves : s.Serves) {a : Actor} (hscope : a.hasScope .create = true)
    (howner : a.userId ≠ "") {title description : String} {projects : List String}
    (hvalid : Validation.create (Text.strip title) description projects = []) (hgiven : "" ∉ s.ids.given) :
    ∃ c t, Service.create (some a) title description projects s = (.ok c, t) ∧
      s.Makes a title description projects c ∧
      (∀ id, id ≠ c.id → t.db.committed.AgreeAt s.db.committed id) ∧
      t.db.committed.projects = s.db.committed.projects ∧
      t.cache.entries.get? c.id = some ⟨c, s.now + s.cache.ttl * Time.microsPerSecond⟩ ∧
      ∀ u, Runs (sparing c.id) t u → u.ReadsBack c := by
  obtain ⟨c, t, hrun, hid, hc, ht, hentry⟩ :=
    (create_serves hs.settled hserves hscope howner hvalid hgiven).exists_ok
  obtain ⟨hsettled, heffect⟩ := (create_ends hs.settled (some a) title description projects).of_ok hrun
  have hlegible : t.db.committed.Legible := heffect.legible hs.settled.dated hs.legible
  refine ⟨c, t, hrun, ?_, fun id hne => ?_, ?_, hentry, fun u hruns => ?_⟩
  · rw [hc]
    exact State.makes_newCollection hid
  · rw [ht]
    exact (Tables.addLinks_agreeAt hne).trans (Tables.withRow_agreeAt hid.free hne)
  · rw [ht]
    rfl
  · -- The cache holds nothing but what is committed, and so what it was given to hold is committed.
    have hheld : t.db.committed.held? c.id = some c := hsettled.entries c.id _ hentry
    exact (hruns.settled hsettled).readsBack (hruns.legible hsettled hlegible) (hruns.held hsettled hheld)

/-- The first id that is drawn is that of the only collection, so that another one is drawn for the new collection. -/
theorem created_read_back_second :
    let s : State := { State.lone with ids := { given := ["c", "d"] } }
    Served s ∧ s.Serves ∧ Validation.create (Text.strip " Workshop ") "Things to work with" ["p"] = [] ∧
      ∃ c t, Service.create (some { userId := "u" }) " Workshop " "Things to work with" ["p"] s = (.ok c, t) ∧
        c.id = "d" ∧ s.Makes { userId := "u" } " Workshop " "Things to work with" ["p"] c ∧ t.ReadsBack c := by
  intro s
  have hserved : Served s :=
    served_lone.runs (.step .refl (.beside false false [] { given := ["c", "d"] } {} []) trivial : Runs anything .lone s)
  have hserves : s.Serves := ⟨⟨rfl, rfl, fun _ ho => nomatch ho⟩, rfl⟩
  have hvalid : Validation.create (Text.strip " Workshop ") "Things to work with" ["p"] = [] := by decide +kernel
  have hsecond : s.ids.FirstFree s.db.committed "d" := by
    refine ⟨1, rfl, by decide, fun m hm => ?_⟩
    obtain rfl := Nat.lt_one_iff.mp hm
    decide
  obtain ⟨c, t, hrun, hmakes, -, -, -, hreads⟩ :=
    created_read_back hserved hserves (a := { userId := "u" }) rfl (by decide) hvalid (by decide)
  exact ⟨hserved, hserves, hvalid, c, t, hrun, hmakes.id.unique hsecond, hmakes, hreads t .refl⟩

end Service

end Curation
