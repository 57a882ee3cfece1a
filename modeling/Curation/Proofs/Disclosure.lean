import Curation.Proofs.Legible

/-! What readers learn. A query is answered by the collections that its actor may see, and by nothing else: neither by
    what is hidden from the actor nor by what happens to be in the cache. -/

namespace Curation

open Act (Ends)

namespace Tables

variable {t : Tables}

/-- The collection that the tables hold under an id, if the viewer may see it. -/
def seen? (t : Tables) (viewer : Option Actor) (id : String) : Option Collection :=
  (t.held? id).filter fun c => Gate.sees c viewer

/-- How a request for one collection is answered. -/
def shown (t : Tables) (viewer : Option Actor) (id : String) : Except Failure Collection :=
  match t.seen? viewer id with
  | some c => .ok c
  | none => .error (.notFound id)

theorem shown_eq (viewer : Option Actor) (id : String) : Gate.shown id (t.held? id) viewer = t.shown viewer id := by
  unfold Gate.shown shown seen?
  cases t.held? id with
  | none => rfl
  | some c =>
    cases hsees : Gate.sees c viewer with
    | true => simp [Option.filter, hsees]
    | false => simp [Option.filter, hsees]

theorem visible_filterMap (viewer : Option Actor) (ids : List String) :
    Gate.visible (ids.filterMap t.held?) viewer = ids.filterMap (t.seen? viewer) := List.filter_filterMap

/-- What a request for one collection gives is what its actor may see. -/
theorem toOption_shown (viewer : Option Actor) (id : String) : (t.shown viewer id).toOption = t.seen? viewer id := by
  unfold shown
  cases t.seen? viewer id with
  | none => rfl
  | some c => rfl

end Tables

namespace Query

variable {t : Tables}

theorem answer_get (h : t.Legible) (hd : t.Distinct) (actor : Option Actor) (id : String) :
    (get actor id).answer t = (t.shown (Gate.reader actor) id).map fun c => [c] := by
  have hhead : ((distinct [id]).filterMap t.held?).head? = t.held? id := by
    cases hheld : t.held? id with
    | none => simp [distinct, hheld]
    | some c => simp [distinct, hheld]
  simp only [answer, h.answer hd, bind, Except.bind, hhead, Tables.shown_eq]
  cases t.shown (Gate.reader actor) id with
  | error e => rfl
  | ok c => rfl

theorem answer_list (h : t.Legible) (hd : t.Distinct) (actor : Option Actor) (ids : List String) :
    (list actor ids).answer t = .ok ((distinct ids).filterMap (t.seen? (Gate.reader actor))) := by
  simp only [answer, h.answer hd, bind, Except.bind, Tables.visible_filterMap]
  rfl

theorem run_get (actor : Option Actor) (id : String) (s : State) :
    ((get actor id).run s).1 = (Service.get actor id s).1.map fun c => [c] := by
  have hends : Ends (get actor id).run s (fun cs _ => (Service.get actor id s).1.map (fun c => [c]) = .ok cs)
      fun e _ => (Service.get actor id s).1.map (fun c => [c]) = .error e := by
    unfold run
    rw [Act.ends_bind, Act.ends_iff]
    refine ⟨fun c t hc => Act.ends_pure.mpr ?_, fun e t he => ?_⟩
    · rw [hc]
      rfl
    · rw [he]
      rfl
  rcases hends.result with ⟨cs, t, hrun, hcs⟩ | ⟨e, t, hrun, he⟩
  · rw [hrun, hcs]
  · rw [hrun, he]

end Query

/-- An answer of one collection tells which one it is. -/
theorem eq_of_map_singleton {x y : Except Failure Collection}
    (h : (x.map fun c => [c]) = y.map fun c => [c]) : x = y := by
  cases x with
  | error e =>
    cases y with
    | error e' =>
      cases h
      rfl
    | ok c => cases h
  | ok c =>
    cases y with
    | error e => cases h
    | ok c' =>
      cases h
      rfl

/-- Hidden from a reader are the hidden collections of others, unless the reader is a moderator. A credential without
    the scope for reading is none. -/
theorem Tables.seen?_reader {t : Tables} {actor : Option Actor} {id : String} {c : Collection} :
    t.seen? (Gate.reader actor) id = some c ↔ t.held? id = some c ∧ (c.status.isHidden = true →
      ∃ a, actor = some a ∧ a.hasScope .read = true ∧ (a.moderates = true ∨ a.userId = c.owner)) := by
  have hsees : Gate.sees c (Gate.reader actor) = true ↔ (c.status.isHidden = true →
      ∃ a, actor = some a ∧ a.hasScope .read = true ∧ (a.moderates = true ∨ a.userId = c.owner)) := by
    unfold Gate.sees Gate.reader Gate.maintains
    cases c.status.isHidden with
    | false => simp
    | true => simp [Option.any_eq_true]
  rw [seen?, Option.filter_eq_some_iff, hsees]

/-! ### Answers -/

namespace Service

variable {s t : State}

/-- A state that the service can come to from an empty cache over rows that can be read. -/
def Served (s : State) : Prop :=
  ∃ s₀, Catalog.Start s₀ ∧ s₀.db.committed.Legible ∧ Runs anything s₀ s

theorem Served.settled (h : Served s) : s.Settled := by
  obtain ⟨s₀, hstart, -, hruns⟩ := h
  exact Reached.settled ⟨s₀, hstart, hruns⟩

theorem Served.legible (h : Served s) : s.db.committed.Legible := by
  obtain ⟨s₀, hstart, hlegible, hruns⟩ := h
  exact hruns.legible (Reached.settled ⟨s₀, hstart, .refl⟩) hlegible

theorem get_fst (h : Served s) (actor : Option Actor) (id : String) :
    (Service.get actor id s).1 = s.db.committed.shown (Gate.reader actor) id ∨ s.Refuses (.get actor id) := by
  refine (h.settled.query (.get actor id)).imp_left fun hrun => ?_
  rw [h.settled.seen, Query.answer_get h.legible h.settled.committed.rows, Query.run_get] at hrun
  exact eq_of_map_singleton hrun

theorem list_fst (h : Served s) (actor : Option Actor) (ids : List String) :
    (Service.list actor ids s).1 = .ok ((distinct ids).filterMap (s.db.committed.seen? (Gate.reader actor))) ∨
      s.Refuses (.list actor ids) := by
  refine (h.settled.query (.list actor ids)).imp_left fun hrun => ?_
  rwa [h.settled.seen, Query.answer_list h.legible h.settled.committed.rows] at hrun

/-- Two states in which an actor may see the same are not told apart by what the actor asks for. -/
theorem answers_alike (hs : Served s) (ht : Served t) {actor : Option Actor}
    (hsame : ∀ id, s.db.committed.seen? (Gate.reader actor) id = t.db.committed.seen? (Gate.reader actor) id) :
    (∀ id, (Service.get actor id s).1 = (Service.get actor id t).1 ∨
      s.Refuses (.get actor id) ∨ t.Refuses (.get actor id)) ∧
    ∀ ids, (Service.list actor ids s).1 = (Service.list actor ids t).1 ∨
      s.Refuses (.list actor ids) ∨ t.Refuses (.list actor ids) := by
  constructor
  · intro id
    have hshown : s.db.committed.shown (Gate.reader actor) id = t.db.committed.shown (Gate.reader actor) id := by
      rw [Tables.shown, Tables.shown, hsame]
    rcases get_fst hs actor id with hget | hrefuses
    · rcases get_fst ht actor id with hget' | hrefuses
      · exact Or.inl (by rw [hget, hget', hshown])
      · exact Or.inr (Or.inr hrefuses)
    · exact Or.inr (Or.inl hrefuses)
  · intro ids
    have hseen : s.db.committed.seen? (Gate.reader actor) = t.db.committed.seen? (Gate.reader actor) := funext hsame
    rcases list_fst hs actor ids with hlist | hrefuses
    · rcases list_fst ht actor ids with hlist' | hrefuses
      · exact Or.inl (by rw [hlist, hlist', hseen])
      · exact Or.inr (Or.inr hrefuses)
    · exact Or.inr (Or.inl hrefuses)

/-- Where the database answers, a list is made of what the requests for its ids give. -/
theorem list_of_get (hs : Served s) (ha : s.Answers) (actor : Option Actor) :
    (∀ id, (∃ c, (Service.get actor id s).1 = .ok c) ∨ (Service.get actor id s).1 = .error (.notFound id)) ∧
    ∀ ids, (Service.list actor ids s).1 =
      .ok ((distinct ids).filterMap fun id => (Service.get actor id s).1.toOption) := by
  have hget : ∀ id, (Service.get actor id s).1 = s.db.committed.shown (Gate.reader actor) id := fun id =>
    (get_fst hs actor id).resolve_right fun hrefuses => hrefuses.1 ha
  constructor
  · intro id
    rw [hget, Tables.shown]
    cases s.db.committed.seen? (Gate.reader actor) id with
    | none => exact Or.inr rfl
    | some c => exact Or.inl ⟨c, rfl⟩
  · intro ids
    have hlist := (list_fst hs actor ids).resolve_right fun hrefuses => hrefuses.1 ha
    simp only [hlist, hget, Tables.toOption_shown]

theorem reader_of_unscoped {actor : Option Actor} (h : actor.any (·.hasScope .read) = false) :
    Gate.reader actor = none := by
  unfold Gate.reader
  cases actor with
  | none => rfl
  | some a =>
    have ha : a.hasScope .read = false := h
    simp [Option.filter, ha]

/-- What an actor reads depends on nothing but the collections that the actor may see. These are all that are there but
    the hidden ones of others, and for a moderator all. In any two states that the service can come to and that agree in
    them, both kinds of query are answered alike, unless the database does not answer. In such a state every request for
    one collection gives the collection or reports that it is not found, and a request for several gives those that the
    requests for each of them give, in the order in which the ids first appear, each one once. An actor whose credential
    may not be used for reading reads what everybody may. -/
theorem hidden_undisclosed (hs : Served s) (actor : Option Actor) :
    (∀ id c, s.db.committed.seen? (Gate.reader actor) id = some c ↔ s.db.committed.held? id = some c ∧
      (c.status.isHidden = true →
        ∃ a, actor = some a ∧ a.hasScope .read = true ∧ (a.moderates = true ∨ a.userId = c.owner))) ∧
    (∀ t, Served t →
      (∀ id, s.db.committed.seen? (Gate.reader actor) id = t.db.committed.seen? (Gate.reader actor) id) →
      (∀ id, (Service.get actor id s).1 = (Service.get actor id t).1 ∨
        s.Refuses (.get actor id) ∨ t.Refuses (.get actor id)) ∧
      ∀ ids, (Service.list actor ids s).1 = (Service.list actor ids t).1 ∨
        s.Refuses (.list actor ids) ∨ t.Refuses (.list actor ids)) ∧
    (s.Answers →
      (∀ id, (∃ c, (Service.get actor id s).1 = .ok c) ∨ (Service.get actor id s).1 = .error (.notFound id)) ∧
      ∀ ids, (Service.list actor ids s).1 =
        .ok ((distinct ids).filterMap fun id => (Service.get actor id s).1.toOption)) ∧
    (actor.any (·.hasScope .read) = false →
      (∀ id, Service.get actor id = Service.get none id) ∧ ∀ ids, Service.list actor ids = Service.list none ids) := by
  refine ⟨fun _ _ => Tables.seen?_reader, fun t ht hsame => answers_alike hs ht hsame,
    fun ha => list_of_get hs ha actor, fun hscope => ?_⟩
  have hreader := reader_of_unscoped hscope
  constructor
  · intro id
    rw [Service.get, Service.get, hreader]
    rfl
  · intro ids
    rw [Service.list, Service.list, hreader]
    rfl

/-- A collection that its owner has hidden, and has then read so that it is in the cache, is to everybody else like one
    that is not there. -/
theorem hidden_undisclosed_private :
    let owner : Option Actor := some { userId := "u" }
    let o := Operation.edit owner "c" { status := some "private" }
    let q := Query.get owner "c"
    let s := (q.run (o.run .lone).2).2
    let t := { State.lone with db := {} }
    Served s ∧ Served t ∧ s.Answers ∧
      (s.cache.entries.get? "c").map (·.value.status) = some .private ∧ t.cache.entries.get? "c" = none ∧
      (Service.get none "c" s).1 = (Service.get none "c" t).1 ∧
      (Service.list none ["c", "c"] s).1 = (Service.list none ["c", "c"] t).1 := by
  intro owner o q s t
  have hlegible : State.lone.db.committed.Legible := by
    intro r hr
    obtain rfl := List.mem_singleton.mp hr
    exact ⟨by decide, by decide, by decide, fun _ => rfl, legible_exact (by decide), legible_exact (by decide)⟩
  have hs : Served s :=
    ⟨.lone, ⟨rfl, by decide, State.intact_lone, rfl, rfl⟩, hlegible,
      .step (.step .refl (.operation o rfl) trivial) (.query q rfl) trivial⟩
  have hempty : t.db.committed.Intact := ⟨List.nodup_nil, List.nodup_nil, List.nodup_nil, fun _ hl => by cases hl⟩
  have ht : Served t := ⟨t, ⟨rfl, by decide, hempty, rfl, rfl⟩, fun _ => List.not_mem_nil.elim, .refl⟩
  have hanswers : s.Answers := ⟨by decide +kernel, by decide +kernel, by decide +kernel⟩
  have hanswers' : t.Answers := ⟨rfl, rfl, fun _ ho => by cases ho⟩
  -- The only collection is hidden from everybody in the one state, and there is none in the other.
  have hids : s.db.committed.collections.map (·.id) = ["c"] := by decide +kernel
  have hsame : ∀ id, s.db.committed.seen? (Gate.reader none) id = t.db.committed.seen? (Gate.reader none) id := by
    intro id
    have hnone : t.db.committed.seen? (Gate.reader none) id = none := rfl
    rw [hnone]
    by_cases hid : id = "c"
    · rw [hid]
      decide +kernel
    · have hrow : s.db.committed.row? id = none := by
        refine Tables.row?_eq_none_iff.mpr fun r hr heq => hid ?_
        have hmem : r.id ∈ s.db.committed.collections.map (·.id) := List.mem_map_of_mem hr
        rw [hids, heq] at hmem
        exact List.mem_singleton.mp hmem
      simp [Tables.seen?, Tables.held?, Tables.collection?, hrow]
  have hcached : (s.cache.entries.get? "c").map (·.value.status) = some .private := by decide +kernel
  obtain ⟨hget, hlist⟩ := (hidden_undisclosed hs none).2.1 t ht hsame
  have hrefuses : ∀ q, ¬ (s.Refuses q ∨ t.Refuses q) := fun q h => h.elim (·.1 hanswers) (·.1 hanswers')
  exact ⟨hs, ht, hanswers, hcached, rfl, (hget "c").resolve_right (hrefuses _),
    (hlist ["c", "c"]).resolve_right (hrefuses _)⟩

end Service

end Curation
