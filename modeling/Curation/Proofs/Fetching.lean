import Curation.Proofs.Loading

/-! A fetch in its three phases. It answers as the tables do that the session sees, whatever part of the answer
    comes from the cache, and it leaves in the cache nothing but what those tables hold. -/

namespace Curation

open Act (Ends ends_bind ends_pure ends_throw ends_get ends_set ends_ite query_ends forM_ends)

namespace Tables

/-- The answer to a fetch, by the tables alone. -/
def answer (t : Tables) (ids : List String) : Except Failure (List Collection) := do
  let found ← t.read (distinct ids)
  return (distinct ids).filterMap found.get?

end Tables

/-! ### What reading changes -/

/-- Reading changes nothing that the session sees, or that waits for the end of its transaction. It may drop
    entries of the cache, and store what the session sees under ids that nothing waits for. -/
structure State.Reads (s t : State) : Prop extends s.Within t where
  tables : t.tables = s.tables
  pending : t.session.pending = s.session.pending
  stuck : t.session.stuck = s.session.stuck
  closed : t.session.view = none → s.session.view = none
  generation : ∀ id, s.cache.generation id ≤ t.cache.generation id
  keyed : s.cache.entries.keys.Nodup → t.cache.entries.keys.Nodup
  entries : ∀ id e, t.cache.entries.get? id = some e → s.cache.entries.get? id = some e ∨
    s.session.pending.get? id = none ∧ s.tables.held? id = some e.value

namespace State.Reads

variable {s t u : State}

theorem refl (s : State) : s.Reads s :=
  ⟨.refl s, rfl, rfl, rfl, id, fun _ => Generation.le_refl _, id, fun _ _ => Or.inl⟩

theorem trans (h₁ : s.Reads t) (h₂ : t.Reads u) : s.Reads u where
  toWithin := h₁.toWithin.trans h₂.toWithin
  tables := h₂.tables.trans h₁.tables
  pending := h₂.pending.trans h₁.pending
  stuck := h₂.stuck.trans h₁.stuck
  closed := h₁.closed ∘ h₂.closed
  generation id := Generation.le_trans (h₁.generation id) (h₂.generation id)
  keyed := h₂.keyed ∘ h₁.keyed
  entries id e he := by
    rcases h₂.entries id e he with he | he
    · exact h₁.entries id e he
    · exact Or.inr (h₁.pending ▸ h₁.tables ▸ he)

theorem of_gives (h : s.Gives t s.tables s.session.pending) : s.Reads t where
  toWithin := h.toWithin
  tables := h.tables
  pending := h.pending
  stuck := h.stuck
  closed hv := h.closed hv ▸ hv
  generation _ := h.cache ▸ Generation.le_refl _
  keyed := h.cache ▸ id
  entries _ _ he := Or.inl (h.cache ▸ he)

theorem sheds {c : Cache} (h : s.cache.Sheds c) : s.Reads { s with cache := c } where
  toWithin := ⟨rfl, rfl, List.suffix_refl _⟩
  tables := rfl
  pending := rfl
  stuck := rfl
  closed := id
  generation := h.generation
  keyed := h.keyed
  entries id e he := Or.inl (h.entries id e he)

theorem answers (h : s.Reads t) (hs : s.Answers) : t.Answers := hs.within h.toWithin h.stuck

end State.Reads

/-- The cache is fit to answer for the session: what is live in it under ids that nothing waits for is what the
    session sees. -/
def State.Fit (s : State) : Prop :=
  ∀ id c, s.session.pending.get? id = none → s.cache.live s.now id = some c → s.tables.held? id = some c

namespace Catalog

variable {s : State} {ids : List String} {err : Failure → State → Prop}

/-! ### Looking into the cache -/

/-- A plan that was made in a state: it has found what is live in the cache of the ids that nothing waits for, and
    notes the generations of all others. -/
structure Plan.Made (plan : Plan) (s : State) (ids : List String) : Prop where
  asked : plan.ids = distinct ids
  found : ∀ id, plan.found.get? id =
    if id ∈ ids ∧ s.session.pending.get? id = none then s.cache.live s.now id else none
  misses : plan.misses = (distinct ids).filter fun id => (plan.found.get? id).isNone
  generations : ∀ id, plan.generations.get? id = if id ∈ plan.misses then some (s.cache.generation id) else none

theorem lookUp_ends {ok : Plan → State → Prop}
    (hok : ∀ plan c, s.cache.Sheds c → (∀ id, c.generation id = s.cache.generation id) → plan.Made s ids →
      ok plan { s with cache := c }) : Ends (lookUp ids) s ok err := by
  unfold lookUp
  simp only [ends_bind, ends_get, ends_set, ends_pure]
  refine hok _ _ (Cache.sheds_getAll _ _ _) (Cache.generation_getAll _ _ _) ⟨rfl, fun id => ?_, rfl, fun id => ?_⟩
  · rw [Cache.getAll_fst]
    simp [mem_distinct]
  · rw [Cache.get?_generations, Cache.generation_getAll]

theorem lookUp_ok {plan : Plan} {t : State} (h : lookUp ids s = (.ok plan, t)) :
    ∃ c, s.cache.Sheds c ∧ (∀ id, c.generation id = s.cache.generation id) ∧ plan.Made s ids ∧
      t = { s with cache := c } := by
  have hends : Ends (lookUp ids) s (fun plan t => ∃ c, s.cache.Sheds c ∧
      (∀ id, c.generation id = s.cache.generation id) ∧ plan.Made s ids ∧ t = { s with cache := c }) fun _ _ => True :=
    lookUp_ends fun plan c hc hgen hplan => ⟨c, hc, hgen, hplan, rfl⟩
  exact hends.of_ok h

/-! ### Loading -/

theorem liftExcept_ends {α : Type} {x : Except Failure α} {ok : α → State → Prop} (hok : ∀ a, x = .ok a → ok a s)
    (herr : ∀ e, x = .error e → err e s) : Ends (load.liftExcept x) s ok err := by
  cases x with
  | error e => exact ends_throw.mpr (herr e rfl)
  | ok a => exact ends_pure.mpr (hok a rfl)

/-- The first statement of a load, which gives the rows. -/
def loadRows (ids : List String) : Act (List Row) := do
  if ids.isEmpty then return []
  Act.query (·.rowsOf ids)

/-- The second statement of a load, for the members of the rows that were found. -/
def loadMembers (rows : List Row) : Act (Keyed Collection) := do
  if rows.isEmpty then return []
  let _ ← load.liftExcept (rows.mapM Row.times)
  let members ← Act.query (·.membersOfEach (rows.map (·.id)))
  load.liftExcept (assemble rows members)

theorem load_eq : load ids = loadRows ids >>= loadMembers := by
  unfold load loadRows
  split
  · rfl
  · rfl

/-- A fetch in its parts, between which other sessions may act. -/
theorem fetchAll_eq :
    fetchAll ids =
      lookUp ids >>= fun plan => loadRows plan.misses >>= fun rows => loadMembers rows >>= finish plan := by
  simp only [fetchAll, load_eq, bind_assoc]

theorem loadRows_ends {ok : List Row → State → Prop}
    (hok : ∀ t, s.Gives t s.tables s.session.pending → ok (s.tables.rowsOf ids) t)
    (herr : ∀ r t, s.Gives t s.tables s.session.pending → ¬ s.Answers → err (.database r) t) :
    Ends (loadRows ids) s ok err := by
  unfold loadRows
  simp only [ends_ite, ends_pure]
  refine ⟨fun hids => ?_, fun _ => ?_⟩
  · have hrows : s.tables.rowsOf ids = [] := by simp [Tables.rowsOf, List.isEmpty_iff.mp hids]
    exact hrows ▸ hok s (.refl s)
  · exact query_ends (hok _ (State.Wrote.ran s).gives) fun r hr =>
      ⟨herr r s (.refl s) hr, herr r s.ran (State.Wrote.ran s).gives hr⟩

theorem loadMembers_ends {rows : List Row} {ok : Keyed Collection → State → Prop}
    (hok : ∀ found t, s.Gives t s.tables s.session.pending → s.tables.readRows rows = .ok found → ok found t)
    (herr : ∀ e t, s.Gives t s.tables s.session.pending →
      (s.tables.readRows rows = .error e ∨ ¬ s.Answers ∧ ∃ r, e = .database r) → err e t) :
    Ends (loadMembers rows) s ok err := by
  have hran : s.Gives s.ran s.tables s.session.pending := (State.Wrote.ran s).gives
  unfold loadMembers
  simp only [ends_ite, ends_bind, ends_pure]
  refine ⟨fun hrows => ?_, fun _ => liftExcept_ends (fun times htimes => ?_) fun e he => ?_⟩
  · rw [List.isEmpty_iff.mp hrows] at hok
    exact hok [] s (.refl s) rfl
  · have hread : s.tables.readRows rows = rows.mapM s.tables.entryOf := by
      rw [Tables.readRows, htimes]
      rfl
    refine query_ends ?_ fun r hr => ⟨herr _ s (.refl s) (Or.inr ⟨hr, r, rfl⟩), herr _ s.ran hran (Or.inr ⟨hr, r, rfl⟩)⟩
    rw [Tables.assemble_membersOfEach, ← hread]
    exact liftExcept_ends (fun found hfound => hok _ _ hran hfound) fun e he => herr _ _ hran (Or.inl he)
  · exact herr _ _ (.refl s) (Or.inl (by rw [Tables.readRows, he]; rfl))

theorem loadRows_ok {rows : List Row} {t : State} (h : loadRows ids s = (.ok rows, t)) :
    rows = s.tables.rowsOf ids ∧ s.Gives t s.tables s.session.pending := by
  have hends : Ends (loadRows ids) s (fun rows t => rows = s.tables.rowsOf ids ∧
      s.Gives t s.tables s.session.pending) fun _ _ => True :=
    loadRows_ends (fun t ht => ⟨rfl, ht⟩) fun _ _ _ _ => trivial
  exact hends.of_ok h

theorem loadMembers_ok {rows : List Row} {found : Keyed Collection} {t : State}
    (h : loadMembers rows s = (.ok found, t)) :
    s.tables.readRows rows = .ok found ∧ s.Gives t s.tables s.session.pending := by
  have hends : Ends (loadMembers rows) s (fun found t => s.tables.readRows rows = .ok found ∧
      s.Gives t s.tables s.session.pending) fun _ _ => True :=
    loadMembers_ends (fun found t ht hread => ⟨hread, ht⟩) fun _ _ _ _ => trivial
  exact hends.of_ok h

/-- A load gives what is read of the tables, unless the database does not answer. -/
theorem load_ends {ok : Keyed Collection → State → Prop}
    (hok : ∀ found t, s.Reads t → s.tables.read ids = .ok found → ok found t)
    (herr : ∀ e t, s.Reads t → (s.tables.read ids = .error e ∨ ¬ s.Answers ∧ ∃ r, e = .database r) → err e t) :
    Ends (load ids) s ok err := by
  rw [load_eq, ends_bind]
  refine loadRows_ends (fun t ht => ?_) fun r t ht hr => herr _ t (.of_gives ht) (Or.inr ⟨hr, r, rfl⟩)
  refine loadMembers_ends (fun found u hu hread => ?_) fun e u hu he => ?_
  · rw [ht.tables] at hread
    exact hok found u ((State.Reads.of_gives ht).trans (.of_gives hu)) hread
  · refine herr e u ((State.Reads.of_gives ht).trans (.of_gives hu)) ?_
    rw [ht.tables] at he
    exact he.imp_right fun ⟨ha, hr⟩ => ⟨fun h => ha ((State.Reads.of_gives ht).answers h), hr⟩

/-- On a database that answers, a load gives what can be read of the tables that the session sees. -/
theorem load_fst (h : s.Answers) (ids : List String) : (load ids s).1 = s.tables.read ids := by
  have hends : Ends (load ids) s (fun found _ => s.tables.read ids = .ok found)
      (fun e _ => s.tables.read ids = .error e) :=
    load_ends (fun _ _ _ hread => hread) fun e t _ he => he.resolve_right fun hr => hr.1 h
  rcases hends.result with ⟨found, t, hl, hread⟩ | ⟨e, t, hl, hread⟩
  · rw [hl, hread]
  · rw [hl, hread]

/-! ### Storing -/

/-- What storing loaded collections does: an entry that was not there is of a collection that was loaded, that
    nothing waits for, and whose generation has not passed since the plan. -/
structure Plan.Filled (plan : Plan) (loaded : Keyed Collection) (s t : State) : Prop where
  rest : t = { s with cache := t.cache }
  generation : ∀ id, s.cache.generation id ≤ t.cache.generation id
  keyed : s.cache.entries.keys.Nodup → t.cache.entries.keys.Nodup
  entries : ∀ id e, t.cache.entries.get? id = some e → s.cache.entries.get? id = some e ∨
    (∃ k, (k, e.value) ∈ loaded) ∧ e.value.id = id ∧ s.session.pending.get? id = none ∧
      ∃ g, plan.generations.get? id = some g ∧ s.cache.generation id ≤ g

theorem finish_ends {plan : Plan} {loaded : Keyed Collection} {ok : List Collection → State → Prop}
    (hok : ∀ t, plan.Filled loaded s t →
      ok (plan.ids.filterMap fun id => (plan.found.get? id).or (loaded.get? id)) t) :
    Ends (finish plan loaded) s ok err := by
  unfold finish
  rw [ends_bind]
  -- What holds after each round is that all that was stored so far was fit to be.
  refine forM_ends (plan.Filled loaded s) ⟨rfl, fun _ => Generation.le_refl _, id, fun _ _ => Or.inl⟩
    (fun ⟨k, c⟩ hmem t ht => ?_) fun t ht => ends_pure.mpr (hok t ht)
  have hpending : t.session.pending = s.session.pending := by rw [ht.rest]
  unfold fill
  simp only [ends_bind, ends_get, ends_ite, ends_pure]
  refine ⟨fun hwait => ?_, fun _ => ht⟩
  rw [hpending] at hwait
  cases hg : plan.generations.get? c.id with
  | none => exact ends_pure.mpr ht
  | some g =>
    rw [ends_set]
    rcases t.cache.fill_snd t.now c g with ⟨hgen, heq⟩ | ⟨-, heq⟩
    · rw [heq]
      refine ⟨?_, fun id => ?_, fun hs => ?_, fun id e he => ?_⟩
      · rw [ht.rest]
      · exact Generation.le_trans (ht.generation id) (Cache.generation_le_set _ _ _ _)
      · exact Cache.keyed_set (ht.keyed hs) _ _
      · rw [Cache.get?_set] at he
        split at he
        · rename_i hid
          cases he
          subst hid
          exact Or.inr ⟨⟨k, hmem⟩, rfl, by simpa using hwait, g, hg, hgen ▸ ht.generation _⟩
        · exact ht.entries id e he
    · rw [heq]
      exact ht

theorem finish_ok {plan : Plan} {loaded : Keyed Collection} {cs : List Collection} {t : State}
    (h : finish plan loaded s = (.ok cs, t)) : plan.Filled loaded s t := by
  have hends : Ends (finish plan loaded) s (fun _ t => plan.Filled loaded s t) fun _ _ => True :=
    finish_ends fun _ ht => ht
  exact hends.of_ok h

theorem Plan.Filled.reads {plan : Plan} {loaded : Keyed Collection} {t : State} (h : plan.Filled loaded s t)
    (hl : ∀ e ∈ loaded, s.tables.held? e.1 = some e.2) : s.Reads t where
  toWithin := by
    rw [h.rest]
    exact ⟨rfl, rfl, List.suffix_refl _⟩
  tables := by rw [h.rest]; rfl
  pending := by rw [h.rest]
  stuck := by rw [h.rest]
  closed hv := by
    rw [h.rest] at hv
    exact hv
  generation := h.generation
  keyed := h.keyed
  entries id e he := by
    refine (h.entries id e he).imp_right ?_
    rintro ⟨⟨k, hk⟩, hid, hwait, -⟩
    refine ⟨hwait, ?_⟩
    have hheld := hl _ hk
    rw [← hid, Tables.id_of_held? hheld]
    exact hheld

/-! ### The whole fetch -/

theorem Plan.Made.held? {plan : Plan} (h : plan.Made s ids) (hfit : s.Fit) {id : String} {c : Collection}
    (hc : plan.found.get? id = some c) : s.tables.held? id = some c := by
  rw [h.found] at hc
  split at hc
  · rename_i hid
    exact hfit id c hid.2 hc
  · cases hc

/-- What a plan has found and what is loaded for the rest of it are together what would be loaded for all of it. -/
theorem Plan.Made.answer_eq {plan : Plan} (h : plan.Made s ids) (hs : s.tables.Distinct) (hfit : s.Fit)
    {loaded : Keyed Collection} (hl : s.tables.read plan.misses = .ok loaded) :
    s.tables.answer ids = .ok (plan.ids.filterMap fun id => (plan.found.get? id).or (loaded.get? id)) := by
  have hread : ∀ e, s.tables.read ((distinct ids).filter fun id => (plan.found.get? id).isNone) = .error e ↔
      s.tables.read (distinct ids) = .error e := fun e => hs.read_filter_eq_error fun id _ hid => by
    obtain ⟨c, hc⟩ := Option.isSome_iff_exists.mp (by simpa using hid)
    exact ⟨c, h.held? hfit hc⟩
  rw [h.misses] at hl
  obtain ⟨full, hfull⟩ := (exists_ok_iff hread).mp ⟨loaded, hl⟩
  rw [Tables.answer, hfull, h.asked]
  refine congrArg Except.ok (List.filterMap_congr fun id hid => ?_)
  rw [hs.get?_read hfull, if_pos hid, hs.get?_read hl]
  cases hc : plan.found.get? id with
  | none => simp [hid, hc]
  | some c => simp [h.held? hfit hc]

theorem Plan.Made.answer_eq_error {plan : Plan} (h : plan.Made s ids) (hs : s.tables.Distinct) (hfit : s.Fit)
    {e : Failure} (he : s.tables.read plan.misses = .error e) : s.tables.answer ids = .error e := by
  rw [h.misses, hs.read_filter_eq_error] at he
  · rw [Tables.answer, he]
    rfl
  · intro id _ hid
    obtain ⟨c, hc⟩ := Option.isSome_iff_exists.mp (by simpa using hid)
    exact ⟨c, h.held? hfit hc⟩

/-- A fetch answers as the tables do that the session sees, unless the database does not answer. -/
theorem fetchAll_ends (hs : s.tables.Distinct) (hfit : s.Fit) {ok : List Collection → State → Prop}
    (hok : ∀ cs t, s.Reads t → s.tables.answer ids = .ok cs → ok cs t)
    (herr : ∀ e t, s.Reads t → (s.tables.answer ids = .error e ∨ ¬ s.Answers ∧ ∃ r, e = .database r) → err e t) :
    Ends (fetchAll ids) s ok err := by
  unfold fetchAll
  simp only [ends_bind]
  refine lookUp_ends fun plan c hc _ hplan => load_ends (fun loaded u hu hl => ?_) fun e u hu he => ?_
  · have hl : s.tables.read plan.misses = .ok loaded := hl
    refine finish_ends fun v hv => ?_
    have hreads : u.Reads v := hv.reads fun e he => by
      rw [hu.tables]
      exact (hs.mem_read hl he).2
    exact hok _ _ (((State.Reads.sheds hc).trans hu).trans hreads) (hplan.answer_eq hs hfit hl)
  · refine herr e u ((State.Reads.sheds hc).trans hu) ?_
    rcases he with he | ⟨ha, hr⟩
    · exact Or.inl (hplan.answer_eq_error hs hfit he)
    · exact Or.inr ⟨fun h => ha ⟨h.stuck, h.present, h.outages⟩, hr⟩

/-- A fetch of one collection gives what the tables hold, if it can be read. -/
theorem fetch_ends {id : String} (hs : s.tables.Distinct) (hfit : s.Fit) {ok : Option Collection → State → Prop}
    (hok : ∀ t, s.Reads t → ok (s.tables.held? id) t)
    (herr : ∀ e t, s.Reads t → (s.tables.answer [id] = .error e ∨ ¬ s.Answers ∧ ∃ r, e = .database r) → err e t) :
    Ends (fetch id) s ok err := by
  unfold fetch
  rw [ends_bind]
  refine fetchAll_ends hs hfit (fun cs t ht hcs => ?_) herr
  obtain ⟨found, hfound, hcs⟩ := bind_eq_ok.mp hcs
  cases hcs
  have hget : found.get? id = _ := hs.get?_read hfound
  simp only [distinct, List.filter_nil, List.mem_singleton, if_true] at hget
  have hhead : ((distinct [id]).filterMap found.get?).head? = s.tables.held? id := by
    rw [← hget]
    cases hf : found.get? id with
    | none => simp [distinct, hf]
    | some c => simp [distinct, hf]
  rw [ends_pure, hhead]
  exact hok t ht

end Catalog

end Curation
