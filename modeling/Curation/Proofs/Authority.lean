import Curation.Proofs.Serving

/-! Who changes a collection, and how. What an operation changes is one collection that its actor may change, and what a
    row says of the origin of its collection stays as long as the row is there. -/

namespace Curation

open Time (Instant)

/-! ### What a change keeps -/

/-- Two rows tell of the same collection, with the same owner and the same beginning. -/
structure Row.Keeps (r r' : Row) : Prop where
  id : r'.id = r.id
  owner : r'.owner = r.owner
  created : r'.created = r.created

namespace Row.Keeps

variable {r r' r'' : Row}

theorem refl (r : Row) : r.Keeps r := ⟨rfl, rfl, rfl⟩

theorem trans (h₁ : r.Keeps r') (h₂ : r'.Keeps r'') : r.Keeps r'' :=
  ⟨h₂.id.trans h₁.id, h₂.owner.trans h₁.owner, h₂.created.trans h₁.created⟩

end Row.Keeps

namespace Tables

variable {t : Tables} {now : Instant} {id : String}

/-- An edit keeps the origin of the row, and its status too unless it sets another. -/
theorem row?_edited {title description : Option String} {status : Option Status} {projects : Option (List String)}
    {r r' : Row} (hr : t.row? id = some r)
    (hr' : (t.edited now id title description status projects).row? id = some r') :
    r.Keeps r' ∧ r'.status = (status.map Status.word).getD r.status := by
  have hrevised : (t.updateRows now id (Catalog.revisions title description status)).row? id = some r' := by
    cases projects with
    | none => exact hr'
    | some ps => exact hr'
  cases title <;> cases description <;> cases status <;>
    simp [Catalog.revisions, updateRows, row?_updateRow, hr] at hrevised <;> subst hrevised <;>
    exact ⟨⟨rfl, rfl, rfl⟩, rfl⟩

theorem edited_agreeAt {title description : Option String} {status : Option Status} {projects : Option (List String)}
    {id' : String} (hne : id' ≠ id) : (t.edited now id title description status projects).AgreeAt t id' := by
  have hrevised : (t.updateRows now id (Catalog.revisions title description status)).AgreeAt t id' :=
    updateRows_agreeAt Catalog.id_of_mem_revisions hne
  cases projects with
  | none => exact hrevised
  | some ps => exact ((addLinks_agreeAt hne).trans (deleteLinks_agreeAt hne)).trans hrevised

/-- The row of a collection that is read. -/
theorem Grants.row {a : Actor} {scope : Scope} {c : Collection} (h : t.Grants a scope id c) :
    ∃ r, t.row? id = some r ∧ r.owner = c.owner ∧ Status.ofWord? r.status = some c.status := by
  obtain ⟨r, hr, hc⟩ := held?_eq_some.mp h.held
  obtain ⟨_, status, _, _, -, hstatus, rfl⟩ := Row.toCollection_eq_ok hc
  exact ⟨r, hr, rfl, hstatus⟩

end Tables

/-! ### What an actor may do -/

/-- The actor may change the collection of a row: the credential has the scope for it, and the actor moderates or owns
    the collection. -/
structure Actor.MayChange (a : Actor) (scope : Scope) (r : Row) : Prop where
  scope : a.hasScope scope = true
  standing : a.moderates = true ∨ a.userId = r.owner

/-- The actor may set a status in the place of another one: a moderator always, all others only from an approved status
    to one that can be requested. -/
def Actor.MayMove (a : Actor) (old new : String) : Prop :=
  ∃ current requested, Status.ofWord? old = some current ∧ Status.ofWord? new = some requested ∧
    (a.moderates = true ∨ current.isApproved = true ∧ requested.isRequestable = true)

namespace Operation

/-- The operation is entitled to change a collection: it adds it, or it names the collection and its actor may change
    it. -/
inductive Entitled (t v : Tables) (id : String) : Operation → Prop
  | create {a : Actor} {title description : String} {projects : List String} {r : Row}
    (scope : a.hasScope .create = true) (free : t.row? id = none) (new : v.row? id = some r)
    (owner : r.owner = a.userId) : Entitled t v id (.create (some a) title description projects)
  | edit {a : Actor} {e : Service.Edit} {r : Row} (old : t.row? id = some r) (may : a.MayChange .write r) :
    Entitled t v id (.edit (some a) id e)
  | setIcon {a : Actor} {extension : String} {payload : Payload} {r : Row} (old : t.row? id = some r)
    (may : a.MayChange .write r) : Entitled t v id (.setIcon (some a) id extension payload)
  | clearIcon {a : Actor} {r : Row} (old : t.row? id = some r) (may : a.MayChange .write r) :
    Entitled t v id (.clearIcon (some a) id)
  | delete {a : Actor} {r : Row} (old : t.row? id = some r) (may : a.MayChange .delete r) :
    Entitled t v id (.delete (some a) id)

variable {s : State} {v : Tables} {o : Operation} {id : String}

/-- What an actor was granted to change is the only collection that changes. -/
theorem entitled_of_grants {t : Tables} {a : Actor} {scope : Scope} {c : Collection} (h : t.Grants a scope id c)
    (others : ∀ id', id' ≠ id → v.AgreeAt t id')
    (change : ∀ r, t.row? id = some r → a.MayChange scope r → o.Entitled t v id) (id' : String) :
    v.AgreeAt t id' ∨ o.Entitled t v id' := by
  by_cases hid : id' = id
  · obtain ⟨r, hr, howner, -⟩ := h.row
    have hstanding : a.moderates = true ∨ a.userId = r.owner := by
      simpa [Gate.maintains, howner] using h.maintains
    rw [hid]
    exact Or.inr (change r hr ⟨h.scope, hstanding⟩)
  · exact Or.inl (others id' hid)

/-- An operation leaves a collection alone or is entitled to change it. -/
theorem Effect.entitled (h : o.Effect s v) (id : String) :
    v.AgreeAt s.db.committed id ∨ o.Entitled s.db.committed v id := by
  cases h with
  | @create a title description projects id' scope valid free named owned =>
    by_cases hid : id = id'
    · rw [hid]
      exact Or.inr (.create scope free ((Tables.row?_withRow free id').trans (if_pos rfl)) rfl)
    · exact Or.inl ((Tables.addLinks_agreeAt hid).trans (Tables.withRow_agreeAt free hid))
  | edit grants =>
    exact entitled_of_grants grants (fun _ hne => Tables.edited_agreeAt hne) (fun _ => .edit) id
  | setIcon grants =>
    refine entitled_of_grants grants (fun _ hne => ?_) (fun _ => .setIcon) id
    exact Tables.updateRow_agreeAt Catalog.id_withIcon hne
  | clearIcon grants =>
    refine entitled_of_grants grants (fun _ hne => ?_) (fun _ => .clearIcon) id
    exact Tables.updateRow_agreeAt Catalog.id_withIcon hne
  | delete grants =>
    refine entitled_of_grants grants (fun _ hne => ?_) (fun _ => .delete) id
    exact (Tables.deleteRow_agreeAt hne).trans (Tables.deleteLinks_agreeAt hne)

/-- An icon that is set or cleared changes neither the origin of a row nor its status. -/
theorem row?_withIcon {t : Tables} {now : Instant} {url : Option String} {color : Option Int} {r r' : Row}
    (hr : t.row? id = some r) (hr' : (t.updateRow now id (Catalog.withIcon url color)).2.row? id = some r') :
    r.Keeps r' ∧ r'.status = r.status := by
  rw [Tables.row?_updateRow Catalog.id_withIcon, if_pos rfl, hr] at hr'
  cases hr'
  exact ⟨⟨rfl, rfl, rfl⟩, rfl⟩

/-- A row that is there before and after an operation keeps its origin, and it keeps its status unless an actor who may
    do so has edited it. -/
theorem Effect.row (h : o.Effect s v) {r r' : Row} (hr : s.db.committed.row? id = some r) (hr' : v.row? id = some r') :
    r.Keeps r' ∧ (r'.status = r.status ∨ ∃ a e, o = .edit (some a) id e ∧ a.MayMove r.status r'.status) := by
  rcases h.entitled id with hsame | hentitled
  · have : some r' = some r := by rw [← hr', ← hr, hsame.row]
    cases this
    exact ⟨.refl r, Or.inl rfl⟩
  -- An operation that is entitled is about this collection, so its effect tells what became of the row.
  cases hentitled with
  | create _ free =>
    rw [hr] at free
    cases free
  | @edit a e =>
    cases h with
    | @edit _ _ _ c status grants _ _ allowed =>
      obtain ⟨hkeeps, hstatus⟩ := Tables.row?_edited hr hr'
      refine ⟨hkeeps, ?_⟩
      cases status with
      | none => exact Or.inl hstatus
      | some st =>
        obtain ⟨r₀, hr₀, -, hread⟩ := grants.row
        rw [hr] at hr₀
        cases hr₀
        have hmay := allowed st rfl
        simp only [Gate.mayChangeStatus, Bool.or_eq_true, Bool.and_eq_true] at hmay
        have hnew : Status.ofWord? r'.status = some st := by
          rw [hstatus]
          exact Status.ofWord?_word st
        exact Or.inr ⟨a, e, rfl, c.status, st, hread, hnew, hmay⟩
  | setIcon =>
    cases h
    exact (row?_withIcon hr hr').imp_right Or.inl
  | clearIcon =>
    cases h
    exact (row?_withIcon hr hr').imp_right Or.inl
  | delete =>
    cases h
    rw [Tables.row?_deleteRow, if_pos rfl] at hr'
    cases hr'

/-- Who asks for the operation. -/
def actor? : Operation → Option Actor
  | create actor _ _ _ | edit actor _ _ | setIcon actor _ _ _ | clearIcon actor _ | delete actor _ => actor

end Operation

namespace Service

variable {s t : State} {o : Option Operation} {id : String} {r r' : Row}

/-- A step leaves a collection alone, or it is an operation that is entitled to change it. -/
theorem Step.entitled (h : s.Settled) (hstep : Step o s t) (id : String) :
    t.db.committed.AgreeAt s.db.committed id ∨
      ∃ op, o = some op ∧ op.Entitled s.db.committed t.db.committed id := by
  rcases hstep.effect h with heq | ⟨op, rfl, heffect⟩
  · exact Or.inl (heq ▸ .refl _ id)
  · exact (heffect.entitled id).imp_right fun hentitled => ⟨op, rfl, hentitled⟩

theorem Step.row (h : s.Settled) (hstep : Step o s t) (hr : s.db.committed.row? id = some r)
    (hr' : t.db.committed.row? id = some r') :
    r.Keeps r' ∧ (r'.status = r.status ∨ ∃ a e, o = some (.edit (some a) id e) ∧ a.MayMove r.status r'.status) := by
  rcases hstep.effect h with heq | ⟨op, rfl, heffect⟩
  · rw [heq, hr] at hr'
    cases hr'
    exact ⟨.refl r, Or.inl rfl⟩
  · refine (heffect.row hr hr').imp_right (Or.imp_right ?_)
    rintro ⟨a, e, rfl, hmay⟩
    exact ⟨a, e, rfl, hmay⟩

/-! ### Over a whole run -/

/-- The collection is there after the step. -/
def present (id : String) (_ : Option Operation) (_ t : State) : Prop := (t.db.committed.row? id).isSome

/-- The collection is there after the step, which is no operation of a moderator. -/
def unmoderated (id : String) (o : Option Operation) (s t : State) : Prop :=
  present id o s t ∧ ∀ op a, o = some op → op.actor? = some a → a.moderates = false

/-- The origin of a collection does not change while it is there. -/
theorem Runs.keeps (h : s.Settled) (hruns : Runs (present id) s t) (hr : s.db.committed.row? id = some r) :
    ∃ r', t.db.committed.row? id = some r' ∧ r.Keeps r' := by
  induction hruns with
  | refl => exact ⟨r, hr, .refl r⟩
  | step ht hstep hpresent ih =>
    obtain ⟨r₁, hr₁, hkeeps⟩ := ih
    obtain ⟨r₂, hr₂⟩ := Option.isSome_iff_exists.mp hpresent
    exact ⟨r₂, hr₂, hkeeps.trans (hstep.row (ht.settled h) hr₁ hr₂).1⟩

/-- Without a moderator a status that is not approved stays until the collection is deleted. -/
theorem Runs.status (h : s.Settled) (hruns : Runs (unmoderated id) s t) (hr : s.db.committed.row? id = some r)
    {st : Status} (hst : Status.ofWord? r.status = some st) (happroved : st.isApproved = false) :
    ∃ r', t.db.committed.row? id = some r' ∧ r'.status = r.status := by
  induction hruns with
  | refl => exact ⟨r, hr, rfl⟩
  | step ht hstep hallowed ih =>
    obtain ⟨hpresent, hactor⟩ := hallowed
    obtain ⟨r₁, hr₁, hstatus⟩ := ih
    obtain ⟨r₂, hr₂⟩ := Option.isSome_iff_exists.mp hpresent
    refine ⟨r₂, hr₂, ?_⟩
    rcases (hstep.row (ht.settled h) hr₁ hr₂).2 with hsame | ⟨a, e, rfl, current, requested, hcurrent, -, hmay⟩
    · exact hsame.trans hstatus
    · -- The old status is not approved, so that only a moderator could have set another one.
      rw [hstatus, hst] at hcurrent
      cases hcurrent
      rcases hmay with hmoderates | ⟨hmoved, -⟩
      · rw [hactor _ a rfl rfl] at hmoderates
        cases hmoderates
      · rw [happroved] at hmoved
        cases hmoved

/-- In every state that the service can come to, a step that changes anything of a collection is an operation that is
    entitled to change it. While a collection is there, its id, its owner and the time of its creation stay as they are.
    Its status changes only by an edit of an actor who may set the new status in the place of the old one, so that
    without a moderator a collection that is rejected, or whose status is unknown, stays so until it is deleted. -/
theorem changes_entitled (hs : Reached s) :
    (∀ o t id, Step o s t → ¬ t.db.committed.AgreeAt s.db.committed id →
      ∃ op, o = some op ∧ op.Entitled s.db.committed t.db.committed id) ∧
    (∀ t id r, Runs (present id) s t → s.db.committed.row? id = some r →
      ∃ r', t.db.committed.row? id = some r' ∧ r'.id = r.id ∧ r'.owner = r.owner ∧ r'.created = r.created) ∧
    (∀ o t id r r', Step o s t → s.db.committed.row? id = some r → t.db.committed.row? id = some r' →
      r'.status ≠ r.status → ∃ a e, o = some (.edit (some a) id e) ∧ a.MayMove r.status r'.status) ∧
    ∀ t id r, Runs (unmoderated id) s t → s.db.committed.row? id = some r →
      r.status = Status.rejected.word ∨ r.status = Status.unknown.word →
      ∃ r', t.db.committed.row? id = some r' ∧ r'.status = r.status := by
  have h := hs.settled
  refine ⟨fun o t id hstep hne => ?_, fun t id r hruns hr => ?_, fun o t id r r' hstep hr hr' hne => ?_,
    fun t id r hruns hr hstatus => ?_⟩
  · exact (hstep.entitled h id).resolve_left hne
  · obtain ⟨r', hr', hkeeps⟩ := hruns.keeps h hr
    exact ⟨r', hr', hkeeps.id, hkeeps.owner, hkeeps.created⟩
  · exact (hstep.row h hr hr').2.resolve_left hne
  · rcases hstatus with hstatus | hstatus
    · exact hruns.status h hr (hstatus ▸ Status.ofWord?_word .rejected) rfl
    · exact hruns.status h hr (hstatus ▸ Status.ofWord?_word .unknown) rfl

theorem changes_entitled_edit :
    let o := Operation.edit (some { userId := "u" }) "c" { status := some "private" }
    let t := (o.run .lone).2
    Reached .lone ∧ Step (some o) .lone t ∧ ¬ t.db.committed.AgreeAt State.lone.db.committed "c" ∧
      o.Entitled State.lone.db.committed t.db.committed "c" := by
  intro o t
  have hs : Reached .lone := ⟨.lone, ⟨rfl, by decide, State.intact_lone, rfl, rfl⟩, .refl⟩
  have hstep : Step (some o) .lone t := .operation o rfl
  have hne : ¬ t.db.committed.AgreeAt State.lone.db.committed "c" := fun h => by
    have hrow : t.db.committed.row? "c" ≠ State.lone.db.committed.row? "c" := by decide +kernel
    exact hrow h.row
  obtain ⟨op, ho, hentitled⟩ := (changes_entitled hs).1 _ t "c" hstep hne
  cases ho
  exact ⟨hs, hstep, hne, hentitled⟩

end Service

end Curation
