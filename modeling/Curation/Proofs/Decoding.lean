import Curation.Http.App
import Curation.Proofs.Operations

/-! What a request asks the service for, told by the form of its body and its query alone, and that it is what the
    schemas read: their readings have a value just where the request has the form. -/

namespace Curation

open Json (Value)

/-! ### The form of requests -/

/-- What a request can ask of the service about one collection. -/
inductive Call where
  | get (actor : Option Actor) (id : String)
  | change (o : Operation)

namespace Json.Value

/-- The texts of a list of texts. -/
def texts? : Value → Option (List String)
  | list vs => vs.mapM text?
  | _ => none

end Json.Value

namespace Http

/-- A field which is not given if it is left out, and neither if it is null. It is none if its value has not the form
    that is asked for. -/
def given? {α : Type} (read : Value → Option α) (name : String) (fields : Keyed Value) : Option (Option α) :=
  match fields.get? name with
  | none | some .null => some none
  | some v => (read v).map some

/-- What a body asks for that creates a collection. -/
def creation? (fields : Keyed Value) : Option Request.Creation := do
  let title ← (fields.get? "title").bind Value.text?
  let description ← (fields.get? "description").bind Value.text?
  let projects ← (fields.get? "projects").elim (some []) Value.texts?
  return { title, description, projects }

/-- What a body asks for that edits a collection. -/
def edit? (fields : Keyed Value) : Option Service.Edit := do
  let title ← given? Value.text? "title" fields
  let description ← given? Value.text? "description" fields
  let status ← given? Value.text? "status" fields
  let projects ← given? Value.texts? "new_projects" fields
  return { title, description, status, projects }

namespace Request

/-- The fields of the body, which must be there as a whole, be said to be in the interchange format, and be a record. -/
def fields? (r : Http.Request) : Option (Keyed Value) :=
  if r.cut || !(r.header? "content-type").any isJson then none
  else match (Json.decode? r.bytes).map (Json.read r.nesting) with
    | some (.ok (.record fields)) => some fields
    | _ => none

/-- The call of the service that a request asks for, if its body and its query have the form for that. -/
def call? (r : Http.Request) : Endpoint → Option Call
  | .create => (r.fields?.bind creation?).map fun c =>
    .change (.create r.actor c.title c.description c.projects)
  | .get id => some (.get r.actor id)
  | .edit id => (r.fields?.bind edit?).map fun e => .change (.edit r.actor id e)
  | .setIcon id => (Text.queryValue? r.query "ext").map fun extension =>
    .change (.setIcon r.actor id extension r.payload)
  | .clearIcon id => some (.change (.clearIcon r.actor id))
  | .delete id => some (.change (.delete r.actor id))
  | _ => none

end Request

end Http

/-! ### Readings -/

namespace Schema

variable {α β : Type}

/-- The value of a reading without mismatches. -/
def Reading.value? : Reading α → Option α
  | .value a => some a
  | .mismatches _ => none

namespace Reading

@[simp] theorem value?_pure (a : α) : (pure a : Reading α).value? = some a := rfl

@[simp] theorem value?_fault (f : Fault) : (fault f : Reading α).value? = none := rfl

@[simp] theorem value?_seq (f : Reading (α → β)) (x : Reading α) :
    (f <*> x).value? = f.value?.bind fun f => x.value?.map f := by
  cases f <;> cases x <;> rfl

@[simp] theorem value?_map (f : α → β) (x : Reading α) : (f <$> x).value? = x.value?.map f := by
  cases x <;> rfl

@[simp] theorem value?_under (step : Step) (x : Reading α) : (x.under step).value? = x.value? := by
  cases x <;> rfl

end Reading

variable {read : Value → Reading α} {name : String} {fields : Keyed Value}

@[simp] theorem value?_text (v : Value) : (text v).value? = v.text? := by
  cases v <;> rfl

theorem value?_items (i : Nat) (vs : List Value) : (items read i vs).value? = vs.mapM fun v => (read v).value? := by
  induction vs generalizing i with
  | nil => rfl
  | cons v vs ih =>
    rw [items, List.mapM_cons, Reading.value?_seq, Reading.value?_map, Reading.value?_under, ih]
    cases (read v).value? with
    | none => rfl
    | some a => cases (vs.mapM fun v => (read v).value?) <;> rfl

@[simp] theorem value?_texts (v : Value) : (list text v).value? = v.texts? := by
  cases v with
  | list vs => simp [list, value?_items, Value.texts?]
  | _ => rfl

theorem value?_required :
    (required name read fields).value? = (fields.get? name).bind fun v => (read v).value? := by
  unfold required
  cases fields.get? name <;> simp

theorem value?_withDefault {default : α} :
    (withDefault name default read fields).value? =
      (fields.get? name).elim (some default) fun v => (read v).value? := by
  unfold withDefault
  cases fields.get? name <;> simp

theorem value?_given :
    (withDefault name none (optional read) fields).value? = Http.given? (fun v => (read v).value?) name fields := by
  rw [value?_withDefault, Http.given?]
  cases fields.get? name with
  | none => rfl
  | some v => cases v <;> simp [optional]

end Schema

/-! ### Bodies -/

namespace Http

theorem value?_creation (fields : Keyed Value) : (Request.Creation.ofFields fields).value? = creation? fields := by
  simp only [Request.Creation.ofFields, creation?, Schema.Reading.value?_seq, Schema.Reading.value?_map,
    Schema.value?_required, Schema.value?_withDefault, Schema.value?_text, Schema.value?_texts]
  cases (fields.get? "title").bind Value.text? with
  | none => rfl
  | some title => cases (fields.get? "description").bind Value.text? with
    | none => rfl
    | some description => cases (fields.get? "projects").elim (some []) Value.texts? <;> rfl

theorem value?_edit (fields : Keyed Value) : (Request.editOfFields fields).value? = edit? fields := by
  simp only [Request.editOfFields, edit?, Schema.Reading.value?_seq, Schema.Reading.value?_map, Schema.value?_given,
    Schema.value?_text, Schema.value?_texts]
  cases given? Value.text? "title" fields with
  | none => rfl
  | some title => cases given? Value.text? "description" fields with
    | none => rfl
    | some description => cases given? Value.text? "status" fields with
      | none => rfl
      | some status => cases given? Value.texts? "new_projects" fields <;> rfl

namespace Request

variable {r : Http.Request}

/-- No bytes are no record. -/
theorem fields?_of_isEmpty (h : r.bytes.isEmpty = true) : r.fields? = none := by
  have hdecode : Json.decode? [] = some [] := by decide +kernel
  have hread : Json.read r.nesting [] = .error (.malformed 0) := rfl
  unfold fields?
  rw [List.isEmpty_iff.mp h, hdecode, Option.map_some, hread]
  split <;> rfl

/-- Where a request has fields they are what is read of its body, and where it has none it is answered as a bad one,
    be it because its body cannot be read or because it is not such as is asked for. -/
theorem readBody_cases (r : Http.Request) :
    (∃ fields, r.fields? = some fields ∧ readBody r = .ok (.value (.record fields))) ∨
      r.fields? = none ∧ ((∃ a, readBody r = .error a ∧ a.status = 400) ∨
        ∃ body, readBody r = .ok body ∧ ∀ {α : Type} (read : Keyed Value → Schema.Reading α),
          (body.read read).value? = none) := by
  unfold readBody
  by_cases hcut : r.cut = true
  · refine Or.inr ⟨by simp [fields?, hcut], Or.inl ⟨_, if_pos hcut, rfl⟩⟩
  rw [if_neg hcut]
  by_cases hempty : r.bytes.isEmpty = true
  · exact Or.inr ⟨fields?_of_isEmpty hempty, Or.inr ⟨_, if_pos hempty, fun _ => rfl⟩⟩
  rw [if_neg hempty]
  by_cases hkind : (r.header? "content-type").any isJson = true
  · rw [if_neg (by simp [hkind]), fields?, if_neg (by simp [hcut, hkind])]
    cases Json.decode? r.bytes with
    | none => exact Or.inr ⟨rfl, Or.inl ⟨_, rfl, rfl⟩⟩
    | some points =>
      dsimp only [Option.map_some]
      cases Json.read r.nesting points with
      | error e =>
        refine Or.inr ⟨rfl, Or.inl ?_⟩
        cases e with
        | malformed => exact ⟨_, rfl, rfl⟩
        | _ => exact ⟨_, rfl, rfl⟩
      | ok v =>
        cases v with
        | record fields => exact Or.inl ⟨fields, rfl, rfl⟩
        | _ => exact Or.inr ⟨rfl, Or.inr ⟨_, rfl, fun _ => rfl⟩⟩
  · exact Or.inr ⟨by simp [fields?, hkind], Or.inr ⟨_, if_pos (by simp [hkind]), fun _ => rfl⟩⟩

end Request

end Http

end Curation
