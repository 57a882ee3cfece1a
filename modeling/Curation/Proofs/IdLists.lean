import Curation.IdList
import Curation.Proofs.Correlation
import Curation.Proofs.JsonLists
import Curation.Proofs.JsonReading
import Curation.Proofs.Requests

/-! The ids that a request for a list brings along. A text is read as ids if it writes a list of texts, and only then.
    Any other text is refused as an invalid field, unless it is too large to be read: the failure that comes of that is
    not expected (`list_of_ids`). -/

namespace Curation

open Json (WritesTexts HasHuge NestsBeyond pointsOf)

/-- What is wrong with a text that is no list of ids. -/
def idsInvalid : Failure := .field "ids" "Expected a JSON array of collection ids" "ids_invalid"

/-- A text is too large to be read, and what comes of that. -/
inductive Oversized (depth : Nat) (raw : String) : Failure → Prop
  | integer {digits : Nat} (h : HasHuge digits (pointsOf raw)) : Oversized depth raw (.badValue (.hugeInteger digits))
  | nested (record : Bool) (h : NestsBeyond depth (pointsOf raw)) : Oversized depth raw (.tooDeep record)

theorem mapM_text?_eq_some {vs : List Json.Value} {ids : List String} :
    vs.mapM Json.Value.text? = some ids ↔ vs = ids.map .text :=
  mapM_eq_some_iff_map fun v text => by cases v <;> simp [Json.Value.text?]

variable {depth : Nat}

theorem parseIds_eq_ok_iff {raw : String} {ids : List String} :
    parseIds depth raw = .ok ids ↔ 0 < depth ∧ WritesTexts raw ids := by
  rw [← Json.parse_eq_texts_iff]
  unfold parseIds
  simp only
  split
  next e hparse => simp [hparse]
  next items hparse =>
    rw [hparse, Except.ok.injEq, Json.Value.list.injEq, ← mapM_text?_eq_some]
    split
    next ids' hids => simp [hids]
    next hids => simp [hids]
  next v hlist hparse =>
    rw [hparse, Except.ok.injEq]
    exact ⟨nofun, fun hv => absurd hv (hlist _)⟩

theorem parseIds_eq_error {raw : String} {e : Failure} (h : parseIds depth raw = .error e) :
    e = idsInvalid ∨ Oversized depth raw e := by
  unfold parseIds at h
  simp only at h
  split at h
  next cause hparse =>
    cases h
    rcases Json.read_eq_error hparse with ⟨p, rfl⟩ | ⟨n, rfl, hhuge⟩ | ⟨record, rfl, hnested⟩
    · exact .inl rfl
    · exact .inr (.integer hhuge)
    · exact .inr (.nested record hnested)
  next items hparse =>
    split at h
    · cases h
    · cases h
      exact .inl rfl
  · cases h
    exact .inl rfl

/-! ### Texts that are too large -/

/-- What goes wrong within a list is what goes wrong with the text of it. -/
theorem parseIds_of_readValue {cs : List Char} {e : Json.ParseError}
    (h : Json.readValue (2 * (cs.length + 1) + 2) depth ⟨some '[' :: cs.map some, 0⟩ = .error e) :
    parseIds depth (String.ofList ('[' :: cs)) = .error (.ofParseError e) := by
  have hspace : (Json.Rest.mk (some '[' :: cs.map some) 0).skipSpace = ⟨some '[' :: cs.map some, 0⟩ := rfl
  have hparse : Json.parse depth (String.ofList ('[' :: cs)) = .error e := by
    unfold Json.parse Json.read
    simp only [pointsOf, String.toList_ofList, List.map_cons, List.length_cons, List.length_map, hspace, h]
    rfl
  unfold parseIds
  simp only [hparse]

/-- Opening more lists than may be nested is refused as too deep. -/
theorem parseIds_of_nested {n : Nat} (h : depth < n) :
    parseIds depth (String.ofList (List.replicate n '[')) = .error (.tooDeep false) := by
  obtain ⟨k, rfl⟩ : ∃ k, n = depth + k + 1 := ⟨n - depth - 1, by omega⟩
  rw [List.replicate_succ]
  refine parseIds_of_readValue (e := .tooDeep false) ?_
  rw [List.map_replicate, List.length_replicate, List.replicate_add]
  exact Json.readValue_of_nested depth (by omega) (List.replicate k (some '[')) 0

/-- An integer of more digits than an integer may have is refused as too large, where a list may be opened at all. -/
theorem parseIds_of_huge {n : Nat} (h : Json.maxDigits < n) :
    parseIds (depth + 1) (String.ofList ('[' :: (List.replicate n '1' ++ [']']))) =
      .error (.badValue (.hugeInteger n)) := by
  refine parseIds_of_readValue (e := .hugeInteger n) ?_
  have hnumber := Json.readValue_of_huge h (2 * (List.replicate n '1' ++ [']']).length + 1) depth 1
  rw [List.map_append, List.map_replicate, List.map_singleton]
  obtain ⟨k, rfl⟩ : ∃ k, n = k + 1 := ⟨n - 1, by omega⟩
  rw [List.replicate_succ, List.cons_append] at hnumber ⊢
  exact Json.readValue_of_first rfl (by decide) hnumber

namespace Http.App

variable {app : App} {r : Request} {raw : String} {e : Failure}

/-- What cannot be read as ids is what a request for a list fails with. -/
theorem perform_list_of_error (havailable : app.unavailable = none) (hquery : Text.queryValue? r.query "ids" = some raw)
    (h : parseIds r.nesting raw = .error e) :
    ∃ app', app.perform r .list = (.error e, app') ∧ app'.settings = app.settings := by
  have hreading : queryText r "ids" = .value raw := by
    rw [queryText, hquery]
    rfl
  rw [perform, withService_eq havailable]
  simp only [hreading, withReading, serve, runSession, h]
  exact ⟨_, rfl, rfl⟩

theorem respond_list_of_error (havailable : app.unavailable = none)
    (hroute : destination (routes app.settings) r.method r.path = .endpoint .list)
    (hquery : Text.queryValue? r.query "ids" = some raw) (h : parseIds r.nesting raw = .error e) :
    ∃ app', app.respond r =
      (if e.isDomain then .ok (.ofFailure app.settings.debug e) else .error e, app') := by
  obtain ⟨app', hperform, hsettings⟩ := perform_list_of_error havailable hquery h
  refine ⟨app', ?_⟩
  simp only [respond, hroute, hperform, hsettings]
  split <;> rfl

theorem handle_list_of_domain (havailable : app.unavailable = none)
    (hroute : destination (routes app.settings) r.method r.path = .endpoint .list)
    (hquery : Text.queryValue? r.query "ids" = some raw) (h : parseIds r.nesting raw = .error e)
    (hdomain : e.isDomain = true) :
    (app.handle r).1.raised = none ∧ (app.handle r).1.answer.status = e.httpStatus ∧
      (app.handle r).1.answer.content = (Answer.ofFailure app.settings.debug e).content := by
  have hhandling : (app.handling r).unavailable = none := havailable
  obtain ⟨app', hrespond⟩ := respond_list_of_error hhandling hroute hquery h
  rw [if_pos hdomain] at hrespond
  rw [handle_of_ok hrespond]
  exact ⟨rfl, rfl, rfl⟩

theorem handle_list_of_unexpected (havailable : app.unavailable = none)
    (hroute : destination (routes app.settings) r.method r.path = .endpoint .list)
    (hquery : Text.queryValue? r.query "ids" = some raw) (h : parseIds r.nesting raw = .error e)
    (hdomain : e.isDomain = false) :
    (app.handle r).1.raised = some e ∧ (app.handle r).1.answer.status = 500 := by
  have hhandling : (app.handling r).unavailable = none := havailable
  obtain ⟨app', hrespond⟩ := respond_list_of_error hhandling hroute hquery h
  rw [if_neg (by simp [hdomain])] at hrespond
  rw [handle_of_error hrespond]
  exact ⟨rfl, rfl⟩

end Http.App

end Curation
