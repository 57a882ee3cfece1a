import Curation.Cell
import Curation.Failure
import Curation.Status
import Curation.Time.Timestamp

/-! A collection: a named group of references to projects that a user owns. -/

namespace Curation

open Time (Timestamp)

/-- A collection as callers see it. -/
structure Collection where
  id : String
  owner : String
  title : String
  description : String
  status : Status
  created : Timestamp
  updated : Timestamp
  iconUrl : Option String := none
  /-- The main colour of the icon: red, green and blue, eight bits each. What is no such number is kept, but is fit for
      no answer. -/
  color : Option Cell := none
  projects : List String := []
  deriving DecidableEq, Repr

namespace Collection

/-- A collection has an id and an owner, and a colour only if it has an icon. -/
structure Sound (c : Collection) : Prop where
  id : c.id ≠ ""
  owner : c.owner ≠ ""
  color : c.iconUrl = none → c.color = none

/-- The first rule for collections that this one breaks. -/
def fault? (c : Collection) : Option BadValue :=
  if c.id = "" then some .noId
  else if c.owner = "" then some .noOwner
  else if c.iconUrl.isNone && c.color.isSome then some .colorWithoutIcon
  else none

/-- The collection, if it is sound. -/
def checked (c : Collection) : Except Failure Collection :=
  match c.fault? with
  | none => .ok c
  | some fault => .error (.badValue fault)

theorem fault?_eq_none_iff (c : Collection) : c.fault? = none ↔ c.Sound := by
  unfold fault?
  constructor
  · intro h
    split at h <;> try contradiction
    split at h <;> try contradiction
    split at h <;> try contradiction
    refine ⟨by assumption, by assumption, fun hi => ?_⟩
    simp_all
  · rintro ⟨hid, hown, hcol⟩
    rw [if_neg hid, if_neg hown, if_neg]
    cases hi : c.iconUrl <;> simp_all

theorem checked_eq_ok_iff {c d : Collection} : c.checked = .ok d ↔ d = c ∧ c.Sound := by
  unfold checked
  rw [← fault?_eq_none_iff]
  cases h : c.fault? <;> simp [eq_comm]

/-- Two collections hold the same, their times compared as instants. -/
def same (a b : Collection) : Bool :=
  a.created.same b.created && a.updated.same b.updated &&
    decide ({ a with created := b.created, updated := b.updated } = b)

end Collection

end Curation
