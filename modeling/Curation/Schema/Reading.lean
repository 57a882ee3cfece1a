import Curation.Json.Value
import Curation.Schema.Mismatch

/-! Reading values of an expected form. A reading of several parts reports the mismatches of all of them, in
    the order of the parts. -/

namespace Curation.Schema

open Json (Value)

/-- The outcome of reading: a value, or every mismatch found. -/
inductive Reading (α : Type) where
  | value (a : α)
  | mismatches (ms : List Mismatch)

namespace Reading

/-- Applies what one reading read to what another one read. -/
def apply (f : Reading (α → β)) (x : Reading α) : Reading β :=
  match f, x with
  | value f, value a => value (f a)
  | value _, mismatches ms => mismatches ms
  | mismatches ms, value _ => mismatches ms
  | mismatches ms, mismatches ns => mismatches (ms ++ ns)

instance : Applicative Reading where
  pure := value
  seq f x := apply f (x ())

def fault (f : Fault) : Reading α := mismatches [⟨[], f⟩]

/-- Places the mismatches one step further into a value. -/
def under (step : Step) : Reading α → Reading α
  | value a => value a
  | mismatches ms => mismatches (ms.map fun m => { m with path := step :: m.path })

def toExcept : Reading α → Except (List Mismatch) α
  | value a => .ok a
  | mismatches ms => .error ms

end Reading

/-- Reads a text; nothing else is taken for one. -/
def text : Value → Reading String
  | .text s => pure s
  | .brokenText => .fault .brokenText
  | _ => .fault .notText

/-- Reads a value that may be null. -/
def optional (read : Value → Reading α) : Value → Reading (Option α)
  | .null => pure none
  | v => some <$> read v

/-- Reads items from a given index on. -/
def items (read : Value → Reading α) : Nat → List Value → Reading (List α)
  | _, [] => pure []
  | i, v :: vs => List.cons <$> (read v).under (.item i) <*> items read (i + 1) vs

/-- Reads a list. -/
def list (read : Value → Reading α) : Value → Reading (List α)
  | .list vs => items read 0 vs
  | _ => .fault .notList

/-- Reads the values of fields. -/
def entries (read : Value → Reading α) : Keyed Value → Reading (Keyed α)
  | [] => pure []
  | (name, v) :: fields =>
    List.cons <$> ((name, ·) <$> (read v).under (.field name)) <*> entries read fields

/-- Reads a record whose fields are all of one form. -/
def record (read : Value → Reading α) : Value → Reading (Keyed α)
  | .record fields => entries read fields
  | _ => .fault .notRecord

/-- Reads a field that must be there. -/
def required (name : String) (read : Value → Reading α) (fields : Keyed Value) : Reading α :=
  match fields.get? name with
  | some v => (read v).under (.field name)
  | none => (Reading.fault .missing).under (.field name)

/-- Reads a field that takes a default if it is not there. -/
def withDefault (name : String) (default : α) (read : Value → Reading α) (fields : Keyed Value) :
    Reading α :=
  match fields.get? name with
  | some v => (read v).under (.field name)
  | none => pure default

end Curation.Schema
