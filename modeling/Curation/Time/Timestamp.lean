import Curation.Failure
import Curation.Number.Binary
import Curation.Time.Calendar

/-! Points in time, in whole microseconds, and how they are written. -/

namespace Curation.Time

/-- Microseconds since the start of 1970 in UTC. They are exact: a clock that is read in floating point seconds is taken
    without the error of their rounding. -/
abbrev Instant := Int

abbrev microsPerSecond : Int := 1000000
abbrev microsPerDay : Int := 86400 * microsPerSecond

/-- The first instant of the year 1. -/
def earliest : Instant := Date.toDays ⟨1, 1, 1⟩ * microsPerDay

/-- The last instant of the year 9999. -/
def latest : Instant := Date.toDays ⟨10000, 1, 1⟩ * microsPerDay - 1

/-- The instant can be written with a year of four digits. -/
def inRange (t : Instant) : Bool := earliest ≤ t && t ≤ latest

/-- The instant at the start of its second. -/
def wholeSecond (t : Instant) : Instant := t - t.fmod microsPerSecond

theorem wholeSecond_eq (t : Instant) : wholeSecond t = t - t % 1000000 :=
  congrArg (t - ·) (Int.fmod_eq_emod_of_nonneg t (by decide))

/-- The microseconds nearest to a number of seconds, a half to the even neighbour. What the seconds are beyond whole
    ones is first turned into microseconds on the binary grid. -/
def microsOf (seconds : Number.Binary) : Int :=
  let (num, den) := seconds.magnitude
  let (n, d) := match Number.Binary.ofFraction? false (num % den * 1000000) den with
    | some rest => rest.magnitude
    | none => (0, 1)
  let micros : Int := Number.Binary.roundedQuotient (num / den * 1000000 * d + n) d
  if seconds.mantissa < 0 then -micros else micros

/-- The instant some microseconds after another. -/
def after (t : Instant) (micros : Int) : Except Failure Instant :=
  if inRange (t + micros) then .ok (t + micros) else .error (.overflow .date)

/-- A reading of a clock on the wall: local microseconds, and how many microseconds that clock is ahead of UTC if
    that is known. -/
structure Timestamp where
  wall : Int
  offset : Option Int
  deriving DecidableEq, Repr

namespace Timestamp

def ofInstant (t : Instant) : Timestamp := ⟨t, some 0⟩

/-- Two readings are the same time: both name an instant, and the same one, or neither does and they show
    the same. -/
def same (a b : Timestamp) : Bool :=
  match a.offset, b.offset with
  | none, none => a.wall == b.wall
  | some x, some y => a.wall - x == b.wall - y
  | _, _ => false

/-- The reading of a clock in UTC at the same time, where a reading without an offset is taken for UTC;
    nothing if the year then falls outside 1 to 9999. -/
def toUtc? (t : Timestamp) : Option Timestamp :=
  match t.offset with
  | none => some ⟨t.wall, some 0⟩
  | some o => if inRange (t.wall - o) then some ⟨t.wall - o, some 0⟩ else none

end Timestamp

/-! ### Writing -/

private def pad (width : Nat) (n : Int) : String := String.ofList (Text.digits 10 width n.toNat)

/-- Year, month and day. -/
def dateText (wall : Int) : String :=
  let d := Date.ofDays (wall.fdiv microsPerDay)
  pad 4 d.year ++ "-" ++ pad 2 d.month ++ "-" ++ pad 2 d.day

/-- Hour, minute and second. -/
def clockText (wall : Int) : String :=
  let s := (wall.fmod microsPerDay) / microsPerSecond
  pad 2 (s / 3600) ++ ":" ++ pad 2 (s / 60 % 60) ++ ":" ++ pad 2 (s % 60)

/-- The fraction of a second: a point and six digits. -/
def fractionText (wall : Int) : String := "." ++ pad 6 (wall.fmod microsPerSecond)

/-- Date and time of day; the fraction only where there is one. -/
def wallText (wall : Int) : String :=
  dateText wall ++ "T" ++ clockText wall ++
    (if wall.fmod microsPerSecond == 0 then "" else fractionText wall)

/-- The sign, hours and minutes of an offset. -/
def offsetText (o : Int) : String :=
  let minutes : Int := (o.natAbs / 60000000 : Nat)
  (if o < 0 then "-" else "+") ++ pad 2 (minutes / 60) ++ ":" ++ pad 2 (minutes % 60)

/-- The seconds of an offset and their fraction, as far as there are any. -/
def offsetRest (o : Int) : String :=
  let rest : Int := (o.natAbs % 60000000 : Nat)
  if rest == 0 then ""
  else
    ":" ++ pad 2 (rest / microsPerSecond) ++ (if rest.fmod microsPerSecond == 0 then "" else fractionText rest)

namespace Timestamp

/-- The long form: what an offset has beyond minutes is written where there is any. -/
def isoText (t : Timestamp) : String :=
  wallText t.wall ++
    match t.offset with
    | none => ""
    | some o => offsetText o ++ offsetRest o

/-- The form of an answer to a client: UTC is written as the letter for it. -/
def answerText (t : Timestamp) : String :=
  wallText t.wall ++
    match t.offset with
    | none => ""
    | some o => if o == 0 then "Z" else offsetText o

end Timestamp

/-! ### Stored times -/

/-- A time as a row holds it: in UTC, with or without the digits of the fraction. -/
structure Stamp where
  time : Instant
  fraction : Bool
  deriving DecidableEq, Repr

namespace Stamp

/-- The stamp of a row written by the program. -/
def exact (t : Instant) : Stamp := ⟨t, true⟩

/-- The stamp that the database gives: the second it is. -/
def second (t : Instant) : Stamp := ⟨wholeSecond t, false⟩

def toTimestamp (s : Stamp) : Timestamp := .ofInstant s.time

def text (s : Stamp) : String :=
  dateText s.time ++ " " ++ clockText s.time ++ (if s.fraction then fractionText s.time else "")

end Stamp

end Curation.Time
