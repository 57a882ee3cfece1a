import Curation.Failure
import Curation.Time.Timestamp

/-! Reading times in the forms of the standard for them: a date by month or by week, any one character, and a time
    of day with or without an offset; each with marks between its parts or without. A time may end early, and
    digits of a fraction after the sixth are dropped. -/

namespace Curation.Time.Iso

/-- The byte at a place of a text; zero beyond the end. -/
def byteAt (t : ByteArray) (i : Nat) : UInt8 := (t[i]?).getD 0

def isDigit (b : UInt8) : Bool := 0x30 ≤ b && b ≤ 0x39

def isChar (b : UInt8) (c : Char) : Bool := b.toNat == c.toNat

/-- The number that `count` digits from a place on write. -/
def digits? (t : ByteArray) (i count : Nat) : Option Int :=
  (List.range count).foldl (fun n k => do
    let b := byteAt t (i + k)
    if isDigit b then return (← n) * 10 + (b.toNat - 0x30 : Nat) else none) (some 0)

/-! ### Dates -/

/-- The day of the week of a day, where Monday is 0. -/
def weekday (days : Int) : Int := (days + 3).fmod 7

/-- The Monday of the first week of a year: the week that holds its first Thursday. -/
def firstMonday (year : Int) : Int :=
  let first := Date.toDays ⟨year, 1, 1⟩
  let day := weekday first
  if day ≤ 3 then first - day else first - day + 7

/-- How many weeks a year has. -/
def weeks (year : Int) : Int := (firstMonday (year + 1) - firstMonday year).fdiv 7

/-- The date of a day of a week. The weeks of the year 0 lie before every month that can be written. -/
def ofWeek? (year week day : Int) : Option Date :=
  if week < 1 || weeks year < week || day < 1 || 7 < day then none
  else if year < 1 then some ⟨1, 0, 1⟩
  else some (Date.ofDays (firstMonday year + (week - 1) * 7 + day - 1))

/-- Where the date ends in a text, whose fourth character and some after it tell that. -/
def dateEnd (t : ByteArray) : Nat :=
  if t.size = 7 then 7
  else if isChar (byteAt t 4) '-' then
    if isChar (byteAt t 5) 'W' then
      if isChar (byteAt t 8) '-' && 8 < t.size then
        if 10 < t.size && isDigit (byteAt t 10) then 8 else 10
      else 8
    else 10
  else if isChar (byteAt t 4) 'W' then
    let run := 7 + ((List.range (t.size - 7)).takeWhile fun k => isDigit (byteAt t (7 + k))).length
    if run < 9 then run else if run % 2 = 0 then 7 else 8
  else 8

/-- Reads a date by week after its year. The day is the first of the week unless it is given. -/
def weekDate? (t : ByteArray) (stop : Nat) (year : Int) (marked : Bool) (i : Nat) : Option Date := do
  let week ← digits? t i 2
  let i := i + 2
  if i < stop then
    guard (!marked || isChar (byteAt t i) '-')
    ofWeek? year week (← digits? t (if marked then i + 1 else i) 1)
  else ofWeek? year week 1

/-- Reads the date that ends at a place. It may be one that the calendar does not have. -/
def date? (t : ByteArray) (stop : Nat) : Option Date := do
  let year ← digits? t 0 4
  let marked := isChar (byteAt t 4) '-'
  let i := if marked then 5 else 4
  if isChar (byteAt t i) 'W' then weekDate? t stop year marked (i + 1)
  else
    let month ← digits? t i 2
    let i := i + 2
    guard (!marked || isChar (byteAt t i) '-')
    let i := if marked then i + 1 else i
    let day ← digits? t i 2
    guard (i + 2 = stop)
    return ⟨year, month, day⟩

/-! ### Times of day -/

/-- Hours, minutes, seconds and microseconds, none of which need be in its range. -/
structure Clock where
  hour : Int := 0
  minute : Int := 0
  second : Int := 0
  micro : Int := 0

/-- What is read of a time of day, and whether something follows it. -/
structure ClockReading where
  clock : Clock
  more : Bool

/-- Sets the hours, the minutes or the seconds. -/
def Clock.set (c : Clock) (part : Nat) (n : Int) : Clock :=
  match part with
  | 0 => { c with hour := n }
  | 1 => { c with minute := n }
  | _ => { c with second := n }

/-- Reads a fraction of a second that ends at a place. -/
def fraction? (t : ByteArray) (stop : Nat) (c : Clock) (i : Nat) : Option ClockReading := do
  let count := min (stop - i) 6
  let n ← digits? t i count
  let i := i + count
  let dropped := ((List.range (t.size - i)).takeWhile fun k => isDigit (byteAt t (i + k))).length
  return ⟨{ c with micro := n * Nat.pow 10 (6 - count) }, byteAt t (i + dropped) != 0⟩

/-- Reads the parts of a time of day from one on. `marked` tells whether there are marks between them; `left` counts
    the parts that there may still be. -/
def parts? (t : ByteArray) (stop : Nat) : Nat → Bool → Clock → Nat → Option ClockReading
  | 0, _, c, i => fraction? t stop c i
  | left + 1, marked, c, i => do
    let part := 2 - left
    let c := c.set part (← digits? t i 2)
    let mark := byteAt t (i + 2)
    let marked := if part = 0 then isChar mark ':' else marked
    if stop ≤ i + 3 then return ⟨c, mark != 0⟩
    else if marked && isChar mark ':' then parts? t stop left marked c (i + 3)
    else if isChar mark '.' || isChar mark ',' then fraction? t stop c (i + 3)
    else if !marked then parts? t stop left marked c (i + 2)
    else none

/-- Reads a time of day that ends at a place. -/
def clock? (t : ByteArray) (i stop : Nat) : Option ClockReading := parts? t stop 3 true {} i

/-- Where the offset of a time of day starts, or the text ends. -/
def offsetStart (t : ByteArray) (i : Nat) : Nat :=
  i + ((List.range (t.size - i)).takeWhile fun k =>
    let b := byteAt t (i + k)
    !(isChar b '+' || isChar b '-' || isChar b 'Z')).length

/-- Reads an offset in microseconds. One of less than a second is none. -/
def offset? (t : ByteArray) (i : Nat) : Option Int :=
  if isChar (byteAt t i) 'Z' then if byteAt t (i + 1) = 0 then some 0 else none
  else do
    let r ← clock? t (i + 1) t.size
    guard (!r.more)
    let seconds := r.clock.hour * 3600 + r.clock.minute * 60 + r.clock.second
    let sign : Int := if isChar (byteAt t i) '-' then -1 else 1
    return if seconds = 0 then 0 else sign * (seconds * microsPerSecond + r.clock.micro)

/-- Reads a time of day and its offset. -/
def time? (t : ByteArray) (i : Nat) : Option (Clock × Option Int) := do
  let o := offsetStart t i
  let r ← clock? t i o
  if o = t.size then
    guard (!r.more)
    return (r.clock, none)
  else return (r.clock, some (← offset? t o))

/-- How many bytes the character has whose first byte is this. -/
def charSize (b : UInt8) : Nat :=
  if b < 0x80 then 1 else if b < 0xe0 then 2 else if b < 0xf0 then 3 else 4

/-- The parts of a time, none of which need be in its range. -/
def parse? (s : String) : Option (Date × Clock × Option Int) := do
  let t := s.toUTF8
  let stop := dateEnd t
  let date ← date? t stop
  if stop < t.size then
    let (clock, offset) ← time? t (stop + charSize (byteAt t stop))
    return (date, clock, offset)
  else return (date, {}, none)

/-- The part of a date or a time of day that is out of its range, in words. -/
def rangeFault? (d : Date) (c : Clock) : Option String :=
  if d.year < 1 || 9999 < d.year then some s!"year {d.year} is out of range"
  else if d.month < 1 || 12 < d.month then some "month must be in 1..12"
  else if d.day < 1 || monthLength d.year d.month < d.day then some "day is out of range for month"
  else if 23 < c.hour then some "hour must be in 0..23"
  else if 59 < c.minute then some "minute must be in 0..59"
  else if 59 < c.second then some "second must be in 0..59"
  else none

/-- A duration as a call that makes it. -/
def durationText (micros : Int) : String :=
  let days := micros.fdiv microsPerDay
  let rest := micros.fmod microsPerDay
  let part (name : String) (n : Int) : List String := if n = 0 then [] else [name ++ "=" ++ toString n]
  let parts := part "days" days ++ part "seconds" (rest / microsPerSecond) ++
    part "microseconds" (rest % microsPerSecond)
  "datetime.timedelta(" ++ (if parts.isEmpty then "0" else ", ".intercalate parts) ++ ")"

/-- What is wrong with an offset of a day or more. -/
def offsetFault? (offset : Option Int) : Option String :=
  match offset with
  | some o =>
    if o.natAbs < microsPerDay.natAbs then none
    else
      some ("offset must be a timedelta strictly between -timedelta(hours=24) and timedelta(hours=24), not " ++
        durationText o ++ ".")
  | none => none

end Curation.Time.Iso

namespace Curation.Time

/-- Reads a time. -/
def Timestamp.ofIsoText (s : String) : Except BadValue Timestamp :=
  match Iso.parse? s with
  | none => .error (.notTime s)
  | some (date, clock, offset) =>
    match Iso.offsetFault? offset <|> Iso.rangeFault? date clock with
    | some text => .error (.timeRange text)
    | none =>
      let seconds := clock.hour * 3600 + clock.minute * 60 + clock.second
      .ok ⟨date.toDays * microsPerDay + seconds * microsPerSecond + clock.micro, offset⟩

end Curation.Time
