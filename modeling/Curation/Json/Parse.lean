import Curation.Json.Value

/-! Reading the interchange format, code point by code point. Besides what its standard allows, the words for infinities
    and for what is not a number are read. A text that cannot be read is reported with the place where reading stopped.
    How deeply lists and records may be nested depends on where the reader runs. -/

namespace Curation.Json

/-- Why a text cannot be read. -/
inductive ParseError where
  /-- The text is malformed at a character. -/
  | malformed (position : Nat)
  /-- An integer has too many digits. -/
  | hugeInteger (digits : Nat)
  /-- Lists and records are nested too deeply; tells whether a record is the one too many. -/
  | tooDeep (record : Bool)
  deriving DecidableEq, Repr

/-- What is left to read: code points, and the position of the first of them. -/
structure Rest where
  points : List Point
  position : Nat

/-- The most digits an integer may have. -/
def maxDigits : Nat := 4300

def isSpace (p : Point) : Bool := p.any fun c => c == ' ' || c == '\t' || c == '\n' || c == '\r'

def isDigit (p : Point) : Bool := p.any Char.isDigit

namespace Rest

def skip (r : Rest) (n : Nat) : Rest := ⟨r.points.drop n, r.position + n⟩

/-- What is left after white space. -/
def skipSpace (r : Rest) : Rest := r.skip (r.points.takeWhile isSpace).length

/-- What is left after a word, if the word is next. -/
def skipWord? (r : Rest) (word : String) : Option Rest :=
  if (pointsOf word).isPrefixOf r.points then some (r.skip (pointsOf word).length) else none

/-- Fails at the next character. -/
def malformed (r : Rest) : Except ParseError (α × Rest) := .error (.malformed r.position)

/-- What is left after white space and a character that must be next. -/
def expect (r : Rest) (c : Char) : Except ParseError Rest :=
  let r := r.skipSpace
  match r.points with
  | p :: _ => if p == some c then .ok (r.skip 1) else .error (.malformed r.position)
  | [] => .error (.malformed r.position)

end Rest

/-! ### Texts -/

/-- The number of a hexadecimal digit. -/
def hexDigit? (c : Char) : Option Nat :=
  if c.isDigit then some (c.toNat - '0'.toNat)
  else if 'a' ≤ c && c ≤ 'f' then some (c.toNat - 'a'.toNat + 10)
  else if 'A' ≤ c && c ≤ 'F' then some (c.toNat - 'A'.toNat + 10)
  else none

/-- The number that four hexadecimal digits write. -/
def hexUnit? (ps : List Point) : Option Nat :=
  if ps.length < 4 then none
  else (ps.take 4).foldl (fun n p => do return (← n) * 16 + (← p.bind hexDigit?)) (some 0)

def isHighSurrogate (n : Nat) : Bool := 0xd800 ≤ n && n ≤ 0xdbff

def isLowSurrogate (n : Nat) : Bool := 0xdc00 ≤ n && n ≤ 0xdfff

/-- The character that a letter after a backslash stands for. -/
def escaped? (c : Char) : Option Char :=
  match c with
  | '"' => some '"'
  | '\\' => some '\\'
  | '/' => some '/'
  | 'b' => some '\x08'
  | 'f' => some '\x0c'
  | 'n' => some '\n'
  | 'r' => some '\r'
  | 't' => some '\t'
  | _ => none

/-- Reads what is after a backslash and the letter for a code unit: the number of the code point, and how many code
    points write it in all. Two units that make up a pair count as one code point. Fails at an offset from the
    backslash. -/
def readUnit (ps : List Point) : Except Nat (Nat × Nat) :=
  match if ps.length < 5 then none else hexUnit? ps with
  | none => .error 1
  | some unit =>
    match isHighSurrogate unit, ps.drop 4 with
    | true, some '\\' :: some 'u' :: qs =>
      if qs.length < 5 then .ok (unit, 6)
      else match hexUnit? qs with
        | none => .error 7
        | some low =>
          if isLowSurrogate low then .ok (0x10000 + (unit - 0xd800) * 0x400 + (low - 0xdc00), 12)
          else .ok (unit, 6)
    | _, _ => .ok (unit, 6)

/-- Reads a text after its opening quote. Collects its code points, the last first. -/
def readText (start : Nat) : Nat → Rest → List Point → Except ParseError (List Point × Rest)
  | 0, _, _ => .error (.malformed start)
  | fuel + 1, r, out =>
    match r.points with
    | [] => .error (.malformed start)
    | some '"' :: _ => .ok (out.reverse, r.skip 1)
    | some '\\' :: [] => .error (.malformed start)
    | some '\\' :: some 'u' :: ps =>
      match readUnit ps with
      | .ok (n, length) => readText start fuel (r.skip length) (.ofNat n :: out)
      | .error offset => .error (.malformed (r.position + offset))
    | some '\\' :: p :: _ =>
      match p.bind escaped? with
      | some c => readText start fuel (r.skip 2) (some c :: out)
      | none => .error (.malformed r.position)
    | p :: _ =>
      if p.any (·.toNat < 0x20) then r.malformed else readText start fuel (r.skip 1) (p :: out)

/-- Reads a text that starts at a quote. What is between the quotes spends `fuel`. -/
def readTextAt (fuel : Nat) (r : Rest) : Except ParseError (Value × Rest) := do
  let (ps, rest) ← readText r.position fuel (r.skip 1) []
  return (.ofPoints ps, rest)

/-! ### Numbers -/

def digitsValue (ds : List Point) : Nat :=
  ds.foldl (fun n p => n * 10 + p.elim 0 fun c => c.toNat - '0'.toNat) 0

/-- The sign of an exponent and what is after it. -/
def readSign (r : Rest) : Int × Rest :=
  match r.points with
  | some '+' :: _ => (1, r.skip 1)
  | some '-' :: _ => (-1, r.skip 1)
  | _ => (1, r)

/-- Reads the digits after a point, if a point and a digit are next. -/
def readFraction (r : Rest) : List Point × Rest :=
  match r.points with
  | some '.' :: ps =>
    let ds := ps.takeWhile isDigit
    if ds.isEmpty then ([], r) else (ds, r.skip (1 + ds.length))
  | _ => ([], r)

/-- Reads an exponent, if one with a digit is next. -/
def readExponent (r : Rest) : Option Int × Rest :=
  match r.points with
  | p :: _ =>
    if p == some 'e' || p == some 'E' then
      let (sign, s) := readSign (r.skip 1)
      let ds := s.points.takeWhile isDigit
      if ds.isEmpty then (none, r) else (some (sign * digitsValue ds), s.skip ds.length)
    else (none, r)
  | [] => (none, r)

/-- Reads a number. -/
def readNumber (r : Rest) : Except ParseError (Value × Rest) :=
  let negative := r.points.head? == some (some '-')
  let s := if negative then r.skip 1 else r
  let whole := s.points.takeWhile isDigit
  let whole := if whole.head? == some (some '0') then [some '0'] else whole
  if whole.isEmpty then r.malformed
  else
    let (fraction, t) := readFraction (s.skip whole.length)
    let (exponent, t) := readExponent t
    let mantissa : Int := digitsValue (whole ++ fraction)
    let mantissa := if negative then -mantissa else mantissa
    if fraction.isEmpty && exponent.isNone then
      if maxDigits < whole.length then .error (.hugeInteger whole.length) else .ok (.integer mantissa, t)
    else .ok (.decimal mantissa (fraction.length - exponent.getD 0), t)

/-! ### Values -/

/-- The words that are values of their own. -/
def words : List (String × Value) := [
  ("null", .null), ("true", .boolean true), ("false", .boolean false), ("NaN", .nonFinite),
  ("Infinity", .nonFinite), ("-Infinity", .nonFinite)]

/-- Reads a word that is a value, if one is next. -/
def readWord? (r : Rest) : Option (Value × Rest) :=
  words.findSome? fun (w, v) => (r.skipWord? w).map fun r => (v, r)

/-- The name of a field; a broken one is shown by the mark for what cannot be shown. -/
def fieldName : Value → String
  | .text s => s
  | _ => "\ufffd"

mutual

/-- Reads a value. Every call spends one of `fuel`, and lists and records one of `depth`. -/
def readValue : Nat → Nat → Rest → Except ParseError (Value × Rest)
  | 0, _, r => r.malformed
  | fuel + 1, depth, r =>
    match r.points with
    | some '"' :: _ => readTextAt (fuel + 1) r
    | some '[' :: _ =>
      match depth with
      | 0 => .error (.tooDeep false)
      | depth + 1 =>
        let s := (r.skip 1).skipSpace
        match s.points with
        | some ']' :: _ => .ok (.list [], s.skip 1)
        | _ => readItems fuel depth s []
    | some '{' :: _ =>
      match depth with
      | 0 => .error (.tooDeep true)
      | depth + 1 =>
        let s := (r.skip 1).skipSpace
        match s.points with
        | some '}' :: _ => .ok (.record [], s.skip 1)
        | _ => readFields fuel depth s []
    | _ =>
      match readWord? r with
      | some result => .ok result
      | none => readNumber r

/-- Reads the items of a list up to its end. -/
def readItems : Nat → Nat → Rest → List Value → Except ParseError (Value × Rest)
  | 0, _, r, _ => r.malformed
  | fuel + 1, depth, r, out => do
    let (v, s) ← readValue fuel depth r
    let s := s.skipSpace
    match s.points with
    | some ']' :: _ => return (.list (v :: out).reverse, s.skip 1)
    | _ => readItems fuel depth (← s.expect ',').skipSpace (v :: out)

/-- Reads the fields of a record up to its end. A name that occurs again takes the later value. -/
def readFields : Nat → Nat → Rest → Keyed Value → Except ParseError (Value × Rest)
  | 0, _, r, _ => r.malformed
  | fuel + 1, depth, r, out => do
    if r.points.head? != some (some '"') then r.malformed
    else
      let (name, s) ← readTextAt (fuel + 1) r
      let s := (← s.expect ':').skipSpace
      let (v, s) ← readValue fuel depth s
      let out := out.put (fieldName name) v
      let s := s.skipSpace
      match s.points with
      | some '}' :: _ => return (.record out, s.skip 1)
      | _ => readFields fuel depth (← s.expect ',').skipSpace out

end

/-- The value that code points write, in which lists and records may be nested to a depth. -/
def read (depth : Nat) (ps : List Point) : Except ParseError Value :=
  let start : Rest := ⟨ps, 0⟩
  if ps.head? == some (some '\ufeff') then .error (.malformed 0)
  else do
    let (v, r) ← readValue (2 * ps.length + 2) depth start.skipSpace
    let r := r.skipSpace
    if r.points.isEmpty then return v else .error (.malformed r.position)

/-- The value that a text writes. -/
def parse (depth : Nat) (s : String) : Except ParseError Value := read depth (pointsOf s)

end Curation.Json
