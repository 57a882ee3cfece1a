import Curation.Image.Bytes

/-! Bytes packed in stored blocks: a header of two bytes, the blocks, and a checksum. The packed bytes come in
    pieces, and as many bytes are unpacked at a time as are wanted. What follows the last byte that is wanted is
    looked at as far as it is in the same piece. -/

namespace Curation.Image.Stored

/-- What is read next. -/
inductive Phase where
  | header
  | block
  | bytes (left : Nat) (last : Bool)
  | checksum
  | done
  deriving DecidableEq, Repr

/-- What has been unpacked, up to which place, and what is next. -/
structure Reader where
  phase : Phase := .header
  place : Nat := 0
  out : ByteArray := .empty

/-- The checksum of some bytes: their sum, and above it the sum of the sums. -/
def checksum (bytes : ByteArray) : Nat :=
  let (a, b) := bytes.foldl (fun (a, b) x =>
    let a := (a + x.toNat) % 65521
    (a, (b + a) % 65521)) (1, 0)
  b * 65536 + a

/-- The two bytes are those of a header: they are a multiple of 31 and ask for nothing unusual. -/
def isHeader (first second : Nat) : Bool :=
  (first * 256 + second) % 31 == 0 && first % 16 == 8 && first / 16 ≤ 7 && second / 32 % 2 == 0

/-- What a step comes to. -/
inductive Outcome where
  | moved (r : Reader)
  /-- There is no more input, or nothing more is wanted. -/
  | waiting
  | broken

/-- One step, with input up to a limit, and output up to a size that is wanted. A block that is compressed is not
    read; if nothing more is wanted it may stand. -/
def step (data : ByteArray) (limit wanted : Nat) (r : Reader) : Outcome :=
  let available := limit - r.place
  match r.phase with
  | .header =>
    if available < 2 then .waiting
    else if isHeader (byteAt data r.place).toNat (byteAt data (r.place + 1)).toNat then
      .moved { r with phase := .block, place := r.place + 2 }
    else .broken
  | .block =>
    let head := (byteAt data r.place).toNat
    let size := littleEndian data (r.place + 1) 2
    if available = 0 then .waiting
    else match head / 2 % 4 with
      | 0 =>
        if available < 5 then .waiting
        else if size + littleEndian data (r.place + 3) 2 = 65535 then
          .moved { r with phase := .bytes size (head % 2 = 1), place := r.place + 5 }
        else .broken
      | 3 => .broken
      | _ => if wanted ≤ r.out.size then .waiting else .broken
  | .bytes left last =>
    let n := min left (min available (wanted - r.out.size))
    if left = 0 then .moved { r with phase := if last then .checksum else .block }
    else if n = 0 then .waiting
    else .moved {
      phase := .bytes (left - n) last
      place := r.place + n
      out := r.out ++ data.extract r.place (r.place + n) }
  | .checksum =>
    if available < 4 then .waiting
    else if bigEndian data r.place 4 = checksum r.out then
      .moved { r with phase := .done, place := r.place + 4 }
    else .broken
  | .done => .waiting

/-- Unpacks as far as the input up to a limit and the size that is wanted allow, unless something is wrong. Every
    step spends one of `fuel`. -/
def run (data : ByteArray) (limit wanted : Nat) : Nat → Reader → Option Reader
  | 0, r => some r
  | fuel + 1, r =>
    match step data limit wanted r with
    | .moved r => run data limit wanted fuel r
    | .waiting => some r
    | .broken => none

/-- Unpacks until there are as many bytes as are wanted. Input goes up to one limit after the other; those from the
    last one on that was used are left. -/
def fill? (data : ByteArray) (wanted : Nat) : List Nat → Reader → Option (Reader × List Nat)
  | [], _ => none
  | limit :: limits, r => do
    let r ← run data limit wanted (2 * (limit - r.place) + 4) r
    if r.out.size = wanted then return (r, limit :: limits) else fill? data wanted limits r

end Curation.Image.Stored
