import Curation.Text.Quoted

/-! The SHA-1 digest of a byte string (FIPS 180-4), which names the blob that holds it. -/

namespace Curation.Digest

/-- The five words of the running digest. -/
structure State where
  a : UInt32
  b : UInt32
  c : UInt32
  d : UInt32
  e : UInt32

def initial : State := ⟨0x67452301, 0xefcdab89, 0x98badcfe, 0x10325476, 0xc3d2e1f0⟩

def rotateLeft (x : UInt32) (n : UInt32) : UInt32 := (x <<< n) ||| (x >>> (32 - n))

/-- The message followed by a one bit, zeros, and its length in bits, up to a multiple of 64 bytes. -/
def padded (data : ByteArray) : ByteArray :=
  let zeros := (119 - data.size % 64) % 64
  let bits := (data.size * 8).toUInt64
  let body := (data.push 0x80) ++ ⟨Array.replicate zeros 0⟩
  (List.range 8).foldl (fun acc i => acc.push (bits >>> (56 - 8 * i.toUInt64)).toUInt8) body

/-- The big-endian word at a place of the message. -/
def wordAt (data : ByteArray) (i : Nat) : UInt32 :=
  let byte (k : Nat) : UInt32 := ((data[i + k]?).getD 0).toUInt32
  (byte 0 <<< 24) ||| (byte 1 <<< 16) ||| (byte 2 <<< 8) ||| byte 3

/-- The eighty words that a block of sixteen is stretched to. -/
def schedule (data : ByteArray) (start : Nat) : Array UInt32 :=
  let first := (Array.range 16).map fun i => wordAt data (start + 4 * i)
  (List.range 64).foldl (fun w k =>
    let t := k + 16
    let x := w.getD (t - 3) 0 ^^^ w.getD (t - 8) 0 ^^^ w.getD (t - 14) 0 ^^^ w.getD (t - 16) 0
    w.push (rotateLeft x 1)) first

/-- The mixing function and the constant of a round. -/
def roundMix (t : Nat) (b c d : UInt32) : UInt32 × UInt32 :=
  if t < 20 then ((b &&& c) ||| (~~~b &&& d), 0x5a827999)
  else if t < 40 then (b ^^^ c ^^^ d, 0x6ed9eba1)
  else if t < 60 then ((b &&& c) ||| (b &&& d) ||| (c &&& d), 0x8f1bbcdc)
  else (b ^^^ c ^^^ d, 0xca62c1d6)

def roundStep (w : Array UInt32) (s : State) (t : Nat) : State :=
  let (f, k) := roundMix t s.b s.c s.d
  ⟨rotateLeft s.a 5 + f + s.e + k + w.getD t 0, s.a, rotateLeft s.b 30, s.c, s.d⟩

/-- Takes one block of 64 bytes into the digest. -/
def absorb (data : ByteArray) (s : State) (start : Nat) : State :=
  let w := schedule data start
  let r := (List.range 80).foldl (roundStep w) s
  ⟨s.a + r.a, s.b + r.b, s.c + r.c, s.d + r.d, s.e + r.e⟩

/-- The digest in forty hexadecimal digits. -/
def hex (data : ByteArray) : String :=
  let message := padded data
  let s := (List.range (message.size / 64)).foldl (fun s i => absorb message s (64 * i)) initial
  String.ofList ([s.a, s.b, s.c, s.d, s.e].flatMap fun x => Text.digits 16 8 x.toNat)

end Curation.Digest
