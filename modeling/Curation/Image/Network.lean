import Curation.Image.Bytes
import Curation.Image.Interlace
import Curation.Image.Raster
import Curation.Image.Stored

/-! Portable network graphics of eight bits for a sample, whose rows may be filtered and whose pixels are packed in
    stored blocks. A file is a row of chunks; those before the pixels are read with their checksums, and those
    after them must have the form of their kind. -/

namespace Curation.Image.Network

def signature : List UInt8 := [0x89, 0x50, 0x4e, 0x47, 0x0d, 0x0a, 0x1a, 0x0a]

/-! ### Chunks -/

/-- A part of the file: its kind, and where its data lies. -/
structure Chunk where
  kind : String
  start : Nat
  size : Nat
  deriving Repr

/-- Where the data of a chunk ends, and the checksum after it starts. -/
def Chunk.stop (c : Chunk) : Nat := c.start + c.size

/-- The chunk that starts at a place, if one with a kind in letters, digits and underscores does. -/
def chunkAt? (data : ByteArray) (i : Nat) : Option Chunk :=
  let kind := (List.range 4).map fun k => Char.ofNat (byteAt data (i + 4 + k)).toNat
  if i + 8 ≤ data.size && kind.all fun c => c.isAlphanum || c == '_' then
    some ⟨String.ofList kind, i + 8, bigEndian data i 4⟩
  else none

/-- One step of the checksum of a chunk. -/
def checksumStep (sum : UInt32) (b : UInt8) : UInt32 :=
  (List.range 8).foldl (fun s _ => if s &&& 1 == 1 then (s >>> 1) ^^^ 0xedb88320 else s >>> 1)
    (sum ^^^ b.toUInt32)

/-- The checksum of some bytes from a place on. -/
def checksum (data : ByteArray) (start count : Nat) : Nat :=
  ((List.range count).foldl (fun s k => checksumStep s (byteAt data (start + k))) 0xffffffff
    ^^^ 0xffffffff).toNat

/-- The chunk is there with its checksum, which is right. -/
def Chunk.intact (data : ByteArray) (c : Chunk) : Bool :=
  c.stop + 4 ≤ data.size && checksum data (c.start - 4) (c.size + 4) == bigEndian data c.stop 4

/-- How many samples a pixel of a colour type has. -/
def samples? : Nat → Option Nat
  | 0 => some 1
  | 2 => some 3
  | 3 => some 1
  | 4 => some 2
  | 6 => some 4
  | _ => none

/-- A chunk of compressed text or data starts with a name; the byte after it names the only method there is. -/
def Chunk.packedWell (data : ByteArray) (c : Chunk) (needed : Bool) : Bool :=
  let bytes := (List.range c.size).map fun k => byteAt data (c.start + k)
  match bytes.dropWhile (· != 0) with
  | _ :: method :: _ => method == 0
  | _ => !needed

/-- The data of a chunk has the form of its kind, as far as that is looked at. -/
def Chunk.wellFormed (data : ByteArray) (type : Option Nat) (c : Chunk) : Bool :=
  c.stop ≤ data.size &&
    match c.kind with
    | "IHDR" => 13 ≤ c.size && byteAt data (c.start + 11) == 0
    | "gAMA" => 4 ≤ c.size
    | "cHRM" => c.size % 4 == 0
    | "sRGB" => 1 ≤ c.size
    | "pHYs" => 9 ≤ c.size
    | "tRNS" => (type != some 0 || 2 ≤ c.size) && (type != some 2 || 6 ≤ c.size)
    | "iCCP" => c.packedWell data true
    | "zTXt" => c.packedWell data false
    | "acTL" => 8 ≤ c.size
    | "fcTL" => 26 ≤ c.size
    | "fdAT" => false
    | _ => true

/-! ### The chunks before the pixels -/

/-- What the chunks before the pixels say. -/
structure Header where
  width : Nat := 0
  height : Nat := 0
  type : Option Nat := none
  interlaced : Bool := false
  palette : Option Chunk := none

/-- Takes in what a chunk says. -/
def Header.read (data : ByteArray) (h : Header) (c : Chunk) : Header :=
  match c.kind with
  | "IHDR" =>
    let type := (byteAt data (c.start + 9)).toNat
    let known := byteAt data (c.start + 8) == 8 && (samples? type).isSome
    { h with
      width := bigEndian data c.start 4
      height := bigEndian data (c.start + 4) 4
      type := if known then some type else h.type
      interlaced := h.interlaced || byteAt data (c.start + 12) != 0 }
  | "PLTE" => if h.type = some 3 then { h with palette := some c } else h
  | _ => h

/-- Reads the chunks from a place on up to the first one of pixels, which is passed over as long as nothing is known
    of them. Every chunk spends one of `fuel`. -/
def readHeader? (data : ByteArray) : Nat → Header → Nat → Option (Header × Chunk)
  | 0, _, _ => none
  | fuel + 1, h, i => do
    let c ← chunkAt? data i
    if c.kind = "IDAT" && h.type.isSome then return (h, c)
    else
      guard (c.kind ≠ "IEND" && c.wellFormed data h.type && c.intact data)
      readHeader? data fuel (h.read data c) (c.stop + 4)

/-! ### The pixels -/

/-- The chunks of pixels from one on that follow each other. -/
def pixelChunks (data : ByteArray) : Nat → Chunk → List Chunk
  | 0, c => [c]
  | fuel + 1, c =>
    match chunkAt? data (c.stop + 4) with
    | some next => if next.kind = "IDAT" then c :: pixelChunks data fuel next else [c]
    | none => [c]

/-- The most bytes that are taken at a time. -/
def maxPiece : Nat := 65536

/-- The ends of the pieces in which some bytes after a place are taken. -/
def pieceEnds (place count : Nat) : List Nat :=
  (List.range ((count + maxPiece - 1) / maxPiece)).map fun k => place + min count ((k + 1) * maxPiece)

/-- The packed bytes that are there of the chunks. -/
def packedBytes (data : ByteArray) (chunks : List Chunk) : ByteArray :=
  chunks.foldl (fun packed c => packed ++ data.extract c.start c.stop) .empty

/-- The pieces in which packed bytes are taken: the end of each, and the chunk that it is of. -/
def pieces (data : ByteArray) : Nat → List Chunk → List (Nat × Chunk)
  | _, [] => []
  | place, c :: chunks =>
    let count := min c.size (data.size - c.start)
    (pieceEnds place count).map (·, c) ++ pieces data (place + count) chunks

/-- The kinds of filters. -/
def filterCount : Nat := 5

/-- Unpacks rows of a size, each after the byte for its filter, until they are complete or the packed bytes come to
    their end after a row. -/
def unpackRows? (packed : ByteArray) (size : Nat) :
    Nat → Stored.Reader × List Nat → Option (Stored.Reader × List Nat)
  | 0, state => some state
  | rows + 1, (r, ends) =>
    if r.phase = .done then some (r, ends)
    else do
      let (next, ends) ← Stored.fill? packed (r.out.size + size + 1) ends r
      guard ((byteAt next.out r.out.size).toNat < filterCount)
      unpackRows? packed size rows (next, ends)

/-- The one of three neighbours that is nearest to the plane through them: left, above, and above the left. -/
def nearest (left above corner : Nat) : Nat :=
  let distance (n : Nat) : Nat := ((left : Int) + above - corner - n).natAbs
  if distance left ≤ distance above && distance left ≤ distance corner then left
  else if distance above ≤ distance corner then above else corner

/-- Undoes the filter of a row, given the row above. -/
def unfilter (samples : Nat) (filter : Nat) (above row : ByteArray) : ByteArray :=
  if filter = 0 then row
  else (List.range row.size).foldl (fun out i =>
    let left := if samples ≤ i then (byteAt out (i - samples)).toNat else 0
    let corner := if samples ≤ i then (byteAt above (i - samples)).toNat else 0
    let up := (byteAt above i).toNat
    let base := match filter with
      | 1 => left
      | 2 => up
      | 3 => (left + up) / 2
      | _ => nearest left up corner
    out.push (UInt8.ofNat ((byteAt row i).toNat + base))) .empty

/-- The rows of a size that follow each other in some bytes, each after the byte for its filter. -/
def unfilterRows (samples size : Nat) (bytes : ByteArray) : ByteArray :=
  ((List.range (bytes.size / (size + 1))).foldl (fun (out, above) k =>
    let start := k * (size + 1)
    let row := unfilter samples (byteAt bytes start).toNat above (bytes.extract (start + 1) (start + 1 + size))
    (out ++ row, row)) ((.empty, .empty) : ByteArray × ByteArray)).1

/-- The pixels of each pass, as far as there are any, and the ends of the pieces that are left. -/
def unpackPasses? (packed : ByteArray) (samples width height : Nat) :
    List Pass → Stored.Reader × List Nat → Option (List (Pass × ByteArray) × List Nat)
  | [], (_, ends) => some ([], ends)
  | p :: passes, (r, ends) => do
    let size := p.columns width * samples
    let rows := if size = 0 then 0 else p.rows height
    let (next, ends) ← unpackRows? packed size rows (r, ends)
    let bytes := unfilterRows samples size (next.out.extract r.out.size next.out.size)
    let (others, ends) ← unpackPasses? packed samples width height passes (next, ends)
    return ((p, bytes) :: others, ends)

/-! ### The chunks after the pixels -/

/-- The chunks from a place on up to the end chunk are well formed. Bytes that are no chunk end the file, and the
    checksums are not looked at. -/
def endsWell (data : ByteArray) (type : Option Nat) : Nat → Nat → Bool
  | 0, _ => true
  | fuel + 1, i =>
    match chunkAt? data i with
    | none => true
    | some c => c.kind = "IEND" || (c.wellFormed data type && endsWell data type fuel (c.stop + 4))

/-- The most colours of a palette. -/
def maxColours : Nat := 256

/-- The image in the data, if the data is a whole graphic of the kind read here. -/
def decode? (data : ByteArray) : Option Raster := do
  guard (bytesAre data 0 signature)
  let (h, first) ← readHeader? data data.size {} 8
  let type ← h.type
  let samples ← samples? type
  let image : Raster := { width := h.width, height := h.height, pixel := fun _ _ => .black }
  guard image.sized
  guard (h.palette.all fun p => p.size / 3 ≤ maxColours)
  let chunks := pixelChunks data data.size first
  let pieces := pieces data 0 chunks
  let (passes, left) ← unpackPasses? (packedBytes data chunks) samples h.width h.height
    (if h.interlaced then Pass.interlaced else Pass.whole) ({}, pieces.map (·.1))
  let (_, last) ← pieces[pieces.length - left.length]?
  guard (endsWell data type data.size (last.stop + 4))
  let colour (bytes : ByteArray) (at_ : Nat) : Rgb :=
    let sample := byteAt bytes at_
    match type with
    | 2 | 6 => ⟨sample, byteAt bytes (at_ + 1), byteAt bytes (at_ + 2)⟩
    | 3 =>
      match h.palette with
      | some p =>
        let entry := 3 * sample.toNat
        if entry + 3 ≤ p.size then
          ⟨byteAt data (p.start + entry), byteAt data (p.start + entry + 1),
            byteAt data (p.start + entry + 2)⟩
        else .black
      | none => .black
    | _ => .grey sample
  let pixel (x y : Nat) : Rgb :=
    match passes.find? fun (p, _) => p.writes x y with
    | some (p, bytes) =>
      let row := (y - p.firstRow) / p.rowStep
      let column := (x - p.firstColumn) / p.columnStep
      colour bytes ((row * p.columns h.width + column) * samples)
    | none => .black
  return { image with pixel }

end Curation.Image.Network
