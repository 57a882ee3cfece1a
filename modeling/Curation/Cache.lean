import Curation.Collection
import Curation.Keyed

/-! The cache of loaded collections. An entry lives for a fixed time and is dropped when it is found dead.
    Every id has a generation, which each store and each invalidation moves on, so that a load which began
    before one of them is told apart from a load which began after it. When an entry dies is reckoned in exact
    microseconds, where sums of floating point seconds would be rounded. -/

namespace Curation

open Time (Instant)

/-- A cached collection and the last instant at which it is live. -/
structure CacheEntry where
  value : Collection
  expires : Instant
  deriving DecidableEq, Repr

/-- The generation of an id: how often the whole cache was cleared, and how often the id was stored or
    invalidated since. -/
structure Generation where
  epoch : Int
  count : Int
  deriving DecidableEq, Repr

/-- The cache. -/
structure Cache where
  /-- How many seconds an entry lives. -/
  ttl : Int := 1800
  entries : Keyed CacheEntry := []
  counts : Keyed Int := []
  epoch : Int := 0
  deriving Repr

namespace Cache

/-- The generation of an id. -/
def generation (c : Cache) (id : String) : Generation := ⟨c.epoch, (c.counts.get? id).getD 0⟩

/-- The generations of several ids, each id once. -/
def generations (c : Cache) (ids : List String) : Keyed Generation :=
  ids.foldl (fun m id => m.put id (c.generation id)) []

/-- Moves the generation of an id on. -/
def bump (c : Cache) (id : String) : Cache :=
  { c with counts := c.counts.put id ((c.counts.get? id).getD 0 + 1) }

/-- The collection that the cache holds for an id and that is live now. A dead entry is dropped. -/
def get (c : Cache) (now : Instant) (id : String) : Option Collection × Cache :=
  match c.entries.get? id with
  | none => (none, c)
  | some e =>
    if e.expires < now then (none, { c with entries := c.entries.drop id }) else (some e.value, c)

/-- The live collections of several ids, in the order of the ids. -/
def getAll (c : Cache) (now : Instant) : List String → Keyed Collection × Cache
  | [] => ([], c)
  | id :: ids =>
    let (found, c) := c.get now id
    let (rest, c) := c.getAll now ids
    (match found with
      | some v => rest.drop id |>.cons (id, v)
      | none => rest, c)

/-- Whether the cache holds a live collection for an id. -/
def contains (c : Cache) (now : Instant) (id : String) : Bool × Cache :=
  let (found, c) := c.get now id
  (found.isSome, c)

/-- Stores a collection from now on. -/
def set (c : Cache) (now : Instant) (v : Collection) : Cache :=
  let c := c.bump v.id
  { c with entries := c.entries.put v.id ⟨v, now + c.ttl * Time.microsPerSecond⟩ }

/-- Stores a loaded collection unless its id has moved on since the given generation. -/
def fill (c : Cache) (now : Instant) (v : Collection) (g : Generation) : Bool × Cache :=
  if c.generation v.id = g then (true, c.set now v) else (false, c)

/-- Drops the entry of an id. -/
def invalidate (c : Cache) (id : String) : Cache :=
  let c := c.bump id
  { c with entries := c.entries.drop id }

/-- Drops every entry. -/
def invalidateAll (c : Cache) : Cache := { c with epoch := c.epoch + 1, counts := [], entries := [] }

/-- Drops the dead entries and counts them. -/
def sweep (c : Cache) (now : Instant) : Nat × Cache :=
  let live := c.entries.filter fun e => now ≤ e.2.expires
  (c.entries.length - live.length, { c with entries := live })

/-- How many entries are held, dead ones included. -/
def size (c : Cache) : Nat := c.entries.length

/-- The ids held, dead entries included. -/
def held (c : Cache) : List String := c.entries.keys

end Cache

end Curation
