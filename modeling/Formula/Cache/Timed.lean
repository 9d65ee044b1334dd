import Formula.Cache

/-! A store without bounds, whose entries may expire. -/

namespace Formula

/-- Times are counted in milliseconds. The lifetime is that of items without a time of their own. -/
structure TimedCache where
  now : Nat := 0
  lifetime : Option Nat := none
  entries : Dict (Parsed × Option Nat) := []

namespace TimedCache

def size (c : TimedCache) : Nat := c.entries.length

def isExpired (c : TimedCache) (expiry : Option Nat) : Bool := expiry.any (· ≤ c.now)

/-- The entry for a key. One that has expired is thrown away. -/
def live (c : TimedCache) (key : String) : Option Parsed × TimedCache :=
  match c.entries.get? key with
  | none => (none, c)
  | some (value, expiry) =>
    if c.isExpired expiry then (none, { c with entries := c.entries.erase key })
    else (some value, c)

def itemFor (key : String) : Option Parsed → CacheItem
  | some value => .hit key value
  | none => { key }

/-- An item that has expired already throws away the entry for its key. -/
def store (c : TimedCache) (item : CacheItem) : Bool × TimedCache :=
  match item.value with
  | none => (false, c)
  | some value =>
    let expiry := item.expiry <|> c.lifetime.map (c.now + ·)
    if c.isExpired expiry then (true, { c with entries := c.entries.erase item.key })
    else (true, { c with entries := c.entries.put item.key (value, expiry) })

instance : Cache TimedCache where
  lookup c key := withValidKey key c (let (found, c') := c.live key; (itemFor key found, c'))
  save c item := withValidKey item.key c (c.store item)
  has c key := withValidKey key c (let (found, c') := c.live key; (found.isSome, c'))
  delete c key := withValidKey key c (true, { c with entries := c.entries.erase key })
  clear c := (true, { c with entries := [] })

/-- The value for a key, computed and stored if there is none, and whether it was computed. -/
def getOrCompute (c : TimedCache) (key : String) (compute : Unit → Except CacheError Parsed) :
    Except CacheError (Parsed × Bool) × TimedCache :=
  match Cache.lookup c key with
  | (.error e, c) => (.error e, c)
  | (.ok item, c) => match item.value with
    | some value => (.ok (value, false), c)
    | none => match compute () with
      | .error e => (.error e, c)
      | .ok value => match Cache.save c (item.withValue value) with
        | (.ok _, c) => (.ok (value, true), c)
        | (.error e, c) => (.error e, c)

end TimedCache
end Formula
