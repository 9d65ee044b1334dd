import Formula.Cache

/-! A store with a bound: a new entry drives out the one whose last use lies furthest back. -/

namespace Formula

/-- Entries in the order of their last use, the latest first. -/
structure BoundedCache where
  capacity : Nat
  entries : Dict Parsed := []

namespace BoundedCache

/-- There is room for one entry at least. -/
def ofCapacity (capacity : Nat) : BoundedCache := { capacity := max capacity 1 }

def size (c : BoundedCache) : Nat := c.entries.length

/-- Makes an entry the latest. -/
def use (c : BoundedCache) (key : String) (value : Parsed) : BoundedCache :=
  { c with entries := (key, value) :: (c.entries.erase key).take (c.capacity - 1) }

def find (c : BoundedCache) (key : String) : CacheItem × BoundedCache :=
  match c.entries.get? key with
  | some value => (.hit key value, c.use key value)
  | none => ({ key }, c)

def store (c : BoundedCache) (item : CacheItem) : Bool × BoundedCache :=
  match item.value with
  | none => (false, c)
  | some value => (true, c.use item.key value)

instance : Cache BoundedCache where
  lookup c key := withValidKey key c (c.find key)
  save c item := withValidKey item.key c (c.store item)
  has c key := withValidKey key c ((c.entries.get? key).isSome, c)
  delete c key := withValidKey key c (true, { c with entries := c.entries.erase key })
  clear c := (true, { c with entries := [] })

end BoundedCache
end Formula
