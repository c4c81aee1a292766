/-
  PgClient.Statement.Cache

  A bounded map that keeps the entries used last. Entries are held in the order
  of their last use, the latest first; a capacity of zero keeps nothing.
-/

namespace PgClient

structure Cache (κ ν : Type) where
  capacity : Nat
  /-- From most to least recently used. -/
  entries : List (κ × ν)

namespace Cache

variable {κ ν : Type}

def empty (capacity : Nat) : Cache κ ν := ⟨capacity, []⟩

def isEnabled (c : Cache κ ν) : Bool := 0 < c.capacity

def size (c : Cache κ ν) : Nat := c.entries.length

/-- The keys from most to least recently used. -/
def keys (c : Cache κ ν) : List κ := c.entries.map (·.1)

/-- The cache without its entries. -/
def clear (c : Cache κ ν) : Cache κ ν := { c with entries := [] }

/-- What the cache held, from least to most recently used. -/
def drained (c : Cache κ ν) : List ν := c.entries.reverse.map (·.2)

/-- The cache with a new key, and the value that had to go for it. -/
def push (c : Cache κ ν) (key : κ) (value : ν) : Cache κ ν × Option ν :=
  let grown := (key, value) :: c.entries
  ({ c with entries := grown.take c.capacity }, (grown.drop c.capacity).head?.map (·.2))

/-- A new entry never takes the cache beyond its capacity. -/
theorem length_push_le (c : Cache κ ν) (key : κ) (value : ν) :
    (c.push key value).1.entries.length ≤ c.capacity := by
  simp only [push, List.length_take]
  exact Nat.min_le_left _ _

variable [DecidableEq κ]

/-- The value of a key; the order of use stays as it is. -/
def peek? (c : Cache κ ν) (key : κ) : Option ν := c.entries.lookup key

def contains (c : Cache κ ν) (key : κ) : Bool := (c.peek? key).isSome

/-- The cache after a use of a key that it holds. -/
def touch (c : Cache κ ν) (key : κ) (value : ν) : Cache κ ν :=
  { c with entries := (key, value) :: c.entries.filter fun e => e.1 ≠ key }

/-- The outcome of a look-up that may build. -/
structure Lookup (ν : Type) where
  value : ν
  /-- The value was there already. -/
  hit : Bool
  /-- What had to go for the new value. -/
  evicted : Option ν

/-- The value of a key and the cache after its use. A value that is not there is built and
kept, but a cache without capacity keeps nothing. -/
def getOrCreate {m : Type → Type} [Monad m] (c : Cache κ ν) (key : κ) (build : m ν) :
    m (Lookup ν × Cache κ ν) := do
  if c.capacity = 0 then
    return (⟨← build, false, none⟩, c)
  else
    match c.peek? key with
    | some value => return (⟨value, true, none⟩, c.touch key value)
    | none =>
      let value ← build
      let (c, evicted) := c.push key value
      return (⟨value, false, evicted⟩, c)

end Cache

end PgClient
