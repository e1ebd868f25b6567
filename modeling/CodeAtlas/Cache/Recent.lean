/-!
A table of bounded size that forgets what has not been used for longest.
-/

namespace CodeAtlas

/-- Keys with their values, the most recently used first; at most `capacity` of them. -/
structure Recent (κ : Type) (ν : Type) where
  capacity : Nat
  entries : List (κ × ν)

namespace Recent

variable {κ ν : Type} [BEq κ]

def empty (capacity : Nat) : Recent κ ν := ⟨capacity, []⟩

def size (cache : Recent κ ν) : Nat := cache.entries.length

/-- The value under a key, which does not count as a use. -/
def peek? (cache : Recent κ ν) (key : κ) : Option ν :=
  (cache.entries.find? (·.1 == key)).map (·.2)

def erase (cache : Recent κ ν) (key : κ) : Recent κ ν :=
  { cache with entries := cache.entries.filter fun e => !(e.1 == key) }

def touch (cache : Recent κ ν) (key : κ) : Recent κ ν :=
  match cache.entries.find? (·.1 == key) with
  | some entry => { cache with entries := entry :: (cache.erase key).entries }
  | none => cache

/-- Stores a value as the most recently used one; the one unused for longest makes room. -/
def insert (cache : Recent κ ν) (key : κ) (value : ν) : Recent κ ν :=
  { cache with entries := ((key, value) :: (cache.erase key).entries).take cache.capacity }

def clear (cache : Recent κ ν) : Recent κ ν := { cache with entries := [] }

end Recent

end CodeAtlas
