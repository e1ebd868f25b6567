/-!
Sorted tables of code points.
-/

namespace CodeAtlas

/-- A flat list of records of equal length, sorted by the first number of each record. -/
structure Table where
  numbers : Array Nat

namespace Table

/-- The numbers of some rows, one row after the other. -/
def ofRows (rows : List (List Nat)) : Table := ⟨rows.flatten.toArray⟩

/-- Searches records `lo` to `hi - 1`, each of `size` numbers, for the last one that starts at or
before `key`. -/
def search (table : Table) (size key : Nat) (lo hi : Nat) : Option Nat :=
  if h : lo < hi then
    let mid := (lo + hi) / 2
    if (table.numbers[mid * size]?.getD 0) ≤ key then
      (search table size key (mid + 1) hi).or (some mid)
    else
      search table size key lo mid
  else
    none
termination_by hi - lo

def inRanges (table : Table) (code : Nat) : Bool :=
  match table.search 2 code 0 (table.numbers.size / 2) with
  | some i => code ≤ table.numbers[i * 2 + 1]?.getD 0
  | none => false

/-- The second number of the pair whose stretch a code point lies in. -/
def stretch (table : Table) (code : Nat) : Nat :=
  match table.search 2 code 0 (table.numbers.size / 2) with
  | some i => table.numbers[i * 2 + 1]?.getD 0
  | none => 0

/-- The image of a code point under the runs of the table; itself outside all runs. -/
def image (table : Table) (code : Nat) : Nat :=
  match table.search 4 code 0 (table.numbers.size / 4) with
  | some i =>
      let first := table.numbers[i * 4]?.getD 0
      let last := table.numbers[i * 4 + 1]?.getD 0
      let step := table.numbers[i * 4 + 2]?.getD 1
      if code ≤ last && (code - first) % step == 0 then
        table.numbers[i * 4 + 3]?.getD 0 + (code - first)
      else
        code
  | none => code

end Table

end CodeAtlas
