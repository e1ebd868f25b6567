import CodeAtlas.Number
import CodeAtlas.Text.Blank

/-!
Versions of the index: up to three numbers, an optional mark of a version before its release, and
optional notes that do not count.
-/

namespace CodeAtlas

structure Version where
  major : Nat
  minor : Nat
  patch : Nat
  prerelease : String
  notes : String
  deriving DecidableEq, Repr, Inhabited

namespace Version

def zero : Version := ⟨0, 0, 0, "", ""⟩

inductive ParseFault where
  | malformed
  | leadingZero
  | tooLarge (digits : String)
  deriving DecidableEq, Repr

def ParseFault.message : ParseFault → String
  | malformed => "Invalid Semantic Version"
  | leadingZero => "Version segment starts with 0"
  | tooLarge digits => "error parsing version segment: strconv.ParseUint: parsing \"" ++ digits ++
      "\": value out of range"

def isPartChar (c : Char) : Bool := c.isAlphanum || c == '-'

def isDotted (text : List Char) : Bool :=
  (splitOn (· == '.') text).all fun part => !part.isEmpty && part.all isPartChar

def number (digits : List Char) : Except ParseFault Nat :=
  let n := digits.foldl (fun n c => n * 10 + (c.toNat - 48)) 0
  if n < unsignedLimit then .ok n else .error (.tooLarge (String.ofList digits))

/-- A text split before its first occurrence of a character, which is left out. -/
def cutAt (c : Char) (text : List Char) : List Char × Option (List Char) :=
  match text.dropWhile (· != c) with
  | [] => (text, none)
  | _ :: rest => (text.takeWhile (· != c), some rest)

/-- A part of digits only has no zero in front. -/
def hasLeadingZero (prerelease : List Char) : Bool :=
  (splitOn (· == '.') prerelease).any fun part =>
    part.all Char.isDigit && part.length > 1 && part.head? == some '0'

/-- Reads a version; minor numbers may be missing and a letter v may stand in front. -/
def parse (text : String) : Except ParseFault Version :=
  let cs := text.toList
  let cs := if cs.head? == some 'v' then cs.drop 1 else cs
  let (cs, notes) := cutAt '+' cs
  let (cs, prerelease) := cutAt '-' cs
  let numbers := splitOn (· == '.') cs
  if numbers.length ≤ 3 && numbers.all (fun n => !n.isEmpty && n.all Char.isDigit) &&
      notes.all isDotted && prerelease.all isDotted then do
    let found ← numbers.mapM number
    if prerelease.any hasLeadingZero then throw .leadingZero
    return ⟨found.getD 0 0, found.getD 1 0, found.getD 2 0, String.ofList (prerelease.getD []),
      String.ofList (notes.getD [])⟩
  else .error .malformed

def toString (v : Version) : String :=
  s!"{v.major}.{v.minor}.{v.patch}" ++ (if v.prerelease == "" then "" else "-" ++ v.prerelease) ++
    (if v.notes == "" then "" else "+" ++ v.notes)

/-- The number that a part of a mark is, if it is one of 64 bits. -/
def partNumber? (part : String) : Option Nat :=
  if part == "" || !part.toList.all Char.isDigit then none
  else (number part.toList).toOption

/-- Parts of a mark: a missing one comes first, then numbers by size, then texts. -/
def comparePart (a b : String) : Ordering :=
  if a == b then .eq
  else if a == "" then .lt
  else if b == "" then .gt
  else match partNumber? a, partNumber? b with
    | some m, some n => compare m n
    | some _, none => .lt
    | none, some _ => .gt
    | none, none => compare a b

def compareParts : List String → List String → Ordering
  | [], [] => .eq
  | [], b :: bs => (comparePart "" b).then (compareParts [] bs)
  | a :: as, [] => (comparePart a "").then (compareParts as [])
  | a :: as, b :: bs => (comparePart a b).then (compareParts as bs)

/-- The order of versions: by numbers, and a marked version before the one without mark. -/
def order (a b : Version) : Ordering :=
  (compare a.major b.major).then <| (compare a.minor b.minor).then <|
    (compare a.patch b.patch).then <|
      if a.prerelease == "" then (if b.prerelease == "" then .eq else .gt)
      else if b.prerelease == "" then .lt
      else compareParts (splitText '.' a.prerelease) (splitText '.' b.prerelease)

def lessThan (a b : Version) : Bool := a.order b == .lt

end Version

end CodeAtlas
