import CodeAtlas.Text.Glyph

/-!
Wildcard patterns for file names: `*` for any run of bytes but the slash, `?` for one character but the
slash, and classes in brackets.  A run may end inside a character; the bytes that are left of it are
then read as stray ones.  Each part of a pattern between runs is put as far to the left as it fits, and
does not move again.
-/

namespace CodeAtlas

inductive WildcardItem where
  | run
  | one
  | literal (c : Char)
  | oneOf (negated : Bool) (ranges : List (Char × Char))
  deriving DecidableEq, Repr, Inhabited

namespace Wildcard

/-- A character of a class, possibly after a backslash; something has to follow it. -/
def classChar? : List Char → Option (Char × List Char)
  | [] => none
  | '-' :: _ => none
  | ']' :: _ => none
  | ['\\'] => none
  | '\\' :: c :: rest => if rest.isEmpty then none else some (c, rest)
  | c :: rest => if rest.isEmpty then none else some (c, rest)

def classRanges? : Nat → List (Char × Char) → List Char → Option (List (Char × Char) × List Char)
  | 0, _, _ => none
  | fuel + 1, done, cs =>
      match cs with
      | ']' :: rest =>
          if done.isEmpty then none else some (done, rest)
      | _ =>
          match classChar? cs with
          | none => none
          | some (lo, '-' :: rest) =>
              match classChar? rest with
              | some (hi, rest) => classRanges? fuel (done ++ [(lo, hi)]) rest
              | none => none
          | some (lo, rest) => classRanges? fuel (done ++ [(lo, lo)]) rest

/-- The items of a pattern; nothing if it is malformed. -/
def items? : Nat → List Char → Option (List WildcardItem)
  | 0, _ => none
  | _, [] => some []
  | fuel + 1, '*' :: rest => (items? fuel rest).map (.run :: ·)
  | fuel + 1, '?' :: rest => (items? fuel rest).map (.one :: ·)
  | _ + 1, ['\\'] => none
  | fuel + 1, '\\' :: c :: rest => (items? fuel rest).map (.literal c :: ·)
  | fuel + 1, '[' :: rest =>
      let (negated, rest) := match rest with
        | '^' :: more => (true, more)
        | _ => (false, rest)
      match classRanges? (rest.length + 1) [] rest with
      | some (ranges, rest) => (items? fuel rest).map (.oneOf negated ranges :: ·)
      | none => none
  | fuel + 1, c :: rest => (items? fuel rest).map (.literal c :: ·)

def inRanges (ranges : List (Char × Char)) (c : Char) : Bool :=
  ranges.any fun r => r.1 ≤ c && c ≤ r.2

/-- A part of a pattern: whether a run stands before it, and its items, none of them a run. -/
structure Part where
  afterRun : Bool
  items : List WildcardItem
  deriving DecidableEq, Repr, Inhabited

def parts : List WildcardItem → List Part
  | [] => []
  | .run :: items =>
      match parts items with
      | part :: more => if part.afterRun then part :: more else { part with afterRun := true } :: more
      | [] => [⟨true, []⟩]
  | item :: items =>
      match parts items with
      | part :: more =>
          if part.afterRun then ⟨false, [item]⟩ :: part :: more
          else { part with items := item :: part.items } :: more
      | [] => [⟨false, [item]⟩]

def slash : UInt8 := 0x2F

def firstChar? : List UInt8 → Option (Char × List UInt8)
  | [] => none
  | b :: rest =>
      match Glyph.lead? b rest with
      | some (c, extra) => some (c, rest.drop extra)
      | none => some (Glyph.stray.char, rest)

/-- What is left of a name after items, if they fit its start. -/
def restAfter? : List WildcardItem → List UInt8 → Option (List UInt8)
  | [], name => some name
  | .run :: _, _ => none
  | .one :: items, name =>
      match firstChar? name with
      | some (c, rest) => if c == '/' then none else restAfter? items rest
      | none => none
  | .literal d :: items, name =>
      let bytes := bytesOfText (String.singleton d)
      if bytes.isPrefixOf name then restAfter? items (name.drop bytes.length) else none
  | .oneOf negated ranges :: items, name =>
      match firstChar? name with
      | some (c, rest) => if inRanges ranges c != negated then restAfter? items rest else none
      | none => none

/-- The endings of a name before which no slash stands, the longest first. -/
def endings : List UInt8 → List (List UInt8)
  | [] => [[]]
  | b :: rest => (b :: rest) :: if b == slash then [] else endings rest

def matchParts : List Part → List UInt8 → Bool
  | [], name => name.isEmpty
  | [⟨true, []⟩], name => !name.contains slash
  | part :: more, name =>
      let places := if part.afterRun then endings name else [name]
      let fitting := places.findSome? fun place =>
        match restAfter? part.items place with
        | some rest => if rest.isEmpty || !more.isEmpty then some rest else none
        | none => none
      match fitting with
      | some rest => matchParts more rest
      | none => false

/-- Whether a pattern matches a name; a malformed pattern matches nothing. -/
def matchesName (pattern name : String) : Bool :=
  match items? (pattern.length + 1) pattern.toList with
  | some items => matchParts (parts items) (bytesOfText name)
  | none => false

end Wildcard

/-!
Glob patterns for whole texts: `*` for any run of characters, `?` for one, and sets in brackets.
-/

inductive GlobPiece where
  | run
  | one
  | literal (c : Char)
  | oneOf (negated : Bool) (ranges : List (Char × Char))
  /-- A set without its closing bracket; nothing fits it. -/
  | broken
  deriving DecidableEq, Repr, Inhabited

namespace Glob

/-- The ranges of a set up to its closing bracket.  `before` is the character a hyphen starts from. -/
def setRanges? (done : List (Char × Char)) (before : Option Char) :
    List Char → Option (List (Char × Char) × List Char)
  | [] => none
  | [c] => if c == ']' then some (done, []) else none
  | c :: next :: rest =>
      if c == ']' then some (done, next :: rest)
      else
        match before with
        | some lo =>
            if c == '-' && next != ']' then setRanges? ((lo, next) :: done) none rest
            else setRanges? ((c, c) :: done) (some c) (next :: rest)
        | none => setRanges? ((c, c) :: done) (some c) (next :: rest)

/-- A set, read after its opening bracket.  A closing bracket in first place belongs to the set. -/
def set? (text : List Char) : Option (GlobPiece × List Char) :=
  let (negated, text) := match text with
    | '^' :: rest => (true, rest)
    | _ => (false, text)
  let (done, text) := match text with
    | ']' :: rest => ([(']', ']')], rest)
    | _ => ([], text)
  (setRanges? done none text).map fun (ranges, rest) => (.oneOf negated ranges, rest)

/-- The pieces of a pattern; every round reads at least one character. -/
def pieces : Nat → List Char → List GlobPiece
  | 0, _ => []
  | _, [] => []
  | fuel + 1, '*' :: rest => .run :: pieces fuel rest
  | fuel + 1, '?' :: rest => .one :: pieces fuel rest
  | fuel + 1, '[' :: rest =>
      match set? rest with
      | some (piece, rest) => piece :: pieces fuel rest
      | none => [.broken]
  | fuel + 1, c :: rest => .literal c :: pieces fuel rest

def fits (c : Char) : GlobPiece → Bool
  | .run => false
  | .one => true
  | .literal d => c == d
  | .oneOf negated ranges => ranges.any (fun (lo, hi) => lo ≤ c && c ≤ hi) != negated
  | .broken => false

def endings : List Char → List (List Char)
  | [] => [[]]
  | c :: rest => (c :: rest) :: endings rest

/-- What may be left of a text after a piece, given what may be left before it, longest first. -/
def advance (left : List (List Char)) : GlobPiece → List (List Char)
  | .run =>
      match left with
      | [] => []
      | longest :: _ => endings longest
  | piece => left.filterMap fun
      | [] => none
      | c :: rest => if fits c piece then some rest else none

end Glob

/-- Whether a pattern fits a text from end to end. -/
def matchesGlob (pattern text : String) : Bool :=
  let chars := pattern.toList
  ((Glob.pieces chars.length chars).foldl Glob.advance [text.toList]).contains []

end CodeAtlas
