import CodeAtlas.Yaml.Stream

/-!
Places in a YAML text: what is left to read, and where that is.
-/

namespace CodeAtlas.Yaml

def isBreak (c : Char) : Bool :=
  c == '\r' || c == '\n' || c.toNat == 0x85 || c.toNat == 0x2028 || c.toNat == 0x2029

def isSpace (c : Char) : Bool := c == ' ' || c == '\t'

/-- Whether the text ends here, or a blank or the end of a line follows. -/
def isGap : Option Char → Bool
  | none => true
  | some c => isSpace c || isBreak c

structure Place where
  rest : List Char
  size : Nat
  line : Nat
  column : Nat
  index : Nat
  deriving Repr, Inhabited

namespace Place

def start (text : List Char) : Place := ⟨text, text.length, 0, 0, 0⟩

def left (p : Place) : Nat := p.size - p.index

def next (p : Place) : Option Char := p.rest.head?

def ahead (p : Place) (n : Nat) : Option Char := p.rest[n]?

/-- Moves over characters of the current line. -/
def advance (p : Place) (n : Nat := 1) : Place :=
  { p with rest := p.rest.drop n, column := p.column + n, index := p.index + n }

/-- Moves over one end of a line and gives its text: a line feed for the usual ones. -/
def newline (p : Place) : Place × List Char :=
  match p.rest with
  | '\r' :: '\n' :: rest => ({ p with rest, line := p.line + 1, column := 0, index := p.index + 2 }, ['\n'])
  | c :: rest =>
      let text := if c.toNat == 0x2028 || c.toNat == 0x2029 then [c] else ['\n']
      ({ p with rest, line := p.line + 1, column := 0, index := p.index + 1 }, text)
  | [] => (p, [])

/-- Moves over the characters that satisfy a test, none of which ends a line. -/
def skipWhile (p : Place) (test : Char → Bool) : Place :=
  p.advance (p.rest.takeWhile test).length

def advanceLines : (p : Place) → (n : Nat) → Place
  | p, 0 => p
  | p, n + 1 =>
      match p.rest with
      | [] => p
      | c :: rest =>
          if isBreak c && !(c == '\r' && rest.head? == some '\n') then
            advanceLines { p with rest, line := p.line + 1, column := 0, index := p.index + 1 } n
          else advanceLines p.advance n

/-- Whether a line starts here with three equal marks of a document and a gap. -/
def atMark (p : Place) (c : Char) : Bool :=
  p.column == 0 && p.rest.take 3 == [c, c, c] && isGap (p.ahead 3)

def atDocumentMark (p : Place) : Bool := p.atMark '-' || p.atMark '.'

end Place

def hexValue? (c : Char) : Option Nat :=
  if c.isDigit then some (c.toNat - 48)
  else if 'a' ≤ c && c ≤ 'f' then some (c.toNat - 87)
  else if 'A' ≤ c && c ≤ 'F' then some (c.toNat - 55)
  else none

/-- Blanks and ends of lines inside a scalar. -/
structure Fold where
  /-- Blanks on the line of the text before. -/
  blanks : List Char
  /-- Whether a line has ended. -/
  broken : Bool
  /-- The first end of a line. -/
  first : List Char
  /-- The others. -/
  others : List Char
  deriving Inhabited

namespace Fold

def none : Fold := ⟨[], false, [], []⟩

/-- What blanks and ends of lines mean between two pieces of text: a single end of a line is a blank. -/
def text (f : Fold) : List Char :=
  if f.broken then
    if f.first.head? == some '\n' then (if f.others.isEmpty then [' '] else f.others)
    else f.first ++ f.others
  else f.blanks

/-- Reads blanks and ends of lines.  Before column `least` of a new line a tab is refused. -/
def read? (least : Nat) : (fuel : Nat) → Place → Fold → Option (Place × Fold)
  | 0, p, f => some (p, f)
  | fuel + 1, p, f =>
      match p.next with
      | .none => some (p, f)
      | some c =>
          if isSpace c then
            if f.broken && p.column < least && c == '\t' then .none
            else read? least fuel p.advance
              (if f.broken then f else { f with blanks := f.blanks ++ [c] })
          else if isBreak c then
            let (p, line) := p.newline
            read? least fuel p
              (if f.broken then { f with others := f.others ++ line }
               else { f with blanks := [], broken := true, first := line })
          else some (p, f)

end Fold

end CodeAtlas.Yaml

/-!
The tokens of a YAML text.
-/

namespace CodeAtlas.Yaml

inductive Token where
  | versionDirective (major minor : Nat)
  | tagDirective (handle tagPrefix : String)
  | documentStart
  | documentEnd
  | blockSequenceStart
  | blockMappingStart
  | blockEnd
  | flowSequenceStart
  | flowSequenceEnd
  | flowMappingStart
  | flowMappingEnd
  | blockEntry
  | flowEntry
  | key
  | value
  | alias (name : String)
  | anchor (name : String)
  | tag (handle suffix : String)
  | scalar (text : String) (isPlain : Bool)
  | streamEnd
  deriving DecidableEq, Repr, Inhabited

def isNameChar (c : Char) : Bool := c.isAlphanum || c == '_' || c == '-'

def isTagChar (c : Char) : Bool :=
  isNameChar c || ";/?:@&=+$.!~*'()%[],".toList.contains c

/-- The byte that a percent sign and two digits stand for. -/
def escapedByte? : List Char → Option (UInt8 × List Char)
  | '%' :: a :: b :: rest => do
      let n := (← hexValue? a) * 16 + (← hexValue? b)
      some (UInt8.ofNat n, rest)
  | _ => none

/-- The bytes of `n` such signs in a row, all of which go on with a character. -/
def escapedTail? : (n : Nat) → List Char → Option (List UInt8 × List Char)
  | 0, text => some ([], text)
  | n + 1, text => do
      let (b, rest) ← escapedByte? text
      let _ ← Glyph.tailBits? b
      let (bs, rest) ← escapedTail? n rest
      some (b :: bs, rest)

/-- Puts the characters back whose bytes are written as numbers; `fuel` bounds the characters. -/
def unescapeTag? : (fuel : Nat) → List Char → Option (List Char)
  | 0, _ => some []
  | fuel + 1, text =>
      match text with
      | [] => some []
      | c :: more =>
          if c == '%' then do
            let (b, rest) ← escapedByte? text
            let width ← Stream.width? b
            let (bs, rest) ← escapedTail? (width - 1) rest
            let done ← unescapeTag? fuel rest
            some ((glyphsOfBytes (b :: bs)).map Glyph.char ++ done)
          else (unescapeTag? fuel more).map (c :: ·)

/-- A stretch of the characters of a tag: what they mean, and how many they are. -/
def tagText? (text : List Char) : Option (String × Nat) :=
  let written := text.takeWhile isTagChar
  (unescapeTag? (written.length + 1) written).map fun cs => (String.ofList cs, written.length)

/-- A tag and its length: one in angle brackets as it is, else a handle between exclamation marks and a
suffix.  A lone exclamation mark is a suffix. -/
def tag? (text : List Char) : Option (Token × Nat) :=
  if text[1]? == some '<' then do
    let (uri, n) ← tagText? (text.drop 2)
    if n == 0 || text[n + 2]? != some '>' then none else some (.tag "" uri, n + 3)
  else do
    let word := (text.drop 1).takeWhile isNameChar
    if text[word.length + 1]? == some '!' then
      let (suffix, n) ← tagText? (text.drop (word.length + 2))
      if n == 0 then none
      else some (.tag (String.ofList ('!' :: word ++ ['!'])) suffix, word.length + n + 2)
    else
      let (suffix, n) ← tagText? (text.drop 1)
      some (if n == 0 then .tag "" "!" else .tag "!" suffix, n + 1)

def versionNumber? (text : List Char) : Option (Nat × List Char) :=
  let digits := text.takeWhile Char.isDigit
  if digits.isEmpty || digits.length > 2 then none
  else some (digits.foldl (fun n c => n * 10 + (c.toNat - 48)) 0, text.drop digits.length)

def version? (text : List Char) : Option (Token × List Char) := do
  let (major, rest) ← versionNumber? (text.dropWhile isSpace)
  if rest.head? == some '.' then
    let (minor, rest) ← versionNumber? (rest.drop 1)
    some (.versionDirective major minor, rest)
  else none

def handle? (text : List Char) : Option (Token × List Char) := do
  let text := text.dropWhile isSpace
  if text.head? != some '!' then none
  let word := (text.drop 1).takeWhile isNameChar
  let closed := text[word.length + 1]? == some '!'
  if !closed && !word.isEmpty then none
  let handle := '!' :: word ++ (if closed then ['!'] else [])
  let rest := text.drop handle.length
  if !rest.head?.any isSpace then none
  let rest := rest.dropWhile isSpace
  let (meant, n) ← tagText? rest
  let rest := rest.drop n
  if n == 0 || !isGap rest.head? then none
  some (.tagDirective (String.ofList handle) meant, rest)

/-- The directive on a line, without its percent sign.  Nothing but a comment may follow it. -/
def directive? (line : List Char) : Option Token := do
  let name := line.takeWhile isNameChar
  let rest := line.drop name.length
  if !isGap rest.head? then none
  let (t, rest) ←
    if name == "YAML".toList then version? rest
    else if name == "TAG".toList then handle? rest
    else none
  match rest.dropWhile isSpace with
  | [] => some t
  | c :: _ => if c == '#' then some t else none

end CodeAtlas.Yaml
