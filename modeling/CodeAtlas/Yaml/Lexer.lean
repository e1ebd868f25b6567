import CodeAtlas.Yaml.Scalar
import CodeAtlas.Yaml.Stream
import CodeAtlas.Yaml.Token

/-!
Reading the tokens of a YAML text.  Indentation becomes starts and ends of blocks; a token that turns
out to be a key of a mapping gets its mark put before it when the colon is met.
-/

namespace CodeAtlas.Yaml

/-- A token that may be a key: where it is among the tokens and in the text. -/
structure KeyCandidate where
  isRequired : Bool
  token : Nat
  line : Nat
  column : Nat
  index : Nat
  deriving Repr, Inhabited

structure Lexer where
  place : Place
  /-- Whether the text breaks off where more of it would have to be read. -/
  cut : Bool
  /-- The tokens so far, the last one in front, and their number. -/
  tokens : List Token
  count : Nat
  indent : Int
  indents : List Int
  /-- The candidate of the current level of brackets and of those around it. -/
  candidates : List (Option KeyCandidate)
  keyAllowed : Bool
  deriving Inhabited

namespace Lexer

def start (s : Stream) : Lexer := ⟨.start s.chars, s.cut, [], 0, -1, [], [none], true⟩

def inFlow (l : Lexer) : Bool :=
  match l.candidates with
  | _ :: _ :: _ => true
  | _ => false

def maxDepth : Nat := 10000

def push (l : Lexer) (t : Token) : Lexer :=
  { l with tokens := t :: l.tokens, count := l.count + 1 }

def insert (l : Lexer) (n : Nat) (t : Token) : Lexer :=
  let later := l.count - n
  { l with tokens := l.tokens.take later ++ t :: l.tokens.drop later, count := l.count + 1 }

/-- Pushes a token and moves over the characters it is made of. -/
def emit (l : Lexer) (t : Token) (width : Nat := 1) : Lexer :=
  { l.push t with place := l.place.advance width }

/-- Opens a block if the column is deeper than the current one; its token goes before token number
`n`. -/
def openBlock? (l : Lexer) (column n : Nat) (t : Token) : Option Lexer :=
  if l.inFlow || (column : Int) ≤ l.indent then some l
  else if l.indents.length ≥ maxDepth then none
  else some { l.insert n t with indents := l.indent :: l.indents, indent := column }

def openHere? (l : Lexer) (t : Token) : Option Lexer :=
  l.openBlock? l.place.column l.count t

def closeBlocks (column : Int) : List Int → Lexer → Lexer
  | [], l => l
  | outer :: rest, l =>
      if l.inFlow || l.indent ≤ column then l
      else closeBlocks column rest { l.push .blockEnd with indent := outer, indents := rest }

/-- Forgets the candidate of the current level; a required one must have become a key. -/
def dropCandidate? (l : Lexer) : Option Lexer :=
  match l.candidates with
  | some c :: rest => if c.isRequired then none else some { l with candidates := none :: rest }
  | _ => some l

def noteCandidate? (l : Lexer) : Option Lexer :=
  if l.keyAllowed then do
    let l ← l.dropCandidate?
    let c : KeyCandidate := ⟨!l.inFlow && l.indent == l.place.column, l.count, l.place.line,
      l.place.column, l.place.index⟩
    some { l with candidates := some c :: l.candidates.drop 1 }
  else some l

/-- A key has to be on one line and not too long. -/
def isStale (l : Lexer) (c : KeyCandidate) : Bool :=
  c.line < l.place.line || c.index + 1024 < l.place.index

/-- Moves over a comment and those that follow it with nothing but blanks and ends of lines between
them, as far as these are in sight. -/
def skipComments : (fuel : Nat) → Place → Place
  | 0, p => p
  | fuel + 1, p =>
      let p := p.skipWhile (!isBreak ·)
      let gap := (p.rest.drop 1).takeWhile fun c => isGap (some c)
      if gap.length < 511 && p.ahead (gap.length + 1) == some '#' then
        skipComments fuel (p.advanceLines (gap.length + 1))
      else p

def skipGaps : (fuel : Nat) → Lexer → Lexer
  | 0, l => l
  | fuel + 1, l =>
      let p := l.place
      let tabs := l.inFlow || !l.keyAllowed
      let p := p.skipWhile fun c => c == ' ' || (tabs && c == '\t')
      let p := if p.next == some '#' then skipComments p.left p else p
      if p.next.any isBreak then
        skipGaps fuel { l with place := p.newline.1, keyAllowed := l.keyAllowed || !l.inFlow }
      else { l with place := p }

def skipLineComment (l : Lexer) : Lexer :=
  let blanks := (l.place.rest.takeWhile isSpace).length
  if blanks < 512 && l.place.ahead blanks == some '#' then
    { l with place := (l.place.advance blanks).skipWhile (!isBreak ·) }
  else l

def openFlow? (l : Lexer) (t : Token) : Option Lexer := do
  let l ← l.noteCandidate?
  if l.candidates.length > maxDepth then none
  some { l.emit t with candidates := none :: l.candidates, keyAllowed := true }

def closeFlow? (l : Lexer) (t : Token) : Option Lexer := do
  let l ← l.dropCandidate?
  let candidates := if l.inFlow then l.candidates.drop 1 else l.candidates
  some { l.emit t with candidates := candidates, keyAllowed := false }

def flowEntry? (l : Lexer) : Option Lexer := do
  let l ← l.dropCandidate?
  some { l.emit .flowEntry with keyAllowed := true }

def blockEntry? (l : Lexer) : Option Lexer := do
  if !l.inFlow && !l.keyAllowed then none
  let l ← l.openHere? .blockSequenceStart
  let l ← l.dropCandidate?
  some { l.emit .blockEntry with keyAllowed := true }

def explicitKey? (l : Lexer) : Option Lexer := do
  if !l.inFlow && !l.keyAllowed then none
  let l ← l.openHere? .blockMappingStart
  let l ← l.dropCandidate?
  some { l.emit .key with keyAllowed := !l.inFlow }

/-- A colon whose key was announced or left out. -/
def bareColon? (l : Lexer) : Option Lexer := do
  if !l.inFlow && !l.keyAllowed then none
  let l ← l.openHere? .blockMappingStart
  some { l.emit .value with keyAllowed := !l.inFlow }

/-- A colon: its key is the candidate, if that is still one. -/
def colon? (l : Lexer) : Option Lexer :=
  match l.candidates with
  | some c :: rest =>
      if l.isStale c then
        if c.isRequired then none else bareColon? { l with candidates := none :: rest }
      else do
        let l ← ({ l with candidates := none :: rest }.insert c.token .key).openBlock? c.column c.token
          .blockMappingStart
        some { l.emit .value with keyAllowed := false }
  | _ => l.bareColon?

def named? (l : Lexer) (make : String → Token) : Option Lexer := do
  let l ← l.noteCandidate?
  let name := (l.place.rest.drop 1).takeWhile isNameChar
  let after := l.place.ahead (name.length + 1)
  let ends := isGap after || after.any fun c => "?:,]\x7d%@`".toList.contains c
  if name.isEmpty || !ends then none
  some { l.emit (make (String.ofList name)) (name.length + 1) with keyAllowed := false }

def tagToken? (l : Lexer) : Option Lexer := do
  let l ← l.noteCandidate?
  let (t, width) ← tag? l.place.rest
  let l := { l.emit t width with keyAllowed := false }
  if isGap l.place.next then some l else none

/-- A directive takes a whole line. -/
def directiveLine? (l : Lexer) : Option Lexer := do
  let l ← (closeBlocks (-1) l.indents l).dropCandidate?
  let line := (l.place.rest.drop 1).takeWhile (!isBreak ·)
  let t ← directive? line
  let l := l.emit t (line.length + 1)
  some { l with place := l.place.newline.1, keyAllowed := false }

def documentMark? (l : Lexer) (t : Token) : Option Lexer := do
  let l ← (closeBlocks (-1) l.indents l).dropCandidate?
  some { l.emit t 3 with keyAllowed := false }

def quotedScalar? (l : Lexer) (quote : Char) : Option Lexer := do
  let l ← l.noteCandidate?
  let w ← quoted? quote (l.place.left + 1) l.place.advance []
  some { l.push (.scalar w.text false) with place := w.place, keyAllowed := false }

def blockScalar? (l : Lexer) (literal : Bool) : Option Lexer := do
  let l ← l.dropCandidate?
  let w ← block? literal l.indent l.place.advance
  some { l.push (.scalar w.text false) with place := w.place, keyAllowed := true }

def plainScalar? (l : Lexer) : Option Lexer := do
  let l ← l.noteCandidate?
  let w ← plain? l.inFlow (l.indent + 1).toNat (l.place.left + 1) l.place .none []
  let l := { l.push (.scalar w.text true) with place := w.place, keyAllowed := w.broken }
  some (if w.broken then l else l.skipLineComment)

def startsPlain (l : Lexer) (c : Char) : Bool :=
  let after := l.place.ahead 1
  (!isGap (some c) && !"-?:,[]\x7b\x7d#&*!|>'\"%@`".toList.contains c) ||
    (c == '-' && !(after.any isSpace)) ||
    (!l.inFlow && (c == '?' || c == ':') && !isGap after)

def token? (l : Lexer) (c : Char) : Option Lexer :=
  let gapAfter := isGap (l.place.ahead 1)
  if l.place.column == 0 && c == '%' then l.directiveLine?
  else if l.place.atMark '-' then l.documentMark? .documentStart
  else if l.place.atMark '.' then l.documentMark? .documentEnd
  else if c == '[' then (l.openFlow? .flowSequenceStart).map skipLineComment
  else if c == '{' then (l.openFlow? .flowMappingStart).map skipLineComment
  else if c == ']' then (l.closeFlow? .flowSequenceEnd).map skipLineComment
  else if c == '}' then (l.closeFlow? .flowMappingEnd).map skipLineComment
  else if c == ',' then l.flowEntry?.map skipLineComment
  else if c == '-' && gapAfter then l.blockEntry?
  else if c == '?' && (l.inFlow || gapAfter) then l.explicitKey?.map skipLineComment
  else if c == ':' && (l.inFlow || gapAfter) then l.colon?.map skipLineComment
  else if c == '*' then (l.named? .alias).map skipLineComment
  else if c == '&' then (l.named? .anchor).map skipLineComment
  else if c == '!' then l.tagToken?.map skipLineComment
  else if c == '|' && !l.inFlow then l.blockScalar? true
  else if c == '>' && !l.inFlow then l.blockScalar? false
  else if c == '\'' || c == '"' then (l.quotedScalar? c).map skipLineComment
  else if l.startsPlain c then l.plainScalar?
  else none

/-- Whether a text that breaks off has too little left. -/
def lacks (l : Lexer) (n : Nat) : Bool := l.cut && (l.place.rest.drop (n - 1)).isEmpty

/-- Reads the tokens up to the next character, and that one's.  The last component tells whether the
text has ended. -/
def step? (l : Lexer) : Option (Lexer × Bool) := do
  let l := skipGaps (l.place.left + 1) l
  if l.lacks 4 then none
  match l.place.next with
  | none =>
      let l ← (closeBlocks (-1) l.indents l).dropCandidate?
      some (l.push .streamEnd, true)
  | some c =>
      let l ← (closeBlocks l.place.column l.indents l).token? c
      if l.lacks 2 then none else some (l, false)

/-- The tokens that can be relied on if reading fails: two more have to be known after each, and none
may still become a key or have had to be one. -/
def sure (l : Lexer) : List Token :=
  let open? := l.candidates.filterMap fun
    | some c => if l.isStale c && !c.isRequired then none else some c.token
    | none => none
  let n := open?.foldl min (l.count - 2)
  l.tokens.reverse.take n

/-- Reads all tokens.  The result ends with `streamEnd` unless something could not be read. -/
def run : (fuel : Nat) → Lexer → List Token
  | 0, l => l.sure
  | fuel + 1, l =>
      match l.step? with
      | none => l.sure
      | some (l, ended) => if ended then l.tokens.reverse else run fuel l

end Lexer

def tokens (s : Stream) : List Token := Lexer.run (s.chars.length + 1) (.start s)

end CodeAtlas.Yaml
