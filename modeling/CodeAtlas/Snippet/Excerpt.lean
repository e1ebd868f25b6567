import CodeAtlas.Number
import CodeAtlas.Query.Expression
import CodeAtlas.Text.Blank
import CodeAtlas.Text.Decimal

/-!
Finding the words of a query in a line.  A match starts at the border of a word of plain letters, digits
and underscores; it is the first word of the query, in order, that fits there.
-/

namespace CodeAtlas

structure Matcher where
  words : List QueryWord
  deriving DecidableEq, Repr, Inhabited

namespace Matcher

/-- Keeps a word unless one with the same letters up to case has been seen. -/
def keepWord (isOpen : Bool) (state : List String × List QueryWord) (text : String) :
    List String × List QueryWord :=
  let key := lowerText text
  if state.1.contains key then state else (key :: state.1, ⟨text, isOpen⟩ :: state.2)

/-- Keeps what is new in a part of a query; a star at the end of the part opens its last word. -/
def keepPart (state : List String × List QueryWord) (part : String) : List String × List QueryWord :=
  let texts := QueryWord.runs part
  texts.zipIdx.foldl (fun state (text, i) =>
    keepWord (hasSuffix "*" part && i + 1 == texts.length) state text) state

def ofQuery? (query : String) : Option Matcher :=
  let (_, kept) := (CodeAtlas.words query).foldl keepPart ([], [])
  if kept.isEmpty then none else some ⟨kept.reverse⟩

def terms (m : Matcher) : List String := m.words.map fun w => lowerText w.text

/-- Whether exactly one of two neighbours is a plain word character. -/
def isBorder (before after : Option Char) : Bool :=
  before.any isWordChar != after.any isWordChar

/-- Plain word characters and the two that differ from one by case alone. -/
def isFoldedWordChar (c : Char) : Bool := isWordChar (caseKey c)

def sameUpToCase (a b : Char) : Bool := caseKey a == caseKey b

def wordLength? (word : QueryWord) (rest : List Char) : Option Nat :=
  let text := word.text.toList
  let n := text.length
  if text.map caseKey == (rest.take n).map caseKey then
    let after := rest.drop n
    if word.isOpen then some (n + (after.takeWhile isFoldedWordChar).length)
    else if isBorder (rest.take n).getLast? after.head? then some n
    else none
  else none

def matchLength? (m : Matcher) (before : Option Char) (rest : List Char) : Option Nat :=
  if isBorder before rest.head? then m.words.findSome? (wordLength? · rest) else none

structure Piece where
  isMatch : Bool
  text : List Char
  deriving DecidableEq, Repr, Inhabited

/-- Cuts a line into matches and single other characters, from the left. -/
def piecesAfter (m : Matcher) (done : Array Piece) (before : Option Char) (rest : List Char) :
    Array Piece :=
  match rest with
  | [] => done
  | c :: tail =>
      match m.matchLength? before rest with
      | some (n + 1) =>
          m.piecesAfter (done.push ⟨true, c :: tail.take n⟩) ((c :: tail.take n).getLast?)
            (tail.drop n)
      | _ => m.piecesAfter (done.push ⟨false, [c]⟩) (some c) tail
termination_by rest.length
decreasing_by
  · simp only [List.length_drop, List.length_cons]; omega
  · simp

def pieces (m : Matcher) (line : String) : List Piece :=
  (m.piecesAfter #[] none line.toList).toList

/-- How many different texts match in a line, up to case. -/
def score (m : Matcher) (line : String) : Nat :=
  (((m.pieces line).filter (·.isMatch)).map fun p => p.text.map toLower).eraseDups.length

def highlight (m : Matcher) (line : String) : String :=
  (m.pieces line).foldl (fun out p =>
    let text := String.ofList p.text
    if p.isMatch then out ++ "**" ++ text ++ "**" else out ++ text) ""

/-- The number of the first line with the highest score above `top`, counted on from `number`; nothing
better is expected than one match per word. -/
def bestFrom (m : Matcher) (number best top : Nat) : List String → Nat
  | [] => best
  | line :: rest =>
      let s := m.score line
      if s > top then
        if s == m.words.length then number else m.bestFrom (number + 1) number s rest
      else m.bestFrom (number + 1) best top rest

/-- The number of the line with the most matches; zero if there is none. -/
def bestLine (m : Matcher) (lines : List String) : Nat := m.bestFrom 1 0 0 lines

end Matcher

/-!
Excerpts: the best line of a text between its neighbours.
-/

/-- Some lines of a text: the matching one (zero if none is), the first and the last shown, and how
they look. -/
structure Excerpt where
  line : Int
  first : Int
  last : Int
  text : String
  deriving DecidableEq, Repr, Inhabited

namespace Excerpt

def defaultContext : Int := 2

def maxLineLength : Nat := 240

def cutLine (line : String) : String :=
  if line.length ≤ maxLineLength then line
  else String.ofList (line.toList.take maxLineLength) ++ "…"

def trimLine (line : String) : String :=
  String.ofList (line.toList.reverse.dropWhile fun c => c == ' ' || c == '\t').reverse

/-- One line of an excerpt: a mark if it is the matching one, its number, and its text. -/
def renderLine (m : Matcher) (width : Nat) (matching number : Int) (line : String) : String :=
  (if number == matching then ">" else " ") ++ padLeft width ' ' (toString number) ++ ": " ++
    m.highlight (cutLine (trimLine line))

def renderLines (m : Matcher) (matching first last : Int) (all : List String) : String :=
  let shown := (all.drop (first.toNat - 1)).take (last - first + 1).toNat
  let width := (toString last).length
  joinLines (shown.mapIdx fun i line => renderLine m width matching (first + i) line)

/-- The best line of a text with up to `context` lines on each side, or the start of the text if no
line matches.  A negative context means the default. -/
def ofText (m : Matcher) (text : String) (context : Int) : Excerpt :=
  let context := if context < 0 then defaultContext else context
  match lines text with
  | [] => ⟨0, 0, 0, ""⟩
  | all =>
      let line : Int := m.bestLine all
      let center := if line == 0 then 1 else line
      let first := max (center - context) 1
      let last :=
        if line == 0 then min (wrap64 (1 + 2 * context)) all.length
        else min (wrap64 (center + context)) all.length
      ⟨line, first, last, renderLines m line first last all⟩

end Excerpt

end CodeAtlas
