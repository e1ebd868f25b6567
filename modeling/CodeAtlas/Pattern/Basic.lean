import CodeAtlas.Text.CharClass
import CodeAtlas.Text.Glyph
import Std.Data.HashSet

/-!
Sets of characters: ranges of code points, categories and scripts, and what can be made of them by
union and complement.
-/

namespace CodeAtlas

inductive CharSet where
  /-- the code points from `lo` to `hi` -/
  | range (lo hi : Nat)
  | categories (all : List Category)
  /-- the script with this place in the table -/
  | script (number : Nat)
  | union (first second : CharSet)
  | complement (set : CharSet)
  deriving DecidableEq, Repr, Inhabited

namespace CharSet

def contains : CharSet → Char → Bool
  | range lo hi, c => lo ≤ c.toNat && c.toNat ≤ hi
  | categories all, c => all.contains (Category.ofChar c)
  | script number, c => CharTable.script.stretch c.toNat == number
  | union s t, c => s.contains c || t.contains c
  | complement s, c => !s.contains c

def none : CharSet := range 1 0

def single (c : Char) : CharSet := range c.toNat c.toNat

def span (lo hi : Char) : CharSet := range lo.toNat hi.toNat

def oneOf : List CharSet → CharSet
  | [] => none
  | [s] => s
  | s :: rest => union s (oneOf rest)

def ofChars (chars : String) : CharSet := oneOf (chars.toList.map single)

def exceptChars (chars : String) : CharSet := complement (ofChars chars)

/-- White space of the first 128 code points, without the vertical tab. -/
def blank : CharSet := oneOf [span '\t' '\n', span '\x0c' '\r', single ' ']

def digit : CharSet := span '0' '9'

/-- Letters, digits and underscore of the first 128 code points. -/
def word : CharSet := oneOf [span 'a' 'z', span 'A' 'Z', span '0' '9', single '_']

def any : CharSet := range 0 0x10FFFF

def exceptLineEnd : CharSet := complement (single '\n')

/-! Sets that have a name. -/

/-- The letters and digits of a name without regard to case. -/
def nameKey (name : String) : List Char :=
  (name.toList.filter fun c => c != '_' && c != '-' && c != ' ').map Char.toLower

def group (letter : Char) : CharSet :=
  categories (Category.all.toList.filter fun k => k.group == letter)

/-- The long names of categories and of groups of them, each with its code. -/
def longNames : List (String × String) := [
  ("Cased_Letter", "LC"), ("Close_Punctuation", "Pe"), ("Combining_Mark", "M"),
  ("Connector_Punctuation", "Pc"), ("Control", "Cc"), ("Currency_Symbol", "Sc"),
  ("Dash_Punctuation", "Pd"), ("Decimal_Number", "Nd"), ("Enclosing_Mark", "Me"),
  ("Final_Punctuation", "Pf"), ("Format", "Cf"), ("Initial_Punctuation", "Pi"), ("Letter", "L"),
  ("Letter_Number", "Nl"), ("Line_Separator", "Zl"), ("Lowercase_Letter", "Ll"), ("Mark", "M"),
  ("Math_Symbol", "Sm"), ("Modifier_Letter", "Lm"), ("Modifier_Symbol", "Sk"),
  ("Nonspacing_Mark", "Mn"), ("Number", "N"), ("Open_Punctuation", "Ps"), ("Other", "C"),
  ("Other_Letter", "Lo"), ("Other_Number", "No"), ("Other_Punctuation", "Po"),
  ("Other_Symbol", "So"), ("Paragraph_Separator", "Zp"), ("Private_Use", "Co"),
  ("Punctuation", "P"), ("Separator", "Z"), ("Space_Separator", "Zs"), ("Spacing_Mark", "Mc"),
  ("Surrogate", "Cs"), ("Symbol", "S"), ("Titlecase_Letter", "Lt"), ("Unassigned", "Cn"),
  ("Uppercase_Letter", "Lu"), ("cntrl", "Cc"), ("digit", "Nd"), ("punct", "P")]

/-- The set with the given code: one letter for a group of categories, two for a category, or all
letters that have case. -/
def ofCode? (key : List Char) : Option CharSet :=
  match key with
  | [c] => if "lmnpszc".toList.contains c then some (group c.toUpper) else .none
  | ['l', 'c'] => some (categories [.upperLetter, .lowerLetter, .titleLetter])
  | _ => (Category.all.toList.find? fun k => nameKey k.code == key).map fun k => categories [k]

/-- The set with the given name: everything, the first 128 code points, what is assigned, a category, a
group of them, or a script. -/
def ofName? (name : String) : Option CharSet :=
  let key := nameKey name
  if key == "any".toList then some any
  else if key == "ascii".toList then some (range 0 0x7F)
  else if key == "assigned".toList then some (complement (categories [.unassigned]))
  else
    ((ofCode? key).or
      ((CharTable.scriptNames.toList.findIdx? fun s => nameKey s == key).map script)).or
      ((longNames.find? fun p => nameKey p.1 == key).bind fun p => ofCode? (nameKey p.2))

end CharSet

end CodeAtlas

/-!
Patterns of text.  A pattern sends a place in a text to the places where a match that starts there can
end, the preferred ones first.  A place is listed once: what cannot be continued from its first
occurrence cannot be continued from a later one either.
-/

namespace CodeAtlas

/-- A place in a text: how many glyphs and bytes lie before it, the character just before it, and what
follows. -/
structure Cursor where
  index : Nat
  offset : Nat
  before : Option Char
  rest : List Glyph
  left : Nat
  deriving Inhabited

namespace Cursor

def start (glyphs : List Glyph) : Cursor := ⟨0, 0, none, glyphs, glyphs.length⟩

def step? (c : Cursor) : Option (Glyph × Cursor) :=
  match c.rest with
  | [] => none
  | g :: rest => some (g, ⟨c.index + 1, c.offset + g.width, some g.char, rest, c.left - 1⟩)

/-- The places that can be reached over glyphs of the set, the nearest last; the place itself is the
last of them. -/
def reach (set : CharSet) : List Glyph → Cursor → List Cursor → List Cursor
  | [], c, done => c :: done
  | g :: rest, c, done =>
      if set.contains g.char then
        reach set rest ⟨c.index + 1, c.offset + g.width, some g.char, rest, c.left - 1⟩ (c :: done)
      else
        c :: done

def isWord (c : Option Char) : Bool := c.any isWordChar

/-- Whether a word starts or ends here. -/
def atBoundary (c : Cursor) : Bool :=
  isWord c.before != isWord (c.rest.head?.map Glyph.char)

/-- Keeps the first of the cursors at each place. -/
def distinct (cursors : List Cursor) : List Cursor :=
  match cursors with
  | [] => []
  | [c] => [c]
  | many =>
      let step (state : Std.HashSet Nat × Array Cursor) (c : Cursor) :
          Std.HashSet Nat × Array Cursor :=
        if state.1.contains c.index then state else (state.1.insert c.index, state.2.push c)
      (many.foldl step ({}, #[])).2.toList

end Cursor

/-- A pattern; `greedy` repetitions prefer more rounds. -/
inductive Pattern where
  | empty
  | char (set : CharSet)
  | textStart
  | textEnd
  | boundary (here : Bool)
  | seq (first second : Pattern)
  | alt (first second : Pattern)
  | repeatSet (greedy : Bool) (set : CharSet)
  | star (greedy : Bool) (body : Pattern)
  deriving Repr, Inhabited

namespace Pattern

/-- What is left to do in a repetition: list a place, or go on from it. -/
inductive Task where
  | list (c : Cursor)
  | visit (c : Cursor)

/-- Works off the tasks of a repetition; every place is visited once. -/
def starEnds (step : Cursor → List Cursor) (greedy : Bool) :
    Nat → List Task → Std.HashSet Nat → Array Cursor → List Cursor
  | 0, _, _, done => done.toList
  | _, [], _, done => done.toList
  | fuel + 1, .list c :: tasks, seen, done => starEnds step greedy fuel tasks seen (done.push c)
  | fuel + 1, .visit c :: tasks, seen, done =>
      if seen.contains c.index then
        starEnds step greedy fuel tasks seen done
      else
        let further := ((step c).filter fun d => c.index < d.index).map Task.visit
        let tasks := if greedy then further ++ .list c :: tasks else .list c :: (further ++ tasks)
        starEnds step greedy fuel tasks (seen.insert c.index) done

/-- The places where a match from the given place can end, the preferred ones first. -/
def ends : Pattern → Cursor → List Cursor
  | empty, c => [c]
  | char s, c =>
      match c.step? with
      | some (g, d) => if s.contains g.char then [d] else []
      | none => []
  | textStart, c => if c.index == 0 then [c] else []
  | textEnd, c => if c.rest.isEmpty then [c] else []
  | boundary here, c => if c.atBoundary == here then [c] else []
  | seq p q, c => Cursor.distinct ((ends p c).flatMap (ends q))
  | alt p q, c => Cursor.distinct (ends p c ++ ends q c)
  | repeatSet greedy s, c =>
      let far := Cursor.reach s c.rest c []
      if greedy then far else far.reverse
  | star greedy p, c => starEnds (ends p) greedy (2 * (c.left + 2) * (c.left + 2)) [.visit c] {} #[]

def matchesFrom (p : Pattern) : Nat → Cursor → Bool
  | 0, c => !(p.ends c).isEmpty
  | fuel + 1, c =>
      if !(p.ends c).isEmpty then true
      else
        match c.step? with
        | some (_, d) => matchesFrom p fuel d
        | none => false

def matchesText (p : Pattern) (text : String) : Bool :=
  let c := Cursor.start (glyphsOfText text)
  p.matchesFrom c.left c

/-! Ways to put patterns together. -/

def chain : List Pattern → Pattern
  | [] => empty
  | [p] => p
  | p :: rest => seq p (chain rest)

/-- One of the patterns, the first ones preferred. -/
def oneOf : List Pattern → Pattern
  | [] => char .none
  | [p] => p
  | p :: rest => alt p (oneOf rest)

def text (s : String) : Pattern := chain (s.toList.map fun c => char (.single c))

def optional (p : Pattern) : Pattern := alt p empty

def many (s : CharSet) : Pattern := repeatSet true s

def many1 (s : CharSet) : Pattern := seq (char s) (repeatSet true s)

def rounds (p : Pattern) : Pattern := star true p

def blanks : Pattern := many .blank

def gap : Pattern := many1 .blank

def wordGap (s : String) : Pattern := seq (text s) gap

end Pattern

end CodeAtlas
