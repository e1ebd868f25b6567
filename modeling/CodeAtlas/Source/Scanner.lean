import CodeAtlas.Number
import CodeAtlas.Source.LineTable
import CodeAtlas.Text.Blank
import CodeAtlas.Text.CharClass

/-!
Tokens of the Go language.
-/

namespace CodeAtlas.Source

/-- A token; keywords and operators are told apart by their spelling. -/
inductive Token where
  | eof
  | illegal
  | name
  | number
  | char
  | string
  | keyword (word : String)
  | operator (text : String)
  deriving DecidableEq, Repr, Inhabited

namespace Token

def keywords : List String :=
  ["break", "case", "chan", "const", "continue", "default", "defer", "else", "fallthrough", "for",
    "func", "go", "goto", "if", "import", "interface", "map", "package", "range", "return", "select",
    "struct", "switch", "type", "var"]

def ofWord (word : String) : Token :=
  if keywords.contains word then keyword word else name

/-- Whether a line end after the token ends a statement. -/
def endsLine : Token → Bool
  | name | number | char | string => true
  | keyword word => ["break", "continue", "fallthrough", "return"].contains word
  | operator text => [")", "]", "\x7d", "++", "--"].contains text
  | _ => false

/-- How tightly a token binds as a binary operator; zero if it is none. -/
def precedence : Token → Nat
  | operator text =>
      if text == "||" then 1
      else if text == "&&" then 2
      else if ["==", "!=", "<", "<=", ">", ">="].contains text then 3
      else if ["+", "-", "|", "^"].contains text then 4
      else if ["*", "/", "%", "<<", ">>", "&", "&^"].contains text then 5
      else 0
  | _ => 0

def isLiteral : Token → Bool
  | name | number | char | string => true
  | _ => false

end Token

/-- A token in its place.  The text of a semicolon that stands for a line end is a line feed, that of a
written one is a semicolon. -/
structure Lexeme where
  token : Token
  pos : Nat
  stop : Nat
  text : String
  deriving DecidableEq, Repr, Inhabited

end CodeAtlas.Source

/-!
From glyphs to tokens.  The scanner holds the glyph under its eye and those after it; reading a glyph
may raise a complaint, of which only the line is kept.
-/

namespace CodeAtlas.Source

/-- Complaints so far: how many, and the line of the last one. -/
structure Complaints where
  count : Nat
  lastLine : Option Int
  deriving DecidableEq, Repr, Inhabited

def Complaints.add (c : Complaints) (line : Int) : Complaints :=
  ⟨c.count + 1, some line⟩

/-- The state of the scanner; `unread` is the number of glyphs after the one under its eye. -/
structure Scanner where
  current : Option Glyph
  rest : List Glyph
  unread : Nat
  offset : Nat
  lineOffset : Nat
  lineEndCounts : Bool
  pendingLineEnd : Option Nat
  table : LineTable
  complaints : Complaints
  deriving Inhabited

namespace Scanner

def complain (s : Scanner) (offset : Nat) : Scanner :=
  { s with complaints := s.complaints.add (s.table.lineAt offset) }

def byteOrderMark : Char := Char.ofNat 0xFEFF

def ch (s : Scanner) : Option Char := s.current.map Glyph.char

def sees (s : Scanner) (c : Char) : Bool := s.ch == some c

def seesThat (s : Scanner) (p : Char → Bool) : Bool := s.ch.any p

def peek (s : Scanner) : Option Char := s.rest.head?.map Glyph.char

/-- Moves the eye to the next glyph and complains if it is zero, stray, or a misplaced mark. -/
def next (s : Scanner) : Scanner :=
  let offset := s.offset + (s.current.map Glyph.width).getD 0
  let lineOffset := if s.sees '\n' then offset else s.lineOffset
  let moved := { s with offset := offset, lineOffset := lineOffset }
  match s.rest with
  | [] => { moved with current := none }
  | g :: rest =>
      let read := { moved with current := some g, rest := rest, unread := s.unread - 1 }
      if g.char.toNat == 0 then read.complain offset
      else if g == Glyph.stray then read.complain offset
      else if g.char == byteOrderMark && offset > 0 then read.complain offset
      else read

/-- Starts at the beginning of a text and skips a byte order mark there. -/
def start (glyphs : List Glyph) : Scanner :=
  let s : Scanner :=
    { current := none, rest := glyphs, unread := glyphs.length, offset := 0, lineOffset := 0
      lineEndCounts := false, pendingLineEnd := none, table := .ofGlyphs glyphs
      complaints := ⟨0, none⟩ }
  let s := s.next
  if s.sees byteOrderMark then s.next else s

/-- Moves on while `p` holds of the character under the eye, and collects what it passes. -/
def skipWhile (p : Char → Bool) : Nat → Scanner → String → Scanner × String
  | 0, s, done => (s, done)
  | fuel + 1, s, done =>
      match s.ch with
      | some c => if p c then skipWhile p fuel s.next (done.push c) else (s, done)
      | none => (s, done)

def left (s : Scanner) : Nat := s.unread + 1

def takeWhile (p : Char → Bool) (s : Scanner) : Scanner × String :=
  skipWhile p s.left s ""

def isNameStart (c : Char) : Bool := c == '_' || isLetter c

def isNamePart (c : Char) : Bool := isNameStart c || isDecimalDigit c

def isHexDigit (c : Char) : Bool :=
  c.isDigit || ('a' ≤ c && c ≤ 'f') || ('A' ≤ c && c ≤ 'F')

def lowerAscii (c : Char) : Char := c.toLower

/-- White space before a token; a line end stops it where line ends count. -/
def skipSpace (s : Scanner) : Scanner :=
  (s.takeWhile fun c => c == ' ' || c == '\t' || c == '\r' || (c == '\n' && !s.lineEndCounts)).1

/-- Whether every underscore of a number stands between digits; a base mark counts as a digit. -/
def goodSeparators (literal : List Char) : Bool :=
  let (base, hex) := match literal with
    | '0' :: x :: _ => (['x', 'o', 'b'].contains (lowerAscii x), lowerAscii x == 'x')
    | _ => (false, false)
  let body := if base then literal.drop 2 else literal
  let rec go (previous : Char) : List Char → Bool
    | [] => previous != '_'
    | c :: rest =>
        if c == '_' then previous == '0' && go '_' rest
        else if c.isDigit || (hex && isHexDigit c) then go '0' rest
        else previous != '_' && go '.' rest
  go (if base then '0' else '.') body

/-- Digits of a number: whether there were any, and whether one is too large for the base. -/
def digits (s : Scanner) (base : Nat) : Scanner × String × Bool × Bool :=
  let isDigit (c : Char) : Bool := if base ≤ 10 then c.isDigit else isHexDigit c
  let (s, text) := s.takeWhile fun c => isDigit c || c == '_'
  (s, text, text.toList.any isDigit,
    base < 10 && text.toList.any fun c => c.isDigit && c.toNat ≥ 48 + base)

def scanNumber (s₀ : Scanner) : Scanner × String :=
  let start := s₀.offset
  let complainIf (b : Bool) (s : Scanner) : Scanner := if b then s.complain start else s
  let fromPoint := s₀.sees '.'
  let (s, text, base, mark) :=
    if s₀.sees '0' then
      let s := s₀.next
      let marked := "0" ++ String.ofList s.ch.toList
      match s.ch.map lowerAscii with
      | some 'x' => (s.next, marked, 16, 'x')
      | some 'o' => (s.next, marked, 8, 'o')
      | some 'b' => (s.next, marked, 2, 'b')
      | _ => (s, "0", 8, '0')
    else
      (s₀, "", 10, ' ')
  let (s, whole, anyWhole, badWhole) :=
    if fromPoint then (s, "", false, false) else s.digits base
  let hasPoint := s.sees '.'
  let (s, fraction, anyFraction) :=
    if hasPoint then
      let s := complainIf (mark == 'o' || mark == 'b') s
      let (s, fraction, any, _) := s.next.digits base
      (s, "." ++ fraction, any)
    else
      (s, "", false)
  let s := complainIf (!(anyWhole || anyFraction || mark == '0')) s
  let e := s.ch.map lowerAscii
  let hasExponent := e == some 'e' || e == some 'p'
  let (s, exponent) :=
    if hasExponent then
      let s := complainIf
        ((e == some 'e' && mark != ' ' && mark != '0') || (e == some 'p' && mark != 'x')) s
      let letter := String.ofList s.ch.toList
      let s := s.next
      let (s, sign) :=
        if s.sees '+' || s.sees '-' then (s.next, String.ofList s.ch.toList) else (s, "")
      let (s, ds, any, _) := s.digits 10
      (complainIf (!any) s, letter ++ sign ++ ds)
    else
      (complainIf (mark == 'x' && hasPoint) s, "")
  let (s, suffix) := if s.sees 'i' then (s.next, "i") else (s, "")
  let isWhole := !hasPoint && !hasExponent && suffix == ""
  let text := text ++ whole ++ fraction ++ exponent ++ suffix
  let s := complainIf (isWhole && badWhole) s
  let s := complainIf (text.toList.contains '_' && !goodSeparators text.toList) s
  (s, text)

def digitValue (c : Char) : Nat :=
  if c.isDigit then c.toNat - 48
  else if 'a' ≤ lowerAscii c && lowerAscii c ≤ 'f' then (lowerAscii c).toNat - 87
  else 16

/-- The digits of an escape: `count` of them, below `base`; none if another character comes first. -/
def escapeDigits (base : Nat) : Nat → Nat → Scanner → String → Scanner × Option (Nat × String)
  | 0, value, s, done => (s, some (value, done))
  | count + 1, value, s, done =>
      match s.ch with
      | some c =>
          if digitValue c < base then
            escapeDigits base count (value * base + digitValue c) s.next (done.push c)
          else
            (s.complain s.offset, none)
      | none => (s.complain s.offset, none)

def scanEscape (quote : Char) (s : Scanner) : Scanner × Bool :=
  let start := s.offset
  let numeric (count base limit : Nat) (s : Scanner) : Scanner × Bool :=
    match escapeDigits base count 0 s "" with
    | (s, some (value, _)) =>
        if value > limit || (0xD800 ≤ value && value < 0xE000) then (s.complain start, false)
        else (s, true)
    | (s, none) => (s, false)
  match s.ch with
  | none => (s.complain start, false)
  | some c =>
      if c == quote || ['a', 'b', 'f', 'n', 'r', 't', 'v', '\\'].contains c then (s.next, true)
      else if '0' ≤ c && c ≤ '7' then numeric 3 8 255 s
      else if c == 'x' then numeric 2 16 255 s.next
      else if c == 'u' then numeric 4 16 0x10FFFF s.next
      else if c == 'U' then numeric 8 16 0x10FFFF s.next
      else (s.complain start, false)

/-- The rest of a quoted literal on one line: the number of characters in it, and whether all is in
order so far.  A missing end quote is reported if nothing else was, or always with `always`. -/
def scanQuoted (quote : Char) (always : Bool) (start : Nat) :
    Nat → Scanner → Nat → Bool → Scanner × Nat × Bool
  | 0, s, n, valid => (s, n, valid)
  | fuel + 1, s, n, valid =>
      let unfinished :=
        if valid || always then (s.complain start, n, false) else (s, n, valid)
      match s.ch with
      | none => unfinished
      | some '\n' => unfinished
      | some c =>
          let s := s.next
          if c == quote then (s, n, valid)
          else if c == '\\' then
            let (s, ok) := scanEscape quote s
            scanQuoted quote always start fuel s (n + 1) (valid && ok)
          else
            scanQuoted quote always start fuel s (n + 1) valid

def scanRaw (start : Nat) : Nat → Scanner → Scanner
  | 0, s => s
  | fuel + 1, s =>
      match s.ch with
      | none => s.complain start
      | some c => if c.toNat == 96 then s.next else scanRaw start fuel s.next

/-- The rest of a block comment: whether it is closed, and the offset of its first line end. -/
def scanBlock : Nat → Scanner → Option Nat → Scanner × Bool × Option Nat
  | 0, s, lineEnd => (s, false, lineEnd)
  | fuel + 1, s, lineEnd =>
      match s.ch with
      | none => (s, false, lineEnd)
      | some c =>
          let lineEnd := if c == '\n' then lineEnd.or (some s.offset) else lineEnd
          let s := s.next
          if c == '*' && s.sees '/' then (s.next, true, lineEnd)
          else scanBlock fuel s lineEnd

/-- The text before the last colon, and the number after it if it is one of at most 64 bits. -/
def trailingNumber (text : List Char) : Option (List Char × Option Int) :=
  let reversed := text.reverse
  let tail := (reversed.takeWhile (· != ':')).reverse
  match reversed.dropWhile (· != ':') with
  | [] => none
  | _ :: before =>
      let value : Nat := tail.foldl (fun n c => n * 10 + (c.toNat - 48)) 0
      let ok := !tail.isEmpty && tail.all Char.isDigit && value < unsignedLimit
      let wrapped : Int := wrap64 value
      some (before.reverse, if ok then some wrapped else none)

/-- The largest line or column that a directive may give. -/
def maxLine : Int := 1073741824

/-- Reads the text of a line directive that starts at offset `start` and takes effect at offset
`next`: a name, a line, and possibly a column. -/
def directive (s : Scanner) (start next : Nat) (text : List Char) : Scanner :=
  let complainAfter (part : List Char) : Scanner :=
    s.complain (start + (String.ofList part).utf8ByteSize + 1)
  let bad (n : Int) : Bool := n == 0 || n > maxLine
  match trailingNumber text with
  | none => s
  | some (before, none) => complainAfter before
  | some (before, some n) =>
      match trailingNumber before with
      | some (name, some line) =>
          if bad n then complainAfter before
          else if bad line then complainAfter name
          else { s with table := s.table.addInfo ⟨next, line, n⟩ }
      | _ =>
          if bad n then complainAfter before
          else { s with table := s.table.addInfo ⟨next, n, 0⟩ }

def passed (before after : Scanner) : List Char :=
  let count := before.unread - after.unread
  let count := if after.current.isNone && before.current.isSome then count + 1 else count
  ((before.current.toList ++ before.rest).take count).map Glyph.char

/-- A comment after its first slash: the state after it and the offset of its first line end. -/
def scanComment (s₀ : Scanner) : Scanner × Option Nat :=
  let start := s₀.offset - 1
  if s₀.sees '/' then
    let s₁ := s₀.next
    let (s, text) := s₁.takeWhile (· != '\n')
    let text := text.toList
    let text := if text.getLast? == some '\r' then text.dropLast else text
    let next := if s.sees '\n' then s.offset + 1 else s.offset
    let s :=
      if start == s₀.lineOffset && "line ".toList.isPrefixOf text then
        s.directive (start + 7) next (text.drop 5)
      else s
    (s, none)
  else
    let s₁ := s₀.next
    let (s, closed, lineEnd) := scanBlock s₁.left s₁ none
    if closed then
      let text := (passed s₁ s).dropLast.dropLast
      let s :=
        if "line ".toList.isPrefixOf text then s.directive (start + 7) s.offset (text.drop 5) else s
      (s, lineEnd)
    else
      (s.complain start, lineEnd)

/-- The longest operator that starts with `c`, which the eye has passed. -/
def scanOperator (c : Char) (s : Scanner) : Option (Scanner × String) :=
  let one (text : String) := some (s, text)
  let assign (s : Scanner) (text : String) : Scanner × String :=
    if s.sees '=' then (s.next, text ++ "=") else (s, text)
  let text := String.singleton c
  match c with
  | ',' | ';' | '(' | ')' | '[' | ']' | '~' => one text
  | '{' | '}' => one text
  | '.' =>
      if s.sees '.' && s.peek == some '.' then some (s.next.next, "...") else one "."
  | ':' | '*' | '/' | '%' | '^' | '=' | '!' => some (assign s text)
  | '+' | '-' => if s.sees c then some (s.next, text ++ text) else some (assign s text)
  | '<' =>
      if s.sees '-' then some (s.next, "<-")
      else if s.sees '<' then some (assign s.next "<<")
      else some (assign s "<")
  | '>' => if s.sees '>' then some (assign s.next ">>") else some (assign s ">")
  | '&' =>
      if s.sees '^' then some (assign s.next "&^")
      else if s.sees '&' then some (s.next, "&&")
      else some (assign s "&")
  | '|' => if s.sees '|' then some (s.next, "||") else some (assign s "|")
  | _ => none

def emit (s : Scanner) (token : Token) (pos : Nat) (text : String) : Scanner × Lexeme :=
  ({ s with lineEndCounts := token.endsLine }, ⟨token, pos, s.offset, text⟩)

def emitLineEnd (s : Scanner) (pos : Nat) : Scanner × Lexeme :=
  ({ s with lineEndCounts := false }, ⟨.operator ";", pos, pos, "\n"⟩)

/-- The next token; comments are passed over, each at the cost of one unit of `fuel`. -/
def scan : Nat → Scanner → Scanner × Lexeme
  | 0, s => s.emit .eof s.offset ""
  | fuel + 1, s =>
      match s.pendingLineEnd with
      | some pos => ({ s with pendingLineEnd := none }, ⟨.operator ";", pos, pos, "\n"⟩)
      | none =>
          let s := s.skipSpace
          let pos := s.offset
          match s.ch with
          | none => if s.lineEndCounts then s.emitLineEnd pos else s.emit .eof pos ""
          | some c =>
              if isNameStart c then
                let (s, word) := s.takeWhile isNamePart
                s.emit (.ofWord word) pos word
              else if c.isDigit || (c == '.' && s.peek.any Char.isDigit) then
                let (s, text) := s.scanNumber
                s.emit .number pos text
              else
                let s₁ := s.next
                if c == '\n' then s₁.emitLineEnd pos
                else if c == '"' then
                  let (s₂, _, _) := scanQuoted '"' true pos s₁.left s₁ 0 true
                  s₂.emit .string pos (String.ofList (passed s s₂))
                else if c == '\'' then
                  let (s₂, n, valid) := scanQuoted '\'' false pos s₁.left s₁ 0 true
                  let s₂ := if valid && n != 1 then s₂.complain pos else s₂
                  s₂.emit .char pos (String.ofList (passed s s₂))
                else if c.toNat == 96 then
                  let s₂ := scanRaw pos s₁.left s₁
                  s₂.emit .string pos (String.ofList ((passed s s₂).filter (· != '\r')))
                else if c == '/' && (s₁.sees '/' || s₁.sees '*') then
                  let (s₂, lineEnd) := s₁.scanComment
                  match s₁.lineEndCounts, lineEnd with
                  | true, some offset =>
                      scan fuel { s₂ with pendingLineEnd := some offset, lineEndCounts := false }
                  | _, _ => scan fuel s₂
                else
                  match s₁.scanOperator c with
                  | some (s₂, text) =>
                      let shown := if text == ";" then ";" else ""
                      let (s₂, lexeme) := s₂.emit (.operator text) pos shown
                      (s₂, lexeme)
                  | none =>
                      let s₂ := if c == byteOrderMark then s₁ else s₁.complain pos
                      (s₂, ⟨.illegal, pos, s₂.offset, String.singleton c⟩)

end Scanner

end CodeAtlas.Source
