import CodeAtlas.Source.Scanner
import CodeAtlas.Source.Tree

/-!
The state of a parse, complaints, and the ways to go on after one.

A file is read with one token of look-ahead.  A complaint on the line of the one before it is dropped,
and the parse is abandoned at the complaint after the eleventh, or when constructs are nested too
deeply.
-/

namespace CodeAtlas.Source

structure Abandoned where
  deriving DecidableEq, Repr, Inhabited

/-- Where a parse stands: the token to come, where it was last brought back in step and how often
without moving on, how deep it is in brackets (negative in the head of a statement), whether it reads
the right-hand side of something, and how deep constructs are nested. -/
structure ParseState where
  scanner : Scanner
  look : Lexeme
  syncPos : Option Nat
  syncCount : Nat
  exprLevel : Int
  inRhs : Bool
  nesting : Nat
  deriving Inhabited

abbrev Parse := StateT ParseState (Except Abandoned)

namespace Parse

def maxComplaints : Nat := 10

def maxNesting : Nat := 100000

def look : Parse Lexeme := do return (← get).look

def token : Parse Token := do return (← get).look.token

def pos : Parse Nat := do return (← get).look.pos

def atOp (text : String) : Parse Bool := do return (← token) == .operator text

def atWord (word : String) : Parse Bool := do return (← token) == .keyword word

def atEnd : Parse Bool := do return (← token) == .eof

/-- Whether the token to come is a line end that counts as a semicolon. -/
def atLineEnd : Parse Bool := do
  let l ← look
  return l.token == .operator ";" && l.text == "\n"

def complain (offset : Nat) : Parse Unit := do
  let s ← get
  let line := s.scanner.table.lineAt offset
  let complaints := s.scanner.complaints
  if complaints.lastLine == some line then
    pure ()
  else if complaints.count > maxComplaints then
    throw {}
  else
    set { s with scanner := { s.scanner with complaints := complaints.add line } }

def complainHere : Parse Unit := do complain (← pos)

def advance : Parse Unit := do
  let s ← get
  let (scanner, lexeme) := s.scanner.scan (s.scanner.unread + 2)
  set { s with scanner := scanner, look := lexeme }

/-- Passes the given token and returns its place; complains about any other token and passes it. -/
def expect (want : Token) : Parse Nat := do
  let l ← look
  if l.token ≠ want then complainHere
  advance
  return l.pos

def expectOp (text : String) : Parse Nat := expect (.operator text)

def expectWord (word : String) : Parse Nat := expect (.keyword word)

/-- Like `expectOp`, but a line end before the token is passed with a complaint of its own. -/
def expectClosing (text : String) : Parse Nat := do
  if (← atLineEnd) && text != ";" then
    complainHere
    advance
  expectOp text

/-- Passes the operator if it is there, and tells where it was. -/
def expectOp? (text : String) : Parse (Option Nat) := do
  let l ← look
  if l.token ≠ .operator text then complainHere
  advance
  return if l.token = .operator text then some l.pos else none

/-- Skips tokens up to one that satisfies `stop`.  Stopping at the same place is allowed ten times. -/
def skipTo (stop : Token → Bool) : Nat → Parse Unit
  | 0 => pure ()
  | fuel + 1 => do
      let s ← get
      let here := s.look.pos
      if s.look.token == .eof then
        pure ()
      else if stop s.look.token && s.syncPos == some here && s.syncCount < 10 then
        set { s with syncCount := s.syncCount + 1 }
      else if stop s.look.token && s.syncPos.all (· < here) then
        set { s with syncPos := some here, syncCount := 0 }
      else
        advance
        skipTo stop fuel

/-- A bound on the number of tokens that are left. -/
def tokensLeft : Parse Nat := do return (← get).scanner.unread + 4

def resync (stop : Token → Bool) : Parse Unit := do
  skipTo stop (← tokensLeft)

def startsStmt : Token → Bool
  | .keyword word =>
      ["break", "const", "continue", "defer", "fallthrough", "for", "go", "goto", "if", "return",
        "select", "switch", "type", "var"].contains word
  | _ => false

/-- Tokens that start a declaration which is not a function. -/
def startsDecl : Token → Bool
  | .keyword word => ["import", "const", "type", "var"].contains word
  | _ => false

def endsExpr : Token → Bool
  | .operator text => [",", ":", ";", ")", "]", "\x7d"].contains text
  | _ => false

/-- Passes the end of a statement, which may be left out before a closing bracket. -/
def expectEnd : Parse Unit := do
  match ← token with
  | .operator ")" => pure ()
  | .operator "\x7d" => pure ()
  | .operator "," =>
      complainHere
      advance
  | .operator ";" => advance
  | _ =>
      complainHere
      resync startsStmt

/-- Whether another member of a list follows: a comma, or a complaint that it is missing. -/
def atComma (closing : String) : Parse Bool := do
  if ← atOp "," then
    return true
  else if ← atOp closing then
    return false
  else
    complainHere
    return true

/-- Repeats `step` while it asks for more. -/
def iterate {α : Type} (step : α → Parse (α × Bool)) : Nat → α → Parse α
  | 0, a => pure a
  | fuel + 1, a => do
      let (a, again) ← step a
      if again then iterate step fuel a else pure a

/-- A bound on the number of rounds of a loop, each of which either moves on or stands still at most
ten times. -/
def rounds : Parse Nat := do return 12 * (← tokensLeft)

def whileM (more : Parse Bool) (item : Parse Node) : Parse (List Node) := do
  let step (done : Array Node) : Parse (Array Node × Bool) := do
    if ← more then
      let n ← item
      return (done.push n, true)
    else
      return (done, false)
  return (← iterate step (← rounds) #[]).toList

def commaList (closing : String) (item : Parse Node) : Parse (List Node) := do
  let step (done : Array Node) : Parse (Array Node × Bool) := do
    if (← atOp closing) || (← atEnd) then
      return (done, false)
    else
      let n ← item
      if ← atComma closing then
        advance
        return (done.push n, true)
      else
        return (done.push n, false)
  return (← iterate step (← rounds) #[]).toList

def commaSeparated (item : Parse Node) : Parse (List Node) := do
  let first ← item
  let more ← whileM (atOp ",") (do advance; item)
  return first :: more

def deepen : Parse Unit := do
  modify fun s => { s with nesting := s.nesting + 1 }
  if (← get).nesting > maxNesting then
    complainHere
    throw {}

def leave (levels : Nat) : Parse Unit :=
  modify fun s => { s with nesting := s.nesting - levels }

def nested {α : Type} (p : Parse α) : Parse α := do
  deepen
  let a ← p
  leave 1
  return a

def inBrackets {α : Type} (p : Parse α) : Parse α := do
  modify fun s => { s with exprLevel := s.exprLevel + 1 }
  let a ← p
  modify fun s => { s with exprLevel := s.exprLevel - 1 }
  return a

/-- Runs a parser in the head of a statement. -/
def inHead {α : Type} (p : Parse α) : Parse α := do
  let level := (← get).exprLevel
  modify fun s => { s with exprLevel := -1 }
  let a ← p
  modify fun s => { s with exprLevel := level }
  return a

def withRhs {α : Type} (inRhs : Bool) (p : Parse α) : Parse α := do
  let old := (← get).inRhs
  modify fun s => { s with inRhs := inRhs }
  let a ← p
  modify fun s => { s with inRhs := old }
  return a

/-- A name; without one, a complaint and the blank name. -/
def ident : Parse Node := do
  let l ← look
  match l.token with
  | .name =>
      advance
      return .ofName l.pos l.text
  | _ =>
      let _ ← expect .name
      return .ofName l.pos "_"

end Parse

/-- The parsers that call each other in circles, each good for one level of nesting less than the one
that holds it. -/
structure Grammar where
  type? : Parse (Option Node)
  expr : Parse Node
  unary : Parse Node
  /-- the rest of a binary expression after its first operand, if that was read, down to the given
  precedence -/
  binary : Option Node → Nat → Parse Node
  /-- the braces of a composite literal with the given type -/
  literalValue : Option Node → Parse Node
  body : Parse Node
  stmt : Parse Node
  ifStmt : Parse Node
  decl : (Token → Bool) → Parse Node

end CodeAtlas.Source
