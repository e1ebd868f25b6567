import CodeAtlas.Model.Instant
import CodeAtlas.Number
import CodeAtlas.Text.Base64
import CodeAtlas.Text.Blank
import CodeAtlas.Text.Decimal
import CodeAtlas.Yaml.Node
import CodeAtlas.Yaml.Token

/-!
What scalars mean.  A scalar that is written plain and has no tag means a number, a truth value, a
moment or nothing if it is spelled like one; any other scalar is a text.
-/

namespace CodeAtlas.Yaml

inductive Value where
  | null
  | bool (b : Bool)
  | int (n : Int)
  | float (x : Float)
  | moment
  | text (s : String)
  deriving Inhabited

def digitsIn? (base : Nat) (digits : List Char) : Option Nat :=
  if digits.isEmpty then none
  else digits.foldlM (fun n c => do
    let d ← hexValue? c
    if d < base then some (n * base + d) else none) 0

/-- A number without sign: the base is given by a zero and a letter, or by a zero alone. -/
def magnitude? : List Char → Option Nat
  | '0' :: c :: rest =>
      if c == 'x' || c == 'X' then digitsIn? 16 rest
      else if c == 'b' || c == 'B' then digitsIn? 2 rest
      else if c == 'o' || c == 'O' then digitsIn? 8 rest
      else digitsIn? 8 (c :: rest)
  | digits => digitsIn? 10 digits

def wholeNumber? (read? : List Char → Option Nat) (text : List Char) : Option Int :=
  let signed (negative : Bool) (digits : List Char) : Option Int := do
    let n ← read? digits
    if negative then (if n ≤ signedLimit then some (-(n : Int)) else none)
    else if n < signedLimit then some n else none
  match text with
  | '-' :: digits => signed true digits
  | '+' :: digits => signed false digits
  | digits => (read? digits).bind fun n => if n < unsignedLimit then some n else none

/-- A number in base two or eight whose sign comes after the mark of the base. -/
def innerSigned? (text : List Char) : Option Int :=
  match text with
  | '0' :: 'b' :: digits => wholeNumber? (digitsIn? 2) digits
  | '0' :: 'o' :: digits => wholeNumber? (digitsIn? 8) digits
  | _ => none

def looksDecimal (text : List Char) : Bool :=
  let cs := match text with
    | '-' :: rest => rest
    | '+' :: rest => rest
    | cs => cs
  let whole := cs.takeWhile Char.isDigit
  let rest := cs.dropWhile Char.isDigit
  let (fraction, rest) := match rest with
    | '.' :: rest => (rest.takeWhile Char.isDigit, rest.dropWhile Char.isDigit)
    | rest => ([], rest)
  let exponentOk := match rest with
    | [] => true
    | e :: rest =>
        let digits := match rest with
          | '-' :: d => d
          | '+' :: d => d
          | d => d
        (e == 'e' || e == 'E') && !digits.isEmpty && digits.all Char.isDigit
  (!whole.isEmpty || !fraction.isEmpty) && exponentOk

def underscoresFit : List Char → Bool
  | a :: '_' :: b :: rest => a.isDigit && b.isDigit && underscoresFit (b :: rest)
  | [_, '_'] => false
  | '_' :: _ => false
  | _ :: rest => underscoresFit rest
  | [] => true

def decimal? (text : List Char) : Option Float :=
  if looksDecimal text then
    (doubleOfText? (String.ofList text)).bind fun x => if x.isFinite then some x else none
  else none

def infinity : Float := 1.0 / 0.0

def wordValue? (text : String) : Option Value :=
  if ["", "~", "null", "Null", "NULL"].contains text then some .null
  else if ["true", "True", "TRUE"].contains text then some (.bool true)
  else if ["false", "False", "FALSE"].contains text then some (.bool false)
  else if [".nan", ".NaN", ".NAN"].contains text then some (.float (0.0 / 0.0))
  else if [".inf", ".Inf", ".INF", "+.inf", "+.Inf", "+.INF"].contains text then
    some (.float infinity)
  else if ["-.inf", "-.Inf", "-.INF"].contains text then some (.float (-infinity))
  else none

def isMoment (text : List Char) : Bool :=
  match Instant.date? false text with
  | none => false
  | some (_, []) => true
  | some (_, mark :: rest) =>
      let rest := if mark == ' ' then rest.dropWhile (· == ' ') else rest
      match Instant.clock? false rest with
      | none => false
      | some (_, rest) =>
          if mark == ' ' then rest.isEmpty
          else if mark == 'T' || mark == 't' then
            (Instant.zone? .colonOrZ rest).any (·.2.isEmpty)
          else false

/-- The meaning of a scalar by its spelling alone; moments may be left out. -/
def Value.ofSpelling (moments : Bool) (text : String) : Value :=
  match wordValue? text with
  | some v => v
  | none =>
      let cs := text.toList
      let c := cs.headD ' '
      if c.isDigit || c == '+' || c == '-' then
        let digits := cs.filter (· != '_')
        if moments && isMoment cs then .moment
        else
          match wholeNumber? magnitude? digits, decimal? digits, innerSigned? digits with
          | some n, _, _ => .int n
          | none, some x, _ => .float x
          | none, none, some n => .int n
          | none, none, none => .text text
      else if c == '.' && underscoresFit cs then
        ((decimal? (cs.filter (· != '_'))).map .float).getD (.text text)
      else .text text

/-- The meaning of a scalar.  A tag of the standard has to fit its spelling, and any other tag makes it
a text. -/
def Value.ofScalar? (tag text : String) (isPlain : Bool) : Option Value :=
  match (if tag == "!" then "" else tag) with
  | "" => some (if isPlain then .ofSpelling true text else .text text)
  | "!!int" => match Value.ofSpelling false text with
    | .int n => some (.int n)
    | _ => none
  | "!!float" => match Value.ofSpelling false text with
    | .int n => if n < signedLimit then some (.float (Float.ofInt n)) else none
    | .float x => some (.float x)
    | _ => none
  | "!!bool" => match Value.ofSpelling false text with
    | .bool b => some (.bool b)
    | _ => none
  | "!!null" => match Value.ofSpelling false text with
    | .null => some .null
    | _ => none
  | "!!timestamp" => match Value.ofSpelling true text with
    | .moment => some .moment
    | _ => none
  | "!!binary" => (Base64.decode? text).map fun bytes => .text (textOfGlyphs (glyphsOfBytes bytes))
  | _ => some (.text text)

end CodeAtlas.Yaml

/-!
Going through the nodes of a document.  Aliases are followed, but not into themselves, and a document
most of whose visits come from aliases is refused.
-/

namespace CodeAtlas.Yaml

/-- What has been visited: how many nodes, how many of them within an alias, and the numbers of the
aliases that are being followed. -/
structure Tally where
  visits : Nat
  aliased : Nat
  following : List Nat
  deriving Repr, Inhabited

namespace Tally

def zero : Tally := ⟨0, 0, []⟩

/-- What the share of aliases is measured in. -/
def wholeShare : Nat := 360000000

/-- The share of visits that may come from aliases: 99 of 100 in a small document, and evenly less down
to 10 of 100 in a large one. -/
def aliasShare (visits : Nat) : Nat :=
  if visits ≤ 400000 then 99 * 3600000
  else if visits ≥ 4000000 then 10 * 3600000
  else 99 * 3600000 - 89 * (visits - 400000)

def isExcessive (t : Tally) : Bool :=
  t.aliased > 100 && t.visits > 1000 && t.aliased * wholeShare > aliasShare t.visits * t.visits

def tick? (t : Tally) : Option Tally :=
  let t := { t with
    visits := t.visits + 1
    aliased := if t.following.isEmpty then t.aliased else t.aliased + 1 }
  if t.isExcessive then none else some t

end Tally

abbrev Visit := StateT Tally Option

namespace Document

/-- The node that an alias stands for; any other node stands for itself. -/
def target (d : Document) : Node → Node
  | .alias _ target _ => d.named.getD target .missing
  | n => n

/-- Visits a node, through an alias if it is one. -/
def visit {α : Type} (d : Document) (n : Node) (look : Node → Visit α) : Visit α := fun t => do
  let t ← t.tick?
  match n with
  | .alias _ _ number =>
      if t.following.contains number then none
      else
        let inside ← { t with following := number :: t.following }.tick?
        let (a, after) ← look (d.target n) inside
        some (a, { after with following := t.following })
  | n => look n t

end Document

def Node.scalar? : Node → Option (Value × String)
  | .scalar tag text isPlain => (Value.ofScalar? tag text isPlain).map (·, text)
  | _ => none

end CodeAtlas.Yaml
