import CodeAtlas.Number
import CodeAtlas.Text.Quoted

/-!
Integers in the notation of programs: a sign, a base in front, and underscores between digits.
-/

namespace CodeAtlas

inductive IntegerFault where
  | malformed
  | outOfRange
  deriving DecidableEq, Repr

def IntegerFault.message (reader text : String) (fault : IntegerFault) : String :=
  "strconv." ++ reader ++ ": parsing " ++ quoted text ++ match fault with
    | malformed => ": invalid syntax"
    | outOfRange => ": value out of range"

namespace Integer

def digit? (base : Nat) (c : Char) : Option Nat :=
  let c := c.toLower
  let n :=
    if c.isDigit then c.toNat - 48
    else if 'a' ≤ c && c ≤ 'z' then c.toNat - 87
    else base
  if n < base then some n else none

def base (text : List Char) : Nat × List Char :=
  match text with
  | '0' :: b :: d :: rest =>
      if b.toLower == 'b' then (2, d :: rest)
      else if b.toLower == 'o' then (8, d :: rest)
      else if b.toLower == 'x' then (16, d :: rest)
      else (8, b :: d :: rest)
  | '0' :: rest => (8, rest)
  | _ => (10, text)

/-- Whether underscores stand only between digits; `afterDigit` if a digit or the base comes before. -/
def underscoresFit (afterDigit : Bool) : List Char → Bool
  | [] => true
  | '_' :: rest =>
      afterDigit && !rest.isEmpty && rest.head? != some '_' && underscoresFit false rest
  | _ :: rest => underscoresFit true rest

/-- Reads the digits that are left after those that made `n`.  The first digit that does not fit, or that
goes beyond 64 bits, decides. -/
def digitsFrom (base n : Nat) : List Char → Except IntegerFault Nat
  | [] => .ok n
  | c :: rest =>
      match digit? base c with
      | none => .error .malformed
      | some d =>
          if n * base + d < unsignedLimit then digitsFrom base (n * base + d) rest
          else .error .outOfRange

def natural (text : List Char) : Except IntegerFault Nat :=
  if text.isEmpty then .error .malformed
  else
    let (b, digits) := base text
    match digitsFrom b 0 (digits.filter (· != '_')) with
    | .ok n => if underscoresFit (b != 10) digits then .ok n else .error .malformed
    | fault => fault

def decimal (text : List Char) : Except IntegerFault Nat :=
  if text.isEmpty then .error .malformed else digitsFrom 10 0 text

def signed (unsigned : List Char → Except IntegerFault Nat) (text : String) :
    Except IntegerFault Int :=
  let (negative, digits) := match text.toList with
    | '-' :: rest => (true, rest)
    | '+' :: rest => (false, rest)
    | cs => (false, cs)
  match unsigned digits with
  | .error fault => .error fault
  | .ok n =>
      if negative then (if n ≤ signedLimit then .ok (-n) else .error .outOfRange)
      else (if n < signedLimit then .ok n else .error .outOfRange)

end Integer

def readInteger (text : String) : Except IntegerFault Int := Integer.signed Integer.natural text

def readDecimal (text : String) : Except IntegerFault Int := Integer.signed Integer.decimal text

/-- A text without a fraction of zeros at its end; dots behind the zeros go with it. -/
def withoutZeroFraction (text : String) : String :=
  match text.toList.reverse.dropWhile (· == '.') with
  | '0' :: back =>
      match back.dropWhile (· == '0') with
      | '.' :: rest => String.ofList rest.reverse
      | _ => text
  | _ => text

/-- The 64-bit integer that a text spells, also with a fraction of zeros behind it. -/
def readLooseInteger (text : String) : Except IntegerFault Int := readInteger (withoutZeroFraction text)

end CodeAtlas
