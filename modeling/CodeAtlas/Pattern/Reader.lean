import CodeAtlas.Pattern.Expression

/-!
The written form of regular expressions, with classes, groups and counted repetition.  A question mark
after a repetition makes it prefer fewer rounds.
-/

namespace CodeAtlas.Expression

def hexValue? (c : Char) : Option Nat :=
  if c.isDigit then some (c.toNat - 48)
  else if 'a' ≤ c && c ≤ 'f' then some (c.toNat - 87)
  else if 'A' ≤ c && c ≤ 'F' then some (c.toNat - 55)
  else none

def isOctal (c : Char) : Bool := '0' ≤ c && c ≤ '7'

/-- Hexadecimal digits up to a closing brace; at least one, and no more than a code point needs. -/
def bracedHex : Nat → Bool → List Char → Option (Nat × List Char)
  | value, seen, '}' :: rest => if seen then some (value, rest) else none
  | value, _, c :: rest =>
      match hexValue? c with
      | some v => if value * 16 + v > 0x10FFFF then none else bracedHex (value * 16 + v) true rest
      | none => none
  | _, _, [] => none

def escape : List Char → Option (Nat × List Char)
  | [] => none
  | 'a' :: rest => some (0x07, rest)
  | 'f' :: rest => some (0x0C, rest)
  | 'n' :: rest => some (0x0A, rest)
  | 'r' :: rest => some (0x0D, rest)
  | 't' :: rest => some (0x09, rest)
  | 'v' :: rest => some (0x0B, rest)
  | 'x' :: '{' :: rest => bracedHex 0 false rest
  | 'x' :: a :: b :: rest =>
      match hexValue? a, hexValue? b with
      | some a, some b => some (a * 16 + b, rest)
      | _, _ => none
  | c :: rest =>
      if isOctal c then
        let more := (rest.take 2).takeWhile isOctal
        if c != '0' && more.isEmpty then none
        else
          let value := more.foldl (fun n d => n * 8 + (d.toNat - 48)) (c.toNat - 48)
          some (value, rest.drop more.length)
      else if isAscii c && !c.isAlphanum then some (c.toNat, rest)
      else none

/-- The classes that are written as a backslash and a letter. -/
def letterClass? : Char → Option CharSet
  | 'd' => some .digit
  | 's' => some .blank
  | 'w' => some .word
  | 'D' => some (.complement .digit)
  | 'S' => some (.complement .blank)
  | 'W' => some (.complement .word)
  | _ => none

/-- The class that is written as a name between colons. -/
def colonClass? : String → Option CharSet
  | "alnum" => some (.oneOf [.span '0' '9', .span 'A' 'Z', .span 'a' 'z'])
  | "alpha" => some (.union (.span 'A' 'Z') (.span 'a' 'z'))
  | "ascii" => some (.range 0 0x7F)
  | "blank" => some (.ofChars "\t ")
  | "cntrl" => some (.union (.range 0 0x1F) (.range 0x7F 0x7F))
  | "digit" => some .digit
  | "graph" => some (.span '!' '~')
  | "lower" => some (.span 'a' 'z')
  | "print" => some (.span ' ' '~')
  | "punct" => some (.oneOf [.span '!' '/', .span ':' '@', .range 0x5B 0x60, .range 0x7B 0x7E])
  | "space" => some (.union (.span '\t' '\r') (.single ' '))
  | "upper" => some (.span 'A' 'Z')
  | "word" => some .word
  | "xdigit" => some (.oneOf [.span '0' '9', .span 'A' 'F', .span 'a' 'f'])
  | _ => none

/-- The class with the given name, or its complement if a caret stands before the name. -/
def caretClass (find : String → Option CharSet) (name : List Char) : Option CharSet :=
  match name with
  | '^' :: name => (find (String.ofList name)).map .complement
  | name => find (String.ofList name)

/-- A class that is written as a name after `\\p`, in braces unless it is one letter. -/
def propertyClass (cs : List Char) : Option (CharSet × List Char) :=
  match cs with
  | [] => none
  | '{' :: rest =>
      match rest.dropWhile (· != '}') with
      | [] => none
      | _ :: after => (caretClass CharSet.ofName? (rest.takeWhile (· != '}'))).map (·, after)
  | c :: rest => (caretClass CharSet.ofName? [c]).map (·, rest)

/-- A class that is written as a backslash and one letter, and perhaps a name; read after the
backslash. -/
def escapedClass (cs : List Char) : Option (CharSet × List Char) :=
  match cs with
  | 'p' :: rest => propertyClass rest
  | 'P' :: rest => (propertyClass rest).map fun (set, rest) => (.complement set, rest)
  | c :: rest => (letterClass? c).map (·, rest)
  | [] => none

def classChar : List Char → Option (Nat × List Char)
  | [] => none
  | '\\' :: rest => escape rest
  | c :: rest => some (c.toNat, rest)

/-- The name of a class between `[:` and `:]`, if it is closed. -/
def className? : List Char → List Char → Option (List Char × List Char)
  | done, ':' :: ']' :: rest => some (done.reverse, rest)
  | done, c :: rest => className? (c :: done) rest
  | _, [] => none

def classRange (cs : List Char) : Option (CharSet × List Char) := do
  let (lo, cs) ← classChar cs
  match cs with
  | '-' :: next :: more =>
      if next == ']' then
        pure (.range lo lo, cs)
      else
        let (hi, cs) ← classChar (next :: more)
        if hi < lo then none else pure (.range lo hi, cs)
  | _ => pure (.range lo lo, cs)

def classItem (cs : List Char) : Option (CharSet × List Char) :=
  match cs with
  | '[' :: ':' :: rest =>
      match className? [] rest with
      | some (name, after) => (caretClass colonClass? name).map (·, after)
      | none => classRange cs
  | '\\' :: c :: rest =>
      if ['p', 'P', 'd', 'D', 's', 'S', 'w', 'W'].contains c then escapedClass (c :: rest)
      else classRange cs
  | _ => classRange cs

/-- The items of a class up to its closing bracket, which may also stand first as itself. -/
def classItems : Nat → Bool → List CharSet → List Char → Option (List CharSet × List Char)
  | 0, _, _, _ => none
  | fuel + 1, first, done, cs =>
      match cs with
      | ']' :: rest =>
          if first then
            match classItem cs with
            | some (item, rest) => classItems fuel false (item :: done) rest
            | none => none
          else
            some (done.reverse, rest)
      | _ =>
          match classItem cs with
          | some (item, rest) => classItems fuel false (item :: done) rest
          | none => none

def readClass (cs : List Char) : Option (Expression × List Char) :=
  let (negated, cs) := match cs with
    | '^' :: rest => (true, rest)
    | _ => (false, cs)
  (classItems (cs.length + 1) true [] cs).map fun (items, rest) =>
    let set := CharSet.oneOf items
    (basic (.char (if negated then .complement set else set)), rest)

/-- A number without leading zeros. -/
def readCount (cs : List Char) : Option (Nat × List Char) :=
  let digits := cs.takeWhile Char.isDigit
  match digits with
  | [] => none
  | '0' :: _ :: _ => none
  | _ => some (digits.foldl (fun n d => n * 10 + (d.toNat - 48)) 0, cs.drop digits.length)

/-- The bounds of a counted repetition after its opening brace; no upper bound if it is open. -/
def readBounds (cs : List Char) : Option (Nat × Option Nat × List Char) := do
  let (least, cs) ← readCount cs
  match cs with
  | '}' :: rest => pure (least, some least, rest)
  | ',' :: '}' :: rest => pure (least, none, rest)
  | ',' :: rest =>
      let (most, rest) ← readCount rest
      match rest with
      | '}' :: rest => pure (least, some most, rest)
      | _ => none
  | _ => none

/-- Repeats the last of the expressions read so far, which are kept back to front.  There must be one,
and it must not be a repetition already. -/
def repeatLast (counted : Bool) (least : Nat) (most : Option Nat) (done : List Expression)
    (repeated : Bool) (cs : List Char) : Option (List Expression × List Char) :=
  let (greedy, cs) := match cs with
    | '?' :: rest => (false, rest)
    | _ => (true, cs)
  match done with
  | e :: before =>
      if repeated then none else some (rounds greedy counted least most e :: before, cs)
  | [] => none

/-- The texts up to the end of a quotation are taken as they are. -/
def quotedPart : List Char → List Char → List Char × List Char
  | done, '\\' :: 'E' :: rest => (done.reverse, rest)
  | done, c :: rest => quotedPart (c :: done) rest
  | done, [] => (done.reverse, [])

def single (c : Char) : Expression := literal (.single c)

def orElse (first : Expression) : Expression → Expression
  | choice more => choice (first :: more)
  | other => choice [first, other]

mutual

/-- Branches with bars between them, up to a closing parenthesis or the end. -/
def readBranches : Nat → List Char → Option (Expression × List Char)
  | 0, _ => none
  | fuel + 1, cs =>
      match readBranch fuel [] false cs with
      | some (e, '|' :: rest) =>
          match readBranches fuel rest with
          | some (more, rest) => some (orElse e more, rest)
          | none => none
      | other => other

/-- The items of a branch; those read so far are kept back to front. -/
def readBranch : Nat → List Expression → Bool → List Char → Option (Expression × List Char)
  | 0, _, _, _ => none
  | fuel + 1, done, repeated, cs =>
      let goOn (r : Option (List Expression × List Char)) : Option (Expression × List Char) :=
        match r with
        | some (done, rest) => readBranch fuel done true rest
        | none => none
      match cs with
      | [] => some (sequence done.reverse, [])
      | '|' :: _ => some (sequence done.reverse, cs)
      | ')' :: _ => some (sequence done.reverse, cs)
      | '(' :: rest =>
          if rest.head? == some '?' then none
          else
            match readBranches fuel rest with
            | some (e, ')' :: rest) => readBranch fuel (group e :: done) false rest
            | _ => none
      | '*' :: rest => goOn (repeatLast false 0 none done repeated rest)
      | '+' :: rest => goOn (repeatLast false 1 none done repeated rest)
      | '?' :: rest => goOn (repeatLast false 0 (some 1) done repeated rest)
      | '{' :: rest =>
          match readBounds rest with
          | some (least, most, after) =>
              if least > maxRounds || most.any (fun m => m > maxRounds || m < least) then none
              else goOn (repeatLast true least most done repeated after)
          | none => readBranch fuel (single '{' :: done) false rest
      | '^' :: rest => readBranch fuel (basic .textStart :: done) false rest
      | '$' :: rest => readBranch fuel (basic .textEnd :: done) false rest
      | '.' :: rest => readBranch fuel (basic (.char .exceptLineEnd) :: done) false rest
      | '[' :: rest =>
          match readClass rest with
          | some (e, rest) => readBranch fuel (e :: done) false rest
          | none => none
      | '\\' :: 'A' :: rest => readBranch fuel (basic .textStart :: done) false rest
      | '\\' :: 'z' :: rest => readBranch fuel (basic .textEnd :: done) false rest
      | '\\' :: 'b' :: rest => readBranch fuel (basic (.boundary true) :: done) false rest
      | '\\' :: 'B' :: rest => readBranch fuel (basic (.boundary false) :: done) false rest
      | '\\' :: 'Q' :: rest =>
          let (quote, rest) := quotedPart [] rest
          readBranch fuel (quote.reverse.map single ++ done) false rest
      | '\\' :: rest =>
          match escapedClass rest with
          | some (set, rest) => readBranch fuel (basic (.char set) :: done) false rest
          | none =>
              match escape rest with
              | some (code, rest) => readBranch fuel (literal (.range code code) :: done) false rest
              | none => none
      | c :: rest => readBranch fuel (single c :: done) false rest

end

/-- The expression that a text writes, if it is well formed and keeps the limits. -/
def parse? (text : String) : Option Expression :=
  let cs := text.toList
  match readBranches (2 * cs.length + 2) cs with
  | some (e, []) => if e.isWithinLimits then some e else none
  | _ => none

end CodeAtlas.Expression
