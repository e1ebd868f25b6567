import CodeAtlas.Json.Basic

/-!
Reading JSON texts.  The readers take the characters that are left and return the rest; a nested
value costs one unit of `depth`, and each list of members costs one unit of `fuel` per member.
-/

namespace CodeAtlas.Json

def isSpace (c : Char) : Bool :=
  c == ' ' || c == '\t' || c == '\n' || c == '\r'

def skipSpace (cs : List Char) : List Char :=
  cs.dropWhile isSpace

def hexValue? (c : Char) : Option Nat :=
  if c.isDigit then some (c.toNat - 48)
  else if 'a' ≤ c && c ≤ 'f' then some (c.toNat - 87)
  else if 'A' ≤ c && c ≤ 'F' then some (c.toNat - 55)
  else none

def hexUnit? : List Char → Option (Nat × List Char)
  | a :: b :: c :: d :: rest => do
      let a ← hexValue? a
      let b ← hexValue? b
      let c ← hexValue? c
      let d ← hexValue? d
      pure (((a * 16 + b) * 16 + c) * 16 + d, rest)
  | _ => none

/-- The character of a UTF-16 unit and, for a leading surrogate, of the escape after it; a surrogate
without partner stands for U+FFFD. -/
def unitChar (unit : Nat) (rest : List Char) : Char × List Char :=
  let lone := (Char.ofNat 0xFFFD, rest)
  if unit < 0xD800 || 0xE000 ≤ unit then
    (Char.ofNat unit, rest)
  else if unit < 0xDC00 then
    match rest with
    | '\\' :: 'u' :: more =>
        match hexUnit? more with
        | some (low, after) =>
            if 0xDC00 ≤ low && low < 0xE000 then
              (Char.ofNat (0x10000 + (unit - 0xD800) * 0x400 + (low - 0xDC00)), after)
            else
              lone
        | none => lone
    | _ => lone
  else
    lone

def plainEscape? : Char → Option Char
  | '"' => some '"'
  | '\\' => some '\\'
  | '/' => some '/'
  | 'b' => some (Char.ofNat 8)
  | 'f' => some (Char.ofNat 12)
  | 'n' => some '\n'
  | 'r' => some '\r'
  | 't' => some '\t'
  | _ => none

/-- The rest of a string after its opening quote. -/
def readString : Nat → String → List Char → Option (String × List Char)
  | 0, _, _ => none
  | fuel + 1, done, cs =>
      match cs with
      | [] => none
      | '"' :: rest => some (done, rest)
      | '\\' :: 'u' :: rest =>
          match hexUnit? rest with
          | some (unit, after) =>
              let (c, after) := unitChar unit after
              readString fuel (done.push c) after
          | none => none
      | '\\' :: c :: rest =>
          match plainEscape? c with
          | some e => readString fuel (done.push e) rest
          | none => none
      | c :: rest => if c.toNat < 0x20 then none else readString fuel (done.push c) rest

def takeDigits (cs : List Char) : List Char × List Char :=
  (cs.takeWhile Char.isDigit, cs.dropWhile Char.isDigit)

/-- The spelling of a number: sign, digits without a leading zero, fraction, exponent. -/
def readNumber? (cs : List Char) : Option (String × List Char) := do
  let (sign, cs) := match cs with
    | '-' :: rest => (['-'], rest)
    | _ => ([], cs)
  let (whole, cs) := match cs with
    | '0' :: rest => (['0'], rest)
    | _ => takeDigits cs
  if whole.isEmpty then none
  let (fraction, cs) ← match cs with
    | '.' :: rest =>
        let (digits, rest) := takeDigits rest
        if digits.isEmpty then none else some ('.' :: digits, rest)
    | _ => some ([], cs)
  let (exponent, cs) ← match cs with
    | e :: rest =>
        if e == 'e' || e == 'E' then
          let (sign, rest) := match rest with
            | '+' :: more => (['+'], more)
            | '-' :: more => (['-'], more)
            | _ => ([], rest)
          let (digits, rest) := takeDigits rest
          if digits.isEmpty then none else some (e :: sign ++ digits, rest)
        else
          some ([], cs)
    | [] => some ([], cs)
  pure (String.ofList (sign ++ whole ++ fraction ++ exponent), cs)

mutual

/-- Reads one value; `fuel` bounds the number of readers that are started. -/
def readValue : Nat → List Char → Option (Json × List Char)
  | 0, _ => none
  | fuel + 1, cs =>
      match skipSpace cs with
      | 'n' :: 'u' :: 'l' :: 'l' :: rest => some (.null, rest)
      | 't' :: 'r' :: 'u' :: 'e' :: rest => some (.bool true, rest)
      | 'f' :: 'a' :: 'l' :: 's' :: 'e' :: rest => some (.bool false, rest)
      | '"' :: rest => (readString (rest.length + 1) "" rest).map fun (s, r) => (.string s, r)
      | '[' :: rest =>
          match skipSpace rest with
          | ']' :: after => some (.array [], after)
          | other => (readItems fuel #[] other).map fun (items, r) => (.array items.toList, r)
      | '{' :: rest =>
          match skipSpace rest with
          | '}' :: after => some (.object [], after)
          | other => (readFields fuel #[] other).map fun (fields, r) => (.object fields.toList, r)
      | other => (readNumber? other).map fun (n, r) => (.number n, r)

def readItems : Nat → Array Json → List Char → Option (Array Json × List Char)
  | 0, _, _ => none
  | fuel + 1, done, cs =>
      match readValue fuel cs with
      | none => none
      | some (item, rest) =>
          match skipSpace rest with
          | ',' :: more => readItems fuel (done.push item) more
          | ']' :: more => some (done.push item, more)
          | _ => none

def readFields :
    Nat → Array (String × Json) → List Char → Option (Array (String × Json) × List Char)
  | 0, _, _ => none
  | fuel + 1, done, cs =>
      match skipSpace cs with
      | '"' :: rest =>
          match readString (rest.length + 1) "" rest with
          | none => none
          | some (key, rest) =>
              match skipSpace rest with
              | ':' :: rest =>
                  match readValue fuel rest with
                  | none => none
                  | some (value, rest) =>
                      match skipSpace rest with
                      | ',' :: more => readFields fuel (done.push (key, value)) more
                      | '}' :: more => some (done.push (key, value), more)
                      | _ => none
              | _ => none
      | _ => none

end

/-- The value that a text spells, with nothing but white space around it. -/
def parse? (text : String) : Option Json :=
  let cs := text.toList
  match readValue (cs.length + 1) cs with
  | some (value, rest) => if (skipSpace rest).isEmpty then some value else none
  | none => none

end CodeAtlas.Json
