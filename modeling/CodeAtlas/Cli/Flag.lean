import CodeAtlas.Text.Blank
import CodeAtlas.Text.Integer

/-!
The flags of commands and how they are read from a command line.
-/

namespace CodeAtlas

inductive FlagKind where
  | text
  | integer
  | switch
  deriving DecidableEq, Repr

structure Flag where
  name : String
  letter : Option Char
  kind : FlagKind
  usage : String
  standard : String
  deriving DecidableEq, Repr

structure ParsedFlags where
  given : List (String × String)
  arguments : List String
  deriving DecidableEq, Repr

namespace ParsedFlags

/-- The last value given for a flag. -/
def value? (p : ParsedFlags) (name : String) : Option String :=
  (p.given.reverse.find? (·.1 == name)).map (·.2)

def isGiven (p : ParsedFlags) (name : String) : Bool := p.given.any (·.1 == name)

def text (p : ParsedFlags) (name : String) : String := (p.value? name).getD ""

def yesTexts : List String := ["1", "t", "T", "TRUE", "true", "True"]

def noTexts : List String := ["0", "f", "F", "FALSE", "false", "False"]

def isOn (p : ParsedFlags) (name : String) : Bool := (p.value? name).any yesTexts.contains

def integer (p : ParsedFlags) (name : String) (standard : Int) : Int :=
  ((p.value? name).bind fun text => (readInteger text).toOption).getD standard

end ParsedFlags

namespace Flag

def label (f : Flag) : String :=
  match f.letter with
  | some c => "-" ++ String.singleton c ++ ", --" ++ f.name
  | none => "--" ++ f.name

def complaint? (f : Flag) (value : String) : Option String :=
  match f.kind with
  | .text => none
  | .integer =>
      match readInteger value with
      | .ok _ => none
      | .error fault => some (fault.message "ParseInt" value)
  | .switch =>
      if (ParsedFlags.yesTexts ++ ParsedFlags.noTexts).contains value then none
      else some (IntegerFault.malformed.message "ParseBool" value)

def give (f : Flag) (value : String) (p : ParsedFlags) : Except String ParsedFlags :=
  match f.complaint? value with
  | none => .ok { p with given := p.given ++ [(f.name, value)] }
  | some reason => .error ("invalid argument " ++ quoted value ++ " for " ++ quoted f.label ++
      " flag: " ++ reason)

def alone? (f : Flag) : Option String := if f.kind == .switch then some "true" else none

def readLong (flags : List Flag) (word : String) (rest : List String) (p : ParsedFlags) :
    Except String (ParsedFlags × List String) :=
  let body := word.toList.drop 2
  match body with
  | '-' :: _ => .error ("bad flag syntax: " ++ word)
  | '=' :: _ => .error ("bad flag syntax: " ++ word)
  | _ =>
      let name := String.ofList (body.takeWhile (· != '='))
      match flags.find? (·.name == name) with
      | none => .error ("unknown flag: --" ++ name)
      | some f =>
          match body.dropWhile (· != '='), f.alone?, rest with
          | _ :: value, _, _ => (f.give (String.ofList value) p).map (·, rest)
          | [], some value, _ => (f.give value p).map (·, rest)
          | [], none, value :: rest => (f.give value p).map (·, rest)
          | [], none, [] => .error ("flag needs an argument: " ++ word)

/-- A letter as messages show it.  They read its bytes one by one, and what is beyond ASCII begins with
the same one. -/
def letterText (c : Char) : String :=
  if c == '\'' then "'\\''"
  else if c == '"' then "'\"'"
  else "'" ++ escapeChar (if isAscii c then c else Char.ofNat 0xC3) ++ "'"

/-- Letters that speak to a test run and not to the program. -/
def testLead : List Char := "test.".toList

def readLetters (flags : List Flag) (rest : List String) (p : ParsedFlags) :
    List Char → Except String (ParsedFlags × List String)
  | [] => .ok (p, rest)
  | c :: more =>
      let word := String.ofList (c :: more)
      if startsWith testLead (c :: more) then .ok (p, rest) else
      match flags.find? (·.letter == some c) with
      | none => .error ("unknown shorthand flag: " ++ letterText c ++ " in -" ++ word)
      | some f =>
          match more, f.alone?, rest with
          | '=' :: d :: value, _, _ => (f.give (String.ofList (d :: value)) p).map (·, rest)
          | _, some value, _ =>
              match f.give value p with
              | .ok p => readLetters flags rest p more
              | .error e => .error e
          | d :: value, none, _ => (f.give (String.ofList (d :: value)) p).map (·, rest)
          | [], none, value :: rest => (f.give value p).map (·, rest)
          | [], none, [] =>
              .error ("flag needs an argument: " ++ letterText c ++ " in -" ++ word)

/-- Reads a command line.  Flags may stand anywhere before two hyphens.  Every round takes at least
one word. -/
def parseFrom (flags : List Flag) : Nat → List String → ParsedFlags → Except String ParsedFlags
  | 0, _, p => .ok p
  | _, [], p => .ok p
  | fuel + 1, word :: rest, p =>
      match word.toList with
      | ['-', '-'] => .ok { p with arguments := p.arguments ++ rest }
      | '-' :: '-' :: _ =>
          match readLong flags word rest p with
          | .ok (p, rest) => parseFrom flags fuel rest p
          | .error e => .error e
      | '-' :: c :: more =>
          match readLetters flags rest p (c :: more) with
          | .ok (p, rest) => parseFrom flags fuel rest p
          | .error e => .error e
      | _ => parseFrom flags fuel rest { p with arguments := p.arguments ++ [word] }

def parse (flags : List Flag) (words : List String) : Except String ParsedFlags :=
  parseFrom flags words.length words ⟨[], []⟩

end Flag

end CodeAtlas
