import CodeAtlas.Json.Basic
import CodeAtlas.Text.Decimal
import CodeAtlas.Text.Quoted

/-!
Writing JSON texts.
-/

namespace CodeAtlas.Json

def escape (c : Char) : String :=
  match c.toNat with
  | 0x22 => "\\\""
  | 0x5C => "\\\\"
  | 0x0A => "\\n"
  | 0x0D => "\\r"
  | 0x09 => "\\t"
  | n => if n < 0x20 then "\\u" ++ hexText 4 n else String.singleton c

def writeString (out text : String) : String :=
  text.foldl (fun out c => out ++ escape c) (out ++ "\"") ++ "\""

mutual

def write (out : String) : Json → String
  | .null => out ++ "null"
  | .bool true => out ++ "true"
  | .bool false => out ++ "false"
  | .number literal => out ++ literal
  | .real value => out ++ shortestText value
  | .string value => writeString out value
  | .array [] => out ++ "[]"
  | .array (item :: rest) => writeItems (write (out ++ "[") item) rest ++ "]"
  | .object [] => out ++ "\x7b\x7d"
  | .object ((key, value) :: rest) =>
      writeFields (write (writeString (out ++ "\x7b") key ++ ":") value) rest ++ "\x7d"

def writeItems (out : String) : List Json → String
  | [] => out
  | item :: rest => writeItems (write (out ++ ",") item) rest

def writeFields (out : String) : List (String × Json) → String
  | [] => out
  | (key, value) :: rest => writeFields (write (writeString (out ++ ",") key ++ ":") value) rest

end

def render (value : Json) : String := write "" value

def lineStart (depth : Nat) : String := "\n" ++ String.ofList (List.replicate (2 * depth) ' ')

mutual

def layOut (depth : Nat) (out : String) : Json → String
  | .array (item :: rest) =>
      layOutItems depth (layOut (depth + 1) (out ++ "[" ++ lineStart (depth + 1)) item) rest ++
        lineStart depth ++ "]"
  | .object ((key, value) :: rest) =>
      let start := writeString (out ++ "\x7b" ++ lineStart (depth + 1)) key ++ ": "
      layOutFields depth (layOut (depth + 1) start value) rest ++ lineStart depth ++ "\x7d"
  | value => write out value

def layOutItems (depth : Nat) (out : String) : List Json → String
  | [] => out
  | item :: rest =>
      layOutItems depth (layOut (depth + 1) (out ++ "," ++ lineStart (depth + 1)) item) rest

def layOutFields (depth : Nat) (out : String) : List (String × Json) → String
  | [] => out
  | (key, value) :: rest =>
      let start := writeString (out ++ "," ++ lineStart (depth + 1)) key ++ ": "
      layOutFields depth (layOut (depth + 1) start value) rest

end

/-- A value for human eyes: every member and item on a line of its own. -/
def pretty (value : Json) : String := layOut 0 "" value

end CodeAtlas.Json
