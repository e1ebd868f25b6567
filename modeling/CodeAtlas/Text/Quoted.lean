import CodeAtlas.Text.CharClass

/-!
Texts between quotes, as they stand in error messages.
-/

namespace CodeAtlas

def hexDigit (n : Nat) : Char :=
  if n < 10 then Char.ofNat (48 + n) else Char.ofNat (87 + n)

def hexText (digits n : Nat) : String :=
  match digits with
  | 0 => ""
  | d + 1 => (hexText d (n / 16)).push (hexDigit (n % 16))

/-- How one character is written between quotes: quotes, backslashes and characters that leave no
mark are escaped. -/
def escapeChar (c : Char) : String :=
  if c == '"' then "\\\""
  else if c == '\\' then "\\\\"
  else if isPrintable c then String.singleton c
  else match c.toNat with
    | 7 => "\\a"
    | 8 => "\\b"
    | 9 => "\\t"
    | 10 => "\\n"
    | 11 => "\\v"
    | 12 => "\\f"
    | 13 => "\\r"
    | n =>
        if n < 0x80 then "\\x" ++ hexText 2 n
        else if n < 0x10000 then "\\u" ++ hexText 4 n
        else "\\U" ++ hexText 8 n

def quoted (text : String) : String :=
  text.foldl (fun out c => out ++ escapeChar c) "\"" ++ "\""

end CodeAtlas
