import CodeAtlas.Text.Glyph

/-!
Base64: three bytes are written as four signs of six bits each, and what is missing of the last three
is made up by equals signs.
-/

namespace CodeAtlas.Base64

def sign (n : Nat) : Char :=
  if n < 26 then Char.ofNat (65 + n)
  else if n < 52 then Char.ofNat (97 + (n - 26))
  else if n < 62 then Char.ofNat (48 + (n - 52))
  else if n == 62 then '+'
  else '/'

def value? (c : Char) : Option Nat :=
  if c.isUpper then some (c.toNat - 65)
  else if c.isLower then some (c.toNat - 97 + 26)
  else if c.isDigit then some (c.toNat - 48 + 52)
  else if c == '+' then some 62
  else if c == '/' then some 63
  else none

def encode : List UInt8 → List Char
  | a :: b :: c :: rest =>
      let n := (a.toNat * 256 + b.toNat) * 256 + c.toNat
      sign (n / 262144) :: sign (n / 4096 % 64) :: sign (n / 64 % 64) :: sign (n % 64) :: encode rest
  | [a, b] =>
      let n := (a.toNat * 256 + b.toNat) * 4
      [sign (n / 4096), sign (n / 64 % 64), sign (n % 64), '=']
  | [a] => [sign (a.toNat / 4), sign (a.toNat % 4 * 16), '=', '=']
  | [] => []

def isLineEnd (c : Char) : Bool := c == '\n' || c == '\r'

/-- Where a text goes on after ends of lines, if it does. -/
def nextSign? (at_ : Nat) : List Char → Option (Nat × Char × List Char)
  | [] => none
  | c :: rest => if isLineEnd c then nextSign? (at_ + 1) rest else some (at_, c, rest)

/-- The bytes of the signs of a last group, which bits that no byte needs do not count in.  Nothing may
follow it. -/
def lastGroup (at_ : Nat) (held : List Nat) (rest : List Char) : Except Nat (List UInt8) :=
  match nextSign? at_ rest, held with
  | some (other, _, _), _ => .error other
  | none, [a, b, c] =>
      let n := (a * 64 + b) * 64 + c
      .ok [UInt8.ofNat (n / 1024), UInt8.ofNat (n / 4)]
  | none, a :: b :: _ => .ok [UInt8.ofNat ((a * 64 + b) / 16)]
  | none, _ => .ok []

/-- What an equals sign at a place ends: a group of three signs, or one of two if another equals sign
follows.  `size` is the length of the whole text. -/
def closeGroup (size at_ : Nat) (held : List Nat) (rest : List Char) : Except Nat (List UInt8) :=
  match held, nextSign? (at_ + 1) rest with
  | [_, _], none => .error size
  | [_, _], some (next, c, rest) =>
      if c == '=' then lastGroup (next + 1) held rest else .error (next - 1)
  | [_, _, _], _ => lastGroup (at_ + 1) held rest
  | _, _ => .error at_

/-- Reads signs from a place on; `held` are the numbers of the group that has begun.  A fault is told by
its place. -/
def decodeFrom (size at_ : Nat) (held : List Nat) : List Char → Except Nat (List UInt8)
  | [] => if held.isEmpty then .ok [] else .error (size - held.length)
  | c :: rest =>
      if isLineEnd c then decodeFrom size (at_ + 1) held rest
      else
        match value? c, held with
        | some d, [a, b, c] =>
            let n := ((a * 64 + b) * 64 + c) * 64 + d
            (decodeFrom size (at_ + 1) [] rest).map fun more =>
              UInt8.ofNat (n / 65536) :: UInt8.ofNat (n / 256) :: UInt8.ofNat n :: more
        | some d, _ => decodeFrom size (at_ + 1) (held ++ [d]) rest
        | none, _ => if c == '=' then closeGroup size at_ held rest else .error at_

/-- The bytes of a text, in which ends of lines mean nothing, or the byte at which it goes wrong. -/
def decode (text : String) : Except Nat (List UInt8) :=
  let signs := text.toUTF8.toList.map fun b => Char.ofNat b.toNat
  decodeFrom signs.length 0 [] signs

def decode? (text : String) : Option (List UInt8) := (decode text).toOption

end CodeAtlas.Base64
