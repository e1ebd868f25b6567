import CodeAtlas.Text.Glyph

/-!
The characters of a YAML file.  Its bytes are in UTF-8, or in UTF-16 if a mark in front says so, and
are decoded one stretch after the other.  A stretch with something that cannot be read hides all that
comes from it on, but does no harm to a reader who stops before.
-/

namespace CodeAtlas.Yaml

/-- Characters, and whether they break off before the end of the file. -/
structure Stream where
  chars : List Char
  cut : Bool
  deriving Repr, Inhabited

namespace Stream

def isAllowed (c : Char) : Bool :=
  let n := c.toNat
  n == 0x09 || n == 0x0A || n == 0x0D || (0x20 ≤ n && n ≤ 0x7E) || n == 0x85 || (0xA0 ≤ n && n < 0xD800) ||
    (0xE000 ≤ n && n ≤ 0xFFFD && n != 0xFEFF) || 0x10000 ≤ n

inductive Encoding where
  | utf8
  | utf16 (highFirst : Bool)
  deriving DecidableEq, Repr

/-- What stands at the head of some bytes: a character with its number of bytes, the start of one that
goes on beyond them, or nothing that can be read. -/
inductive Head where
  | char (c : Char) (width : Nat)
  | unfinished
  | bad
  deriving Repr

def Head.allow (c : Char) (width : Nat) : Head := if isAllowed c then .char c width else .bad

def width? (b : UInt8) : Option Nat :=
  if b < 0x80 then some 1
  else if b < 0xC0 then none
  else if b < 0xE0 then some 2
  else if b < 0xF0 then some 3
  else if b < 0xF8 then some 4
  else none

def headUtf8 (bytes : List UInt8) : Head :=
  match bytes with
  | [] => .unfinished
  | b :: rest =>
      match width? b with
      | none => .bad
      | some width =>
          if (bytes.drop (width - 1)).isEmpty then .unfinished
          else
            match Glyph.lead? b rest with
            | some (c, extra) => .allow c (extra + 1)
            | none => .bad

def isHighHalf (n : Nat) : Bool := 0xD800 ≤ n && n < 0xDC00

def isLowHalf (n : Nat) : Bool := 0xDC00 ≤ n && n < 0xE000

def headUtf16 (highFirst : Bool) (bytes : List UInt8) : Head :=
  let unit (a b : UInt8) : Nat :=
    if highFirst then a.toNat * 256 + b.toNat else b.toNat * 256 + a.toNat
  match bytes with
  | a :: b :: rest =>
      let n := unit a b
      if isLowHalf n then .bad
      else if isHighHalf n then
        match rest with
        | c :: d :: _ =>
            let m := unit c d
            if isLowHalf m then .allow (Char.ofNat (0x10000 + (n - 0xD800) * 1024 + (m - 0xDC00))) 4
            else .bad
        | _ => .unfinished
      else .allow (Char.ofNat n) 2
  | _ => .unfinished

def head : Encoding → List UInt8 → Head
  | .utf8 => headUtf8
  | .utf16 highFirst => headUtf16 highFirst

/-- Decodes a stretch to its last full character and gives the bytes left; nothing if it cannot be
read.  `done` holds the characters so far, back to front. -/
def stretch? (e : Encoding) : (fuel : Nat) → List UInt8 → List Char → Option (List Char × List UInt8)
  | 0, bytes, done => some (done, bytes)
  | fuel + 1, bytes, done =>
      match head e bytes with
      | .char c width => stretch? e fuel (bytes.drop width) (c :: done)
      | .unfinished => some (done, bytes)
      | .bad => none

def stretchSize : Nat := 512

def decode (e : Encoding) : (fuel : Nat) → (left rest : List UInt8) → List Char → Stream
  | 0, _, _, done => ⟨done.reverse, true⟩
  | fuel + 1, left, rest, done =>
      let fresh := rest.take (stretchSize - left.length)
      if fresh.isEmpty then ⟨done.reverse, !left.isEmpty⟩
      else
        match stretch? e stretchSize (left ++ fresh) done with
        | none => ⟨done.reverse, true⟩
        | some (done, left) => decode e fuel left (rest.drop fresh.length) done

/-- The characters of a file; a mark in front tells the encoding and belongs to the first stretch. -/
def ofBytes (bytes : List UInt8) : Stream :=
  let decodeAfter (e : Encoding) (mark : Nat) : Stream :=
    match stretch? e stretchSize ((bytes.take stretchSize).drop mark) [] with
    | none => ⟨[], true⟩
    | some (done, left) => decode e (bytes.length + 1) left (bytes.drop stretchSize) done
  match bytes with
  | 0xFF :: 0xFE :: _ => decodeAfter (.utf16 false) 2
  | 0xFE :: 0xFF :: _ => decodeAfter (.utf16 true) 2
  | 0xEF :: 0xBB :: 0xBF :: _ => decodeAfter .utf8 3
  | _ => decodeAfter .utf8 0

end Stream

end CodeAtlas.Yaml
