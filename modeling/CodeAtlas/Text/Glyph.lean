/-!
Bytes read as text.  Every byte belongs to one glyph: a character in its shortest encoding, or a
single byte that starts no character and stands for U+FFFD.
-/

namespace CodeAtlas

/-- A character and the number of bytes it takes up. -/
structure Glyph where
  char : Char
  width : Nat
  deriving DecidableEq, Repr, Inhabited

namespace Glyph

/-- The stand-in for a byte that is no part of a character. -/
def stray : Glyph := ⟨Char.ofNat 0xFFFD, 1⟩

def ofChar (c : Char) : Glyph := ⟨c, c.utf8Size⟩

def tailBits? (b : UInt8) : Option Nat :=
  if 0x80 ≤ b && b < 0xC0 then some (b.toNat - 0x80) else none

/-- The scalar value `n`, if it is one and is at least `least`. -/
def scalar? (least n : Nat) : Option Char :=
  if least ≤ n && (n < 0xD800 || (0xE000 ≤ n && n < 0x110000)) then some (Char.ofNat n) else none

/-- The character that starts with byte `b` followed by `rest`, with the number of bytes it takes
from `rest`. -/
def lead? (b : UInt8) (rest : List UInt8) : Option (Char × Nat) :=
  if b < 0x80 then
    some (Char.ofNat b.toNat, 0)
  else if b < 0xC0 then
    none
  else if b < 0xE0 then
    match rest with
    | b₁ :: _ => do
        let t₁ ← tailBits? b₁
        let c ← scalar? 0x80 ((b.toNat - 0xC0) * 64 + t₁)
        pure (c, 1)
    | _ => none
  else if b < 0xF0 then
    match rest with
    | b₁ :: b₂ :: _ => do
        let t₁ ← tailBits? b₁
        let t₂ ← tailBits? b₂
        let c ← scalar? 0x800 (((b.toNat - 0xE0) * 64 + t₁) * 64 + t₂)
        pure (c, 2)
    | _ => none
  else if b < 0xF8 then
    match rest with
    | b₁ :: b₂ :: b₃ :: _ => do
        let t₁ ← tailBits? b₁
        let t₂ ← tailBits? b₂
        let t₃ ← tailBits? b₃
        let c ← scalar? 0x10000 ((((b.toNat - 0xF0) * 64 + t₁) * 64 + t₂) * 64 + t₃)
        pure (c, 3)
    | _ => none
  else
    none

def decodeAfter (done : Array Glyph) (bytes : List UInt8) : Array Glyph :=
  match bytes with
  | [] => done
  | b :: rest =>
      match lead? b rest with
      | some (c, extra) => decodeAfter (done.push ⟨c, extra + 1⟩) (rest.drop extra)
      | none => decodeAfter (done.push stray) rest
termination_by bytes.length
decreasing_by
  · simp only [List.length_drop, List.length_cons]; omega
  · simp

end Glyph

def glyphsOfBytes (bytes : List UInt8) : List Glyph :=
  (Glyph.decodeAfter #[] bytes).toList

def glyphsOfText (text : String) : List Glyph :=
  text.toList.map Glyph.ofChar

/-- The characters of glyphs, a stray byte read as U+FFFD. -/
def textOfGlyphs (glyphs : List Glyph) : String :=
  String.ofList (glyphs.map Glyph.char)

def glyphBytes (glyphs : List Glyph) : Nat :=
  glyphs.foldl (fun n g => n + g.width) 0

/-- The text that a byte string encodes, or nothing if it has a stray byte. -/
def textOfBytes? (bytes : List UInt8) : Option String :=
  let glyphs := glyphsOfBytes bytes
  if glyphs.any (· == Glyph.stray) then none else some (textOfGlyphs glyphs)

def bytesOfText (text : String) : List UInt8 :=
  text.toUTF8.data.toList

end CodeAtlas
