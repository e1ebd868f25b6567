import CodeAtlas.Digest.Sha
import CodeAtlas.Text.Glyph
import CodeAtlas.Text.Blank

/-!
Identifiers of sixteen bytes: their spellings, and the ones derived from a name.
-/

namespace CodeAtlas

structure Uuid where
  bytes : List UInt8
  deriving DecidableEq, Repr

namespace Uuid

def hexNibble? (c : Char) : Option Nat :=
  if c.isDigit then some (c.toNat - 48)
  else if 'a' ≤ c && c ≤ 'f' then some (c.toNat - 87)
  else if 'A' ≤ c && c ≤ 'F' then some (c.toNat - 55)
  else none

def hexBytes? : List Char → Option (List UInt8)
  | [] => some []
  | a :: b :: rest => do
      let a ← hexNibble? a
      let b ← hexNibble? b
      let tail ← hexBytes? rest
      pure (UInt8.ofNat (a * 16 + b) :: tail)
  | [_] => none

/-- The spelling with hyphens: 8, 4, 4, 4 and 12 digits. -/
def parseHyphened? (cs : List Char) : Option Uuid :=
  let hyphenAt (i : Nat) : Bool := cs[i]? == some '-'
  if cs.length == 36 && hyphenAt 8 && hyphenAt 13 && hyphenAt 18 && hyphenAt 23 then
    let digits := cs.take 8 ++ (cs.drop 9).take 4 ++ (cs.drop 14).take 4 ++ (cs.drop 19).take 4 ++
      cs.drop 24
    (hexBytes? digits).map Uuid.mk
  else
    none

/-- Reads one of four spellings, told apart by their length in bytes: hyphened, hyphened after
`urn:uuid:` in any case, hyphened between any two bytes, and plain hexadecimal. -/
def parse? (text : String) : Option Uuid :=
  let cs := text.toList
  match text.utf8ByteSize with
  | 36 => parseHyphened? cs
  | 45 =>
      if (cs.take 9).map toLower == "urn:uuid:".toList then parseHyphened? (cs.drop 9) else none
  | 38 =>
      let glyphs := glyphsOfText text
      match glyphs with
      | first :: rest => if first.width == 1 then parseHyphened? ((rest.map Glyph.char).take 36) else none
      | [] => none
  | 32 => (hexBytes? cs).map Uuid.mk
  | _ => none

def toString (id : Uuid) : String :=
  let hex := (hexOfBytes id.bytes).toList
  String.ofList (hex.take 8 ++ '-' :: (hex.drop 8).take 4 ++ '-' :: (hex.drop 12).take 4 ++
    '-' :: (hex.drop 16).take 4 ++ '-' :: hex.drop 20)

/-- The identifier of a name within a space of names: the first sixteen bytes of the digest of both,
marked as version five of the standard variant. -/
def ofName (space : Uuid) (name : String) : Uuid :=
  let digest := (Digest.Sha1.digest (space.bytes ++ bytesOfText name)).take 16
  ⟨digest.mapIdx fun i b =>
    if i == 6 then (b &&& 0x0F) ||| 0x50
    else if i == 8 then (b &&& 0x3F) ||| 0x80
    else b⟩

def objectSpace : Uuid :=
  ⟨[0x6b, 0xa7, 0xb8, 0x12, 0x9d, 0xad, 0x11, 0xd1, 0x80, 0xb4, 0x00, 0xc0, 0x4f, 0xd4, 0x30, 0xc8]⟩

def ofCounter (n : Nat) : Uuid :=
  ⟨[0, 0, 0, 0, 0, 0, 0x40, 0, 0x80, 0] ++ Digest.bigEndian 6 n⟩

end Uuid

end CodeAtlas
