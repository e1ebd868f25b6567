import CodeAtlas.Text.Glyph
import CodeAtlas.Digest.Sha

/-!
Contents of files: whether they are text, in which encoding, and how many lines they have.
-/

namespace CodeAtlas

inductive Encoding where
  | utf8
  | utf16le
  | utf16be
  | windows1252
  deriving DecidableEq, Repr, Inhabited

def Encoding.name : Encoding → String
  | utf8 => "utf-8"
  | utf16le => "utf-16le"
  | utf16be => "utf-16be"
  | windows1252 => "windows-1252"

/-- The number of leading bytes that decide whether a content is binary. -/
def sniffSize : Nat := 8192

def isTextControl (b : UInt8) : Bool :=
  b == 0x09 || b == 0x0A || b == 0x0D || b == 0x0C

def isNonPrintable (b : UInt8) : Bool :=
  !isTextControl b && (b < 0x20 || b == 0x7F)

/-- Whether the leading bytes hold a zero byte or more than three in ten control bytes.  A content that
is marked as UTF-16 is text. -/
def isBinaryContent (content : List UInt8) : Bool :=
  let sample := content.take sniffSize
  match sample with
  | 0xFF :: 0xFE :: _ => false
  | 0xFE :: 0xFF :: _ => false
  | _ =>
      sample.contains 0 || 10 * sample.countP isNonPrintable > 3 * sample.length

/-- Pairs of bytes as UTF-16 units; a last odd byte is left over.  `units` are those found so far, the
last one first. -/
def unitsFrom (wide : UInt8 → UInt8 → Nat) (units : List Nat) : List UInt8 → List Nat × Bool
  | a :: b :: rest => unitsFrom wide (wide a b :: units) rest
  | [_] => (units.reverse, true)
  | [] => (units.reverse, false)

def isSurrogate (unit : Nat) : Bool := 0xD800 ≤ unit && unit < 0xE000

def isLowSurrogate (unit : Nat) : Bool := 0xDC00 ≤ unit && unit < 0xE000

/-- The characters of UTF-16 units.  A surrogate takes a low surrogate after it along; the pair is a
character if the first is a high surrogate, and anything else that holds a surrogate is U+FFFD.
`chars` are those found so far, the last one first. -/
def charsFrom (chars : List Char) : List Nat → List Char
  | [] => chars.reverse
  | [u] => ((if isSurrogate u then Char.ofNat 0xFFFD else Char.ofNat u) :: chars).reverse
  | u :: v :: rest =>
      if isSurrogate u then
        if isLowSurrogate v then
          if isLowSurrogate u then
            charsFrom (Char.ofNat 0xFFFD :: chars) rest
          else
            charsFrom (Char.ofNat (0x10000 + (u - 0xD800) * 0x400 + (v - 0xDC00)) :: chars) rest
        else
          charsFrom (Char.ofNat 0xFFFD :: chars) (v :: rest)
      else
        charsFrom (Char.ofNat u :: chars) (v :: rest)

def decodeUnits (wide : UInt8 → UInt8 → Nat) (bytes : List UInt8) : String :=
  let (units, odd) := unitsFrom wide [] bytes
  String.ofList (charsFrom [] units ++ if odd then [Char.ofNat 0xFFFD] else [])

/-- The characters of the bytes 0x80 to 0x9F in windows-1252; five of them are undefined. -/
def windowsUpper : Array Nat := #[
  0x20AC, 0xFFFD, 0x201A, 0x0192, 0x201E, 0x2026, 0x2020, 0x2021,
  0x02C6, 0x2030, 0x0160, 0x2039, 0x0152, 0xFFFD, 0x017D, 0xFFFD,
  0xFFFD, 0x2018, 0x2019, 0x201C, 0x201D, 0x2022, 0x2013, 0x2014,
  0x02DC, 0x2122, 0x0161, 0x203A, 0x0153, 0xFFFD, 0x017E, 0x0178]

def windowsChar (b : UInt8) : Char :=
  if 0x80 ≤ b && b < 0xA0 then
    Char.ofNat (windowsUpper[b.toNat - 0x80]?.getD 0xFFFD)
  else
    Char.ofNat b.toNat

/-- Text of a file as bytes of UTF-8, with the encoding it was read from.  Bytes after a UTF-8 mark are
taken as they are, so stray bytes are possible. -/
structure Decoded where
  bytes : List UInt8
  encoding : Encoding
  deriving DecidableEq, Repr

def Decoded.text (d : Decoded) : String :=
  textOfGlyphs (glyphsOfBytes d.bytes)

/-- Reads a content by its mark; without one as UTF-8 if it is valid, else as windows-1252. -/
def decode (content : List UInt8) : Decoded :=
  match content with
  | 0xEF :: 0xBB :: 0xBF :: rest => ⟨rest, .utf8⟩
  | 0xFF :: 0xFE :: rest =>
      ⟨bytesOfText (decodeUnits (fun a b => a.toNat + b.toNat * 256) rest), .utf16le⟩
  | 0xFE :: 0xFF :: rest =>
      ⟨bytesOfText (decodeUnits (fun a b => a.toNat * 256 + b.toNat) rest), .utf16be⟩
  | _ =>
      if (textOfBytes? content).isSome then
        ⟨content, .utf8⟩
      else
        ⟨bytesOfText (String.ofList (content.map windowsChar)), .windows1252⟩

/-- The number of lines of a text; a line end that nothing follows starts no further line. -/
def countLines (bytes : List UInt8) : Nat :=
  let ends := bytes.count 0x0A
  match bytes.getLast? with
  | none => 0
  | some 0x0A => ends
  | some _ => ends + 1

end CodeAtlas
