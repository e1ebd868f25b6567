import CodeAtlas.Classify.Content
import CodeAtlas.Proofs.Text.Glyphs

/-!
# Contents are read as what was written

A text is read back from any encoding that a mark tells, and from UTF-8 without a mark.  What has no mark
and is not UTF-8 is read byte by byte.  What is read is a text, except that the bytes after a UTF-8 mark
are taken unseen.
-/

namespace CodeAtlas

/-! ## UTF-16 -/

/-- The units of a character: one, or a pair of surrogates for what lies beyond them. -/
def utf16Units (c : Char) : List Nat :=
  if c.toNat < 0x10000 then
    [c.toNat]
  else
    [0xD800 + (c.toNat - 0x10000) / 0x400, 0xDC00 + (c.toNat - 0x10000) % 0x400]

def littleEndian (unit : Nat) : List UInt8 := [UInt8.ofNat unit, UInt8.ofNat (unit / 256)]

def bigEndian (unit : Nat) : List UInt8 := [UInt8.ofNat (unit / 256), UInt8.ofNat unit]

def utf16Bytes (order : Nat → List UInt8) (text : String) : List UInt8 :=
  (text.toList.flatMap utf16Units).flatMap order

/-- A way to read two bytes as a unit undoes a way to write one. -/
def Reads (wide : UInt8 → UInt8 → Nat) (order : Nat → List UInt8) : Prop :=
  ∀ unit < 0x10000, ∃ a b, order unit = [a, b] ∧ wide a b = unit

theorem reads_littleEndian : Reads (fun a b => a.toNat + b.toNat * 256) littleEndian := by
  intro unit hunit
  refine ⟨_, _, rfl, ?_⟩
  simp only [UInt8.toNat_ofNat', Nat.reducePow]
  omega

theorem reads_bigEndian : Reads (fun a b => a.toNat * 256 + b.toNat) bigEndian := by
  intro unit hunit
  refine ⟨_, _, rfl, ?_⟩
  simp only [UInt8.toNat_ofNat', Nat.reducePow]
  omega

variable {wide : UInt8 → UInt8 → Nat} {order : Nat → List UInt8}

theorem unitsFrom_flatMap (hreads : Reads wide order) {units : List Nat}
    (hunits : ∀ unit ∈ units, unit < 0x10000) (done : List Nat) :
    unitsFrom wide done (units.flatMap order) = (done.reverse ++ units, false) := by
  induction units generalizing done with
  | nil => rw [List.flatMap_nil, unitsFrom, List.append_nil]
  | cons unit units ih =>
      obtain ⟨hunit, hrest⟩ := List.forall_mem_cons.mp hunits
      obtain ⟨a, b, horder, hwide⟩ := hreads unit hunit
      rw [List.flatMap_cons, horder, List.cons_append, List.cons_append, List.nil_append, unitsFrom,
        ih hrest, hwide, List.reverse_cons, List.append_assoc, List.singleton_append]

theorem lt_of_mem_utf16Units {c : Char} {unit : Nat} (h : unit ∈ utf16Units c) : unit < 0x10000 := by
  have hbounds := Glyph.toNat_bounds c
  unfold utf16Units at h
  split at h
  · rw [List.mem_singleton.mp h]
    assumption
  · simp only [List.mem_cons, List.not_mem_nil, or_false] at h
    omega

theorem charsFrom_plain {unit : Nat} (h : isSurrogate unit = false) (done : List Char)
    (units : List Nat) :
    charsFrom done (unit :: units) = charsFrom (Char.ofNat unit :: done) units := by
  cases units with
  | nil => simp [charsFrom, h]
  | cons next units => simp [charsFrom, h]

theorem charsFrom_utf16Units (c : Char) (done : List Char) (units : List Nat) :
    charsFrom done (utf16Units c ++ units) = charsFrom (c :: done) units := by
  have hbounds := Glyph.toNat_bounds c
  unfold utf16Units
  split
  · have hplain : isSurrogate c.toNat = false := by
      simp only [isSurrogate, Bool.and_eq_false_iff, decide_eq_false_iff_not]
      omega
    rw [List.singleton_append, charsFrom_plain hplain, Char.ofNat_toNat]
  · have hhigh : isSurrogate (0xD800 + (c.toNat - 0x10000) / 0x400) = true := by
      simp only [isSurrogate, Bool.and_eq_true, decide_eq_true_eq]
      omega
    have hfirst : isLowSurrogate (0xD800 + (c.toNat - 0x10000) / 0x400) = false := by
      simp only [isLowSurrogate, Bool.and_eq_false_iff, decide_eq_false_iff_not]
      omega
    have hlow : isLowSurrogate (0xDC00 + (c.toNat - 0x10000) % 0x400) = true := by
      simp only [isLowSurrogate, Bool.and_eq_true, decide_eq_true_eq]
      omega
    have hjoin : 0x10000 + (0xD800 + (c.toNat - 0x10000) / 0x400 - 0xD800) * 0x400 +
        (0xDC00 + (c.toNat - 0x10000) % 0x400 - 0xDC00) = c.toNat := by
      omega
    rw [List.cons_append, List.singleton_append, charsFrom, if_pos hhigh, if_pos hlow, hfirst, hjoin,
      Char.ofNat_toNat]
    rfl

theorem charsFrom_flatMap (chars done : List Char) :
    charsFrom done (chars.flatMap utf16Units) = done.reverse ++ chars := by
  induction chars generalizing done with
  | nil => rw [List.flatMap_nil, charsFrom, List.append_nil]
  | cons c chars ih =>
      rw [List.flatMap_cons, charsFrom_utf16Units, ih, List.reverse_cons, List.append_assoc,
        List.singleton_append]

theorem decodeUnits_utf16Bytes (hreads : Reads wide order) (text : String) :
    decodeUnits wide (utf16Bytes order text) = text := by
  have hunits : ∀ unit ∈ text.toList.flatMap utf16Units, unit < 0x10000 := by
    intro unit hunit
    obtain ⟨c, -, hc⟩ := List.mem_flatMap.mp hunit
    exact lt_of_mem_utf16Units hc
  rw [decodeUnits, utf16Bytes, unitsFrom_flatMap hreads hunits]
  dsimp only
  rw [List.reverse_nil, List.nil_append, charsFrom_flatMap, List.reverse_nil, List.nil_append]
  simp

/-! ## Marks -/

def utf8Mark : List UInt8 := [0xEF, 0xBB, 0xBF]

def littleMark : List UInt8 := [0xFF, 0xFE]

def bigMark : List UInt8 := [0xFE, 0xFF]

/-- A content that starts with no mark. -/
def Unmarked (content : List UInt8) : Prop :=
  ¬utf8Mark <+: content ∧ ¬littleMark <+: content ∧ ¬bigMark <+: content

/-- A content is read as a text, from an encoding. -/
structure ReadAs (content : List UInt8) (text : String) (encoding : Encoding) : Prop where
  bytes : (decode content).bytes = bytesOfText text
  text : (decode content).text = text
  encoding : (decode content).encoding = encoding

variable {content : List UInt8} {text : String}

theorem readAs_of_decode {encoding : Encoding} (h : decode content = ⟨bytesOfText text, encoding⟩) :
    ReadAs content text encoding := by
  refine ⟨by rw [h], ?_, by rw [h]⟩
  rw [h, Decoded.text, textOfGlyphs_glyphsOfBytes]

theorem decode_utf8Mark (rest : List UInt8) : decode (utf8Mark ++ rest) = ⟨rest, .utf8⟩ := rfl

theorem decode_littleMark (rest : List UInt8) : decode (littleMark ++ rest) =
    ⟨bytesOfText (decodeUnits (fun a b => a.toNat + b.toNat * 256) rest), .utf16le⟩ := rfl

theorem decode_bigMark (rest : List UInt8) : decode (bigMark ++ rest) =
    ⟨bytesOfText (decodeUnits (fun a b => a.toNat * 256 + b.toNat) rest), .utf16be⟩ := rfl

theorem decode_unmarked (h : Unmarked content) :
    decode content = if (textOfBytes? content).isSome then ⟨content, .utf8⟩
      else ⟨bytesOfText (String.ofList (content.map windowsChar)), .windows1252⟩ := by
  obtain ⟨hutf8, hlittle, hbig⟩ := h
  unfold decode
  split
  · exact absurd (List.prefix_append utf8Mark _) hutf8
  · exact absurd (List.prefix_append littleMark _) hlittle
  · exact absurd (List.prefix_append bigMark _) hbig
  · rfl

theorem exists_lead?_of_bytesOfText {b : UInt8} {rest : List UInt8}
    (h : bytesOfText text = b :: rest) :
    ∃ c extra, Glyph.lead? b rest = some (c, extra) ∧ text.toList.head? = some c := by
  rw [bytesOfText_eq_flatMap] at h
  cases hchars : text.toList with
  | nil =>
      rw [hchars] at h
      cases h
  | cons c chars =>
      rw [hchars, List.flatMap_cons] at h
      obtain ⟨b', tail, hbytes, hlead⟩ :=
        Glyph.lead?_utf8EncodeChar c (chars.flatMap String.utf8EncodeChar)
      rw [hbytes, List.cons_append] at h
      obtain ⟨rfl, rfl⟩ := List.cons.inj h
      exact ⟨c, tail.length, hlead, rfl⟩

theorem utf8EncodeChar_mark : String.utf8EncodeChar (Char.ofNat 0xFEFF) = utf8Mark := by decide

/-- A text starts with a mark only in its first character. -/
theorem unmarked_bytesOfText (h : text.toList.head? ≠ some (Char.ofNat 0xFEFF)) :
    Unmarked (bytesOfText text) := by
  refine ⟨?_, ?_, ?_⟩
  · rintro ⟨rest, hrest⟩
    obtain ⟨c, extra, hlead, hhead⟩ := exists_lead?_of_bytesOfText hrest.symm
    obtain ⟨b, tail, hmark, hread⟩ := Glyph.lead?_utf8EncodeChar (Char.ofNat 0xFEFF) rest
    rw [utf8EncodeChar_mark] at hmark
    obtain ⟨rfl, rfl⟩ := List.cons.inj hmark
    obtain ⟨rfl, -⟩ := Prod.mk.inj (Option.some.inj (hread.symm.trans hlead))
    exact h hhead
  · rintro ⟨rest, hrest⟩
    obtain ⟨c, extra, hlead, -⟩ := exists_lead?_of_bytesOfText hrest.symm
    exact nomatch hlead
  · rintro ⟨rest, hrest⟩
    obtain ⟨c, extra, hlead, -⟩ := exists_lead?_of_bytesOfText hrest.symm
    exact nomatch hlead

/-- Contents are read as what was written in any of the encodings; what has no mark and encodes no text in
UTF-8 is read as one character for each byte. -/
theorem decode_undoes_encodings :
    (∀ text, ReadAs (utf8Mark ++ bytesOfText text) text .utf8) ∧
      (∀ text : String, text.toList.head? ≠ some (Char.ofNat 0xFEFF) →
        ReadAs (bytesOfText text) text .utf8) ∧
      (∀ text, ReadAs (littleMark ++ utf16Bytes littleEndian text) text .utf16le) ∧
      (∀ text, ReadAs (bigMark ++ utf16Bytes bigEndian text) text .utf16be) ∧
      ∀ content, Unmarked content → (∀ text, content ≠ bytesOfText text) →
        ∃ text : String, ReadAs content text .windows1252 ∧ text.toList = content.map windowsChar := by
  refine ⟨fun text => readAs_of_decode (decode_utf8Mark _), fun text hhead => ?_, fun text => ?_, fun text => ?_,
    fun content hmark hutf8 => ?_⟩
  · refine readAs_of_decode ?_
    rw [decode_unmarked (unmarked_bytesOfText hhead), textOfBytes?_eq_some_iff.mpr rfl]
    rfl
  · refine readAs_of_decode ?_
    rw [decode_littleMark, decodeUnits_utf16Bytes reads_littleEndian]
  · refine readAs_of_decode ?_
    rw [decode_bigMark, decodeUnits_utf16Bytes reads_bigEndian]
  · have hnone : textOfBytes? content = none :=
      Option.eq_none_iff_forall_ne_some.mpr fun text h => hutf8 text (textOfBytes?_eq_some_iff.mp h)
    refine ⟨String.ofList (content.map windowsChar), readAs_of_decode ?_, String.toList_ofList⟩
    rw [decode_unmarked hmark, hnone]
    rfl

/-- What is read is the bytes of a text, unless it stands behind a UTF-8 mark and is none. -/
theorem decode_bytes_iff (content : List UInt8) :
    (∃ text, (decode content).bytes = bytesOfText text) ↔
      ∀ rest, content = utf8Mark ++ rest → ∃ text, rest = bytesOfText text := by
  by_cases hmark : utf8Mark <+: content
  · obtain ⟨rest, rfl⟩ := hmark
    constructor
    · rintro h _ hrest
      rwa [← List.append_cancel_left hrest]
    · intro h
      rw [decode_utf8Mark]
      exact h rest rfl
  · refine ⟨fun _ rest hrest => absurd ⟨rest, hrest.symm⟩ hmark, fun _ => ?_⟩
    unfold decode
    split
    · exact absurd (List.prefix_append utf8Mark _) hmark
    · exact ⟨_, rfl⟩
    · exact ⟨_, rfl⟩
    · split
      · next hsome =>
        obtain ⟨text, htext⟩ := Option.isSome_iff_exists.mp hsome
        exact ⟨text, textOfBytes?_eq_some_iff.mp htext⟩
      · exact ⟨_, rfl⟩

/-- A stray byte behind a UTF-8 mark is kept. -/
theorem stray_after_mark : (decode (utf8Mark ++ [0xFF])).bytes = [0xFF] ∧
    ∀ text, (decode (utf8Mark ++ [0xFF])).bytes ≠ bytesOfText text := by
  refine ⟨rfl, fun text htext => ?_⟩
  have hread := textOfBytes?_eq_some_iff.mpr htext
  have hstray : textOfBytes? (decode (utf8Mark ++ [0xFF])).bytes = none := by decide +kernel
  rw [hstray] at hread
  cases hread

end CodeAtlas
