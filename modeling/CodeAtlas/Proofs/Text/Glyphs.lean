import CodeAtlas.Text.Glyph
import Mathlib.Data.List.Basic
import Mathlib.Data.String.Basic
import Mathlib.Tactic.SplitIfs

/-!
# Bytes and glyphs

The glyphs of a byte string take up all its bytes, and an ASCII byte is always a glyph of its own: the
text can be decoded in two parts that are cut there, and what is ASCII in it is found again by its place.
Texts are read back from their bytes, and bytes of which none is stray are those of a text.
-/

namespace CodeAtlas

namespace Glyph

theorem toNat_ofNat_of_isValidChar {n : Nat} (h : n.isValidChar) : (Char.ofNat n).toNat = n := by
  rw [Char.ofNat, dif_pos h]
  rfl

theorem toNat_ofNat_ascii {n : Nat} (h : n < 0x80) : (Char.ofNat n).toNat = n :=
  toNat_ofNat_of_isValidChar (Or.inl (by omega))

theorem toNat_toUInt8 {c : Char} (h : c.toNat < 0x80) : c.toUInt8.toNat = c.toNat :=
  Nat.mod_eq_of_lt (Nat.lt_trans h (by omega))

theorem toUInt8_lt {c : Char} (h : c.toNat < 0x80) : c.toUInt8 < 0x80 := by
  rw [UInt8.lt_iff_toNat_lt, toNat_toUInt8 h]
  exact h

theorem tailBits?_eq_some {b : UInt8} {n : Nat} (h : tailBits? b = some n) :
    b.toNat = n + 0x80 ∧ n < 0x40 := by
  unfold tailBits? at h
  rw [Option.ite_none_right_eq_some] at h
  simp only [Bool.and_eq_true, decide_eq_true_eq, UInt8.le_iff_toNat_le, UInt8.lt_iff_toNat_lt,
    UInt8.reduceToNat, Option.some.injEq] at h
  omega

theorem tailBits?_ascii {b : UInt8} (h : b < 0x80) : tailBits? b = none := by
  cases hbits : tailBits? b with
  | none => rfl
  | some n =>
      have hbyte := (tailBits?_eq_some hbits).1
      have hnat : b.toNat < 0x80 := UInt8.lt_iff_toNat_lt.mp h
      omega

theorem scalar?_eq_some {least n : Nat} {c : Char} (h : scalar? least n = some c) :
    least ≤ n ∧ c.toNat = n := by
  unfold scalar? at h
  rw [Option.ite_none_right_eq_some] at h
  simp only [Bool.and_eq_true, Bool.or_eq_true, decide_eq_true_eq, Option.some.injEq] at h
  obtain ⟨⟨hleast, hrange⟩, rfl⟩ := h
  have hvalid : n.isValidChar := by
    rcases hrange with hlow | ⟨hlow, hhigh⟩
    · exact Or.inl hlow
    · exact Or.inr ⟨by omega, hhigh⟩
  exact ⟨hleast, toNat_ofNat_of_isValidChar hvalid⟩

theorem utf8Size_eq (c : Char) :
    c.utf8Size = if c.toNat < 0x80 then 1 else if c.toNat < 0x800 then 2
      else if c.toNat < 0x10000 then 3 else 4 := by
  have hval : c.val.toNat = c.toNat := rfl
  simp only [Char.utf8Size, UInt32.le_iff_toNat_le, hval, UInt32.toNat_ofNatLT]
  split_ifs <;> omega

/-- What the bytes of a character say of it: how many there are, and that the first one is all of it
only if it is ASCII. -/
structure Leads (b : UInt8) (rest : List UInt8) (c : Char) (extra : Nat) : Prop where
  fits : extra ≤ rest.length
  width : c.utf8Size = extra + 1
  ascii : c.toNat < 0x80 → extra = 0 ∧ b.toNat = c.toNat

theorem leads_of_lead? {b : UInt8} {rest : List UInt8} {c : Char} {extra : Nat}
    (h : lead? b rest = some (c, extra)) : Leads b rest c extra := by
  have hb := b.toNat_lt
  unfold lead? at h
  simp only [UInt8.lt_iff_toNat_lt, UInt8.reduceToNat] at h
  split_ifs at h with h1 h2 h3 h4 h5
  · obtain ⟨rfl, rfl⟩ := Prod.mk.inj (Option.some.inj h)
    have hnat := toNat_ofNat_ascii h1
    exact ⟨Nat.zero_le _, by rw [utf8Size_eq, if_pos (by omega)], fun _ => ⟨rfl, hnat.symm⟩⟩
  · rcases rest with _ | ⟨b₁, rest⟩
    · cases h
    simp only [Option.bind_eq_bind, Option.bind_eq_some_iff, Option.pure_def, Option.some.injEq,
      Prod.mk.injEq] at h
    obtain ⟨t₁, ht₁, c, hc, rfl, rfl⟩ := h
    obtain ⟨hleast, hnat⟩ := scalar?_eq_some hc
    have := (tailBits?_eq_some ht₁).2
    refine ⟨by simp, ?_, fun h => by omega⟩
    rw [utf8Size_eq, if_neg (by omega), if_pos (by omega)]
  · rcases rest with _ | ⟨b₁, _ | ⟨b₂, rest⟩⟩
    · cases h
    · cases h
    simp only [Option.bind_eq_bind, Option.bind_eq_some_iff, Option.pure_def, Option.some.injEq,
      Prod.mk.injEq] at h
    obtain ⟨t₁, ht₁, t₂, ht₂, c, hc, rfl, rfl⟩ := h
    obtain ⟨hleast, hnat⟩ := scalar?_eq_some hc
    have := (tailBits?_eq_some ht₁).2
    have := (tailBits?_eq_some ht₂).2
    refine ⟨by simp, ?_, fun h => by omega⟩
    rw [utf8Size_eq, if_neg (by omega), if_neg (by omega), if_pos (by omega)]
  · rcases rest with _ | ⟨b₁, _ | ⟨b₂, _ | ⟨b₃, rest⟩⟩⟩
    · cases h
    · cases h
    · cases h
    simp only [Option.bind_eq_bind, Option.bind_eq_some_iff, Option.pure_def, Option.some.injEq,
      Prod.mk.injEq] at h
    obtain ⟨t₁, ht₁, t₂, ht₂, t₃, ht₃, c, hc, rfl, rfl⟩ := h
    obtain ⟨hleast, hnat⟩ := scalar?_eq_some hc
    refine ⟨by simp, ?_, fun h => by omega⟩
    rw [utf8Size_eq, if_neg (by omega), if_neg (by omega), if_neg (by omega)]

/-- An ASCII byte is no part of a character that has started before it. -/
theorem lead?_append_ascii (b : UInt8) {y : UInt8} (hy : y < 0x80) (xs ys : List UInt8) :
    lead? b (xs ++ y :: ys) = lead? b xs := by
  have hnone := tailBits?_ascii hy
  unfold lead?
  rcases xs with _ | ⟨b₁, _ | ⟨b₂, _ | ⟨b₃, xs⟩⟩⟩
  · rcases ys with _ | ⟨y₁, _ | ⟨y₂, ys⟩⟩ <;> simp [hnone]
  · rcases ys with _ | ⟨y₁, ys⟩ <;> simp [hnone]
  · simp [hnone]
  · simp

end Glyph

section Decoding

open Glyph

theorem decodeAfter_cons (done : Array Glyph) (b : UInt8) (rest : List UInt8) :
    decodeAfter done (b :: rest) =
      match lead? b rest with
      | some (c, extra) => decodeAfter (done.push ⟨c, extra + 1⟩) (rest.drop extra)
      | none => decodeAfter (done.push stray) rest := by
  cases hlead : lead? b rest with
  | none => simp only [decodeAfter, hlead]
  | some found => simp only [decodeAfter, hlead]

/-- Decoding goes on after what it has done and never looks at it. -/
theorem toList_decodeAfter (done : Array Glyph) (bytes : List UInt8) :
    (decodeAfter done bytes).toList = done.toList ++ (decodeAfter #[] bytes).toList := by
  induction hlength : bytes.length using Nat.strongRecOn generalizing done bytes with
  | ind n ih =>
      cases bytes with
      | nil => simp [decodeAfter]
      | cons b rest =>
          have hrest : rest.length < n := by rw [← hlength]; exact Nat.lt_succ_self _
          rw [decodeAfter_cons, decodeAfter_cons #[]]
          cases hlead : lead? b rest with
          | none =>
              rw [ih _ hrest (done.push stray) rest rfl, ih _ hrest (#[].push stray) rest rfl]
              simp
          | some found =>
              have hdrop : (rest.drop found.2).length < n := by
                rw [List.length_drop]
                omega
              rw [ih _ hdrop (done.push ⟨found.1, found.2 + 1⟩) _ rfl,
                ih _ hdrop (#[].push ⟨found.1, found.2 + 1⟩) _ rfl]
              simp

theorem glyphsOfBytes_nil : glyphsOfBytes [] = [] := by
  rw [glyphsOfBytes, decodeAfter]

theorem glyphsOfBytes_cons (b : UInt8) (rest : List UInt8) :
    glyphsOfBytes (b :: rest) =
      match lead? b rest with
      | some (c, extra) => ⟨c, extra + 1⟩ :: glyphsOfBytes (rest.drop extra)
      | none => stray :: glyphsOfBytes rest := by
  rw [glyphsOfBytes, decodeAfter_cons]
  cases hlead : lead? b rest with
  | none =>
      rw [toList_decodeAfter (#[].push stray), ← glyphsOfBytes]
      simp
  | some found =>
      rw [toList_decodeAfter (#[].push ⟨found.1, found.2 + 1⟩), ← glyphsOfBytes]
      simp

/-- Byte strings as decoding sees them: a character and what follows it, or a byte that starts none. -/
@[elab_as_elim]
theorem decodingInduction {motive : List UInt8 → Prop} (nil : motive [])
    (char : ∀ b rest c extra, lead? b rest = some (c, extra) → motive (rest.drop extra) →
      motive (b :: rest))
    (stray : ∀ b rest, lead? b rest = none → motive rest → motive (b :: rest))
    (bytes : List UInt8) : motive bytes := by
  induction hlength : bytes.length using Nat.strongRecOn generalizing bytes with
  | ind n ih =>
      cases bytes with
      | nil => exact nil
      | cons b rest =>
          rw [List.length_cons] at hlength
          cases hlead : lead? b rest with
          | none => exact stray b rest hlead (ih _ (by omega) rest rfl)
          | some found =>
              have hdrop : (rest.drop found.2).length < n := by
                rw [List.length_drop]
                omega
              exact char b rest found.1 found.2 hlead (ih _ hdrop _ rfl)

theorem glyphsOfBytes_char {b : UInt8} {rest : List UInt8} {c : Char} {extra : Nat}
    (h : lead? b rest = some (c, extra)) :
    glyphsOfBytes (b :: rest) = ⟨c, extra + 1⟩ :: glyphsOfBytes (rest.drop extra) := by
  rw [glyphsOfBytes_cons, h]

theorem glyphsOfBytes_stray {b : UInt8} {rest : List UInt8} (h : lead? b rest = none) :
    glyphsOfBytes (b :: rest) = stray :: glyphsOfBytes rest := by
  rw [glyphsOfBytes_cons, h]

theorem foldl_width (n : Nat) (glyphs : List Glyph) :
    glyphs.foldl (fun n g => n + g.width) n = n + glyphBytes glyphs := by
  unfold glyphBytes
  induction glyphs generalizing n with
  | nil => simp
  | cons g rest ih =>
      rw [List.foldl_cons, List.foldl_cons, ih, ih (0 + g.width)]
      omega

@[simp]
theorem glyphBytes_nil : glyphBytes [] = 0 := rfl

@[simp]
theorem glyphBytes_cons (g : Glyph) (rest : List Glyph) :
    glyphBytes (g :: rest) = g.width + glyphBytes rest := by
  rw [glyphBytes, List.foldl_cons, foldl_width, Nat.zero_add]

@[simp]
theorem glyphBytes_append (xs ys : List Glyph) :
    glyphBytes (xs ++ ys) = glyphBytes xs + glyphBytes ys := by
  rw [glyphBytes, List.foldl_append, foldl_width, ← glyphBytes]

theorem glyphBytes_glyphsOfBytes (bytes : List UInt8) :
    glyphBytes (glyphsOfBytes bytes) = bytes.length := by
  induction bytes using decodingInduction with
  | nil => rw [glyphsOfBytes_nil, glyphBytes_nil, List.length_nil]
  | char b rest c extra hlead ih =>
      have hfits := (leads_of_lead? hlead).fits
      rw [glyphsOfBytes_char hlead, glyphBytes_cons, ih, List.length_drop, List.length_cons]
      dsimp only
      omega
  | stray b rest hlead ih =>
      rw [glyphsOfBytes_stray hlead, glyphBytes_cons, ih, List.length_cons, Nat.add_comm]
      rfl

theorem width_of_mem_glyphsOfBytes {bytes : List UInt8} {g : Glyph} (h : g ∈ glyphsOfBytes bytes) :
    g.width = g.char.utf8Size ∨ g = stray := by
  induction bytes using decodingInduction with
  | nil =>
      rw [glyphsOfBytes_nil] at h
      cases h
  | char b rest c extra hlead ih =>
      rw [glyphsOfBytes_char hlead] at h
      rcases List.mem_cons.mp h with rfl | h
      · exact Or.inl (leads_of_lead? hlead).width.symm
      · exact ih h
  | stray b rest hlead ih =>
      rw [glyphsOfBytes_stray hlead] at h
      rcases List.mem_cons.mp h with rfl | h
      · exact Or.inr rfl
      · exact ih h

theorem width_pos_of_mem_glyphsOfBytes {bytes : List UInt8} {g : Glyph} (h : g ∈ glyphsOfBytes bytes) :
    0 < g.width := by
  rcases width_of_mem_glyphsOfBytes h with hwidth | rfl
  · rw [hwidth]
    exact Char.utf8Size_pos g.char
  · exact Nat.one_pos

theorem lead?_ascii {y : UInt8} (hy : y < 0x80) (rest : List UInt8) :
    lead? y rest = some (Char.ofNat y.toNat, 0) := by
  unfold lead?
  rw [if_pos hy]

theorem glyphsOfBytes_append_ascii {y : UInt8} (hy : y < 0x80) (xs ys : List UInt8) :
    glyphsOfBytes (xs ++ y :: ys) =
      glyphsOfBytes xs ++ ⟨Char.ofNat y.toNat, 1⟩ :: glyphsOfBytes ys := by
  induction xs using decodingInduction with
  | nil => rw [List.nil_append, glyphsOfBytes_char (lead?_ascii hy ys), glyphsOfBytes_nil]; rfl
  | char b rest c extra hlead ih =>
      have hlonger : lead? b (rest ++ y :: ys) = some (c, extra) := by
        rw [lead?_append_ascii b hy, hlead]
      rw [List.cons_append, glyphsOfBytes_char hlonger, glyphsOfBytes_char hlead,
        List.drop_append_of_le_length (leads_of_lead? hlead).fits, ih, List.cons_append]
  | stray b rest hlead ih =>
      have hlonger : lead? b (rest ++ y :: ys) = none := by
        rw [lead?_append_ascii b hy, hlead]
      rw [List.cons_append, glyphsOfBytes_stray hlonger, glyphsOfBytes_stray hlead, ih,
        List.cons_append]

/-- What is left after some glyphs are the glyphs of the bytes that are left after theirs. -/
theorem glyphsOfBytes_drop {bytes : List UInt8} {front back : List Glyph}
    (h : glyphsOfBytes bytes = front ++ back) :
    glyphsOfBytes (bytes.drop (glyphBytes front)) = back := by
  induction front generalizing bytes with
  | nil => simpa using h
  | cons g front ih =>
      cases bytes with
      | nil =>
          rw [glyphsOfBytes_nil] at h
          cases h
      | cons b rest =>
          cases hlead : lead? b rest with
          | none =>
              rw [glyphsOfBytes_stray hlead, List.cons_append] at h
              obtain ⟨rfl, hrest⟩ := List.cons.inj h
              have hwidth : glyphBytes (Glyph.stray :: front) = glyphBytes front + 1 := by
                rw [glyphBytes_cons, Nat.add_comm]
                rfl
              rw [hwidth, List.drop_succ_cons]
              exact ih hrest
          | some found =>
              rw [glyphsOfBytes_char hlead, List.cons_append] at h
              obtain ⟨rfl, hrest⟩ := List.cons.inj h
              have hwidth : glyphBytes (⟨found.1, found.2 + 1⟩ :: front) =
                  found.2 + glyphBytes front + 1 := by
                rw [glyphBytes_cons]
                dsimp only
                omega
              rw [hwidth, List.drop_succ_cons, ← List.drop_drop]
              exact ih hrest

/-- A glyph that is an ASCII character is the byte of that number. -/
theorem eq_cons_of_glyphsOfBytes {bytes : List UInt8} {g : Glyph} {back : List Glyph}
    (h : glyphsOfBytes bytes = g :: back) (hascii : g.char.toNat < 0x80) :
    ∃ rest, bytes = g.char.toUInt8 :: rest ∧ glyphsOfBytes rest = back := by
  cases bytes with
  | nil =>
      rw [glyphsOfBytes_nil] at h
      cases h
  | cons b rest =>
      cases hlead : lead? b rest with
      | none =>
          rw [glyphsOfBytes_stray hlead] at h
          obtain ⟨rfl, -⟩ := List.cons.inj h
          exact absurd hascii (by decide)
      | some found =>
          rw [glyphsOfBytes_char hlead] at h
          obtain ⟨rfl, hrest⟩ := List.cons.inj h
          obtain ⟨hextra, hbyte⟩ := (leads_of_lead? hlead).ascii hascii
          refine ⟨rest, ?_, by simpa [hextra] using hrest⟩
          have hsame : b = found.1.toUInt8 := by
            rw [← UInt8.toNat_inj, hbyte, toNat_toUInt8 hascii]
          rw [hsame]

theorem bytesOfText_eq_flatMap (text : String) :
    bytesOfText text = text.toList.flatMap String.utf8EncodeChar := by
  rw [bytesOfText, String.toUTF8_eq_toByteArray, ← String.utf8Encode_toList, List.utf8Encode,
    List.data_toByteArray]

theorem bytesOfText_ofList (cs : List Char) :
    bytesOfText (String.ofList cs) = cs.flatMap String.utf8EncodeChar := by
  rw [bytesOfText_eq_flatMap, String.toList_ofList]

theorem utf8EncodeChar_ascii {c : Char} (h : c.toNat < 0x80) :
    String.utf8EncodeChar c = [c.toUInt8] :=
  String.utf8EncodeChar_eq_singleton (by rw [utf8Size_eq, if_pos h])

/-- ASCII text among the glyphs is there among the bytes, at the place where the glyphs before it
end. -/
theorem bytesOfText_prefix_drop {bytes : List UInt8} {front word back : List Glyph}
    (h : glyphsOfBytes bytes = front ++ (word ++ back)) (hword : ∀ g ∈ word, g.char.toNat < 0x80) :
    bytesOfText (textOfGlyphs word) <+: bytes.drop (glyphBytes front) := by
  rw [textOfGlyphs, bytesOfText_ofList]
  have hdrop := glyphsOfBytes_drop h
  clear h
  generalize bytes.drop (glyphBytes front) = left at hdrop ⊢
  induction word generalizing left with
  | nil => exact List.nil_prefix
  | cons g word ih =>
      have hascii := hword g List.mem_cons_self
      obtain ⟨rest, rfl, hrest⟩ := eq_cons_of_glyphsOfBytes hdrop hascii
      rw [List.map_cons, List.flatMap_cons, utf8EncodeChar_ascii hascii, List.singleton_append,
        List.cons_prefix_cons]
      exact ⟨rfl, ih (fun g' hg' => hword g' (List.mem_cons_of_mem g hg')) rest hrest⟩

end Decoding

/-! ## Reading bytes back -/

namespace Glyph

theorem toNat_bounds (c : Char) : c.toNat < 0xD800 ∨ 0xE000 ≤ c.toNat ∧ c.toNat < 0x110000 := by
  have hvalid := c.valid
  have hval : c.val.toNat = c.toNat := rfl
  simp only [UInt32.isValidChar, Nat.isValidChar, hval] at hvalid
  omega

theorem scalar?_toNat {least : Nat} {c : Char} (h : least ≤ c.toNat) :
    scalar? least c.toNat = some c := by
  have hbounds := toNat_bounds c
  rw [scalar?, if_pos, Char.ofNat_toNat]
  simp only [Bool.and_eq_true, Bool.or_eq_true, decide_eq_true_eq]
  exact ⟨h, hbounds⟩

theorem toNat_byte {n : Nat} (h : n < 256) : (UInt8.ofNat n).toNat = n :=
  UInt8.toNat_ofNat_of_lt' h

theorem eq_byte {b : UInt8} {n : Nat} (h : b.toNat = n) : b = UInt8.ofNat n := by
  rw [← h, UInt8.ofNat_toNat]

theorem tailBits?_ofNat {n : Nat} (h : n < 64) : tailBits? (UInt8.ofNat (n + 128)) = some n := by
  have hnat : (UInt8.ofNat (n + 128)).toNat = n + 128 := toNat_byte (by omega)
  rw [tailBits?, if_pos, hnat, Nat.add_sub_cancel]
  simp only [UInt8.le_iff_toNat_le, UInt8.lt_iff_toNat_lt, UInt8.reduceToNat, hnat,
    Bool.and_eq_true, decide_eq_true_eq]
  omega

/-- The encoding of a character is read as the character, whatever follows. -/
theorem lead?_utf8EncodeChar (c : Char) (rest : List UInt8) :
    ∃ b tail, String.utf8EncodeChar c = b :: tail ∧
      lead? b (tail ++ rest) = some (c, tail.length) := by
  have hbounds := toNat_bounds c
  have hval : c.val.toNat = c.toNat := rfl
  unfold String.utf8EncodeChar
  simp only [hval]
  by_cases h1 : c.toNat ≤ 127
  · refine ⟨UInt8.ofNat c.toNat, [], if_pos h1, ?_⟩
    have hlow : UInt8.ofNat c.toNat < 0x80 := by
      rw [UInt8.lt_iff_toNat_lt, toNat_byte (by omega)]
      exact Nat.lt_succ_of_le h1
    rw [List.nil_append, lead?_ascii hlow, toNat_byte (by omega), Char.ofNat_toNat]
    rfl
  rw [if_neg h1]
  by_cases h2 : c.toNat ≤ 2047
  · refine ⟨_, _, if_pos h2, ?_⟩
    unfold lead?
    simp only [List.cons_append, List.nil_append, UInt8.lt_iff_toNat_lt, UInt8.reduceToNat]
    rw [toNat_byte (by omega), if_neg (by omega), if_neg (by omega), if_pos (by omega),
      tailBits?_ofNat (by omega)]
    have hjoin : (c.toNat / 64 % 32 + 192 - 192) * 64 + c.toNat % 64 = c.toNat := by omega
    simp only [Option.bind_eq_bind, Option.bind_some, hjoin, scalar?_toNat (Nat.lt_of_not_le h1)]
    rfl
  rw [if_neg h2]
  by_cases h3 : c.toNat ≤ 65535
  · refine ⟨_, _, if_pos h3, ?_⟩
    unfold lead?
    simp only [List.cons_append, List.nil_append, UInt8.lt_iff_toNat_lt, UInt8.reduceToNat]
    rw [toNat_byte (by omega), if_neg (by omega), if_neg (by omega), if_neg (by omega),
      if_pos (by omega), tailBits?_ofNat (by omega), tailBits?_ofNat (by omega)]
    have hjoin : ((c.toNat / 4096 % 16 + 224 - 224) * 64 + c.toNat / 64 % 64) * 64 + c.toNat % 64 =
        c.toNat := by omega
    simp only [Option.bind_eq_bind, Option.bind_some, hjoin, scalar?_toNat (Nat.lt_of_not_le h2)]
    rfl
  rw [if_neg h3]
  refine ⟨_, _, rfl, ?_⟩
  unfold lead?
  simp only [List.cons_append, List.nil_append, UInt8.lt_iff_toNat_lt, UInt8.reduceToNat]
  rw [toNat_byte (by omega), if_neg (by omega), if_neg (by omega), if_neg (by omega),
    if_neg (by omega), if_pos (by omega), tailBits?_ofNat (by omega), tailBits?_ofNat (by omega),
    tailBits?_ofNat (by omega)]
  have hjoin : (((c.toNat / 262144 % 8 + 240 - 240) * 64 + c.toNat / 4096 % 64) * 64 +
      c.toNat / 64 % 64) * 64 + c.toNat % 64 = c.toNat := by omega
  simp only [Option.bind_eq_bind, Option.bind_some, hjoin, scalar?_toNat (Nat.lt_of_not_le h3)]
  rfl

/-- What is read as a character is its encoding. -/
theorem cons_take_of_lead? {b : UInt8} {rest : List UInt8} {c : Char} {extra : Nat}
    (h : lead? b rest = some (c, extra)) : b :: rest.take extra = String.utf8EncodeChar c := by
  have hb := b.toNat_lt
  have hval (c : Char) : c.val.toNat = c.toNat := rfl
  unfold lead? at h
  simp only [UInt8.lt_iff_toNat_lt, UInt8.reduceToNat] at h
  unfold String.utf8EncodeChar
  simp only [hval]
  split_ifs at h with h1 h2 h3 h4 h5
  · obtain ⟨rfl, rfl⟩ := Prod.mk.inj (Option.some.inj h)
    rw [toNat_ofNat_ascii h1, if_pos (by omega), List.take_zero, UInt8.ofNat_toNat]
  · rcases rest with _ | ⟨b₁, rest⟩
    · cases h
    simp only [Option.bind_eq_bind, Option.bind_eq_some_iff, Option.pure_def, Option.some.injEq,
      Prod.mk.injEq] at h
    obtain ⟨t₁, ht₁, c, hc, rfl, rfl⟩ := h
    obtain ⟨hleast, hnat⟩ := scalar?_eq_some hc
    obtain ⟨hb₁, ht₁⟩ := tailBits?_eq_some ht₁
    rw [if_neg (by omega), if_pos (by omega)]
    simp only [List.take_succ_cons, List.take_zero, List.cons.injEq, and_true]
    exact ⟨eq_byte (by omega), eq_byte (by omega)⟩
  · rcases rest with _ | ⟨b₁, _ | ⟨b₂, rest⟩⟩
    · cases h
    · cases h
    simp only [Option.bind_eq_bind, Option.bind_eq_some_iff, Option.pure_def, Option.some.injEq,
      Prod.mk.injEq] at h
    obtain ⟨t₁, ht₁, t₂, ht₂, c, hc, rfl, rfl⟩ := h
    obtain ⟨hleast, hnat⟩ := scalar?_eq_some hc
    obtain ⟨hb₁, ht₁⟩ := tailBits?_eq_some ht₁
    obtain ⟨hb₂, ht₂⟩ := tailBits?_eq_some ht₂
    rw [if_neg (by omega), if_neg (by omega), if_pos (by omega)]
    simp only [List.take_succ_cons, List.take_zero, List.cons.injEq, and_true]
    exact ⟨eq_byte (by omega), eq_byte (by omega), eq_byte (by omega)⟩
  · rcases rest with _ | ⟨b₁, _ | ⟨b₂, _ | ⟨b₃, rest⟩⟩⟩
    · cases h
    · cases h
    · cases h
    simp only [Option.bind_eq_bind, Option.bind_eq_some_iff, Option.pure_def, Option.some.injEq,
      Prod.mk.injEq] at h
    obtain ⟨t₁, ht₁, t₂, ht₂, t₃, ht₃, c, hc, rfl, rfl⟩ := h
    obtain ⟨hleast, hnat⟩ := scalar?_eq_some hc
    obtain ⟨hb₁, ht₁⟩ := tailBits?_eq_some ht₁
    obtain ⟨hb₂, ht₂⟩ := tailBits?_eq_some ht₂
    obtain ⟨hb₃, ht₃⟩ := tailBits?_eq_some ht₃
    have hbounds := toNat_bounds c
    rw [if_neg (by omega), if_neg (by omega), if_neg (by omega)]
    simp only [List.take_succ_cons, List.take_zero, List.cons.injEq, and_true]
    exact ⟨eq_byte (by omega), eq_byte (by omega), eq_byte (by omega), eq_byte (by omega)⟩

end Glyph

section Reading

open Glyph

theorem glyphsOfBytes_flatMap (cs : List Char) :
    glyphsOfBytes (cs.flatMap String.utf8EncodeChar) = cs.map Glyph.ofChar := by
  induction cs with
  | nil => rw [List.flatMap_nil, glyphsOfBytes_nil, List.map_nil]
  | cons c cs ih =>
      obtain ⟨b, tail, hbytes, hlead⟩ := lead?_utf8EncodeChar c (cs.flatMap String.utf8EncodeChar)
      have hwidth : tail.length + 1 = c.utf8Size := by
        rw [← String.length_utf8EncodeChar, hbytes, List.length_cons]
      rw [List.flatMap_cons, hbytes, List.cons_append, glyphsOfBytes_char hlead, List.drop_left, ih,
        hwidth]
      rfl

theorem glyphsOfBytes_bytesOfText (text : String) :
    glyphsOfBytes (bytesOfText text) = glyphsOfText text := by
  rw [bytesOfText_eq_flatMap, glyphsOfBytes_flatMap, glyphsOfText]

theorem textOfGlyphs_glyphsOfText (text : String) : textOfGlyphs (glyphsOfText text) = text := by
  have hchars : text.toList.map (fun c => (Glyph.ofChar c).char) = text.toList := List.map_id _
  rw [textOfGlyphs, glyphsOfText, List.map_map, Function.comp_def, hchars, String.ofList_toList]

theorem textOfGlyphs_glyphsOfBytes (text : String) :
    textOfGlyphs (glyphsOfBytes (bytesOfText text)) = text := by
  rw [glyphsOfBytes_bytesOfText, textOfGlyphs_glyphsOfText]

theorem ofChar_ne_stray (c : Char) : Glyph.ofChar c ≠ stray := by
  intro heq
  obtain ⟨rfl, hwidth⟩ := Glyph.mk.inj heq
  exact absurd hwidth (by decide)

/-- Bytes without a stray one encode what they are read as. -/
theorem bytesOfText_textOfGlyphs {bytes : List UInt8} (h : stray ∉ glyphsOfBytes bytes) :
    bytesOfText (textOfGlyphs (glyphsOfBytes bytes)) = bytes := by
  rw [textOfGlyphs, bytesOfText_ofList]
  induction bytes using decodingInduction with
  | nil => rw [glyphsOfBytes_nil, List.map_nil, List.flatMap_nil]
  | char b rest c extra hlead ih =>
      rw [glyphsOfBytes_char hlead] at h ⊢
      rw [List.map_cons, List.flatMap_cons, ih (fun hrest => h (List.mem_cons_of_mem _ hrest)),
        ← cons_take_of_lead? hlead, List.cons_append, List.take_append_drop]
  | stray b rest hlead ih =>
      rw [glyphsOfBytes_stray hlead] at h
      exact absurd List.mem_cons_self h

/-- The texts are read back from what encodes them, and nothing else encodes a text. -/
theorem textOfBytes?_eq_some_iff {bytes : List UInt8} {text : String} :
    textOfBytes? bytes = some text ↔ bytes = bytesOfText text := by
  unfold textOfBytes?
  dsimp only
  rw [Option.ite_none_left_eq_some, Option.some.injEq, List.any_beq', List.contains_iff_mem]
  constructor
  · rintro ⟨hstray, rfl⟩
    exact (bytesOfText_textOfGlyphs hstray).symm
  · rintro rfl
    refine ⟨fun hstray => ?_, textOfGlyphs_glyphsOfBytes text⟩
    rw [glyphsOfBytes_bytesOfText] at hstray
    obtain ⟨c, -, hc⟩ := List.mem_map.mp hstray
    exact ofChar_ne_stray c hc

theorem le_of_mem_utf8EncodeChar {c : Char} (hc : 0x80 ≤ c.toNat) {b : UInt8}
    (hb : b ∈ String.utf8EncodeChar c) : 0x80 ≤ b.toNat := by
  have hval : c.val.toNat = c.toNat := rfl
  unfold String.utf8EncodeChar at hb
  simp only [hval] at hb
  split_ifs at hb
  · omega
  · simp only [List.mem_cons, List.not_mem_nil, or_false] at hb
    rcases hb with rfl | rfl <;> rw [toNat_byte (by omega)] <;> omega
  · simp only [List.mem_cons, List.not_mem_nil, or_false] at hb
    rcases hb with rfl | rfl | rfl <;> rw [toNat_byte (by omega)] <;> omega
  · simp only [List.mem_cons, List.not_mem_nil, or_false] at hb
    rcases hb with rfl | rfl | rfl | rfl <;> rw [toNat_byte (by omega)] <;> omega

theorem count_utf8EncodeChar {c : Char} (hc : c.toNat < 0x80) (d : Char) :
    (String.utf8EncodeChar d).count c.toUInt8 = [d].count c := by
  by_cases hd : d.toNat < 0x80
  · have hsame : d.toUInt8 = c.toUInt8 ↔ d = c := by
      rw [← UInt8.toNat_inj, toNat_toUInt8 hd, toNat_toUInt8 hc, Char.toNat_inj]
    rw [utf8EncodeChar_ascii hd, List.count_singleton, List.count_singleton]
    simp only [beq_iff_eq, hsame]
  · have hother : d ≠ c := fun heq => hd (heq ▸ hc)
    have hnone : c.toUInt8 ∉ String.utf8EncodeChar d := by
      intro hmem
      have hhigh := le_of_mem_utf8EncodeChar (Nat.le_of_not_lt hd) hmem
      rw [toNat_toUInt8 hc] at hhigh
      omega
    rw [List.count_eq_zero.mpr hnone, List.count_eq_zero.mpr (by simpa using hother.symm)]

/-- A byte string has an ASCII character as often as what it is read as. -/
theorem count_textOfGlyphs {c : Char} (hc : c.toNat < 0x80) (bytes : List UInt8) :
    (textOfGlyphs (glyphsOfBytes bytes)).toList.count c = bytes.count c.toUInt8 := by
  rw [textOfGlyphs, String.toList_ofList]
  induction bytes using decodingInduction with
  | nil => rw [glyphsOfBytes_nil, List.map_nil, List.count_nil, List.count_nil]
  | char b rest d extra hlead ih =>
      rw [glyphsOfBytes_char hlead, List.map_cons, ← List.singleton_append, List.count_append, ih,
        ← count_utf8EncodeChar hc, ← List.count_append, ← cons_take_of_lead? hlead, List.cons_append,
        List.take_append_drop]
  | stray b rest hlead ih =>
      have hbyte : b ≠ c.toUInt8 := by
        rintro rfl
        rw [lead?_ascii (toUInt8_lt hc)] at hlead
        cases hlead
      have hchar : stray.char ≠ c := by
        rintro rfl
        exact absurd hc (by decide)
      rw [glyphsOfBytes_stray hlead, List.map_cons, List.count_cons_of_ne hchar, ih,
        List.count_cons_of_ne hbyte]

/-- A byte string ends with an ASCII character if what it is read as does. -/
theorem getLast?_textOfGlyphs {c : Char} (hc : c.toNat < 0x80) (bytes : List UInt8) :
    (textOfGlyphs (glyphsOfBytes bytes)).toList.getLast? = some c ↔
      bytes.getLast? = some c.toUInt8 := by
  rw [textOfGlyphs, String.toList_ofList, List.getLast?_map, Option.map_eq_some_iff]
  constructor
  · rintro ⟨g, hg, rfl⟩
    obtain ⟨front, hfront⟩ := List.getLast?_eq_some_iff.mp hg
    obtain ⟨rest, hbytes, hrest⟩ := eq_cons_of_glyphsOfBytes (glyphsOfBytes_drop hfront) hc
    have hlength := glyphBytes_glyphsOfBytes rest
    rw [hrest, glyphBytes_nil] at hlength
    rw [List.eq_nil_of_length_eq_zero hlength.symm] at hbytes
    refine List.getLast?_eq_some_iff.mpr ⟨bytes.take (glyphBytes front), ?_⟩
    rw [← hbytes, List.take_append_drop]
  · intro h
    obtain ⟨front, rfl⟩ := List.getLast?_eq_some_iff.mp h
    have hglyphs : glyphsOfBytes (front ++ [c.toUInt8]) = glyphsOfBytes front ++ [⟨c, 1⟩] := by
      rw [glyphsOfBytes_append_ascii (toUInt8_lt hc), toNat_toUInt8 hc, Char.ofNat_toNat,
        glyphsOfBytes_nil]
    exact ⟨⟨c, 1⟩, by rw [hglyphs, List.getLast?_concat], rfl⟩

end Reading

/-! ## The order of texts is the order of their bytes

UTF-8 keeps the order of characters: where the encodings of two characters first differ, the lesser
character has the lesser byte. So it is the same whether texts are ordered by characters or by bytes. -/

theorem utf8EncodeChar_ne_nil (c : Char) : String.utf8EncodeChar c ≠ [] := by
  unfold String.utf8EncodeChar
  simp only
  split_ifs <;> simp

/-- The lesser character decides, whatever follows. -/
theorem utf8EncodeChar_append_lt {c d : Char} (h : c < d) (s t : List UInt8) :
    String.utf8EncodeChar c ++ s < String.utf8EncodeChar d ++ t := by
  have hval : c.val.toNat < d.val.toNat := h
  have hbound : d.val.toNat < 1114112 := by
    have hvalid := d.valid
    simp only [UInt32.isValidChar, Nat.isValidChar] at hvalid
    omega
  -- the bytes hold six bits each, taken off one after the other
  have htwo (n : Nat) : n / 4096 = n / 64 / 64 := by omega
  have hthree (n : Nat) : n / 262144 = n / 64 / 64 / 64 := by omega
  unfold String.utf8EncodeChar
  generalize c.val.toNat = m at hval
  generalize d.val.toNat = n at hval hbound
  simp only [htwo, hthree]
  split_ifs <;>
    simp only [List.cons_append, List.nil_append, List.cons_lt_cons_iff, UInt8.lt_iff_toNat_lt,
      ← UInt8.toNat_inj, UInt8.toNat_ofNat', Nat.reducePow] <;> omega

theorem bytesOfText_lt {a b : String} (h : a < b) : bytesOfText a < bytesOfText b := by
  rw [bytesOfText_eq_flatMap, bytesOfText_eq_flatMap]
  have hlex := String.lt_iff_toList_lt.mp h
  generalize a.toList = s at hlex
  generalize b.toList = t at hlex
  induction hlex with
  | @nil c rest =>
      obtain ⟨byte, bytes, hbytes⟩ := List.exists_cons_of_ne_nil (utf8EncodeChar_ne_nil c)
      rw [List.flatMap_cons, hbytes]
      exact List.nil_lt_cons byte _
  | cons _ ih =>
      rw [List.flatMap_cons, List.flatMap_cons]
      exact List.append_left_lt ih
  | rel hlt =>
      rw [List.flatMap_cons, List.flatMap_cons]
      exact utf8EncodeChar_append_lt hlt _ _

theorem bytesOfText_inj {a b : String} : bytesOfText a = bytesOfText b ↔ a = b := by
  rw [bytesOfText, bytesOfText, Array.toList_inj, ← ByteArray.ext_iff, String.toUTF8_eq_toByteArray,
    String.toUTF8_eq_toByteArray, String.toByteArray_inj]

end CodeAtlas
