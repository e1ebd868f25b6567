import CodeAtlas.Classify.Content
import CodeAtlas.Proofs.Number
import CodeAtlas.Proofs.Text.Glyphs
import CodeAtlas.Proofs.Text.Words

/-!
# The lines of a text

Lines are counted, numbered and cut out on their own, each in one way, and all agree on what they are: the
parts between line feeds, with none after the last line feed, and each without the carriage return that
ends it.
-/

namespace CodeAtlas

variable {text line : String} {all : List String} {first mid last : Int}

theorem lines_eq_nil_iff : lines text = [] ↔ text = "" := by
  unfold lines
  split
  · simp_all
  · next hsome =>
    rw [List.map_eq_nil_iff, splitText_eq, List.map_eq_nil_iff]
    simp_all [List.splitOn_ne_nil]

theorem mem_of_mem_dropSuffix {part : String} {c : Char} (hc : c ∈ (dropSuffix part text).toList) :
    c ∈ text.toList := by
  unfold dropSuffix at hc
  split at hc
  · rw [String.toList_ofList] at hc
    exact List.mem_of_mem_take hc
  · exact hc

theorem newline_not_mem_of_mem_lines (hline : line ∈ lines text) : '\n' ∉ line.toList := by
  unfold lines at hline
  split at hline
  · cases hline
  · obtain ⟨part, hpart, rfl⟩ := List.mem_map.mp hline
    intro hmem
    have hnewline := mem_of_mem_dropSuffix hmem
    rw [splitText_eq, List.mem_map] at hpart
    obtain ⟨chars, hchars, rfl⟩ := hpart
    rw [String.toList_ofList] at hnewline
    have hnot := not_of_mem_splitOnP hchars hnewline
    simp at hnot

/-! ## How many lines there are -/

theorem length_lines (htext : text ≠ "") : (lines text).length =
    text.toList.count '\n' + if text.toList.getLast? = some '\n' then 0 else 1 := by
  have hsuffix : hasSuffix "\n" text = true ↔ text.toList.getLast? = some '\n' :=
    hasSuffix_singleton_iff (c := '\n')
  rw [lines, if_neg (by simpa using htext), List.length_map, length_splitText, dropSuffix]
  by_cases hlast : text.toList.getLast? = some '\n'
  · obtain ⟨front, hfront⟩ := List.getLast?_eq_some_iff.mp hlast
    have hlength : text.length - "\n".length = front.length := by
      rw [← String.length_toList, hfront, List.length_append]
      rfl
    rw [if_pos (hsuffix.mpr hlast), if_pos hlast, hlength, hfront, String.toList_ofList,
      List.take_left, List.count_append, List.count_singleton_self]
  · rw [if_neg (mt hsuffix.mp hlast), if_neg hlast]

/-- Bytes are counted as the lines of what they are read as, stray ones included. -/
theorem countLines_eq (bytes : List UInt8) :
    countLines bytes = (lines (textOfGlyphs (glyphsOfBytes bytes))).length := by
  have hcount := count_textOfGlyphs (c := '\n') (by decide) bytes
  have hlast := getLast?_textOfGlyphs (c := '\n') (by decide) bytes
  have hfeed : '\n'.toUInt8 = 0x0A := rfl
  rw [hfeed] at hcount hlast
  have htext (hsome : bytes ≠ []) : textOfGlyphs (glyphsOfBytes bytes) ≠ "" := by
    intro hempty
    have hglyphs : glyphsOfBytes bytes = [] := by simpa [textOfGlyphs] using hempty
    have hlength := glyphBytes_glyphsOfBytes bytes
    rw [hglyphs, glyphBytes_nil] at hlength
    exact hsome (List.eq_nil_of_length_eq_zero hlength.symm)
  unfold countLines
  dsimp only
  split
  · next hnone =>
    rw [List.getLast?_eq_none_iff.mp hnone, glyphsOfBytes_nil]
    rfl
  · next hends =>
    have hsome : bytes ≠ [] := by
      rintro rfl
      cases hends
    rw [length_lines (htext hsome), if_pos (hlast.mpr hends), hcount, Nat.add_zero]
  · next b hother hends =>
    have hsome : bytes ≠ [] := by
      rintro rfl
      cases hends
    rw [length_lines (htext hsome), if_neg, hcount]
    intro htextEnds
    exact hother (Option.some.inj (hends.symm.trans (hlast.mp htextEnds)))

/-! ## Numbers of lines -/

/-- The parts of a text between line feeds; the empty text has none. -/
def rowsOf (text : String) : List String := if text = "" then [] else splitText '\n' text

def numbered (i : Nat) (line : String) : String := toString (i + 1) ++ ":" ++ line

theorem newline_not_mem_numbered (i : Nat) (hline : '\n' ∉ line.toList) :
    '\n' ∉ (numbered i line).toList := by
  have hdigits : '\n' ∉ (toString (i + 1)).toList := by
    intro hmem
    have hdigit : '\n'.isDigit = true :=
      isDigit_of_mem_toString (n := ((i + 1 : Nat) : Int)) (by omega) hmem
    exact absurd hdigit (by decide)
  rw [numbered, String.toList_append, String.toList_append, List.mem_append, List.mem_append]
  rintro ((hmem | hmem) | hmem)
  · exact hdigits hmem
  · exact absurd hmem (by decide)
  · exact hline hmem

theorem foldl_writeNumbered (parts : List String) (written : String) (start : Nat) :
    (parts.zipIdx (start + 1)).foldl writeNumbered written =
      joinLines (written :: (parts.map (dropSuffix "\r")).mapIdx fun i line => numbered (start + 1 + i) line) := by
  induction parts generalizing written start with
  | nil => rfl
  | cons part rest ih =>
      have hwritten : writeNumbered written (part, start + 1) =
          written ++ "\n" ++ numbered (start + 1) (dropSuffix "\r" part) := rfl
      have hshift : (fun i line => numbered (start + 1 + 1 + i) line) =
          fun i line => numbered (start + 1 + (i + 1)) line := by
        funext i line
        rw [Nat.add_assoc, Nat.add_comm 1 i]
      rw [List.zipIdx_cons, List.foldl_cons, ih, hwritten, hshift, List.map_cons, List.mapIdx_cons]
      rfl

/-- Lines that are numbered while they are split off are those that a text is split into. -/
theorem numberLines_eq (text : String) : numberLines text = joinLines ((lines text).mapIdx numbered) := by
  unfold numberLines lines
  split
  · rfl
  · obtain ⟨part, rest, hparts⟩ := List.exists_cons_of_ne_nil
      (show splitText '\n' (dropSuffix "\n" text) ≠ [] by simp [splitText_eq, List.splitOn_ne_nil])
    have hwritten : writeNumbered "" (part, 0) = numbered 0 (dropSuffix "\r" part) := String.empty_append
    rw [hparts, List.zipIdx_cons, List.foldl_cons, foldl_writeNumbered, hwritten, List.map_cons, List.mapIdx_cons]
    simp only [Nat.zero_add, Nat.add_comm 1]

theorem rowsOf_numberLines (text : String) :
    rowsOf (numberLines text) = (lines text).mapIdx numbered := by
  rw [numberLines_eq]
  by_cases hnone : lines text = []
  · rw [hnone, List.mapIdx_nil]
    rfl
  have hsplit : splitText '\n' (joinLines ((lines text).mapIdx numbered)) = (lines text).mapIdx numbered := by
    refine splitText_intercalate (by simpa using hnone) fun row hrow => ?_
    obtain ⟨i, hi, rfl⟩ := List.mem_mapIdx.mp hrow
    exact newline_not_mem_numbered i (newline_not_mem_of_mem_lines (List.getElem_mem hi))
  rw [rowsOf, if_neg, hsplit]
  intro hempty
  have hrow : "" ∈ (lines text).mapIdx numbered := by
    rw [← hsplit, hempty]
    exact List.mem_cons_self
  obtain ⟨i, hi, hrow⟩ := List.mem_mapIdx.mp hrow
  have hchars := congrArg String.toList hrow
  simp [numbered] at hchars

/-! ## Ranges of lines -/

/-- The lines whose numbers, from one on, are within two bounds. -/
def linesBetween (all : List String) (first last : Int) : List String :=
  ((all.zipIdx 1).filter fun p => first ≤ p.2 ∧ p.2 ≤ last).map Prod.fst

theorem map_filter_zipIdx (all : List String) (first last : Int) (start : Nat) :
    ((all.zipIdx start).filter fun p => first ≤ p.2 ∧ p.2 ≤ last).map Prod.fst =
      (all.drop (first - start).toNat).take (last + 1 - max first start).toNat := by
  induction all generalizing start with
  | nil => simp
  | cons line all ih =>
      have hrest := ih (start + 1)
      rw [List.zipIdx_cons]
      by_cases hin : first ≤ start ∧ start ≤ last
      · have hskip : (first - start).toNat = 0 := by omega
        have htake : (last + 1 - max first start).toNat =
            (last + 1 - max first (start + 1 : Nat)).toNat + 1 := by omega
        have hnext : (first - (start + 1 : Nat)).toNat = 0 := by omega
        rw [List.filter_cons_of_pos (by simpa using hin), List.map_cons, hrest, hskip, hnext, htake,
          List.drop_zero, List.drop_zero, List.take_succ_cons]
      · rw [List.filter_cons_of_neg (by simpa using hin), hrest]
        by_cases hbefore : (start : Int) < first
        · have hskip : (first - start).toNat = (first - (start + 1 : Nat)).toNat + 1 := by omega
          have htake : max first start = max first (start + 1 : Nat) := by omega
          rw [hskip, htake, List.drop_succ_cons]
        · have htake : (last + 1 - max first start).toNat = 0 := by omega
          have hnext : (last + 1 - max first (start + 1 : Nat)).toNat = 0 := by omega
          rw [htake, hnext, List.take_zero, List.take_zero]

/-- The elements from one index up to another, where both are indices into the list. -/
def slice? {α : Type} (xs : List α) (lo hi : Int) : Option (List α) :=
  if 0 ≤ lo ∧ lo ≤ hi ∧ hi ≤ xs.length then some ((xs.take hi.toNat).drop lo.toNat) else none

theorem linesBetween_eq (hfirst : 1 ≤ first) : linesBetween all first last =
    (all.drop (first.toNat - 1)).take (last - first + 1).toNat := by
  have hskip : (first - (1 : Nat)).toNat = first.toNat - 1 := by omega
  have htake : (last + 1 - max first (1 : Nat)).toNat = (last - first + 1).toNat := by omega
  rw [linesBetween, map_filter_zipIdx, hskip, htake]

theorem slice?_eq_linesBetween (hfirst : 1 ≤ first) (hle : first ≤ last) (hlast : last ≤ all.length) :
    slice? all (first - 1) last = some (linesBetween all first last) := by
  have hskip : (first - 1).toNat = first.toNat - 1 := by omega
  have htake : last.toNat - (first.toNat - 1) = (last - first + 1).toNat := by omega
  rw [slice?, if_pos (by omega), linesBetween_eq hfirst, List.drop_take, hskip, htake]

theorem linesBetween_append (hfirst : 1 ≤ first) (hmid : first ≤ mid) (hlast : mid < last) :
    linesBetween all first mid ++ linesBetween all (mid + 1) last = linesBetween all first last := by
  have htake : (last - first + 1).toNat = (mid - first + 1).toNat + (last - (mid + 1) + 1).toNat := by
    omega
  have hskip : first.toNat - 1 + (mid - first + 1).toNat = (mid + 1).toNat - 1 := by omega
  rw [linesBetween_eq hfirst, linesBetween_eq (by omega), linesBetween_eq hfirst, htake, List.take_add,
    List.drop_drop, hskip]

theorem length_linesBetween (hfirst : 1 ≤ first) (hlast : last ≤ all.length) :
    (linesBetween all first last).length = (last - first + 1).toNat := by
  rw [linesBetween_eq hfirst, List.length_take, List.length_drop]
  omega

theorem lineRange_eq (text : String) (first last : Int) : lineRange text first last =
    joinLines (linesBetween (lines text) (max first 1) (min last (lines text).length)) := by
  rw [linesBetween_eq (Int.le_max_right first 1), lineRange]
  split
  · next hnone =>
    have htake : (min last (lines text).length - max first 1 + 1).toNat = 0 := by omega
    rw [htake, List.take_zero]
    rfl
  · rfl

theorem lineRange_line {i : Nat} (hline : (lines text)[i]? = some line) :
    lineRange text (i + 1) (i + 1) = line := by
  obtain ⟨hi, rfl⟩ := List.getElem?_eq_some_iff.mp hline
  have hfirst : max ((i : Int) + 1) 1 = i + 1 := by omega
  have hlast : min ((i : Int) + 1) (lines text).length = i + 1 := by omega
  have hskip : ((i : Int) + 1).toNat - 1 = i := by omega
  have htake : ((i : Int) + 1 - (i + 1) + 1).toNat = 1 := by omega
  rw [lineRange_eq, hfirst, hlast, linesBetween_eq (by omega), hskip, htake,
    List.take_one_drop_eq_of_lt_length hi]
  exact String.intercalate_singleton

theorem lineRange_append (hfirst : 1 ≤ first) (hmid : first ≤ mid) (hlast : mid < last)
    (hall : last ≤ (lines text).length) :
    lineRange text first mid ++ "\n" ++ lineRange text (mid + 1) last = lineRange text first last := by
  have hnonempty {first last : Int} (hfirst : 1 ≤ first) (hle : first ≤ last)
      (hlast : last ≤ (lines text).length) : linesBetween (lines text) first last ≠ [] := by
    intro hnone
    have hlength := length_linesBetween hfirst hlast
    rw [hnone, List.length_nil] at hlength
    omega
  rw [lineRange_eq, lineRange_eq, lineRange_eq, Int.max_eq_left hfirst,
    Int.max_eq_left (by omega : 1 ≤ mid + 1), Int.min_eq_left (by omega), Int.min_eq_left hall,
    ← linesBetween_append hfirst hmid hlast]
  exact (String.intercalate_append_of_ne_nil (hnonempty hfirst hmid (by omega))
    (hnonempty (by omega) (by omega) hall)).symm

/-- All that splits a text goes by its lines. -/
theorem splitters_agree (text : String) :
    countLines (bytesOfText text) = (lines text).length ∧
      (rowsOf (numberLines text)).length = (lines text).length ∧
      ((lines text).length = 0 ↔ text = "") ∧
      rowsOf (numberLines text) = (lines text).mapIdx (fun i line => toString (i + 1) ++ ":" ++ line) ∧
      (∀ first last : Int, lineRange text first last =
        joinLines (linesBetween (lines text) (max first 1) (min last (lines text).length))) ∧
      (∀ first last : Int, max first 1 ≤ min last (lines text).length →
        slice? (lines text) (max first 1 - 1) (min last (lines text).length) =
          some (linesBetween (lines text) (max first 1) (min last (lines text).length))) ∧
      (∀ (i : Nat) line, (lines text)[i]? = some line → lineRange text (i + 1) (i + 1) = line) ∧
      ∀ first mid last : Int, 1 ≤ first → first ≤ mid → mid < last → last ≤ (lines text).length →
        lineRange text first mid ++ "\n" ++ lineRange text (mid + 1) last =
          lineRange text first last := by
  refine ⟨?_, ?_, ?_, rowsOf_numberLines text, lineRange_eq text, fun first last hle => ?_,
    fun i line => lineRange_line, fun first mid last => lineRange_append⟩
  · rw [countLines_eq, textOfGlyphs_glyphsOfBytes]
  · rw [rowsOf_numberLines, List.length_mapIdx]
  · rw [List.length_eq_zero_iff, lines_eq_nil_iff]
  · exact slice?_eq_linesBetween (Int.le_max_right first 1) hle (Int.min_le_right _ _)

end CodeAtlas
