import CodeAtlas.Proofs.Query.Expressions
import CodeAtlas.Proofs.Snippet.BestLine

/-!
# Whole words of a line

The words of a query are runs of letters, digits and underscores of every alphabet, but a match starts and ends
at the borders of plain ones. So a word that stands in a line as a whole is found there if it starts and, unless
it is open, ends with a plain character, and is missed otherwise.
-/

namespace CodeAtlas

namespace Matcher

open QueryWord (isPart)

/-- A word of a query, up to case, between the ends of a line and characters that no word has. -/
structure WholeWord (w : QueryWord) (line front occ after : List Char) : Prop where
  split : line = front ++ (occ ++ after)
  same : occ.map caseKey = w.text.toList.map caseKey
  before : ∀ c ∈ front.getLast?, isPart c = false
  behind : ∀ c ∈ after.head?, isPart c = false

/-- The first character is plain, and so is the last one, unless the word is open. -/
def PlainEnds (w : QueryWord) (occ : List Char) : Prop :=
  occ.head?.any isWordChar = true ∧ (w.isOpen = true ∨ occ.getLast?.any isWordChar = true)

/-- No letter, digit or underscore differs from the character by case alone. -/
def Apart (c : Char) : Prop := ∀ p, isPart p = true → caseKey p ≠ caseKey c

/-- All words of the query are made of letters, digits and underscores. -/
def OfParts (m : Matcher) : Prop := ∀ w ∈ m.words, ∀ c ∈ w.text.toList, isPart c = true

/-- A piece as it is shown. -/
def marked (p : Piece) : List Char := if p.isMatch then "**".toList ++ p.text ++ "**".toList else p.text

variable {m : Matcher} {w : QueryWord} {before : Option Char} {c : Char} {line front occ after rest : List Char}
  {pieces : List Piece} {n : Nat}

/-! ## Characters -/

theorem isPart_of_isFoldedWordChar (hc : isFoldedWordChar c = true) : isPart c = true := by
  cases hascii : isAscii c with
  | true =>
      exact of_ascii (p := fun c => isFoldedWordChar c = true → isPart c = true) (by decide +kernel) hascii hc
  | false =>
      obtain hkey | ⟨rfl, -⟩ | ⟨rfl, -⟩ := caseKey_cases hascii
      · rw [isAscii_of_isWordChar hc] at hkey
        cases hkey
      · simp only [isPart, isLetter, isDecimalDigit, Category.ofChar_eq]
        decide +kernel
      · simp only [isPart, isLetter, isDecimalDigit, Category.ofChar_eq]
        decide +kernel

theorem not_isFoldedWordChar (hc : isPart c = false) : ¬isFoldedWordChar c = true := by
  intro hfolded
  rw [isPart_of_isFoldedWordChar hfolded] at hc
  cases hc

/-- The plain characters between words are no parts of words in another case either. -/
theorem apart_of_isAscii (hc : isAscii c = true) (hnot : isPart c = false) : Apart c := by
  have hsmall {c : Char} (hc : isAscii c = true) : isAscii (caseKey c) = true ∧ isPart (caseKey c) = isPart c :=
    of_ascii (p := fun c => isAscii (caseKey c) = true ∧ isPart (caseKey c) = isPart c) (by decide +kernel) hc
  have hsame := hsmall hc
  intro p hp hkey
  rw [← hkey, hnot] at hsame
  cases hascii : isAscii p with
  | true =>
      rw [(hsmall hascii).2, hp] at hsame
      cases hsame.2
  | false =>
      obtain hnone | ⟨-, hs⟩ | ⟨-, hk⟩ := caseKey_cases hascii
      · rw [hsame.1] at hnone
        cases hnone
      · rw [hs] at hsame
        exact absurd hsame.2 (by decide)
      · rw [hk] at hsame
        exact absurd hsame.2 (by decide)

/-! ## A place in a line -/

theorem any_isWordChar_of_not_isPart {o : Option Char} (h : ∀ c ∈ o, isPart c = false) :
    o.any isWordChar = false := by
  cases o with
  | none => rfl
  | some c =>
      have hfolded := not_isFoldedWordChar (h c rfl)
      simpa using fun hword => hfolded (wordChar_cases hword).1

theorem takeWhile_folded (h : ∀ c ∈ after.head?, isPart c = false) : after.takeWhile isFoldedWordChar = [] := by
  cases after with
  | nil => rfl
  | cons c after => rw [List.takeWhile_cons, if_neg (not_isFoldedWordChar (h c rfl))]

theorem WholeWord.length_eq (h : WholeWord w line front occ after) : occ.length = w.text.toList.length := by
  simpa using congrArg List.length h.same

/-- A word that stands in a line as a whole fits there exactly if its end can be seen. -/
theorem WholeWord.wordLength?_eq (h : WholeWord w line front occ after) : wordLength? w (occ ++ after) =
    if w.isOpen = true ∨ occ.getLast?.any isWordChar = true then some occ.length else none := by
  have hheads : w.text.toList.map caseKey <+: (occ ++ after).map caseKey := by
    rw [List.map_append, h.same]
    exact List.prefix_append _ _
  cases hopen : w.isOpen with
  | true =>
      rw [wordLength?_open hopen, if_pos hheads, ← h.length_eq, List.drop_left, takeWhile_folded h.behind,
        List.length_nil, Nat.add_zero, if_pos (.inl rfl)]
  | false =>
      have hborder : isBorder occ.getLast? after.head? = occ.getLast?.any isWordChar := by
        rw [isBorder, any_isWordChar_of_not_isPart h.behind]
        simp
      rw [wordLength?_closed hopen, ← h.length_eq, List.take_left, List.drop_left, hborder]
      simp only [hheads, true_and, Bool.false_eq_true, false_or]

/-- It is found there exactly if both of its ends can be seen. -/
theorem WholeWord.fits_iff (h : WholeWord w line front occ after) (hw : 0 < w.text.toList.length) :
    isBorder front.getLast? (occ ++ after).head? = true ∧ (wordLength? w (occ ++ after)).isSome = true ↔
      PlainEnds w occ := by
  have hsome : occ ≠ [] := by
    rw [← List.length_pos_iff, h.length_eq]
    exact hw
  have hborder : isBorder front.getLast? (occ ++ after).head? = occ.head?.any isWordChar := by
    rw [isBorder, any_isWordChar_of_not_isPart h.before, List.head?_append_of_ne_nil _ hsome]
    simp
  rw [hborder, h.wordLength?_eq, PlainEnds]
  split <;> simp_all

theorem WholeWord.plainEnds (h : WholeWord w line front occ after) (hw : 0 < w.text.toList.length)
    (hplain : ∀ c ∈ occ, isWordChar c = true) : PlainEnds w occ := by
  have hsome : occ ≠ [] := by
    rw [← List.length_pos_iff, h.length_eq]
    exact hw
  refine ⟨?_, .inr (getLast?_any_isWordChar hsome hplain)⟩
  rw [List.head?_eq_some_head hsome]
  exact hplain _ (List.head_mem hsome)

theorem WholeWord.occursIn {line : String} (h : WholeWord w line.toList front occ after)
    (hw : 0 < w.text.toList.length) (hends : PlainEnds w occ) : occursIn w line = true := by
  obtain ⟨hborder, hfits⟩ := (h.fits_iff hw).mpr hends
  exact occursIn_iff.mpr ⟨front, occ ++ after, h.split, hborder, hfits⟩

/-! ## Cutting at a place -/

theorem ofParts_of_ofQuery? {query : String} (hm : ofQuery? query = some m) : m.OfParts := by
  have hquery : textOfGlyphs (glyphsOfText query) = query := by
    simp [textOfGlyphs, glyphsOfText, Function.comp_def, Glyph.ofChar]
  intro w hw
  rw [(words_of_ofQuery? hm).2] at hw
  have hmem := QueryWord.mem_of_mem_distinct _ w hw
  rw [← hquery] at hmem
  exact (QueryWord.isPart_of_mem_ofQuery hmem).2

/-- A match is made of letters, digits and underscores, up to case. -/
theorem OfParts.matchLength?_chars (hm : m.OfParts) (hfits : m.matchLength? before rest = some n) :
    n ≤ rest.length ∧ ∀ c ∈ rest.take n, ∃ p, isPart p = true ∧ caseKey p = caseKey c := by
  obtain ⟨w, hw, hlength⟩ := matchLength?_spec hfits
  have hheads := (wordLength?_spec hlength).1
  have hle : w.text.toList.length ≤ rest.length := by simpa using hheads.length_le
  have htext : ∀ c ∈ rest.take w.text.toList.length, ∃ p, isPart p = true ∧ caseKey p = caseKey c := by
    intro c hc
    rw [List.prefix_iff_eq_take, List.length_map, ← List.map_take] at hheads
    have hkey : caseKey c ∈ w.text.toList.map caseKey := hheads ▸ List.mem_map_of_mem hc
    obtain ⟨p, hp, hsame⟩ := List.mem_map.mp hkey
    exact ⟨p, hm w hw p hp, hsame⟩
  cases hopen : w.isOpen with
  | true =>
      rw [wordLength?_open hopen, if_pos hheads] at hlength
      rw [← Option.some.inj hlength]
      have hmore := (List.takeWhile_prefix isFoldedWordChar (l := rest.drop w.text.toList.length))
      refine ⟨?_, fun c hc => ?_⟩
      · have hlast := hmore.length_le
        rw [List.length_drop] at hlast
        omega
      · rw [List.take_add, List.mem_append] at hc
        obtain hc | hc := hc
        · exact htext c hc
        · rw [← List.prefix_iff_eq_take.mp hmore] at hc
          exact ⟨c, isPart_of_isFoldedWordChar (List.all_eq_true.mp List.all_takeWhile c hc), rfl⟩
  | false =>
      rw [wordLength?_closed hopen, Option.ite_none_right_eq_some] at hlength
      rw [← Option.some.inj hlength.2]
      exact ⟨hle, htext⟩

/-- No match goes beyond a character that no word has. -/
theorem OfParts.matchLength?_le (hm : m.OfParts) (hfits : m.matchLength? before (front ++ c :: rest) = some n)
    (hc : Apart c) : n ≤ front.length := by
  by_contra hbeyond
  have hmem : c ∈ (front ++ c :: rest).take n := by
    obtain ⟨k, hk⟩ := Nat.exists_eq_add_of_lt (Nat.lt_of_not_le hbeyond)
    rw [List.take_append, List.mem_append]
    right
    rw [show n - front.length = k + 1 by omega, List.take_succ_cons]
    exact List.mem_cons_self
  obtain ⟨p, hp, hkey⟩ := (hm.matchLength?_chars hfits).2 c hmem
  exact hc p hp hkey

theorem Cuts.texts (h : m.Cuts before rest pieces) : pieces.flatMap (·.text) = rest := by
  induction h with
  | done => rfl
  | found hfits hrest ih => rw [List.flatMap_cons, ih, List.cons_append, List.take_append_drop]
  | single hnone hrest ih => rw [List.flatMap_cons, ih, List.singleton_append]

/-- Behind a character that no word has, the cutting starts anew. -/
theorem Cuts.split (hm : m.OfParts) (h : m.Cuts before (front ++ rest) pieces) (hend : ∀ c ∈ front.getLast?, Apart c) :
    ∃ left right, pieces = left ++ right ∧ left.flatMap (·.text) = front ∧
      m.Cuts (front.getLast?.or before) rest right := by
  generalize hline : front ++ rest = line at h
  induction h generalizing front with
  | done =>
      obtain ⟨rfl, rfl⟩ := List.append_eq_nil_iff.mp hline
      exact ⟨[], [], rfl, rfl, .done⟩
  | @found before c tail n pieces hfits hrest ih =>
      cases front with
      | nil =>
          obtain rfl : rest = c :: tail := hline
          exact ⟨[], _, rfl, rfl, .found hfits hrest⟩
      | cons first front =>
          rw [List.cons_append] at hline
          obtain ⟨rfl, rfl⟩ := List.cons.inj hline
          have hinside : n ≤ front.length := by
            obtain ⟨init, last, hlast⟩ : ∃ init last, first :: front = init ++ [last] :=
              ⟨_, _, (List.dropLast_append_getLast (List.cons_ne_nil first front)).symm⟩
            rw [← List.cons_append, hlast, List.append_assoc, List.singleton_append] at hfits
            have hle := hm.matchLength?_le hfits (hend last (by rw [hlast, List.getLast?_concat, Option.mem_some]))
            have hlength := congrArg List.length hlast
            rw [List.length_cons, List.length_append, List.length_singleton] at hlength
            omega
          have hdrop : ∀ d ∈ (front.drop n).getLast?, Apart d := by
            intro d hd
            rw [List.getLast?_drop] at hd
            split at hd
            · cases hd
            · exact hend d (by rw [List.getLast?_cons, hd]; rfl)
          have hsame : front.drop n ++ rest = (front ++ rest).drop n :=
            (List.drop_append_of_le_length hinside).symm
          obtain ⟨left, right, rfl, hleft, hright⟩ := ih hdrop hsame
          refine ⟨⟨true, _⟩ :: left, right, rfl, ?_, ?_⟩
          · rw [List.flatMap_cons, hleft, List.take_append_of_le_length hinside, List.cons_append,
              List.take_append_drop]
          · rw [List.take_append_of_le_length hinside, ← List.getLast?_append, List.cons_append,
              List.take_append_drop] at hright
            rwa [List.getLast?_cons] at hright ⊢
  | @single before c tail pieces hnone hrest ih =>
      cases front with
      | nil =>
          obtain rfl : rest = c :: tail := hline
          exact ⟨[], _, rfl, rfl, .single hnone hrest⟩
      | cons first front =>
          rw [List.cons_append] at hline
          obtain ⟨rfl, rfl⟩ := List.cons.inj hline
          have hlast : ∀ d ∈ front.getLast?, Apart d := by
            intro d hd
            exact hend d (by rw [List.getLast?_cons, hd]; rfl)
          obtain ⟨left, right, rfl, hleft, hright⟩ := ih hlast rfl
          refine ⟨⟨false, _⟩ :: left, right, rfl, ?_, ?_⟩
          · rw [List.flatMap_cons, hleft, List.singleton_append]
          · rwa [getLast?_cons_or]

/-- What is cut off at the start of a word that stands in a line as a whole, if its ends can be seen. -/
theorem WholeWord.cut (h : WholeWord w line front occ after) (hm : m.Lawful) (hparts : m.OfParts)
    (hw : w ∈ m.words) (hends : PlainEnds w occ) (hfront : ∀ c ∈ front.getLast?, Apart c)
    (hafter : ∀ c ∈ after.head?, Apart c) (hcuts : m.Cuts none line pieces) :
    ∃ left n right, pieces = left ++ ⟨true, occ.take n⟩ :: right ∧ left.flatMap (·.text) = front ∧
      right.flatMap (·.text) = occ.drop n ++ after ∧ 0 < n ∧ n ≤ occ.length ∧
      ∃ v ∈ m.words, wordLength? v (occ ++ after) = some n := by
  rw [h.split] at hcuts
  obtain ⟨left, right, rfl, hleft, hplace⟩ := hcuts.split hparts hfront
  rw [Option.or_none] at hplace
  obtain ⟨hborder, hfits⟩ := (h.fits_iff (hm.length_pos hw)).mpr hends
  have hmatch := matchLength?_isSome_iff.mpr ⟨hborder, w, hw, hfits⟩
  generalize hline : occ ++ after = rest at hplace hmatch
  cases hplace with
  | done => simp [hm.matchLength?_nil] at hmatch
  | single hnone =>
      obtain ⟨k, hk⟩ := Option.isSome_iff_exists.mp hmatch
      obtain ⟨n, rfl⟩ := Nat.exists_eq_add_one.mpr (hm.matchLength?_pos hk)
      exact absurd hk (hnone n)
  | @found _ c tail n right hlength hrest =>
      -- the match does not go beyond the word
      have hle : n + 1 ≤ occ.length := by
        cases after with
        | nil =>
            have hlast := (hparts.matchLength?_chars hlength).1
            rwa [← hline, List.append_nil] at hlast
        | cons d after =>
            rw [← hline] at hlength
            exact hparts.matchLength?_le hlength (hafter d rfl)
      have htaken : c :: tail.take n = occ.take (n + 1) := by
        rw [← List.take_succ_cons, ← hline, List.take_append_of_le_length hle]
      refine ⟨left, n + 1, right, by rw [htaken], hleft, ?_, Nat.succ_pos n, hle, ?_⟩
      · rw [hrest.texts, ← List.drop_succ_cons (a := c), ← hline, List.drop_append_of_le_length hle]
      · exact matchLength?_spec hlength

/-- A plain word is matched to its end. -/
theorem wordLength?_plain (hplain : ∀ c ∈ occ, isWordChar c = true) (hafter : ∀ c ∈ after.head?, isPart c = false)
    (hfits : wordLength? w (occ ++ after) = some n) (hpos : 0 < n) (hle : n ≤ occ.length) : n = occ.length := by
  have hstop : ∀ c ∈ after.head?, ¬isFoldedWordChar c = true := fun c hc => not_isFoldedWordChar (hafter c hc)
  have hshort := (wordLength?_spec hfits).2
  cases hopen : w.isOpen with
  | true =>
      rw [wordLength?_open hopen, Option.ite_none_right_eq_some] at hfits
      rw [← Option.some.inj hfits.2, List.drop_append_of_le_length (Nat.le_trans hshort hle),
        List.takeWhile_append_of_pos, takeWhile_folded hafter, List.append_nil, List.length_drop]
      · omega
      · intro c hc
        exact (wordChar_cases (hplain c (List.mem_of_mem_drop hc))).1
  | false =>
      rw [wordLength?_closed hopen, Option.ite_none_right_eq_some] at hfits
      rw [Option.some.inj hfits.2] at hfits
      exact (isBorder_run_iff hpos hle hplain hstop).mp hfits.1.2

theorem toList_highlight (m : Matcher) (line : String) :
    (m.highlight line).toList = (m.pieces line).flatMap marked := by
  have hfold (pieces : List Piece) (out : String) : (pieces.foldl (fun out p =>
      let text := String.ofList p.text
      if p.isMatch then out ++ "**" ++ text ++ "**" else out ++ text) out).toList =
        out.toList ++ pieces.flatMap marked := by
    induction pieces generalizing out with
    | nil => simp
    | cons p pieces ih =>
        rw [List.foldl_cons, ih, List.flatMap_cons, ← List.append_assoc]
        congr 1
        cases hmatch : p.isMatch <;> simp [marked, hmatch]
  rw [highlight, hfold, String.toList_empty, List.nil_append]

/-- Of the words of a query that are the same without their case, one is looked for. Where such a word stands in
a line as a whole, it fits exactly if it starts and, unless it is open, ends with a plain character. Then some
line is found. If the characters around it are no parts of words in another case either, a piece is marked that
starts where the word does. This is the word, if it is plain or no other word of the query fits there. -/
theorem whole_word_found {query : String} {m : Matcher} (hquery : ofQuery? query = some m) :
    (∀ v ∈ QueryWord.ofQuery query, ∃ w ∈ m.words, lowerText w.text = lowerText v.text) ∧
    ∀ w ∈ m.words, ∀ (line : String) (front occ after : List Char), WholeWord w line.toList front occ after →
      ((isBorder front.getLast? (occ ++ after).head? = true ∧ (wordLength? w (occ ++ after)).isSome = true) ↔
        PlainEnds w occ) ∧
      ((∀ c ∈ occ, isWordChar c = true) → PlainEnds w occ) ∧
      (PlainEnds w occ → (∀ lines, line ∈ lines → m.bestLine lines ≠ 0) ∧
        ((∀ c ∈ front.getLast?, Apart c) → (∀ c ∈ after.head?, Apart c) →
          ∃ left n right, m.pieces line = left ++ ⟨true, occ.take n⟩ :: right ∧
            left.flatMap (·.text) = front ∧ right.flatMap (·.text) = occ.drop n ++ after ∧
            (m.highlight line).toList =
              left.flatMap marked ++ "**".toList ++ occ.take n ++ "**".toList ++ right.flatMap marked ∧
            0 < n ∧ n ≤ occ.length ∧
            ((∀ c ∈ occ, isWordChar c = true) ∨
              (∀ v ∈ m.words, v ≠ w → wordLength? v (occ ++ after) = none) → n = occ.length))) := by
  have hm := lawful_of_ofQuery? hquery
  have hparts := ofParts_of_ofQuery? hquery
  have honce : ∀ v ∈ QueryWord.ofQuery query, ∃ w ∈ m.words, lowerText w.text = lowerText v.text := by
    intro v hv
    have hkey : lowerText v.text ∈ m.words.map fun w => lowerText w.text := by
      rw [(words_of_ofQuery? hquery).2, QueryWord.map_lowerText_distinct, List.mem_eraseDups]
      exact List.mem_map_of_mem hv
    exact List.mem_map.mp hkey
  refine ⟨honce, fun w hw line front occ after h => ?_⟩
  have hlength := hm.length_pos hw
  refine ⟨h.fits_iff hlength, h.plainEnds hlength, fun hends => ⟨fun lines hline => ?_, fun hfront hafter => ?_⟩⟩
  · rw [Ne, bestLine_eq_zero_iff]
    intro hzero
    have hscore := (score_pos_iff hm).mpr ⟨w, hw, h.occursIn hlength hends⟩
    exact Nat.ne_of_gt hscore (hzero line hline)
  · obtain ⟨left, n, right, hpieces, hleft, hright, hpos, hle, v, hv, hfits⟩ :=
      h.cut hm hparts hw hends hfront hafter (cuts_pieces m line)
    refine ⟨left, n, right, hpieces, hleft, hright, ?_, hpos, hle, ?_⟩
    · rw [toList_highlight, hpieces]
      simp [marked]
    · rintro (hplain | halone)
      · exact wordLength?_plain hplain h.behind hfits hpos hle
      · obtain rfl : v = w := by
          by_contra hne
          rw [halone v hv hne] at hfits
          cases hfits
        rw [h.wordLength?_eq, Option.ite_none_right_eq_some] at hfits
        exact (Option.some.inj hfits.2).symm

/-- Neither end of this word can be seen, so it is missed. -/
theorem accented_word_missed : ∃ m, ofQuery? "été" = some m ∧ ⟨"été", false⟩ ∈ m.words ∧
    WholeWord ⟨"été", false⟩ "été".toList [] "été".toList [] ∧ m.bestLine ["été"] = 0 ∧
    m.highlight "été" = "été" := by
  have hquery : ofQuery? "été" = some ⟨[⟨"été", false⟩]⟩ := by
    unfold ofQuery? keepPart QueryWord.runs QueryWord.isPart isLetter isDecimalDigit
    simp only [Category.ofChar_eq]
    decide +kernel
  have hpieces : (Matcher.mk [⟨"été", false⟩]).pieces "été" = [⟨false, ['é']⟩, ⟨false, ['t']⟩, ⟨false, ['é']⟩] := by
    decide +kernel
  refine ⟨_, hquery, List.mem_singleton_self _, ⟨rfl, rfl, by simp, by simp⟩, ?_, ?_⟩
  · rw [bestLine_eq_zero_iff]
    intro line hline
    rw [List.mem_singleton.mp hline, score, hpieces]
    rfl
  · rw [← String.toList_inj, toList_highlight, hpieces]
    rfl

/-- A word in capitals between signs, some of them beyond the plain characters. -/
theorem shop_found : ∃ m, ofQuery? "shop* open" = some m ∧
    WholeWord ⟨"shop", true⟩ "«(Shop)»".toList "«(".toList "Shop".toList ")»".toList ∧
    PlainEnds ⟨"shop", true⟩ "Shop".toList ∧ m.bestLine ["", "«(Shop)»"] ≠ 0 ∧
    ∃ left right : List Piece, left.flatMap (·.text) = "«(".toList ∧ right.flatMap (·.text) = ")»".toList ∧
      (m.highlight "«(Shop)»").toList = left.flatMap marked ++ "**Shop**".toList ++ right.flatMap marked := by
  have hquery : ofQuery? "shop* open" = some ⟨[⟨"shop", true⟩, ⟨"open", false⟩]⟩ := by decide +kernel
  have hopening : ∀ c ∈ "«(".toList.getLast?, isPart c = false ∧ Apart c := by
    intro c hc
    obtain rfl : '(' = c := by simpa using hc
    have hnot : isPart '(' = false := by decide +kernel
    exact ⟨hnot, apart_of_isAscii rfl hnot⟩
  have hclosing : ∀ c ∈ ")»".toList.head?, isPart c = false ∧ Apart c := by
    intro c hc
    obtain rfl : ')' = c := by simpa using hc
    have hnot : isPart ')' = false := by decide +kernel
    exact ⟨hnot, apart_of_isAscii rfl hnot⟩
  have hwhole : WholeWord ⟨"shop", true⟩ "«(Shop)»".toList "«(".toList "Shop".toList ")»".toList :=
    ⟨rfl, by decide +kernel, fun c hc => (hopening c hc).1, fun c hc => (hclosing c hc).1⟩
  have hall : "Shop".toList.all isWordChar = true := by decide +kernel
  have hplain : ∀ c ∈ "Shop".toList, isWordChar c = true := List.all_eq_true.mp hall
  obtain ⟨-, hends, hfound⟩ := (whole_word_found hquery).2 _ List.mem_cons_self _ _ _ _ hwhole
  obtain ⟨hbest, hshown⟩ := hfound (hends hplain)
  obtain ⟨left, n, right, -, hleft, hright, hhighlight, -, -, hlength⟩ :=
    hshown (fun c hc => (hopening c hc).2) fun c hc => (hclosing c hc).2
  obtain rfl := hlength (.inl hplain)
  exact ⟨_, hquery, hwhole, hends hplain, hbest _ (by simp), left, right, hleft, by simpa using hright,
    by simpa using hhighlight⟩

end Matcher

end CodeAtlas
