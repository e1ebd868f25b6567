import CodeAtlas.Proofs.Snippet.WholeWords
import CodeAtlas.Proofs.Text.Lines
import Mathlib.Algebra.Order.Group.Abs

/-!
# The lines of an excerpt

An excerpt shows the best line of a text between its neighbours, or the beginning of the text if no line matches,
and each line shown has a row of its own. This holds as long as the number of the last line that is asked for is
a signed 64-bit number. Beyond that it turns negative, and nothing is shown.
-/

namespace CodeAtlas

variable {m : Matcher} {text line : String} {all : List String} {context : Int}

namespace Matcher

/-- Marking adds stars only. -/
theorem newline_not_mem_highlight (hline : '\n' ∉ line.toList) : '\n' ∉ (m.highlight line).toList := by
  rw [toList_highlight, List.mem_flatMap]
  rintro ⟨p, hp, hmem⟩
  have hpiece : '\n' ∉ p.text := by
    rw [← (cuts_pieces m line).texts] at hline
    exact fun hin => hline (List.mem_flatMap.mpr ⟨p, hp, hin⟩)
  unfold marked at hmem
  split at hmem <;> simp [hpiece] at hmem

/-- The best line is the best one so far or one of the lines that are left. -/
theorem bestFrom_cases (m : Matcher) (number best top : Nat) (lines : List String) :
    m.bestFrom number best top lines = best ∨
      number ≤ m.bestFrom number best top lines ∧ m.bestFrom number best top lines < number + lines.length := by
  induction lines generalizing number best top with
  | nil => exact .inl rfl
  | cons line lines ih =>
      have hleft := ih (number + 1) best top
      have hbetter := ih (number + 1) number (m.score line)
      rw [bestFrom_cons, List.length_cons]
      split
      · split <;> omega
      · omega

theorem bestLine_le (m : Matcher) (lines : List String) : m.bestLine lines ≤ lines.length := by
  have hcases := bestFrom_cases m 1 0 0 lines
  unfold bestLine
  omega

end Matcher

namespace Excerpt

/-! ## What is asked for -/

/-- How many lines are asked for on each side. -/
def reach (context : Int) : Int := if context < 0 then defaultContext else context

/-- The last line that is asked for. -/
def lastAsked (line context : Int) : Int := if line = 0 then 1 + 2 * reach context else line + reach context

/-- The row of a line: a mark if it is the matching one, its number, right-aligned to that of the last line, and
its text. -/
def IsRow (m : Matcher) (e : Excerpt) (number : Int) (line row : String) : Prop :=
  ∃ spaces, spaces + (toString number).length = (toString e.last).length ∧
    row = (if number = e.line then ">" else " ") ++ String.ofList (List.replicate spaces ' ') ++ toString number ++
      ": " ++ m.highlight (cutLine (trimLine line))

/-- The excerpt shows the lines of a text that are near the matching one, or else the first ones. -/
structure Shows (m : Matcher) (all : List String) (context : Int) (e : Excerpt) : Prop where
  one_le : 1 ≤ e.first
  first_le : e.first ≤ e.last
  last_le : e.last ≤ all.length
  first_eq : e.line = 0 → e.first = 1
  around : e.line ≠ 0 → e.first ≤ e.line ∧ e.line ≤ e.last
  few : e.last - e.first + 1 ≤ 2 * reach context + 1
  near : ∀ number, e.first ≤ number ∧ number ≤ e.last ↔ 1 ≤ number ∧ number ≤ all.length ∧
    if e.line = 0 then number ≤ 2 * reach context + 1 else |number - e.line| ≤ reach context
  length_rows : (splitText '\n' e.text).length = (e.last - e.first + 1).toNat
  rows : ∀ (i : Nat) (row : String), (splitText '\n' e.text)[i]? = some row →
    ∃ line, all[(e.first + i).toNat - 1]? = some line ∧ IsRow m e (e.first + i) line row

theorem reach_nonneg (context : Int) : 0 ≤ reach context := by
  unfold reach defaultContext
  split <;> omega

theorem reach_lt (hcontext : isSigned64 context = true) : reach context < signedLimit := by
  simp only [isSigned64, Bool.and_eq_true, decide_eq_true_eq] at hcontext
  unfold reach defaultContext signedLimit at *
  split <;> omega

theorem newline_not_mem_trimLine (hline : '\n' ∉ line.toList) : '\n' ∉ (trimLine line).toList := by
  unfold trimLine
  rw [String.toList_ofList, List.mem_reverse]
  intro hmem
  exact hline (List.mem_reverse.mp ((List.dropWhile_sublist _).subset hmem))

theorem newline_not_mem_cutLine (hline : '\n' ∉ line.toList) : '\n' ∉ (cutLine line).toList := by
  unfold cutLine
  split
  · exact hline
  · rw [String.toList_append, String.toList_ofList, List.mem_append]
    rintro (htaken | hdots)
    · exact hline (List.mem_of_mem_take htaken)
    · exact absurd hdots (by decide)

/-! ## The window -/

theorem ofText_eq (m : Matcher) (htext : text ≠ "") (context : Int) :
    ofText m text context =
      let all := lines text
      let line : Int := m.bestLine all
      let first := max ((if line = 0 then 1 else line) - reach context) 1
      let last := min (wrap64 (lastAsked line context)) all.length
      ⟨line, first, last, renderLines m line first last all⟩ := by
  have hsome : lines text ≠ [] := fun hnone => htext (lines_eq_nil_iff.mp hnone)
  have hreach : (if context < 0 then defaultContext else context) = reach context := rfl
  unfold ofText lastAsked
  simp only [hreach, beq_iff_eq]
  cases hall : lines text with
  | nil => exact absurd hall hsome
  | cons line rest => by_cases hzero : (m.bestLine (line :: rest) : Int) = 0 <;> simp only [hzero, if_true, if_false]

/-- What the rows of an excerpt show. -/
def shown (first last : Int) (all : List String) : List String :=
  (all.drop (first.toNat - 1)).take (last - first + 1).toNat

def rows (m : Matcher) (matching first last : Int) (all : List String) : List String :=
  (shown first last all).mapIdx fun i line => renderLine m (toString last).length matching (first + i) line

theorem newline_not_mem_renderLine {width : Nat} {matching number : Int} (hnumber : 0 ≤ number)
    (hline : '\n' ∉ line.toList) : '\n' ∉ (renderLine m width matching number line).toList := by
  have hshown := Matcher.newline_not_mem_highlight (m := m) (newline_not_mem_cutLine (newline_not_mem_trimLine hline))
  have hdigits : '\n' ∉ (toString number).toList := by
    intro hmem
    exact absurd (isDigit_of_mem_toString hnumber hmem) (by decide)
  unfold renderLine padLeft
  split <;> simp_all

/-- Every line that is shown has a row of its own. -/
theorem splitText_renderLines {first last : Int} (hfirst : 1 ≤ first) (hlast : first ≤ last)
    (hall : last ≤ all.length) (hfree : ∀ line ∈ all, '\n' ∉ line.toList) (matching : Int) :
    splitText '\n' (renderLines m matching first last all) = rows m matching first last all := by
  have hlength : (rows m matching first last all).length = (last - first + 1).toNat := by
    simp only [rows, shown, List.length_mapIdx, List.length_take, List.length_drop]
    omega
  have hsome : rows m matching first last all ≠ [] := by
    rw [← List.length_pos_iff, hlength]
    omega
  refine splitText_intercalate hsome fun row hrow => ?_
  obtain ⟨i, hi, rfl⟩ := List.mem_mapIdx.mp hrow
  refine newline_not_mem_renderLine (by omega) (hfree _ ?_)
  exact List.mem_of_mem_drop (List.mem_of_mem_take (List.getElem_mem hi))

theorem getElem?_rows {first last matching : Int} (hfirst : 1 ≤ first) {i : Nat} {row : String}
    (hrow : (rows m matching first last all)[i]? = some row) :
    first + i ≤ last ∧ ∃ line, all[(first + i).toNat - 1]? = some line ∧
      row = renderLine m (toString last).length matching (first + i) line := by
  rw [rows, List.getElem?_mapIdx, Option.map_eq_some_iff] at hrow
  obtain ⟨line, hline, rfl⟩ := hrow
  rw [shown, List.getElem?_take, Option.ite_none_right_eq_some, List.getElem?_drop] at hline
  refine ⟨by omega, line, ?_, rfl⟩
  rw [← hline.2]
  congr 1
  omega

theorem isRow_renderLine {e : Excerpt} {number : Int} (hnumber : 0 ≤ number) (hlast : number ≤ e.last) :
    IsRow m e number line (renderLine m (toString e.last).length e.line number line) := by
  have hlength := length_toString_le hnumber hlast
  refine ⟨(toString e.last).length - (toString number).length, by omega, ?_⟩
  simp only [renderLine, padLeft, beq_iff_eq, String.append_assoc]

/-- If the last line that is asked for has a number, the lines between the bounds are shown. -/
theorem shows_renderLines {best : Nat} {first last : Int} (hfree : ∀ line ∈ all, '\n' ∉ line.toList)
    (hsome : 0 < all.length) (hbest : best ≤ all.length)
    (hfirst : first = max ((if (best : Int) = 0 then 1 else (best : Int)) - reach context) 1)
    (hlast : last = min (lastAsked best context) all.length) :
    Shows m all context ⟨best, first, last, renderLines m best first last all⟩ := by
  have hreach := reach_nonneg context
  have hwindow : 1 ≤ first ∧ first ≤ last ∧ last ≤ all.length ∧ ((best : Int) = 0 → first = 1) ∧
      ((best : Int) ≠ 0 → first ≤ best ∧ best ≤ last) ∧ last - first + 1 ≤ 2 * reach context + 1 := by
    unfold lastAsked at hlast
    split at hfirst <;> simp only [*, if_true, if_false] at hlast <;> omega
  obtain ⟨hone, hle, hall, hhead, haround, hfew⟩ := hwindow
  have hsplit := splitText_renderLines (m := m) hone hle hall hfree best
  refine ⟨hone, hle, hall, hhead, haround, hfew, fun number => ?_, ?_, fun i row hrow => ?_⟩
  · dsimp only
    unfold lastAsked at hlast
    split
    · next hzero =>
      simp only [hzero, if_true] at hfirst hlast
      omega
    · next hzero =>
      simp only [hzero, if_false] at hfirst hlast
      rw [abs_le]
      omega
  · rw [hsplit, rows, shown, List.length_mapIdx, List.length_take, List.length_drop]
    dsimp only
    omega
  · rw [hsplit] at hrow
    obtain ⟨hwithin, line, hline, rfl⟩ := getElem?_rows hone hrow
    refine ⟨line, hline, isRow_renderLine ?_ hwithin⟩
    dsimp only
    omega

/-- If the last line that is asked for is a signed 64-bit number, the lines shown are the ones that are near the
best line, or the first ones, and each of them has its row. Otherwise nothing is shown. -/
theorem window_shown (m : Matcher) {text : String} (htext : text ≠ "") (context : Int) :
    let e := ofText m text context
    e.line = m.bestLine (lines text) ∧
      (lastAsked e.line context < signedLimit → Shows m (lines text) context e) ∧
      (isSigned64 context = true → (lines text).length < signedLimit → signedLimit ≤ lastAsked e.line context →
        e.last < 0 ∧ e.text = "") := by
  have hbest := m.bestLine_le (lines text)
  have hsome : 0 < (lines text).length := by
    rw [List.length_pos_iff, Ne, lines_eq_nil_iff]
    exact htext
  have hnonneg := reach_nonneg context
  intro e
  have hline : e.line = m.bestLine (lines text) := by
    simp only [e, ofText_eq m htext]
  refine ⟨hline, fun hasked => ?_, fun hcontext hlength hbeyond => ?_⟩
  · have hlast : wrap64 (lastAsked (m.bestLine (lines text)) context) = lastAsked (m.bestLine (lines text)) context := by
      refine wrap64_eq_self ?_ (hline ▸ hasked)
      unfold lastAsked
      split <;> omega
    simp only [e, ofText_eq m htext]
    exact shows_renderLines (fun line => newline_not_mem_of_mem_lines) hsome hbest rfl (by rw [hlast])
  · have hreach := reach_lt hcontext
    have hlast : wrap64 (lastAsked (m.bestLine (lines text)) context) < 0 := by
      refine wrap64_neg (hline ▸ hbeyond) ?_
      unfold signedLimit at *
      unfold lastAsked unsignedLimit
      split <;> omega
    have hnone (n : Int) (hn : 1 ≤ n) :
        (min (wrap64 (lastAsked (m.bestLine (lines text)) context)) (lines text).length - n + 1).toNat = 0 := by
      omega
    simp only [e, ofText_eq m htext, renderLines]
    refine ⟨by omega, ?_⟩
    rw [hnone _ (Int.le_max_right _ _)]
    rfl

/-- With the widest context, the last line has no number any more. -/
theorem widest_context_shows_nothing : ∃ m, Matcher.ofQuery? "shop" = some m ∧
    isSigned64 9223372036854775807 = true ∧
    ofText m "shop\n" 9223372036854775807 = ⟨1, 1, -9223372036854775808, ""⟩ ∧
    ¬Shows m (lines "shop\n") 9223372036854775807 (ofText m "shop\n" 9223372036854775807) := by
  have hquery : Matcher.ofQuery? "shop" = some ⟨[⟨"shop", false⟩]⟩ := by decide +kernel
  have hexcerpt : ofText ⟨[⟨"shop", false⟩]⟩ "shop\n" 9223372036854775807 = ⟨1, 1, -9223372036854775808, ""⟩ := by
    decide +kernel
  refine ⟨_, hquery, by decide, hexcerpt, fun hshows => ?_⟩
  rw [hexcerpt] at hshows
  exact absurd hshows.first_le (by decide)

def shopText : String := "open\nthe Shop \nclosed\n"

/-- The middle one of three lines, between its neighbours. -/
theorem shop_window : ∃ m, Matcher.ofQuery? "shop" = some m ∧ shopText ≠ "" ∧
    lastAsked (ofText m shopText 1).line 1 < signedLimit ∧
    ofText m shopText 1 = ⟨2, 1, 3, " 1: open\n>2: the **Shop**\n 3: closed"⟩ ∧
    Shows m (lines shopText) 1 (ofText m shopText 1) := by
  have hquery : Matcher.ofQuery? "shop" = some ⟨[⟨"shop", false⟩]⟩ := by decide +kernel
  have hexcerpt : ofText ⟨[⟨"shop", false⟩]⟩ shopText 1 = ⟨2, 1, 3, " 1: open\n>2: the **Shop**\n 3: closed"⟩ := by
    decide +kernel
  have htext : shopText ≠ "" := by decide
  have hasked : lastAsked (ofText ⟨[⟨"shop", false⟩]⟩ shopText 1).line 1 < signedLimit := by
    rw [hexcerpt]
    decide
  exact ⟨_, hquery, htext, hasked, hexcerpt, (window_shown _ htext 1).2.1 hasked⟩

end Excerpt

end CodeAtlas
