import CodeAtlas.Proofs.List.Basic
import CodeAtlas.Proofs.Snippet.Matches
import Mathlib.Combinatorics.Enumerative.DoubleCounting
import Mathlib.Data.Finset.Card

/-!
# The best line

A line is judged by how many different texts match in it, and no further line is looked at once there are as
many as the query has words. Since an open word may match with different texts, and other words with the same,
this is not how many words of the query are found in the line. It is so for plain words in ordinary lines where
the words of the query and the words of the line can be told from each other, in particular if no word of the
query is open. Then the best line is the first one in which the most words of the query are found.
-/

namespace CodeAtlas

/-- Of all lines, the one of this number has the largest measure, and it is the first one that has it. -/
def FirstLargest (measure : String → Nat) (lines : List String) (number : Nat) : Prop :=
  ∃ earlier line later, lines = earlier ++ line :: later ∧ number = earlier.length + 1 ∧
    (∀ other ∈ earlier, measure other < measure line) ∧ ∀ other ∈ later, measure other ≤ measure line

theorem FirstLargest.congr {f g : String → Nat} {lines : List String} {number : Nat}
    (hfg : ∀ line ∈ lines, f line = g line) (h : FirstLargest f lines number) :
    FirstLargest g lines number := by
  obtain ⟨earlier, line, later, rfl, hnumber, hearlier, hlater⟩ := h
  have hline : f line = g line := hfg line (by simp)
  refine ⟨earlier, line, later, rfl, hnumber, fun other hother => ?_, fun other hother => ?_⟩
  · rw [← hfg other (by simp [hother]), ← hline]
    exact hearlier other hother
  · rw [← hfg other (by simp [hother]), ← hline]
    exact hlater other hother

namespace Matcher

/-- The words of a line, without their case. -/
def lineWords (line : String) : List (List Char) := (wordRuns line.toList).map fun run => run.map toLower

/-- The words of the query that occur in a line. -/
def found (m : Matcher) (line : String) : List QueryWord := m.words.filter (occursIn · line)

/-- No word of the query stands for two words of a line, and no word of the line is one that two words of the
query stand for. -/
@[mk_iff]
structure OneToOne (m : Matcher) (line : String) : Prop where
  right : ∀ w ∈ m.words, ∀ v ∈ lineWords line, ∀ v' ∈ lineWords line,
    w.standsFor v = true → w.standsFor v' = true → v = v'
  left : ∀ v ∈ lineWords line, ∀ w ∈ m.words, ∀ w' ∈ m.words,
    w.standsFor v = true → w'.standsFor v = true → w = w'

instance (m : Matcher) (line : String) : Decidable (m.OneToOne line) := decidable_of_iff' _ (oneToOne_iff m line)

/-- A line that has as many matching texts as the query has words, and the first one to have so many. -/
structure StopsAt (m : Matcher) (lines earlier : List String) (line : String) (later : List String) : Prop where
  split : lines = earlier ++ line :: later
  below : ∀ other ∈ earlier, m.score other < m.words.length
  reached : m.score line = m.words.length

variable {m : Matcher} {w : QueryWord} {line : String} {lines : List String} {number best top : Nat}

/-! ## Going through the lines -/

theorem bestFrom_cons (line : String) (lines : List String) : m.bestFrom number best top (line :: lines) =
    if top < m.score line then
      if m.score line = m.words.length then number else m.bestFrom (number + 1) number (m.score line) lines
    else m.bestFrom (number + 1) best top lines := by
  simp only [bestFrom, beq_iff_eq, gt_iff_lt]

theorem bestFrom_of_le (hlines : ∀ line ∈ lines, m.score line ≤ top) :
    m.bestFrom number best top lines = best := by
  induction lines generalizing number with
  | nil => rfl
  | cons line lines ih =>
      rw [bestFrom_cons, if_neg (Nat.not_lt.mpr (hlines line List.mem_cons_self))]
      exact ih fun other hother => hlines other (List.mem_cons_of_mem line hother)

theorem le_bestFrom (hlines : ∃ line ∈ lines, top < m.score line) :
    number ≤ m.bestFrom number best top lines := by
  induction lines generalizing number best top with
  | nil => simp at hlines
  | cons line lines ih =>
      rw [bestFrom_cons]
      split
      · split
        · exact le_rfl
        · by_cases hmore : ∃ other ∈ lines, m.score line < m.score other
          · exact (Nat.le_succ number).trans (ih hmore)
          · push Not at hmore
            exact (bestFrom_of_le hmore).ge
      · next hnot =>
          have hlater : ∃ other ∈ lines, top < m.score other := by
            obtain ⟨other, hother, hlarge⟩ := hlines
            rcases List.mem_cons.mp hother with rfl | hlater
            · exact absurd hlarge hnot
            · exact ⟨other, hlater, hlarge⟩
          exact (Nat.le_succ number).trans (ih hlater)

theorem bestLine_eq_zero_iff : m.bestLine lines = 0 ↔ ∀ line ∈ lines, m.score line = 0 := by
  constructor
  · intro hzero
    by_contra hsome
    push Not at hsome
    obtain ⟨line, hline, hscore⟩ := hsome
    have hone : 1 ≤ m.bestLine lines := le_bestFrom ⟨line, hline, Nat.pos_of_ne_zero hscore⟩
    omega
  · exact fun hlines => bestFrom_of_le fun line hline => (hlines line hline).le

theorem StopsAt.cons {earlier later : List String} {first : String} (h : m.StopsAt lines earlier line later)
    (hfirst : m.score first < m.words.length) : m.StopsAt (first :: lines) (first :: earlier) line later := by
  refine ⟨by rw [h.split, List.cons_append], fun other hother => ?_, h.reached⟩
  rcases List.mem_cons.mp hother with rfl | hearlier
  · exact hfirst
  · exact h.below other hearlier

theorem StopsAt.bestFrom_eq {earlier later : List String} (h : m.StopsAt lines earlier line later)
    (htop : top < m.words.length) : m.bestFrom number best top lines = number + earlier.length := by
  obtain ⟨rfl, hbelow, hreached⟩ := h
  induction earlier generalizing number best top with
  | nil =>
      rw [List.nil_append, bestFrom_cons, if_pos (hreached ▸ htop), if_pos hreached]
      rfl
  | cons first earlier ih =>
      have hfirst := hbelow first List.mem_cons_self
      have hrest := fun other hother => hbelow other (List.mem_cons_of_mem first hother)
      have hlength : number + (first :: earlier).length = number + 1 + earlier.length := by
        rw [List.length_cons]
        omega
      rw [List.cons_append, bestFrom_cons, if_neg hfirst.ne, hlength]
      split
      · exact ih hfirst hrest
      · exact ih htop hrest

/-- As long as it does not stop, the search keeps the first line with the highest score so far. -/
theorem bestFrom_firstLargest (number best : Nat)
    (hstops : ∀ earlier line later, m.StopsAt lines earlier line later → ¬top < m.words.length)
    (hsome : ∃ line ∈ lines, top < m.score line) :
    ∃ earlier line later, lines = earlier ++ line :: later ∧
      m.bestFrom number best top lines = number + earlier.length ∧ top < m.score line ∧
      (∀ other ∈ earlier, m.score other < m.score line) ∧ ∀ other ∈ later, m.score other ≤ m.score line := by
  induction lines generalizing number best top with
  | nil => simp at hsome
  | cons first lines ih =>
      rw [bestFrom_cons]
      by_cases hlarger : top < m.score first
      · have hgoes : m.score first ≠ m.words.length := fun hreached =>
          hstops [] first lines ⟨rfl, fun _ hnone => absurd hnone List.not_mem_nil, hreached⟩
            (hreached ▸ hlarger)
        rw [if_pos hlarger, if_neg hgoes]
        by_cases hmore : ∃ other ∈ lines, m.score first < m.score other
        · have hlater : ∀ earlier line later, m.StopsAt lines earlier line later →
              ¬m.score first < m.words.length := fun earlier line later hstop hfirst =>
            hstops _ _ _ (hstop.cons hfirst) (hlarger.trans hfirst)
          obtain ⟨earlier, line, later, rfl, hbest, hscore, hearlier, hrest⟩ := ih _ _ hlater hmore
          refine ⟨first :: earlier, line, later, rfl, ?_, hlarger.trans hscore, ?_, hrest⟩
          · rw [hbest, List.length_cons]
            omega
          · exact List.forall_mem_cons.mpr ⟨hscore, hearlier⟩
        · push Not at hmore
          exact ⟨[], first, lines, rfl, bestFrom_of_le hmore, hlarger, by simp, hmore⟩
      · rw [if_neg hlarger]
        have hlater : ∀ earlier line later, m.StopsAt lines earlier line later → ¬top < m.words.length :=
          fun earlier line later hstop htop =>
            hstops _ _ _ (hstop.cons ((Nat.le_of_not_lt hlarger).trans_lt htop)) htop
        have hmore : ∃ line ∈ lines, top < m.score line := by
          obtain ⟨line, hline, hscore⟩ := hsome
          rcases List.mem_cons.mp hline with rfl | hrest
          · exact absurd hscore hlarger
          · exact ⟨line, hrest, hscore⟩
        obtain ⟨earlier, line, later, rfl, hbest, hscore, hearlier, hrest⟩ := ih _ _ hlater hmore
        refine ⟨first :: earlier, line, later, rfl, ?_, hscore, ?_, hrest⟩
        · rw [hbest, List.length_cons]
          omega
        · exact List.forall_mem_cons.mpr ⟨(Nat.le_of_not_lt hlarger).trans_lt hscore, hearlier⟩

/-! ## What the score counts -/

theorem score_eq (m : Matcher) (line : String) :
    m.score line = ((matched (m.pieces line)).map fun text => text.map toLower).eraseDups.length := by
  rw [matched, List.map_map]
  rfl

theorem length_eraseDups {α : Type} [BEq α] [LawfulBEq α] [DecidableEq α] (l : List α) :
    l.eraseDups.length = l.toFinset.card := by
  rw [← List.toFinset_card_of_nodup (nodup_eraseDups l)]
  congr 1
  ext x
  simp

theorem score_pos_iff (hm : m.Lawful) : 0 < m.score line ↔ ∃ w ∈ m.words, occursIn w line = true := by
  rw [← matched_pieces_ne_nil_iff hm, score_eq, length_eraseDups, Finset.card_pos,
    List.toFinset_nonempty_iff, Ne, List.map_eq_nil_iff]

theorem score_plain (hplain : m.Plain) (hm : m.Lawful) (hline : Ordinary line.toList) :
    m.score line = ((lineWords line).filter m.takes).eraseDups.length := by
  have hmatched := (cuts_pieces m line).matched_eq hplain hm hline (.inl rfl)
  rw [score_eq, hmatched, lineWords, List.filter_map]
  rfl

theorem occursIn_plain (hm : m.Lawful) (hplain : m.Plain) (hw : w ∈ m.words) (hline : Ordinary line.toList) :
    occursIn w line = true ↔ ∃ v ∈ lineWords line, w.standsFor v = true := by
  -- a matcher of this word alone
  let alone : Matcher := ⟨[w]⟩
  have halone : alone.Lawful := ⟨by simp [alone], by simpa [alone] using hm.nonempty w hw, by simp [alone]⟩
  have hscore : 0 < alone.score line ↔ occursIn w line = true := by simp [score_pos_iff halone, alone]
  have hletters : alone.Plain := by simpa [alone, Plain] using hplain w hw
  rw [← hscore, score_plain hletters halone hline, length_eraseDups, Finset.card_pos,
    List.toFinset_nonempty_iff, Ne, List.filter_eq_nil_iff]
  simp [takes, alone]

theorem found_plain (hm : m.Lawful) (hplain : m.Plain) (hline : Ordinary line.toList) :
    m.found line = m.words.filter fun w => (lineWords line).any w.standsFor := by
  apply List.filter_congr
  intro w hw
  rw [Bool.eq_iff_iff, occursIn_plain hm hplain hw hline, List.any_eq_true]

theorem mem_found_plain (hm : m.Lawful) (hplain : m.Plain) (hline : Ordinary line.toList) :
    w ∈ m.found line ↔ w ∈ m.words ∧ ∃ v ∈ lineWords line, w.standsFor v = true := by
  rw [found_plain hm hplain hline, List.mem_filter, List.any_eq_true]

theorem length_found (hm : m.Lawful) : (m.found line).length = (m.found line).toFinset.card := by
  have hnodup : (m.found line).Nodup := hm.distinct.of_map.filter _
  exact (List.toFinset_card_of_nodup hnodup).symm

theorem score_eq_length_found (hm : m.Lawful) (hplain : m.Plain) (hline : Ordinary line.toList)
    (hone : m.OneToOne line) : m.score line = (m.found line).length := by
  rw [score_plain hplain hm hline, length_eraseDups, length_found hm]
  have hword (w : QueryWord) : w ∈ (m.found line).toFinset ↔
      w ∈ m.words ∧ ∃ v ∈ lineWords line, w.standsFor v = true := by
    rw [List.mem_toFinset, mem_found_plain hm hplain hline]
  have hlineWord (v : List Char) : v ∈ ((lineWords line).filter m.takes).toFinset ↔
      v ∈ lineWords line ∧ ∃ w ∈ m.words, w.standsFor v = true := by
    rw [List.mem_toFinset, List.mem_filter, takes, List.any_eq_true]
  apply le_antisymm
  · refine Finset.card_le_card_of_forall_subsingleton (fun v w => w.standsFor v = true) ?_ ?_
    · intro v hv
      obtain ⟨hmem, w, hw, hstands⟩ := (hlineWord v).mp hv
      exact ⟨w, (hword w).mpr ⟨hw, v, hmem, hstands⟩, hstands⟩
    · rintro w hw v ⟨hv, hstands⟩ v' ⟨hv', hstands'⟩
      exact hone.right w ((hword w).mp hw).1 v ((hlineWord v).mp hv).1 v' ((hlineWord v').mp hv').1 hstands
        hstands'
  · refine Finset.card_le_card_of_forall_subsingleton (fun w v => w.standsFor v = true) ?_ ?_
    · intro w hw
      obtain ⟨hmem, v, hv, hstands⟩ := (hword w).mp hw
      exact ⟨v, (hlineWord v).mpr ⟨hv, w, hmem, hstands⟩, hstands⟩
    · rintro v hv w ⟨hw, hstands⟩ w' ⟨hw', hstands'⟩
      exact hone.left v ((hlineWord v).mp hv).1 w ((hword w).mp hw).1 w' ((hword w').mp hw').1 hstands
        hstands'

theorem oneToOne_of_closed (hm : m.Lawful) (hclosed : ∀ w ∈ m.words, w.isOpen = false) (line : String) :
    m.OneToOne line := by
  have hstands (w : QueryWord) (hw : w ∈ m.words) (v : List Char) : w.standsFor v = true ↔ w.letters = v := by
    simp [QueryWord.standsFor, hclosed w hw]
  constructor
  · intro w hw v _ v' _ hv hv'
    rw [← (hstands w hw v).mp hv, (hstands w hw v').mp hv']
  · intro v _ w hw w' hw' hv hv'
    apply List.inj_on_of_nodup_map hm.distinct hw hw'
    rw [QueryWord.lowerText_eq_iff, (hstands w hw v).mp hv, (hstands w' hw' v).mp hv']

theorem StopsAt.firstLargest {earlier later : List String} (h : m.StopsAt lines earlier line later)
    (hlines : ∀ line ∈ lines, m.score line ≤ m.words.length) :
    FirstLargest m.score lines (earlier.length + 1) := by
  refine ⟨earlier, line, later, h.split, rfl, fun other hother => ?_, fun other hother => ?_⟩
  · rw [h.reached]
    exact h.below other hother
  · rw [h.reached]
    exact hlines other (by simp [h.split, hother])

/-- The number of the best line is zero exactly if no word of the query occurs in any line. Otherwise the line
is the first one with the most matching texts, unless the search stops before. For plain words and ordinary
lines these texts are the words of the line that some word of the query stands for. If the two correspond to
each other in all lines, the best line is the first one in which the most words of the query are found. -/
theorem bestLine_counts_texts {query : String} {m : Matcher} (hquery : ofQuery? query = some m)
    (lines : List String) :
    (m.bestLine lines = 0 ↔ ∀ line ∈ lines, m.found line = []) ∧
    (∀ earlier line later, m.StopsAt lines earlier line later → m.bestLine lines = earlier.length + 1) ∧
    ((∀ earlier line later, ¬m.StopsAt lines earlier line later) → m.bestLine lines ≠ 0 →
      FirstLargest m.score lines (m.bestLine lines)) ∧
    (m.Plain → (∀ line ∈ lines, Ordinary line.toList) →
      (∀ line ∈ lines, m.score line = ((lineWords line).filter m.takes).eraseDups.length ∧
        m.found line = m.words.filter fun w => (lineWords line).any w.standsFor) ∧
      ((∀ w ∈ m.words, w.isOpen = false) ∨ (∀ line ∈ lines, m.OneToOne line) → m.bestLine lines ≠ 0 →
        FirstLargest (fun line => (m.found line).length) lines (m.bestLine lines))) := by
  have hm := lawful_of_ofQuery? hquery
  have hzero : m.bestLine lines = 0 ↔ ∀ line ∈ lines, m.found line = [] := by
    rw [bestLine_eq_zero_iff]
    refine forall₂_congr fun line _ => ?_
    rw [← Nat.le_zero, ← Nat.not_lt, score_pos_iff hm, found, List.filter_eq_nil_iff]
    push Not
    rfl
  have hstop : ∀ earlier line later, m.StopsAt lines earlier line later →
      m.bestLine lines = earlier.length + 1 := by
    intro earlier line later h
    rw [bestLine, h.bestFrom_eq (List.length_pos_iff.mpr hm.words_ne_nil), Nat.add_comm]
  have hlargest : (∀ earlier line later, ¬m.StopsAt lines earlier line later) → m.bestLine lines ≠ 0 →
      FirstLargest m.score lines (m.bestLine lines) := by
    intro hnever hsome
    rw [Ne, bestLine_eq_zero_iff] at hsome
    push Not at hsome
    obtain ⟨best, hbest, hscore⟩ := hsome
    obtain ⟨earlier, line, later, hsplit, hnumber, -, hearlier, hlater⟩ :=
      bestFrom_firstLargest 1 0 (fun _ _ _ h => absurd h (hnever _ _ _))
        ⟨best, hbest, Nat.pos_of_ne_zero hscore⟩
    exact ⟨earlier, line, later, hsplit, by rw [bestLine, hnumber, Nat.add_comm], hearlier, hlater⟩
  refine ⟨hzero, hstop, hlargest, fun hplain hordinary => ⟨fun line hline => ?_, fun hmeet hsome => ?_⟩⟩
  · exact ⟨score_plain hplain hm (hordinary line hline), found_plain hm hplain (hordinary line hline)⟩
  · have hone : ∀ line ∈ lines, m.OneToOne line :=
      hmeet.elim (fun hclosed line _ => oneToOne_of_closed hm hclosed line) id
    have hsame : ∀ line ∈ lines, m.score line = (m.found line).length := fun line hline =>
      score_eq_length_found hm hplain (hordinary line hline) (hone line hline)
    refine FirstLargest.congr hsame ?_
    by_cases hstops : ∃ earlier line later, m.StopsAt lines earlier line later
    · obtain ⟨earlier, line, later, h⟩ := hstops
      rw [hstop earlier line later h]
      refine h.firstLargest fun line hline => ?_
      rw [hsame line hline]
      exact List.length_filter_le _ _
    · push Not at hstops
      exact hlargest hstops hsome

/-- One open word matches with two texts in the first line. That is as many as the query has words, and the
second line, in which both words are found, is not looked at. -/
theorem two_texts_of_one_word : ∃ m, ofQuery? "a* b" = some m ∧ m.bestLine ["ab ac", "ab b"] = 1 ∧
    FirstLargest (fun line => (m.found line).length) ["ab ac", "ab b"] 2 ∧
    ¬FirstLargest (fun line => (m.found line).length) ["ab ac", "ab b"] (m.bestLine ["ab ac", "ab b"]) := by
  have hquery : ofQuery? "a* b" = some ⟨[⟨"a", true⟩, ⟨"b", false⟩]⟩ := by decide +kernel
  have hbest : (Matcher.mk [⟨"a", true⟩, ⟨"b", false⟩]).bestLine ["ab ac", "ab b"] = 1 := by decide +kernel
  have hfirst : ((Matcher.mk [⟨"a", true⟩, ⟨"b", false⟩]).found "ab ac").length = 1 := by decide +kernel
  have hsecond : ((Matcher.mk [⟨"a", true⟩, ⟨"b", false⟩]).found "ab b").length = 2 := by decide +kernel
  refine ⟨_, hquery, hbest, ⟨["ab ac"], "ab b", [], rfl, rfl, ?_, by simp⟩, ?_⟩
  · simp [hfirst, hsecond]
  · rw [hbest]
    rintro ⟨earlier, line, later, hsplit, hnumber, -, hlater⟩
    obtain rfl : earlier = [] := List.length_eq_zero_iff.mp (Nat.succ.inj hnumber).symm
    obtain ⟨rfl, rfl⟩ := List.cons.inj hsplit
    have hle := hlater "ab b" (by simp)
    simp only [hfirst, hsecond] at hle
    exact absurd hle (by decide)

def checkoutLines : List String := ["checked", "the Checkout of a cart", "cart"]

/-- The second of these lines is the first one in which both words are found. -/
theorem checkout_line_best : ∃ m, ofQuery? "check* cart" = some m ∧ m.Plain ∧
    (∀ line ∈ checkoutLines, Ordinary line.toList) ∧ (∀ line ∈ checkoutLines, m.OneToOne line) ∧
    m.bestLine checkoutLines = 2 ∧ m.StopsAt checkoutLines ["checked"] "the Checkout of a cart" ["cart"] ∧
    FirstLargest (fun line => (m.found line).length) checkoutLines (m.bestLine checkoutLines) := by
  have hquery : ofQuery? "check* cart" = some ⟨[⟨"check", true⟩, ⟨"cart", false⟩]⟩ := by decide +kernel
  have hplain : (Matcher.mk [⟨"check", true⟩, ⟨"cart", false⟩]).Plain := by decide +kernel
  have hordinary : ∀ line ∈ checkoutLines, Ordinary line.toList := by decide +kernel
  have hone : ∀ line ∈ checkoutLines, (Matcher.mk [⟨"check", true⟩, ⟨"cart", false⟩]).OneToOne line := by
    decide +kernel
  have hstops : (Matcher.mk [⟨"check", true⟩, ⟨"cart", false⟩]).StopsAt checkoutLines ["checked"]
      "the Checkout of a cart" ["cart"] := ⟨rfl, by decide +kernel, by decide +kernel⟩
  obtain ⟨-, hstop, -, hcounts⟩ := bestLine_counts_texts hquery checkoutLines
  have hbest := hstop _ _ _ hstops
  exact ⟨_, hquery, hplain, hordinary, hone, hbest, hstops,
    (hcounts hplain hordinary).2 (.inr hone) (by rw [hbest]; decide)⟩

end Matcher

end CodeAtlas
