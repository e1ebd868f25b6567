import CodeAtlas.Proofs.List.Basic
import CodeAtlas.Proofs.Query.Words
import CodeAtlas.Snippet.Excerpt

/-!
# Where the words of a query match

A line is cut from the left into matches and single characters. If a word occurs anywhere in the line, at the
border of a word of plain letters, then something matches. If the words of the query are plain themselves,
what matches are whole words of the line.
-/

namespace CodeAtlas

namespace Matcher

/-- Whether a word of a query fits a line at some border. -/
def occursIn (w : QueryWord) (line : String) : Bool :=
  (List.range (line.toList.length + 1)).any fun i =>
    isBorder (line.toList.take i).getLast? (line.toList.drop i).head? &&
      (wordLength? w (line.toList.drop i)).isSome

/-- There are words, none of them is empty, and no two have the same letters up to case. -/
structure Lawful (m : Matcher) : Prop where
  words_ne_nil : m.words ≠ []
  nonempty : ∀ w ∈ m.words, w.text ≠ ""
  distinct : (m.words.map fun w => lowerText w.text).Nodup

/-- The pieces into which is cut what follows a character. -/
inductive Cuts (m : Matcher) : Option Char → List Char → List Piece → Prop where
  | done {before : Option Char} : Cuts m before [] []
  | found {before : Option Char} {c : Char} {tail : List Char} {n : Nat} {pieces : List Piece}
      (hfits : m.matchLength? before (c :: tail) = some (n + 1))
      (hrest : Cuts m (c :: tail.take n).getLast? (tail.drop n) pieces) :
      Cuts m before (c :: tail) (⟨true, c :: tail.take n⟩ :: pieces)
  | single {before : Option Char} {c : Char} {tail : List Char} {pieces : List Piece}
      (hnone : ∀ n, m.matchLength? before (c :: tail) ≠ some (n + 1))
      (hrest : Cuts m (some c) tail pieces) : Cuts m before (c :: tail) (⟨false, [c]⟩ :: pieces)

def matched (pieces : List Piece) : List (List Char) := (pieces.filter (·.isMatch)).map (·.text)

variable {m : Matcher} {w : QueryWord} {before : Option Char} {rest : List Char} {pieces : List Piece}

theorem lawful_of_ofQuery? {query : String} (hm : ofQuery? query = some m) : m.Lawful := by
  obtain ⟨hsome, hwords⟩ := words_of_ofQuery? hm
  refine ⟨hsome, fun w hw => ?_, hwords ▸ QueryWord.nodup_lowerText_distinct _⟩
  rw [hwords] at hw
  exact QueryWord.text_ne_of_mem_ofQuery (QueryWord.mem_of_mem_distinct _ w hw)

theorem occursIn_iff {line : String} : occursIn w line = true ↔
    ∃ front rest, line.toList = front ++ rest ∧ isBorder front.getLast? rest.head? = true ∧
      (wordLength? w rest).isSome = true := by
  simp only [occursIn, List.any_eq_true, Bool.and_eq_true, List.mem_range]
  constructor
  · rintro ⟨i, -, hborder, hfits⟩
    exact ⟨_, _, (List.take_append_drop i _).symm, hborder, hfits⟩
  · rintro ⟨front, rest, hline, hborder, hfits⟩
    refine ⟨front.length, ?_, ?_, ?_⟩
    · rw [hline, List.length_append]
      omega
    · rwa [hline, List.take_left, List.drop_left]
    · rwa [hline, List.drop_left]

/-! ## Cutting -/

theorem cuts_piecesAfter (m : Matcher) (done : Array Piece) (before : Option Char) (rest : List Char) :
    ∃ pieces, (m.piecesAfter done before rest).toList = done.toList ++ pieces ∧ m.Cuts before rest pieces := by
  fun_induction piecesAfter m done before rest with
  | case1 done before => exact ⟨[], (List.append_nil _).symm, .done⟩
  | case2 done before c tail n hfits ih =>
      obtain ⟨pieces, heq, hcuts⟩ := ih
      refine ⟨_ :: pieces, ?_, .found hfits hcuts⟩
      simp [hfits, heq]
  | case3 done before c tail hnone ih =>
      obtain ⟨pieces, heq, hcuts⟩ := ih
      exact ⟨_ :: pieces, by simp [heq], .single hnone hcuts⟩

theorem cuts_pieces (m : Matcher) (line : String) : m.Cuts none line.toList (m.pieces line) := by
  obtain ⟨pieces, heq, hcuts⟩ := cuts_piecesAfter m #[] none line.toList
  have hpieces : m.pieces line = pieces := heq
  rwa [hpieces]

theorem heads_iff : (w.text.toList.map caseKey == (rest.take w.text.toList.length).map caseKey) = true ↔
    w.text.toList.map caseKey <+: rest.map caseKey := by
  rw [beq_iff_eq, List.prefix_iff_eq_take, List.length_map, List.map_take]

theorem wordLength?_open (hopen : w.isOpen = true) : wordLength? w rest =
    if w.text.toList.map caseKey <+: rest.map caseKey then
      some (w.text.toList.length + ((rest.drop w.text.toList.length).takeWhile isFoldedWordChar).length)
    else none := by
  simp only [wordLength?, heads_iff, hopen, if_true]

theorem wordLength?_closed (hclosed : w.isOpen = false) : wordLength? w rest =
    if w.text.toList.map caseKey <+: rest.map caseKey ∧
      isBorder (rest.take w.text.toList.length).getLast? (rest.drop w.text.toList.length).head? = true then
        some w.text.toList.length
    else none := by
  simp only [wordLength?, heads_iff, hclosed, Bool.false_eq_true, if_false, ite_and]

theorem wordLength?_spec {n : Nat} (hfits : wordLength? w rest = some n) :
    w.text.toList.map caseKey <+: rest.map caseKey ∧ w.text.toList.length ≤ n := by
  cases hopen : w.isOpen with
  | true =>
      rw [wordLength?_open hopen, Option.ite_none_right_eq_some] at hfits
      obtain ⟨hheads, hlength⟩ := hfits
      exact ⟨hheads, by rw [← Option.some.inj hlength]; omega⟩
  | false =>
      rw [wordLength?_closed hopen, Option.ite_none_right_eq_some] at hfits
      obtain ⟨⟨hheads, -⟩, hlength⟩ := hfits
      exact ⟨hheads, Nat.le_of_eq (Option.some.inj hlength)⟩

theorem Lawful.length_pos (hm : m.Lawful) (hw : w ∈ m.words) : 0 < w.text.toList.length := by
  rw [List.length_pos_iff]
  exact fun hempty => hm.nonempty w hw (String.toList_eq_nil_iff.mp hempty)

theorem matchLength?_isSome_iff : (m.matchLength? before rest).isSome = true ↔
    isBorder before rest.head? = true ∧ ∃ w ∈ m.words, (wordLength? w rest).isSome = true := by
  unfold matchLength?
  split
  · simp_all [List.findSome?_isSome_iff]
  · simp_all

theorem matchLength?_spec {n : Nat} (hfits : m.matchLength? before rest = some n) :
    ∃ w ∈ m.words, wordLength? w rest = some n := by
  unfold matchLength? at hfits
  split at hfits
  · exact List.exists_of_findSome?_eq_some hfits
  · cases hfits

theorem Lawful.matchLength?_pos {n : Nat} (hm : m.Lawful) (hfits : m.matchLength? before rest = some n) :
    0 < n := by
  obtain ⟨w, hw, hlength⟩ := matchLength?_spec hfits
  exact Nat.lt_of_lt_of_le (hm.length_pos hw) (wordLength?_spec hlength).2

theorem Lawful.matchLength?_nil (hm : m.Lawful) : m.matchLength? before [] = none := by
  rw [Option.eq_none_iff_forall_ne_some]
  intro n hfits
  obtain ⟨w, hw, hlength⟩ := matchLength?_spec hfits
  have hempty : w.text.toList = [] := by simpa using (wordLength?_spec hlength).1
  exact Nat.ne_of_gt (hm.length_pos hw) (by rw [hempty, List.length_nil])

theorem getLast?_cons_or {c : Char} {front : List Char} :
    (c :: front).getLast?.or before = front.getLast?.or (some c) := by
  rw [List.getLast?_cons]
  cases front.getLast? <;> rfl

/-- If nothing matches, every character has been tried. -/
theorem Cuts.matched_ne_nil_iff (h : m.Cuts before rest pieces) (hm : m.Lawful) : matched pieces ≠ [] ↔
    ∃ front last, rest = front ++ last ∧ (m.matchLength? (front.getLast?.or before) last).isSome = true := by
  induction h with
  | done =>
      refine iff_of_false (fun hsome => hsome rfl) ?_
      rintro ⟨front, last, hsplit, hfits⟩
      obtain ⟨rfl, rfl⟩ := List.append_eq_nil_iff.mp hsplit.symm
      simp [hm.matchLength?_nil] at hfits
  | @found before c tail n pieces hfits hrest ih =>
      refine iff_of_true (by simp [matched]) ⟨[], c :: tail, rfl, ?_⟩
      simp [hfits]
  | @single before c tail pieces hnone hrest ih =>
      have hsame : matched (⟨false, [c]⟩ :: pieces) = matched pieces := rfl
      rw [hsame, ih]
      constructor
      · rintro ⟨front, last, rfl, hfits⟩
        exact ⟨c :: front, last, rfl, by rwa [getLast?_cons_or]⟩
      · rintro ⟨front, last, hsplit, hfits⟩
        cases front with
        | nil =>
            obtain rfl : c :: tail = last := hsplit
            obtain ⟨n, hlength⟩ := Option.isSome_iff_exists.mp hfits
            obtain ⟨k, rfl⟩ := Nat.exists_eq_add_one.mpr (hm.matchLength?_pos hlength)
            exact absurd hlength (hnone k)
        | cons first front =>
            obtain ⟨rfl, rfl⟩ := List.cons.inj hsplit
            exact ⟨front, last, rfl, by rwa [getLast?_cons_or] at hfits⟩

/-- Something matches in a line exactly if one of the words occurs in it. -/
theorem matched_pieces_ne_nil_iff (hm : m.Lawful) (line : String) :
    matched (m.pieces line) ≠ [] ↔ ∃ w ∈ m.words, occursIn w line = true := by
  simp only [(cuts_pieces m line).matched_ne_nil_iff hm, matchLength?_isSome_iff, occursIn_iff, Option.or_none]
  constructor
  · rintro ⟨front, last, hline, hborder, w, hw, hfits⟩
    exact ⟨w, hw, front, last, hline, hborder, hfits⟩
  · rintro ⟨w, hw, front, last, hline, hborder, hfits⟩
    exact ⟨front, last, hline, hborder, w, hw, hfits⟩

end Matcher

/-!
## Matches of plain words

The words of a line are its longest runs of plain letters, digits and underscores. If a query is made of such
words, too, what matches in a line are its words, each of them as a whole: those that start with an open word
of the query or are the same as a closed one, up to case. The two characters beyond the plain ones which differ
from one of them by case alone spoil this, as they match and are at no border.
-/

/-- Whether a word of a query stands for a word, the latter without its case. -/
def QueryWord.standsFor (w : QueryWord) (v : List Char) : Bool :=
  if w.isOpen then w.letters.isPrefixOf v else w.letters == v

namespace Matcher

/-- The runs of plain word characters. -/
def wordRuns (text : List Char) : List (List Char) :=
  (splitOn (fun c => !isWordChar c) text).filter (!·.isEmpty)

/-- No other characters differ by case alone from plain word characters. -/
def Ordinary (text : List Char) : Prop := ∀ c ∈ text, isFoldedWordChar c = true → isWordChar c = true

instance (text : List Char) : Decidable (Ordinary text) :=
  decidable_of_iff (text.all fun c => !isFoldedWordChar c || isWordChar c) (by simp [Ordinary, imp_iff_not_or])

/-- All words of the query are made of plain word characters. -/
def Plain (m : Matcher) : Prop := ∀ w ∈ m.words, ∀ c ∈ w.text.toList, isWordChar c = true

instance (m : Matcher) : Decidable m.Plain :=
  decidable_of_iff (m.words.all fun w => w.text.toList.all isWordChar) (by simp [Plain])

def takes (m : Matcher) (v : List Char) : Bool := m.words.any (·.standsFor v)

variable {m : Matcher} {w : QueryWord} {before : Option Char} {c : Char} {text run others rest : List Char}
  {pieces : List Piece}

/-! ### Characters -/

/-- What holds of the first 128 characters can be tried out. -/
theorem of_ascii {p : Char → Prop} (h : ∀ n < 128, p (Char.ofNat n)) (hc : isAscii c = true) : p c := by
  have hchar := h c.toNat (by simpa [isAscii] using hc)
  rwa [Char.ofNat_toNat] at hchar

theorem isAscii_of_isWordChar (hc : isWordChar c = true) : isAscii c = true := by
  rw [isWordChar, Bool.and_eq_true] at hc
  exact hc.1

theorem wordChar_cases (hc : isWordChar c = true) :
    isFoldedWordChar c = true ∧ caseKey (toLower c) = caseKey c ∧ toLower (caseKey c) = toLower c :=
  of_ascii (p := fun c => isWordChar c = true → isFoldedWordChar c = true ∧ caseKey (toLower c) = caseKey c ∧
    toLower (caseKey c) = toLower c) (by decide +kernel) (isAscii_of_isWordChar hc) hc

theorem map_toLower_caseKey (htext : ∀ c ∈ text, isWordChar c = true) :
    (text.map caseKey).map toLower = text.map toLower := by
  rw [List.map_map]
  exact List.map_congr_left fun c hc => (wordChar_cases (htext c hc)).2.2

theorem map_caseKey_toLower (htext : ∀ c ∈ text, isWordChar c = true) :
    (text.map toLower).map caseKey = text.map caseKey := by
  rw [List.map_map]
  exact List.map_congr_left fun c hc => (wordChar_cases (htext c hc)).2.1

/-- A plain text does not reach beyond a run. -/
theorem heads_run_iff (htext : ∀ c ∈ text, isWordChar c = true) (hrun : ∀ c ∈ run, isWordChar c = true)
    (hothers : ∀ c ∈ others.head?, ¬isFoldedWordChar c = true) :
    text.map caseKey <+: (run ++ others).map caseKey ↔ text.map toLower <+: run.map toLower := by
  have hkeys : ∀ key ∈ text.map caseKey, isWordChar key = true := by
    intro key hkey
    obtain ⟨c, hc, rfl⟩ := List.mem_map.mp hkey
    exact (wordChar_cases (htext c hc)).1
  have hbeyond : ∀ key ∈ (others.map caseKey).head?, ¬isWordChar key = true := by
    intro key hkey
    rw [List.head?_map] at hkey
    obtain ⟨c, hc, rfl⟩ := Option.map_eq_some_iff.mp hkey
    exact hothers c hc
  rw [List.map_append, prefix_append_iff hkeys hbeyond]
  constructor
  · intro hprefix
    rw [← map_toLower_caseKey htext, ← map_toLower_caseKey hrun]
    exact hprefix.map toLower
  · intro hprefix
    rw [← map_caseKey_toLower htext, ← map_caseKey_toLower hrun]
    exact hprefix.map caseKey

/-! ### One run -/

theorem any_isWordChar_eq_false (hothers : ∀ c ∈ others.head?, ¬isFoldedWordChar c = true) :
    others.head?.any isWordChar = false := by
  cases others with
  | nil => rfl
  | cons d others =>
      have hd := hothers d rfl
      simpa using fun hword => hd (wordChar_cases hword).1

theorem getLast?_any_isWordChar (hsome : run ≠ []) (hrun : ∀ c ∈ run, isWordChar c = true) :
    run.getLast?.any isWordChar = true := by
  rw [List.getLast?_eq_some_getLast hsome]
  exact hrun _ (List.getLast_mem hsome)

/-- Within a run and at its end, the next border is the end of the run. -/
theorem isBorder_run_iff {n : Nat} (hn : 0 < n) (hle : n ≤ run.length) (hrun : ∀ c ∈ run, isWordChar c = true)
    (hothers : ∀ c ∈ others.head?, ¬isFoldedWordChar c = true) :
    isBorder ((run ++ others).take n).getLast? ((run ++ others).drop n).head? = true ↔ n = run.length := by
  have htaken : ((run ++ others).take n).getLast?.any isWordChar = true := by
    rw [List.take_append_of_le_length hle]
    refine getLast?_any_isWordChar ?_ fun c hc => hrun c (List.mem_of_mem_take hc)
    rw [Ne, List.take_eq_nil_iff]
    rintro (rfl | rfl)
    · exact Nat.lt_irrefl 0 hn
    · exact Nat.lt_irrefl 0 (Nat.lt_of_lt_of_le hn hle)
  rw [isBorder, htaken, List.drop_append_of_le_length hle]
  constructor
  · intro hborder
    by_contra hinside
    obtain ⟨d, later, hlater⟩ : ∃ d later, run.drop n = d :: later := by
      apply List.exists_cons_of_ne_nil
      rw [Ne, List.drop_eq_nil_iff]
      omega
    have hd : isWordChar d = true := hrun d (List.mem_of_mem_drop (hlater ▸ List.mem_cons_self))
    simp [hlater, hd] at hborder
  · rintro rfl
    rw [List.drop_length, List.nil_append, any_isWordChar_eq_false hothers]
    rfl

theorem wordLength?_run_open (hopen : w.isOpen = true) (htext : ∀ c ∈ w.text.toList, isWordChar c = true)
    (hrun : ∀ c ∈ run, isWordChar c = true) (hothers : ∀ c ∈ others.head?, ¬isFoldedWordChar c = true) :
    wordLength? w (run ++ others) = if w.letters <+: run.map toLower then some run.length else none := by
  rw [wordLength?_open hopen]
  refine if_ctx_congr (heads_run_iff htext hrun hothers) (fun hheads => ?_) fun _ => rfl
  have hlength : w.text.toList.length ≤ run.length := by
    simpa [QueryWord.letters] using hheads.length_le
  have hend : others.takeWhile isFoldedWordChar = [] := by
    cases others with
    | nil => rfl
    | cons d others => exact List.takeWhile_cons_of_neg (hothers d rfl)
  have hrest : ∀ c ∈ run.drop w.text.toList.length, isFoldedWordChar c = true :=
    fun c hc => (wordChar_cases (hrun c (List.mem_of_mem_drop hc))).1
  rw [List.drop_append_of_le_length hlength, List.takeWhile_append_of_pos hrest, hend, List.append_nil,
    List.length_drop, Nat.add_sub_cancel' hlength]

theorem wordLength?_run_closed (hclosed : w.isOpen = false) (htext : ∀ c ∈ w.text.toList, isWordChar c = true)
    (hw : 0 < w.text.toList.length) (hrun : ∀ c ∈ run, isWordChar c = true)
    (hothers : ∀ c ∈ others.head?, ¬isFoldedWordChar c = true) :
    wordLength? w (run ++ others) = if w.letters = run.map toLower then some run.length else none := by
  have hletters : w.letters.length = w.text.toList.length := List.length_map _
  have hlowered : (run.map toLower).length = run.length := List.length_map _
  rw [wordLength?_closed hclosed]
  simp only [heads_run_iff htext hrun hothers]
  by_cases hsame : w.letters = run.map toLower
  · have hwhole : w.text.toList.length = run.length := by rw [← hletters, hsame, hlowered]
    have hborder := (isBorder_run_iff hw (Nat.le_of_eq hwhole) hrun hothers).mpr hwhole
    rw [if_pos ⟨hsame ▸ List.prefix_refl _, hborder⟩, if_pos hsame, hwhole]
  · rw [if_neg hsame, if_neg]
    rintro ⟨hheads, hborder⟩
    have hle : w.text.toList.length ≤ run.length := hletters ▸ hlowered ▸ List.IsPrefix.length_le hheads
    have hwhole := (isBorder_run_iff hw hle hrun hothers).mp hborder
    exact hsame (List.IsPrefix.eq_of_length hheads (by rw [hlowered, ← hwhole]; exact hletters))

/-- Where a run begins, a word takes the whole of it or does not fit. -/
theorem wordLength?_run (htext : ∀ c ∈ w.text.toList, isWordChar c = true) (hw : 0 < w.text.toList.length)
    (hrun : ∀ c ∈ run, isWordChar c = true) (hothers : ∀ c ∈ others.head?, ¬isFoldedWordChar c = true) :
    wordLength? w (run ++ others) = if w.standsFor (run.map toLower) then some run.length else none := by
  unfold QueryWord.standsFor
  cases hopen : w.isOpen with
  | true => simp [wordLength?_run_open hopen htext hrun hothers]
  | false => simp [wordLength?_run_closed hopen htext hw hrun hothers]

/-! ### The runs of a text -/

theorem wordRuns_eq (text : List Char) :
    wordRuns text = (text.splitOnP fun c => !isWordChar c).filter (!·.isEmpty) := by
  rw [wordRuns, splitOn_eq_splitOnP]

theorem wordRuns_cons (hc : ¬isWordChar c = true) : wordRuns (c :: rest) = wordRuns rest := by
  simp [wordRuns_eq, List.splitOnP_cons_eq_if_modifyHead, hc]

theorem wordRuns_run (hsome : run ≠ []) (hrun : ∀ c ∈ run, isWordChar c = true)
    (hothers : ∀ c ∈ others.head?, ¬isWordChar c = true) : wordRuns (run ++ others) = run :: wordRuns others := by
  have halone : run.splitOnP (fun c => !isWordChar c) = [run] :=
    List.splitOnP_eq_singleton fun c hc => by simp [hrun c hc]
  have hkept : [run].filter (!·.isEmpty) = [run] := by simpa using hsome
  cases others with
  | nil => rw [List.append_nil, wordRuns_eq, halone, hkept, wordRuns_eq, List.splitOnP_nil]; rfl
  | cons d others =>
      have hd : ¬isWordChar d = true := hothers d rfl
      have hbreak : (fun c => !isWordChar c) d = true := by simpa using hd
      rw [wordRuns_cons hd, wordRuns_eq, List.splitOnP_append_cons run others hbreak, halone,
        List.filter_append, hkept, wordRuns_eq, List.singleton_append]

/-! ### Cutting at runs -/

theorem matched_found (text : List Char) (pieces : List Piece) :
    matched (⟨true, text⟩ :: pieces) = text :: matched pieces := rfl

theorem matched_single (c : Char) (pieces : List Piece) :
    matched (⟨false, [c]⟩ :: pieces) = matched pieces := rfl

theorem isBorder_eq_false {after : Option Char} (hsame : before.any isWordChar = after.any isWordChar) :
    isBorder before after = false := by
  rw [isBorder, hsame, bne_self_eq_false]

/-- Nothing matches within a run. -/
theorem Cuts.within (h : m.Cuts before (run ++ others) pieces) (hbefore : before.any isWordChar = true)
    (hrun : ∀ c ∈ run, isWordChar c = true) :
    ∃ last later, m.Cuts last others later ∧ matched pieces = matched later := by
  induction run generalizing before pieces with
  | nil => exact ⟨before, pieces, h, rfl⟩
  | cons c run ih =>
      have hc : isWordChar c = true := hrun c List.mem_cons_self
      have hnone : m.matchLength? before (c :: run ++ others) = none := by
        have hinside : isBorder before (c :: run ++ others).head? = false :=
          isBorder_eq_false (by rw [hbefore]; exact hc.symm)
        rw [matchLength?, hinside]
        rfl
      cases h with
      | found hfits => exact absurd (hnone.symm.trans hfits) (Option.some_ne_none _).symm
      | @single _ _ _ rest _ hrest =>
          obtain ⟨last, later, hlater, heq⟩ := ih hrest hc fun d hd => hrun d (List.mem_cons_of_mem c hd)
          exact ⟨last, later, hlater, heq⟩

theorem matchLength?_run (hplain : m.Plain) (hm : m.Lawful) (hbefore : before.any isWordChar = false)
    (hsome : run ≠ []) (hrun : ∀ c ∈ run, isWordChar c = true)
    (hothers : ∀ c ∈ others.head?, ¬isFoldedWordChar c = true) :
    m.matchLength? before (run ++ others) = if m.takes (run.map toLower) then some run.length else none := by
  have hborder : isBorder before (run ++ others).head? = true := by
    obtain ⟨c, tail, rfl⟩ := List.exists_cons_of_ne_nil hsome
    simp [isBorder, hbefore, hrun c List.mem_cons_self]
  rw [matchLength?, if_pos hborder]
  exact findSome?_eq_of_same fun w hw => wordLength?_run (hplain w hw) (hm.length_pos hw) hrun hothers

/-- A run that a word takes is a match, and nothing else is within it. -/
theorem Cuts.wholeRun (h : m.Cuts before (run ++ others) pieces) (hplain : m.Plain) (hm : m.Lawful)
    (hbefore : before.any isWordChar = false) (hsome : run ≠ []) (hrun : ∀ c ∈ run, isWordChar c = true)
    (hothers : ∀ c ∈ others.head?, ¬isFoldedWordChar c = true) :
    ∃ last later, m.Cuts last others later ∧
      matched pieces = [run].filter (fun run => m.takes (run.map toLower)) ++ matched later := by
  have hlength := matchLength?_run hplain hm hbefore hsome hrun hothers
  obtain ⟨c, tail, rfl⟩ := List.exists_cons_of_ne_nil hsome
  rw [List.cons_append] at h hlength
  cases h with
  | @found _ _ _ n rest hfits hrest =>
      obtain ⟨htakes, hn⟩ : m.takes ((c :: tail).map toLower) = true ∧ (c :: tail).length = n + 1 := by
        rw [hlength] at hfits
        simpa using hfits
      obtain rfl : tail.length = n := Nat.succ.inj hn
      rw [List.take_left, List.drop_left] at hrest
      refine ⟨_, rest, hrest, ?_⟩
      rw [matched_found, List.take_left, List.filter_singleton, htakes]
      rfl
  | @single _ _ _ rest hnone hrest =>
      have htakes : m.takes ((c :: tail).map toLower) = false := by
        by_contra htaken
        rw [Bool.not_eq_false] at htaken
        rw [htaken, if_pos rfl] at hlength
        exact hnone tail.length hlength
      obtain ⟨last, later, hlater, heq⟩ :=
        hrest.within (hrun c List.mem_cons_self) fun d hd => hrun d (List.mem_cons_of_mem c hd)
      refine ⟨last, later, hlater, ?_⟩
      rw [matched_single, heq, List.filter_singleton, htakes]
      rfl

theorem wordLength?_other (htext : ∀ c ∈ w.text.toList, isWordChar c = true) (hw : 0 < w.text.toList.length)
    (hc : ¬isFoldedWordChar c = true) : wordLength? w (c :: rest) = none := by
  rw [Option.eq_none_iff_forall_ne_some]
  intro n hfits
  obtain ⟨d, text, htail⟩ := List.exists_cons_of_length_pos hw
  have hheads := (wordLength?_spec hfits).1
  rw [htail, List.map_cons, List.map_cons, List.cons_prefix_cons] at hheads
  have hd : isFoldedWordChar d = true := (wordChar_cases (htext d (htail ▸ List.mem_cons_self))).1
  rw [isFoldedWordChar, hheads.1] at hd
  exact hc hd

/-- Nothing plain matches at another character. -/
theorem Cuts.other (h : m.Cuts before (c :: rest) pieces) (hplain : m.Plain) (hm : m.Lawful)
    (hc : ¬isFoldedWordChar c = true) : ∃ later, m.Cuts (some c) rest later ∧ matched pieces = matched later := by
  cases h with
  | found hfits =>
      obtain ⟨w, hw, hlength⟩ := matchLength?_spec hfits
      rw [wordLength?_other (hplain w hw) (hm.length_pos hw) hc] at hlength
      cases hlength
  | single hnone hrest => exact ⟨_, hrest, matched_single c _⟩

/-- Every text is made of runs and other characters. -/
theorem run_induction {motive : List Char → Prop} (nil : motive [])
    (other : ∀ c rest, ¬isWordChar c = true → motive rest → motive (c :: rest))
    (run : ∀ run others, run ≠ [] → (∀ c ∈ run, isWordChar c = true) →
      (∀ c ∈ others.head?, ¬isWordChar c = true) → motive others → motive (run ++ others)) :
    ∀ text, motive text
  | [] => nil
  | c :: tail => by
      by_cases hc : isWordChar c = true
      · have hshorter : (tail.dropWhile isWordChar).length ≤ tail.length := (List.dropWhile_suffix _).length_le
        have hlater : ∀ d ∈ (tail.dropWhile isWordChar).head?, ¬isWordChar d = true := by
          intro d hd
          have := List.head?_dropWhile_not isWordChar tail
          rw [hd] at this
          simpa using this
        have hrun : ∀ d ∈ c :: tail.takeWhile isWordChar, isWordChar d = true := by
          intro d hd
          rcases List.mem_cons.mp hd with rfl | hrest
          · exact hc
          · exact List.all_eq_true.mp List.all_takeWhile d hrest
        have hsplit : c :: tail = c :: tail.takeWhile isWordChar ++ tail.dropWhile isWordChar := by
          rw [List.cons_append, List.takeWhile_append_dropWhile]
        rw [hsplit]
        exact run _ _ (List.cons_ne_nil _ _) hrun hlater (run_induction nil other run _)
      · exact other c tail hc (run_induction nil other run tail)
termination_by text => text.length
decreasing_by
  · rw [List.length_cons]; omega
  · simp

theorem Ordinary.of_cons (h : Ordinary (c :: rest)) : Ordinary rest :=
  fun d hd => h d (List.mem_cons_of_mem c hd)

/-- The matches in an ordinary text are the runs that a word takes. -/
theorem Cuts.matched_eq (h : m.Cuts before rest pieces) (hplain : m.Plain) (hm : m.Lawful)
    (hordinary : Ordinary rest) (hbefore : before.any isWordChar = false ∨ rest.head?.any isWordChar = false) :
    matched pieces = (wordRuns rest).filter fun run => m.takes (run.map toLower) := by
  induction rest using run_induction generalizing before pieces with
  | nil => cases h; rfl
  | other c rest hc ih =>
      obtain ⟨later, hlater, heq⟩ := h.other hplain hm (mt (hordinary c List.mem_cons_self) hc)
      rw [heq, wordRuns_cons hc]
      exact ih hlater hordinary.of_cons (.inl (by simpa using hc))
  | run run others hsome hrun hothers ih =>
      have hbefore : before.any isWordChar = false := by
        obtain ⟨c, tail, rfl⟩ := List.exists_cons_of_ne_nil hsome
        have hc := hrun c List.mem_cons_self
        simpa [hc] using hbefore
      have hrest : Ordinary others := fun c hc => hordinary c (List.mem_append_right run hc)
      have hbeyond : ∀ c ∈ others.head?, ¬isFoldedWordChar c = true :=
        fun c hc => mt (hrest c (List.mem_of_mem_head? hc)) (hothers c hc)
      obtain ⟨last, later, hlater, heq⟩ := h.wholeRun hplain hm hbefore hsome hrun hbeyond
      rw [heq, wordRuns_run hsome hrun hothers, ih hlater hrest (.inr (any_isWordChar_eq_false hbeyond)),
        ← List.filter_append, List.singleton_append]

end Matcher

end CodeAtlas
