import CodeAtlas.Proofs.Query.Words
import CodeAtlas.Proofs.Text.Tables
import CodeAtlas.Proofs.Text.Words
import CodeAtlas.Snippet.Excerpt

/-!
# What a full-text expression says

The words of a query are its runs of letters, digits and underscores, in every alphabet. Reading the expression
of a query gives these words back, in order, and nothing else can get into the expression. The words that are
searched for and the terms that are highlighted are the same, up to case and repetitions.

A query comes as bytes. A stray byte is read as a character that no word has, so it separates words.
-/

namespace CodeAtlas

namespace QueryWord

/-- What stands between white space. -/
def fields (query : List Glyph) : List (List Glyph) := partsOf (fun g => isBlank g.char) query

/-- The runs of letters, digits and underscores. -/
def texts (query : List Glyph) : List String := (partsOf (fun g => !isPart g.char) query).map textOfGlyphs

def endsWithStar (field : List Glyph) : Bool := field.getLast?.any (·.char == '*')

/-- The words of a field; the last one is open if the field ends with a star. -/
def ofField (field : List Glyph) : List QueryWord :=
  (texts field).mapIdx fun i text => ⟨text, endsWithStar field && i + 1 == (texts field).length⟩

variable {query field : List Glyph} {w : QueryWord}

/-! ## The words of a query -/

theorem lowerText_eq (text : String) : lowerText text = String.ofList (text.toList.map toLower) := by
  rw [← String.toList_inj, toList_lowerText, String.toList_ofList]

theorem not_isPart_of_isBlank {c : Char} (hc : isBlank c = true) : isPart c = false := by
  have hblank : c.toNat ∈ List.range' 0x09 5 ++ [0x20, 0x85, 0xA0, 0x1680] ++ List.range' 0x2000 11 ++
      [0x2028, 0x2029, 0x202F, 0x205F, 0x3000] := by
    simp only [isBlank, Bool.or_eq_true, Bool.and_eq_true, decide_eq_true_eq, beq_iff_eq] at hc
    simp only [List.mem_append, List.mem_range'_1, List.mem_cons, List.not_mem_nil, or_false]
    omega
  have hall : ∀ n ∈ List.range' 0x09 5 ++ [0x20, 0x85, 0xA0, 0x1680] ++ List.range' 0x2000 11 ++
      [0x2028, 0x2029, 0x202F, 0x205F, 0x3000], isPart (Char.ofNat n) = false := by
    simp only [isPart, isLetter, isDecimalDigit, Category.ofChar_eq]
    decide +kernel
  have hchar := hall c.toNat hblank
  rwa [Char.ofNat_toNat] at hchar

theorem texts_eq_flatMap (query : List Glyph) : texts query = (fields query).flatMap texts := by
  have hparts := partsOf_eq_flatMap (q := fun g : Glyph => isBlank g.char) (p := fun g => !isPart g.char)
    (fun g hg => by simp [not_isPart_of_isBlank hg]) query
  rw [texts, hparts, List.map_flatMap]
  rfl

theorem runs_textOfGlyphs (field : List Glyph) : runs (textOfGlyphs field) = texts field := by
  have hparts := partsOf_map (fun c => !isPart c) Glyph.char field
  rw [runs, textOfGlyphs, String.toList_ofList]
  change (partsOf _ (field.map Glyph.char)).map String.ofList = _
  rw [hparts, List.map_map]
  rfl

theorem ofPart_textOfGlyphs (field : List Glyph) : ofPart (textOfGlyphs field) = ofField field := by
  have hstar : hasSuffix "*" (textOfGlyphs field) = endsWithStar field := by
    rw [Bool.eq_iff_iff, show "*" = String.singleton '*' from rfl, hasSuffix_singleton_iff, textOfGlyphs,
      String.toList_ofList, List.getLast?_map, endsWithStar]
    cases field.getLast? <;> simp
  rw [ofPart, runs_textOfGlyphs, hstar]
  rfl

/-- The words of a query can be found in its bytes, field by field. -/
theorem ofQuery_eq (query : List Glyph) : ofQuery (textOfGlyphs query) = (fields query).flatMap ofField := by
  have hfields : words (textOfGlyphs query) = (fields query).map textOfGlyphs := by
    rw [words_eq, textOfGlyphs, String.toList_ofList, partsOf_map, List.map_map]
    rfl
  rw [ofQuery, hfields, List.flatMap_map]
  congr 1
  funext field
  exact ofPart_textOfGlyphs field

theorem map_text_ofQuery (query : List Glyph) : (ofQuery (textOfGlyphs query)).map (·.text) = texts query := by
  have hfield (field : List Glyph) : (ofField field).map (·.text) = texts field := by
    apply List.ext_getElem <;> simp [ofField]
  rw [ofQuery_eq, List.map_flatMap, texts_eq_flatMap]
  congr 1
  funext field
  exact hfield field

theorem isPart_of_mem_texts {text : String} (htext : text ∈ texts query) :
    text ≠ "" ∧ ∀ c ∈ text.toList, isPart c = true := by
  obtain ⟨run, hrun, rfl⟩ := List.mem_map.mp htext
  rw [textOfGlyphs, String.toList_ofList]
  refine ⟨?_, fun c hc => ?_⟩
  · rw [Ne, String.ofList_eq_empty_iff, List.map_eq_nil_iff]
    exact ne_nil_of_mem_partsOf hrun
  · obtain ⟨g, hg, rfl⟩ := List.mem_map.mp hc
    simpa using not_of_mem_partsOf hrun hg

theorem isPart_of_mem_ofQuery (hw : w ∈ ofQuery (textOfGlyphs query)) :
    w.text ≠ "" ∧ ∀ c ∈ w.text.toList, isPart c = true := by
  have htext : w.text ∈ (ofQuery (textOfGlyphs query)).map (·.text) := List.mem_map_of_mem hw
  rw [map_text_ofQuery] at htext
  exact isPart_of_mem_texts htext

theorem ofQuery_eq_nil_iff : ofQuery (textOfGlyphs query) = [] ↔ ∀ g ∈ query, isPart g.char = false := by
  rw [← List.map_eq_nil_iff (f := QueryWord.text), map_text_ofQuery, texts, List.map_eq_nil_iff,
    partsOf_eq_nil_iff]
  simp

end QueryWord

/-! ## Reading an expression -/

namespace Expression

open QueryWord

/-- The words that have been read when the text is over. -/
def finish? (state : List QueryWord × Reading) : Option (List QueryWord) :=
  match state.2 with
  | .between => some state.1.reverse
  | .inside _ => none
  | .after text => some (⟨String.ofList text.reverse, false⟩ :: state.1).reverse

def readAll? (state : List QueryWord × Reading) (cs : List Char) : Option (List QueryWord × Reading) :=
  cs.foldlM (fun (done, state) c => readStep done state c) state

theorem read?_eq (text : String) : read? text = (readAll? ([], .between) text.toList).bind finish? := by
  unfold read? readAll?
  congr 1

theorem readAll?_cons (state : List QueryWord × Reading) (c : Char) (cs : List Char) :
    readAll? state (c :: cs) = (readStep state.1 state.2 c).bind (readAll? · cs) := rfl

/-- A quote inside a word is written twice, so the word goes on after it. -/
theorem readAll?_doubled (done : List QueryWord) (seen text rest : List Char) :
    readAll? (done, .inside seen)
        ((text.flatMap fun c => if c = '"' then ['"', '"'] else [c]) ++ '"' :: rest) =
      readAll? (done, .after (text.reverse ++ seen)) rest := by
  induction text generalizing seen with
  | nil => rfl
  | cons c text ih =>
      by_cases hc : c = '"'
      · subst hc
        simpa [readAll?_cons, readStep] using ih ('"' :: seen)
      · simpa [readAll?_cons, readStep, hc] using ih (c :: seen)

theorem toList_quoteWord (text : String) : (quoteWord text).toList =
    '"' :: ((text.toList.flatMap fun c => if c = '"' then ['"', '"'] else [c]) ++ ['"']) := by
  have hdoubled := toList_replaceText_singleton '"' "\"\"" text
  rw [quoteWord, String.toList_append, String.toList_append, show "\"" = String.singleton '"' from rfl, hdoubled]
  simp

/-- The state after a word: a star ends it, without one it is still open to a second quote. -/
def afterWord (done : List QueryWord) (w : QueryWord) : List QueryWord × Reading :=
  if w.isOpen then (w :: done, .between) else (done, .after w.text.toList.reverse)

theorem readAll?_ofWord (done : List QueryWord) (w : QueryWord) (rest : List Char) :
    readAll? (done, .between) ((ofWord w).toList ++ rest) = readAll? (afterWord done w) rest := by
  have hword := readAll?_doubled done [] w.text.toList ((if w.isOpen then ['*'] else []) ++ rest)
  have hstar : (if w.isOpen then "*" else "").toList = if w.isOpen then ['*'] else [] := by
    cases w.isOpen <;> rfl
  rw [ofWord, String.toList_append, toList_quoteWord, hstar, List.cons_append, List.cons_append,
    readAll?_cons, List.append_assoc, List.append_assoc, List.singleton_append]
  refine hword.trans ?_
  obtain ⟨text, isOpen⟩ := w
  cases isOpen with
  | true => simp [afterWord, readAll?_cons, readStep]
  | false => simp [afterWord]

/-- A space after a word closes it. -/
theorem readAll?_space (done : List QueryWord) (w : QueryWord) (rest : List Char) :
    readAll? (afterWord done w) (' ' :: rest) = readAll? (w :: done, .between) rest := by
  obtain ⟨text, isOpen⟩ := w
  cases isOpen <;> simp [afterWord, readAll?_cons, readStep]

theorem finish?_afterWord (done : List QueryWord) (w : QueryWord) : finish? (afterWord done w) = some (w :: done).reverse := by
  obtain ⟨text, isOpen⟩ := w
  cases isOpen <;> simp [afterWord, finish?]

theorem readAll?_words (done : List QueryWord) (w : QueryWord) (words : List QueryWord) :
    (readAll? (done, .between) (" ".intercalate ((w :: words).map ofWord)).toList).bind finish? =
      some (done.reverse ++ w :: words) := by
  induction words generalizing done w with
  | nil =>
      have hread := readAll?_ofWord done w []
      rw [List.append_nil] at hread
      rw [List.map_singleton, String.intercalate_singleton, hread, ← List.reverse_cons]
      exact finish?_afterWord done w
  | cons next words ih =>
      rw [String.toList_intercalate, List.map_map, List.map_cons, List.map_cons, List.intercalate_cons_cons,
        List.append_assoc, show " ".toList = [' '] from rfl, List.singleton_append]
      have hread := readAll?_ofWord done w (' ' :: [' '].intercalate
        ((String.toList ∘ ofWord) next :: words.map (String.toList ∘ ofWord)))
      rw [Function.comp_apply, hread, readAll?_space]
      have hrest := ih (w :: done) next
      rw [String.toList_intercalate, List.map_map, List.map_cons] at hrest
      rw [show [' '] = " ".toList from rfl, hrest, List.reverse_cons, List.append_assoc, List.singleton_append]

/-- Reading undoes writing, whatever characters the words have. -/
theorem read?_intercalate (words : List QueryWord) : read? (" ".intercalate (words.map ofWord)) = some words := by
  rw [read?_eq]
  cases words with
  | nil => rfl
  | cons w words => exact readAll?_words [] w words

/-! ## The text of an expression -/

theorem ofWord_eq {w : QueryWord} (hw : ∀ c ∈ w.text.toList, isPart c = true) :
    ofWord w = "\"" ++ w.text ++ "\"" ++ if w.isOpen then "*" else "" := by
  have hplain : replaceText "\"" "\"\"" w.text = w.text := by
    rw [← String.toList_inj, show "\"" = String.singleton '"' from rfl, toList_replaceText_singleton]
    have hkept : w.text.toList.flatMap (fun c => if c = '"' then "\"\"".toList else [c]) =
        w.text.toList.flatMap fun c => [c] := by
      apply List.flatMap_congr
      intro c hc
      have hquote : c ≠ '"' := by
        rintro rfl
        exact absurd (hw '"' hc) (by decide +kernel)
      rw [if_neg hquote]
    rw [hkept]
    simp
  rw [ofWord, quoteWord, hplain]

theorem space_not_mem_ofWord {w : QueryWord} (hw : ∀ c ∈ w.text.toList, isPart c = true) :
    ' ' ∉ (ofWord w).toList := by
  have htext : ' ' ∉ w.text.toList := fun hmem => absurd (hw ' ' hmem) (by decide +kernel)
  rw [ofWord_eq hw]
  cases w.isOpen <;> simp [htext]

theorem ofQuery_eq_empty_iff {query : String} : ofQuery query = "" ↔ QueryWord.ofQuery query = [] := by
  rw [ofQuery_eq]
  constructor
  · intro hempty
    have hread := read?_intercalate (QueryWord.ofQuery query)
    rw [hempty] at hread
    exact (Option.some.inj hread).symm
  · intro hnone
    rw [hnone]
    rfl

end Expression

theorem Matcher.ofQuery?_eq_none_iff {query : String} :
    Matcher.ofQuery? query = none ↔ QueryWord.ofQuery query = [] := by
  rw [← QueryWord.distinct_eq_nil_iff, Matcher.ofQuery?_eq]
  simp

theorem Matcher.terms_of_ofQuery? {query : String} {m : Matcher} (hm : Matcher.ofQuery? query = some m) :
    m.terms = ((QueryWord.ofQuery query).map fun w => lowerText w.text).eraseDups := by
  rw [← QueryWord.map_lowerText_distinct, ← (words_of_ofQuery? hm).2]
  rfl

namespace Expression

open QueryWord

/-- The expression of a query has the words of its fields, one after the other, each between quotes and with a
star behind it if it is open. They are all the runs of letters, digits and underscores of the query. There is an
expression exactly if there is something to highlight, and then the terms to highlight are these words, in lower
case and each one once. -/
theorem words_read_back (bytes : List UInt8) :
    let query := glyphsOfBytes bytes
    let text := textOfGlyphs query
    let words := (fields query).flatMap ofField
    read? (ofQuery text) = some words ∧
    words.map (·.text) = texts query ∧
    (∀ w ∈ words, w.text ≠ "" ∧ ∀ c ∈ w.text.toList, isPart c = true) ∧
    (words ≠ [] → splitText ' ' (ofQuery text) =
      words.map fun w => "\"" ++ w.text ++ "\"" ++ if w.isOpen then "*" else "") ∧
    (ofQuery text = "" ↔ Matcher.ofQuery? text = none) ∧
    (Matcher.ofQuery? text = none ↔ ∀ g ∈ query, isPart g.char = false) ∧
    ∀ m, Matcher.ofQuery? text = some m → m.terms = (words.map fun w => lowerText w.text).eraseDups := by
  intro query text words
  have hwords : QueryWord.ofQuery text = words := QueryWord.ofQuery_eq query
  have hpart : ∀ w ∈ words, w.text ≠ "" ∧ ∀ c ∈ w.text.toList, isPart c = true := by
    intro w hw
    rw [← hwords] at hw
    exact isPart_of_mem_ofQuery hw
  refine ⟨?_, ?_, hpart, ?_, ?_, ?_, ?_⟩
  · rw [ofQuery_eq, hwords]
    exact read?_intercalate _
  · rw [← hwords]
    exact map_text_ofQuery query
  · intro hsome
    have hspaces : ∀ part ∈ words.map ofWord, ' ' ∉ part.toList := by
      intro part hmem
      obtain ⟨w, hw, rfl⟩ := List.mem_map.mp hmem
      exact space_not_mem_ofWord (hpart w hw).2
    have hsplit := splitText_intercalate (by simpa using hsome) hspaces
    rw [Expression.ofQuery_eq, hwords, show " " = String.singleton ' ' from rfl, hsplit]
    exact List.map_congr_left fun w hw => ofWord_eq (hpart w hw).2
  · rw [ofQuery_eq_empty_iff, Matcher.ofQuery?_eq_none_iff]
  · rw [Matcher.ofQuery?_eq_none_iff]
    exact ofQuery_eq_nil_iff
  · intro m hm
    rw [Matcher.terms_of_ofQuery? hm, hwords]

/-- A query with quotes, an operator, stars, a repetition and a stray byte. -/
def mixedQuery : List UInt8 := bytesOfText "say* \"hi*\" OR" ++ [0xFF] ++ bytesOfText "Say a.b-*"

def mixedWords : List QueryWord :=
  [⟨"say", true⟩, ⟨"hi", false⟩, ⟨"OR", false⟩, ⟨"Say", false⟩, ⟨"a", false⟩, ⟨"b", true⟩]

theorem mixedQuery_read_back :
    read? (ofQuery (textOfGlyphs (glyphsOfBytes mixedQuery))) = some mixedWords ∧
    (⟨"b", true⟩ : QueryWord) ∈ mixedWords ∧ (∀ c ∈ "b".toList, isPart c = true) ∧
    splitText ' ' (ofQuery (textOfGlyphs (glyphsOfBytes mixedQuery))) =
      ["\"say\"*", "\"hi\"", "\"OR\"", "\"Say\"", "\"a\"", "\"b\"*"] ∧
    ∃ m, Matcher.ofQuery? (textOfGlyphs (glyphsOfBytes mixedQuery)) = some m ∧
      m.terms = ["say", "hi", "or", "a", "b"] := by
  have hwords : (fields (glyphsOfBytes mixedQuery)).flatMap ofField = mixedWords := by
    unfold ofField texts isPart isLetter isDecimalDigit
    simp only [Category.ofChar_eq]
    decide +kernel
  have hlower : (mixedWords.map fun w => lowerText w.text).eraseDups = ["say", "hi", "or", "a", "b"] := by
    simp only [lowerText_eq]
    decide +kernel
  obtain ⟨hread, -, hpart, hsplit, hempty, -, hterms⟩ := words_read_back mixedQuery
  rw [hwords] at hread hpart hsplit hterms
  rw [hlower] at hterms
  have hlast : (⟨"b", true⟩ : QueryWord) ∈ mixedWords := by decide
  have hparts := hsplit (by decide)
  have hsome : Matcher.ofQuery? (textOfGlyphs (glyphsOfBytes mixedQuery)) ≠ none := by
    intro hnone
    rw [hempty.mpr hnone] at hread
    exact absurd hread (by decide)
  obtain ⟨m, hm⟩ := Option.ne_none_iff_exists'.mp hsome
  exact ⟨hread, hlast, (hpart _ hlast).2, hparts, m, hm, hterms m hm⟩

end Expression

end CodeAtlas
