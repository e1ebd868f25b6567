import CodeAtlas.Proofs.List.Basic
import CodeAtlas.Proofs.Text.Words
import CodeAtlas.Snippet.Excerpt
import Mathlib.Data.List.Nodup

/-!
# Words of a query

The expression that is searched for and the matcher that highlights take up the words of a query each in their
own way. The expression has all of them; of the words that differ by case alone the matcher keeps only the first
one. No word of a query is empty.
-/

namespace CodeAtlas

namespace QueryWord

/-- The words of a part of a query; the last one is open if a star ends the part. -/
def ofPart (part : String) : List QueryWord :=
  (runs part).mapIdx fun i text => ⟨text, hasSuffix "*" part && i + 1 == (runs part).length⟩

def ofQuery (query : String) : List QueryWord := (words query).flatMap ofPart

/-- The words of which no earlier one has the same letters up to case. -/
def distinct (all : List QueryWord) : List QueryWord :=
  (all.foldl (fun (seen, kept) word =>
    let key := lowerText word.text
    if seen.contains key then (seen, kept) else (key :: seen, word :: kept))
    (([], []) : List String × List QueryWord)).2.reverse

/-- The letters of a word without their case. -/
def letters (w : QueryWord) : List Char := w.text.toList.map toLower

variable {w w' : QueryWord} {all : List QueryWord}

theorem toList_lowerText (text : String) : (lowerText text).toList = text.toList.map toLower := by
  rw [lowerText, String.toList_map]

theorem lowerText_eq_iff : lowerText w.text = lowerText w'.text ↔ w.letters = w'.letters := by
  rw [← String.toList_inj, toList_lowerText, toList_lowerText, letters, letters]

/-- Of the words with the same letters up to case, the first one is kept. -/
theorem map_lowerText_distinct (all : List QueryWord) :
    (distinct all).map (fun w => lowerText w.text) = (all.map fun w => lowerText w.text).eraseDups := by
  -- the fold carries the keys of the words it has kept
  have hfold (seen : List String) (kept : List QueryWord) (hseen : seen = kept.map fun w => lowerText w.text) :
      (all.foldl (fun (state : List String × List QueryWord) word =>
        if state.1.contains (lowerText word.text) then (state.1, state.2)
        else (lowerText word.text :: state.1, word :: state.2)) (seen, kept)).2.reverse.map
          (fun w => lowerText w.text) =
        List.eraseDupsBy.loop (· == ·) (all.map fun w => lowerText w.text) seen := by
    induction all generalizing seen kept with
    | nil => simp [List.eraseDupsBy.loop, hseen]
    | cons word rest ih =>
        rw [List.foldl_cons, List.map_cons, List.eraseDupsBy.loop, ← List.contains_eq_any_beq]
        cases hknown : seen.contains (lowerText word.text) with
        | true => simpa only [hknown, if_true] using ih seen kept hseen
        | false =>
            simpa only [hknown, Bool.false_eq_true, if_false] using
              ih _ (word :: kept) (by rw [hseen, List.map_cons])
  exact hfold [] [] rfl

theorem nodup_lowerText_distinct (all : List QueryWord) : ((distinct all).map fun w => lowerText w.text).Nodup := by
  rw [map_lowerText_distinct]
  exact nodup_eraseDups _

theorem mem_of_mem_distinct (all : List QueryWord) : ∀ w ∈ distinct all, w ∈ all := by
  have hfold (seen : List String) (kept : List QueryWord) :
      ∀ w ∈ (all.foldl (fun (state : List String × List QueryWord) word =>
        if state.1.contains (lowerText word.text) then (state.1, state.2)
        else (lowerText word.text :: state.1, word :: state.2)) (seen, kept)).2, w ∈ kept ∨ w ∈ all := by
    induction all generalizing seen kept with
    | nil => exact fun w hw => .inl hw
    | cons word rest ih =>
        intro w hw
        rw [List.foldl_cons] at hw
        cases hknown : seen.contains (lowerText word.text) with
        | true =>
            simp only [hknown, if_true] at hw
            exact (ih seen kept w hw).imp_right (List.mem_cons_of_mem word)
        | false =>
            simp only [hknown, Bool.false_eq_true, if_false] at hw
            have hmem := ih _ (word :: kept) w hw
            rw [List.mem_cons, or_assoc] at hmem
            obtain rfl | hkept | hrest := hmem
            · exact .inr List.mem_cons_self
            · exact .inl hkept
            · exact .inr (List.mem_cons_of_mem word hrest)
  intro w hw
  rw [distinct, List.mem_reverse] at hw
  exact (hfold [] [] w hw).resolve_left List.not_mem_nil

theorem distinct_eq_nil_iff {all : List QueryWord} : distinct all = [] ↔ all = [] := by
  constructor
  · intro hnone
    have hkeys := map_lowerText_distinct all
    rw [hnone, List.map_nil] at hkeys
    cases all with
    | nil => rfl
    | cons w rest => simp [List.eraseDups_cons] at hkeys
  · rintro rfl
    rfl

theorem text_ne_of_mem_ofQuery {query : String} (hw : w ∈ ofQuery query) : w.text ≠ "" := by
  obtain ⟨part, -, hpart⟩ := List.mem_flatMap.mp hw
  obtain ⟨i, hi, rfl⟩ := List.mem_mapIdx.mp hpart
  obtain ⟨run, hrun, heq⟩ := List.mem_map.mp (List.getElem_mem hi)
  obtain ⟨-, hsome⟩ := List.mem_filter.mp hrun
  intro hempty
  rw [← heq, String.ofList_eq_empty_iff] at hempty
  simp [hempty] at hsome

end QueryWord

/-- A word of an expression: between quotes, and with a star behind it if it is open. -/
def Expression.ofWord (word : QueryWord) : String :=
  quoteWord word.text ++ if word.isOpen then "*" else ""

/-- The expression of a query has all its words. -/
theorem Expression.ofQuery_eq (query : String) :
    ofQuery query = " ".intercalate ((QueryWord.ofQuery query).map ofWord) := by
  have hpart : termsOfPart = fun part => (QueryWord.ofPart part).map ofWord := by
    funext part
    apply List.ext_getElem <;> simp [termsOfPart, QueryWord.ofPart, ofWord]
  rw [ofQuery, QueryWord.ofQuery, List.map_flatMap, hpart]

namespace Matcher

variable {query : String} {m : Matcher}

theorem keepPart_eq : keepPart = fun state part =>
    (QueryWord.ofPart part).foldl (fun state word => keepWord word.isOpen state word.text) state := by
  funext state part
  rw [keepPart, QueryWord.ofPart, List.mapIdx_eq_zipIdx_map, List.foldl_map]

/-- What is kept part by part are the words of the query, each of them once. -/
theorem foldl_keepPart (query : String) :
    ((CodeAtlas.words query).foldl keepPart ([], [])).2.reverse =
      QueryWord.distinct (QueryWord.ofQuery query) := by
  rw [QueryWord.distinct, QueryWord.ofQuery, List.foldl_flatMap, keepPart_eq]
  rfl

theorem ofQuery?_eq (query : String) : ofQuery? query =
    if QueryWord.distinct (QueryWord.ofQuery query) = [] then none
    else some ⟨QueryWord.distinct (QueryWord.ofQuery query)⟩ := by
  rw [← foldl_keepPart]
  simp [ofQuery?]

/-- A matcher has the words of its query, each of them once. -/
theorem words_of_ofQuery? (hm : ofQuery? query = some m) :
    m.words ≠ [] ∧ m.words = QueryWord.distinct (QueryWord.ofQuery query) := by
  rw [ofQuery?_eq] at hm
  split at hm
  · cases hm
  · next hsome =>
    obtain rfl := Option.some.inj hm
    exact ⟨hsome, rfl⟩

end Matcher

end CodeAtlas
