import CodeAtlas.Proofs.List.Basic
import CodeAtlas.Text.Blank
import CodeAtlas.Text.Glyph

/-!
# Splitting what was joined

Texts that were joined with one character come apart again where that character stood, so they are
found again unless one of them has it.
-/

namespace CodeAtlas

theorem splitOn_eq_splitOnP {α : Type} (p : α → Bool) (xs : List α) :
    splitOn p xs = xs.splitOnP p := by
  -- the fold carries the finished parts and the unfinished one, both back to front
  have hfold (done : List (List α)) (last : List α) :
      (let state := xs.foldl (fun (state : List (List α) × List α) x =>
        if p x then (state.2.reverse :: state.1, []) else (state.1, x :: state.2)) (done, last)
      (state.2.reverse :: state.1).reverse) = done.reverse ++ xs.splitOnPPrepend p last := by
    induction xs generalizing done last with
    | nil => simp
    | cons x rest ih =>
        rw [List.foldl_cons, List.splitOnPPrepend_cons_eq_if]
        split
        · rw [ih, List.reverse_cons, List.append_assoc, List.singleton_append,
            List.splitOnPPrepend_nil_right]
        · exact ih done (x :: last)
  exact hfold [] []

theorem splitText_eq (separator : Char) (text : String) :
    splitText separator text = (text.toList.splitOn separator).map String.ofList := by
  unfold splitText List.splitOn
  rw [splitOn_eq_splitOnP]

theorem intercalate_splitText (separator : Char) (text : String) :
    (String.singleton separator).intercalate (splitText separator text) = text := by
  rw [← String.toList_inj, String.toList_intercalate, String.toList_singleton, splitText_eq, List.map_map]
  simp [Function.comp_def, List.intercalate_splitOn]

theorem splitOn_intercalate_eq_flatMap {α : Type} [BEq α] [LawfulBEq α] (separator : α) {parts : List (List α)}
    (hsome : parts ≠ []) :
    ([separator].intercalate parts).splitOn separator = parts.flatMap (·.splitOn separator) := by
  induction parts with
  | nil => exact absurd rfl hsome
  | cons part rest ih =>
      cases rest with
      | nil => simp
      | cons next rest =>
          rw [List.flatMap_cons, ← ih (List.cons_ne_nil next rest), List.intercalate_cons_cons,
            List.append_assoc, List.singleton_append]
          exact List.splitOnP_append_cons (p := (· == separator)) part _ BEq.rfl

/-- What was joined comes apart into the parts that each of the joined texts has. -/
theorem splitText_intercalate_eq_flatMap {separator : Char} {parts : List String} (hsome : parts ≠ []) :
    splitText separator ((String.singleton separator).intercalate parts) =
      parts.flatMap (splitText separator) := by
  have hlists : parts.map String.toList ≠ [] := by simpa using hsome
  rw [splitText_eq, String.toList_intercalate, String.toList_singleton,
    splitOn_intercalate_eq_flatMap separator hlists, List.flatMap_map, List.map_flatMap]
  congr 1
  funext part
  exact (splitText_eq separator part).symm

theorem length_splitText (separator : Char) (text : String) :
    (splitText separator text).length = text.toList.count separator + 1 := by
  rw [splitText_eq, List.length_map]
  induction text.toList with
  | nil => rfl
  | cons c rest ih =>
      rw [List.splitOn_eq_splitOnP] at ih ⊢
      rw [List.splitOnP_cons_eq_if_modifyHead, List.count_cons]
      split <;> simp_all

theorem splitText_inj {separator : Char} {a b : String} :
    splitText separator a = splitText separator b ↔ a = b := by
  constructor
  · intro hparts
    rw [← intercalate_splitText separator a, hparts, intercalate_splitText]
  · intro hsame
    rw [hsame]

/-- Joining with a character that no part has can be undone. -/
theorem splitText_intercalate {separator : Char} {parts : List String} (hsome : parts ≠ [])
    (hfree : ∀ part ∈ parts, separator ∉ part.toList) :
    splitText separator ((String.singleton separator).intercalate parts) = parts := by
  have hsplit : ([separator].intercalate (parts.map String.toList)).splitOn separator =
      parts.map String.toList :=
    List.splitOn_intercalate separator (by simpa using hfree) (by simpa using hsome)
  unfold splitText
  rw [splitOn_eq_splitOnP, String.toList_intercalate, String.toList_singleton]
  unfold List.splitOn at hsplit
  rw [hsplit, List.map_map]
  simp [Function.comp_def]

end CodeAtlas

/-!
# Parts and fields of a text

A text can be split at all separators at once, or first at some of them and then each part at the others. The
words of a text are the parts between white space that are not empty, and replacing a character replaces it
everywhere.
-/

namespace CodeAtlas

/-- The parts between separators, without the empty ones. -/
def partsOf {α : Type} (p : α → Bool) (xs : List α) : List (List α) := (splitOn p xs).filter (!·.isEmpty)

section Splitting

variable {α β : Type} {p q : α → Bool} {xs part : List α}

theorem splitOnP_map (p : β → Bool) (f : α → β) (xs : List α) :
    (xs.map f).splitOnP p = (xs.splitOnP (p ∘ f)).map (List.map f) := by
  induction xs with
  | nil => rfl
  | cons x xs ih =>
      rw [List.map_cons, List.splitOnP_cons_eq_if_modifyHead, List.splitOnP_cons_eq_if_modifyHead, ih]
      cases List.splitOnP (p ∘ f) xs <;> by_cases hx : p (f x) = true <;> simp [hx]

/-- Splitting may be done in two steps, some separators first. -/
theorem splitOnP_eq_flatMap (hqp : ∀ x, q x = true → p x = true) (xs : List α) :
    xs.splitOnP p = (xs.splitOnP q).flatMap (·.splitOnP p) := by
  induction xs with
  | nil => rfl
  | cons x xs ih =>
      obtain ⟨part, parts, hparts⟩ := List.exists_cons_of_ne_nil (List.splitOnP_ne_nil q xs)
      obtain ⟨first, others, hfirst⟩ := List.exists_cons_of_ne_nil (List.splitOnP_ne_nil p part)
      rw [hparts, List.flatMap_cons, hfirst] at ih
      rw [List.splitOnP_cons_eq_if_modifyHead, List.splitOnP_cons_eq_if_modifyHead, hparts, ih]
      by_cases hq : q x = true
      · simp [hq, hqp x hq, hfirst]
      · by_cases hp : p x = true <;> simp [hq, hp, List.splitOnP_cons_eq_if_modifyHead, hfirst]

theorem flatten_splitOnP (p : α → Bool) (xs : List α) : (xs.splitOnP p).flatten = xs.filter (!p ·) := by
  induction xs with
  | nil => rfl
  | cons x xs ih =>
      obtain ⟨part, parts, hparts⟩ := List.exists_cons_of_ne_nil (List.splitOnP_ne_nil p xs)
      rw [hparts, List.flatten_cons] at ih
      rw [List.splitOnP_cons_eq_if_modifyHead, hparts]
      by_cases hx : p x = true <;> simp [hx, ih]

theorem not_of_mem_splitOnP (hpart : part ∈ xs.splitOnP p) {x : α} (hx : x ∈ part) : p x = false := by
  have hmem : x ∈ (xs.splitOnP p).flatten := List.mem_flatten.mpr ⟨part, hpart, hx⟩
  rw [flatten_splitOnP, List.mem_filter] at hmem
  simpa using hmem.2

/-- The first part reaches to the first separator. -/
theorem exists_append_of_splitOnP {parts : List (List α)} (hsplit : xs.splitOnP p = part :: parts) :
    ∃ rest, xs = part ++ rest ∧ ∀ x ∈ rest.head?, p x = true := by
  induction xs generalizing part parts with
  | nil =>
      obtain ⟨rfl, -⟩ := List.cons.inj hsplit
      exact ⟨[], rfl, by simp⟩
  | cons x xs ih =>
      obtain ⟨first, others, hfirst⟩ := List.exists_cons_of_ne_nil (List.splitOnP_ne_nil p xs)
      rw [List.splitOnP_cons_eq_if_modifyHead, hfirst] at hsplit
      by_cases hx : p x = true
      · obtain ⟨rfl, -⟩ := List.cons.inj (by simpa [hx] using hsplit : [] :: first :: others = part :: parts)
        exact ⟨x :: xs, rfl, by simpa using hx⟩
      · obtain ⟨rfl, -⟩ := List.cons.inj (by simpa [hx] using hsplit : (x :: first) :: others = part :: parts)
        obtain ⟨rest, rfl, hrest⟩ := ih hfirst
        exact ⟨rest, rfl, hrest⟩

theorem exists_of_mem_splitOnP (hpart : part ∈ xs.splitOnP p) : ∃ before after, xs = before ++ (part ++ after) ∧
    (∀ x ∈ before.getLast?, p x = true) ∧ ∀ x ∈ after.head?, p x = true := by
  generalize hparts : xs.splitOnP p = parts at hpart
  induction parts generalizing xs with
  | nil => cases hpart
  | cons first others ih =>
      obtain ⟨rest, hxs, hrest⟩ := exists_append_of_splitOnP hparts
      rcases List.mem_cons.mp hpart with rfl | hother
      · exact ⟨[], rest, hxs, by simp, hrest⟩
      · have hfirst : ∀ x ∈ first, p x = false := fun x hx =>
          not_of_mem_splitOnP (hparts ▸ List.mem_cons_self : first ∈ xs.splitOnP p) hx
        cases rest with
        | nil =>
            rw [hxs, List.append_nil, List.splitOnP_eq_singleton hfirst] at hparts
            cases (List.cons.inj hparts).2
            cases hother
        | cons separator rest =>
            have hseparator : p separator = true := hrest separator rfl
            rw [hxs, List.splitOnP_append_cons_of_forall_mem hfirst separator hseparator] at hparts
            obtain ⟨before, after, rfl, hbefore, hafter⟩ := ih (List.cons.inj hparts).2 hother
            refine ⟨first ++ separator :: before, after, by simp [hxs], ?_, hafter⟩
            obtain rfl | ⟨front, last, rfl⟩ := List.eq_nil_or_concat before
            · simpa using hseparator
            · simpa [List.getLast?_cons] using hbefore

/-- A part stands between separators or the ends, and has no separator. -/
theorem mem_splitOnP_iff : part ∈ xs.splitOnP p ↔ (∀ x ∈ part, p x = false) ∧ ∃ before after,
    xs = before ++ (part ++ after) ∧ (∀ x ∈ before.getLast?, p x = true) ∧ ∀ x ∈ after.head?, p x = true := by
  constructor
  · exact fun hpart => ⟨fun x hx => not_of_mem_splitOnP hpart hx, exists_of_mem_splitOnP hpart⟩
  · rintro ⟨hpart, before, after, rfl, hbefore, hafter⟩
    have hmem : part ∈ (part ++ after).splitOnP p := by
      cases after with
      | nil => simp [List.splitOnP_eq_singleton hpart]
      | cons separator after =>
          rw [List.splitOnP_append_cons_of_forall_mem hpart separator (hafter separator rfl)]
          exact List.mem_cons_self
    obtain rfl | ⟨front, separator, rfl⟩ := List.eq_nil_or_concat before
    · exact hmem
    · have hseparator : p separator = true := hbefore separator (by simp)
      rw [List.concat_eq_append, List.append_assoc, List.singleton_append, List.splitOnP_append_cons _ _ hseparator]
      exact List.mem_append_right _ hmem

theorem partsOf_eq (p : α → Bool) (xs : List α) : partsOf p xs = (xs.splitOnP p).filter (!·.isEmpty) := by
  rw [partsOf, splitOn_eq_splitOnP]

theorem flatten_partsOf (p : α → Bool) (xs : List α) : (partsOf p xs).flatten = xs.filter (!p ·) := by
  rw [partsOf_eq, List.flatten_filter_not_isEmpty, flatten_splitOnP]

theorem ne_nil_of_mem_partsOf (hpart : part ∈ partsOf p xs) : part ≠ [] := by
  simpa using (List.mem_filter.mp hpart).2

theorem not_of_mem_partsOf (hpart : part ∈ partsOf p xs) {x : α} (hx : x ∈ part) : p x = false := by
  rw [partsOf_eq] at hpart
  exact not_of_mem_splitOnP (List.mem_filter.mp hpart).1 hx

theorem partsOf_eq_nil_iff : partsOf p xs = [] ↔ ∀ x ∈ xs, p x = true := by
  have hflatten : partsOf p xs = [] ↔ (partsOf p xs).flatten = [] := by
    rw [List.flatten_eq_nil_iff, List.eq_nil_iff_forall_not_mem]
    exact forall_congr' fun part => ⟨fun hnot hmem => absurd hmem hnot, fun hnil hmem =>
      ne_nil_of_mem_partsOf hmem (hnil hmem)⟩
  rw [hflatten, flatten_partsOf, List.filter_eq_nil_iff]
  simp

theorem partsOf_map (p : β → Bool) (f : α → β) (xs : List α) :
    partsOf p (xs.map f) = (partsOf (p ∘ f) xs).map (List.map f) := by
  rw [partsOf_eq, partsOf_eq, splitOnP_map, List.filter_map]
  simp [Function.comp_def]

theorem partsOf_eq_flatMap (hqp : ∀ x, q x = true → p x = true) (xs : List α) :
    partsOf p xs = (partsOf q xs).flatMap (partsOf p) := by
  have hempty (parts : List (List α)) :
      (parts.filter (!·.isEmpty)).flatMap (partsOf p) = parts.flatMap (partsOf p) := by
    induction parts with
    | nil => rfl
    | cons part parts ih =>
        cases part with
        | nil => simpa [partsOf_eq] using ih
        | cons x part => simpa using ih
  rw [partsOf_eq q, hempty, partsOf_eq p, splitOnP_eq_flatMap hqp, List.filter_flatMap]
  congr 1
  funext part
  exact (partsOf_eq p part).symm

end Splitting

/-! ## Words and ends -/

theorem words_eq (text : String) : words text = (partsOf isBlank text.toList).map String.ofList := by
  -- the two folds go along with each other, the one that finds words without the empty parts
  let step (state : List (List Char) × List Char) (c : Char) : List (List Char) × List Char :=
    if isBlank c then (state.2.reverse :: state.1, []) else (state.1, c :: state.2)
  have hfold (cs : List Char) (done : List (List Char)) (last : List Char) :
      cs.foldl wordsStep (done.filter (!·.isEmpty), last) =
        ((cs.foldl step (done, last)).1.filter (!·.isEmpty), (cs.foldl step (done, last)).2) := by
    induction cs generalizing done last with
    | nil => rfl
    | cons c cs ih =>
        rw [List.foldl_cons, List.foldl_cons, wordsStep]
        by_cases hc : isBlank c = true
        · cases last with
          | nil => simpa [step, hc] using ih ([] :: done) []
          | cons d last => simpa [step, hc] using ih ((d :: last).reverse :: done) []
        · simpa [step, hc] using ih done (c :: last)
  have hstart := hfold text.toList [] []
  rw [List.filter_nil] at hstart
  have hparts : splitOn isBlank text.toList =
      ((text.toList.foldl step ([], [])).2.reverse :: (text.toList.foldl step ([], [])).1).reverse := rfl
  rw [words, partsOf, hstart, hparts]
  generalize text.toList.foldl step ([], []) = state
  cases state.2 <;> simp

theorem hasSuffix_singleton_iff {c : Char} {text : String} :
    hasSuffix (String.singleton c) text = true ↔ text.toList.getLast? = some c := by
  rw [hasSuffix, String.toList_singleton, ← List.head?_reverse]
  cases text.toList.reverse with
  | nil => simp
  | cons d rest => simpa using eq_comm

theorem toList_replaceText_singleton (c : Char) (new text : String) :
    (replaceText (String.singleton c) new text).toList =
      text.toList.flatMap fun d => if d = c then new.toList else [d] := by
  have hfrom (done cs : List Char) : replaceFrom [c] new.toList done cs =
      done.reverse ++ cs.flatMap fun d => if d = c then new.toList else [d] := by
    induction cs generalizing done with
    | nil => simp [replaceFrom]
    | cons d cs ih =>
        rw [replaceFrom]
        by_cases hd : d = c
        · subst hd
          simp [ih]
        · simp [hd, Ne.symm hd, ih]
  rw [replaceText, String.toList_singleton, hfrom, List.reverse_nil, List.nil_append, String.toList_ofList]

theorem containsText_iff {part text : String} : containsText part text = true ↔ part.toList <:+: text.toList := by
  have hindex (part xs : List Char) (seen : Nat) : (indexOf? part xs seen).isSome = true ↔ part <:+: xs := by
    induction xs generalizing seen with
    | nil =>
        rw [indexOf?, List.infix_nil]
        cases part <;> simp
    | cons x xs ih =>
        rw [indexOf?, List.infix_cons_iff]
        by_cases hpart : part.isPrefixOf (x :: xs) = true
        · simp [hpart, List.isPrefixOf_iff_prefix.mp hpart]
        · have hnot : ¬part <+: x :: xs := fun hprefix => hpart (List.isPrefixOf_iff_prefix.mpr hprefix)
          simpa [hpart, hnot] using ih (seen + 1)
  exact hindex part.toList text.toList 0

/-- What has no separator lies within one of the parts. -/
theorem infix_iff_exists_mem_splitOn {c : Char} {part xs : List Char} (hsome : part ≠ []) (hpart : c ∉ part) :
    part <:+: xs ↔ ∃ piece ∈ xs.splitOn c, part <:+: piece := by
  simp only [List.splitOn_eq_splitOnP]
  induction xs with
  | nil => simp [hsome]
  | cons x xs ih =>
      obtain ⟨first, others, hsplit⟩ := List.exists_cons_of_ne_nil (List.splitOnP_ne_nil (· == c) xs)
      rw [List.infix_cons_iff, ih, List.splitOnP_cons_eq_if_modifyHead, hsplit]
      by_cases hx : x = c
      · subst hx
        have hnot : ¬part <+: x :: xs := by
          intro hprefix
          obtain ⟨d, rest, rfl⟩ := List.exists_cons_of_ne_nil hsome
          exact hpart (by simp [(List.cons_prefix_cons.mp hprefix).1])
        simp [hnot, hsome]
      · obtain ⟨rest, rfl, hrest⟩ := exists_append_of_splitOnP hsplit
        have hhead : part <+: x :: (first ++ rest) ↔ part <+: x :: first :=
          prefix_append_iff (p := (· ≠ c)) (a := x :: first) (fun d hd heq => hpart (heq ▸ hd)) (by simpa using hrest)
        simp [hx, hhead, List.infix_cons_iff, or_assoc]

theorem replaceText_singleton (c : Char) (new text : String) :
    replaceText (String.singleton c) new text = new.intercalate (splitText c text) := by
  have hlists (cs : List Char) : (cs.flatMap fun d => if d = c then new.toList else [d]) =
      new.toList.intercalate (cs.splitOn c) := by
    induction cs with
    | nil => simp
    | cons d cs ih =>
        obtain ⟨first, others, hsplit⟩ := List.exists_cons_of_ne_nil (List.splitOn_ne_nil c cs)
        rw [List.flatMap_cons, ih, List.splitOn_cons_eq_if_modifyHead, hsplit]
        by_cases hd : d = c
        · simp [hd, List.intercalate_cons_cons]
        · cases others <;> simp [hd, List.intercalate_cons_cons]
  rw [← String.toList_inj, toList_replaceText_singleton, String.toList_intercalate, splitText_eq, List.map_map]
  simp [Function.comp_def, hlists]

end CodeAtlas
