import CodeAtlas.Extract.Heuristic
import CodeAtlas.Proofs.Pattern.Spans
import CodeAtlas.Proofs.Text.Words

/-!
# Declarations line by line

A line that some form of declaration fits gives one symbol, by the first form that fits it. The symbol
stands where its name is among the bytes of the line, whatever those are, and reaches to the end of the
line.
-/

namespace CodeAtlas

/-! ## Lines -/

section Lines

variable {α β : Type}

def dropReturn (isReturn : α → Bool) (xs : List α) : List α :=
  if xs.getLast?.any isReturn then xs.dropLast else xs

/-- Lines end with a line feed, and a carriage return before it belongs to the end. -/
def splitLines (isFeed isReturn : α → Bool) (xs : List α) : List (List α) :=
  let parts := xs.splitOnP isFeed
  parts.dropLast.map (dropReturn isReturn) ++ parts.getLast?.toList

def byteLines (bytes : List UInt8) : List (List UInt8) :=
  splitLines (· == 10) (· == 13) bytes

variable {isFeed isReturn : α → Bool} {xs ys : List α}

theorem splitLines_of_forall (h : ∀ x ∈ xs, isFeed x = false) :
    splitLines isFeed isReturn xs = [xs] := by
  rw [splitLines, List.splitOnP_eq_singleton h]
  rfl

theorem splitLines_append (h : ∀ x ∈ xs, isFeed x = false) {y : α} (hy : isFeed y = true) :
    splitLines isFeed isReturn (xs ++ y :: ys) =
      dropReturn isReturn xs :: splitLines isFeed isReturn ys := by
  rw [splitLines, List.splitOnP_append_cons_of_forall_mem h y hy, splitLines]
  have hsome := List.splitOnP_ne_nil isFeed ys
  simp only [List.dropLast_cons_of_ne_nil hsome, List.map_cons, List.cons_append,
    List.getLast?_cons_of_ne_nil hsome]

/-- A text is one line, or a line with its end before a text. -/
@[elab_as_elim]
theorem linesInduction (isFeed : α → Bool) {motive : List α → Prop}
    (line : ∀ xs, (∀ x ∈ xs, isFeed x = false) → motive xs)
    (lines : ∀ xs y ys, (∀ x ∈ xs, isFeed x = false) → isFeed y = true → motive ys →
      motive (xs ++ y :: ys)) (xs : List α) : motive xs := by
  induction hlength : xs.length using Nat.strongRecOn generalizing xs with
  | ind n ih =>
      cases hfind : xs.find? isFeed with
      | none => exact line xs fun x hx => Bool.not_eq_true _ ▸ List.find?_eq_none.mp hfind x hx
      | some y =>
          obtain ⟨hy, front, back, rfl, hfront⟩ := List.find?_eq_some_iff_append.mp hfind
          have hshorter : back.length < n := by
            rw [← hlength, List.length_append, List.length_cons]
            omega
          exact lines front y back (fun x hx => by simpa using hfront x hx) hy
            (ih _ hshorter back rfl)

/-- What is done to all that is in a line or to all ends of lines can be done line by line. -/
theorem map_splitLines {f : List α → List β} {isFeed' isReturn' : β → Bool}
    (hline : ∀ xs, (∀ x ∈ xs, isFeed x = false) → ∀ z ∈ f xs, isFeed' z = false)
    (hfeed : ∀ xs y ys, (∀ x ∈ xs, isFeed x = false) → isFeed y = true →
      ∃ z, isFeed' z = true ∧ f (xs ++ y :: ys) = f xs ++ z :: f ys)
    (hreturn : ∀ xs, f (dropReturn isReturn xs) = dropReturn isReturn' (f xs)) (xs : List α) :
    (splitLines isFeed isReturn xs).map f = splitLines isFeed' isReturn' (f xs) := by
  induction xs using linesInduction isFeed with
  | line xs hxs => rw [splitLines_of_forall hxs, splitLines_of_forall (hline xs hxs)]; rfl
  | lines xs y ys hxs hy ih =>
      obtain ⟨z, hz, heq⟩ := hfeed xs y ys hxs hy
      rw [splitLines_append hxs hy, heq, splitLines_append (hline xs hxs) hz, List.map_cons, ih,
        hreturn]

end Lines

section GlyphLines

def isFeed (g : Glyph) : Bool := g.char == '\n'

def isReturn (g : Glyph) : Bool := g.char == '\r'

def joinStep (done : Array Glyph) (g : Glyph) : Array Glyph :=
  if isFeed g && done.back?.any isReturn then done.pop.push g else done.push g

theorem joinLineEnds_eq (glyphs : List Glyph) :
    joinLineEnds glyphs = (glyphs.foldl joinStep #[]).toList := rfl

theorem foldl_joinStep_line {xs : List Glyph} (h : ∀ g ∈ xs, isFeed g = false) (done : Array Glyph) :
    xs.foldl joinStep done = done ++ xs.toArray := by
  induction xs generalizing done with
  | nil => simp
  | cons g xs ih =>
      obtain ⟨hg, hxs⟩ := List.forall_mem_cons.mp h
      have hstep : joinStep done g = done.push g := by simp [joinStep, hg]
      rw [List.foldl_cons, hstep, ih hxs]
      simp

theorem joinStep_feed {done : Array Glyph} (hdone : done.back?.any isReturn = false)
    (xs : List Glyph) {g : Glyph} (hg : isFeed g = true) :
    joinStep (done ++ xs.toArray) g = (done ++ (dropReturn isReturn xs).toArray).push g := by
  rcases List.eq_nil_or_concat' xs with rfl | ⟨xs, last, rfl⟩
  · simp [joinStep, hdone, dropReturn]
  · by_cases hlast : isReturn last = true
    · simp [joinStep, hg, hlast, dropReturn]
    · simp [joinStep, hlast, dropReturn]

theorem any_isReturn_push_feed (front : Array Glyph) {g : Glyph} (hg : isFeed g = true) :
    (front.push g).back?.any isReturn = false := by
  rw [isFeed, beq_iff_eq] at hg
  rw [Array.back?_push, Option.any_some, isReturn, hg]
  decide

/-- Line ends are joined one after the other, each by itself. -/
theorem toList_foldl_joinStep (done : Array Glyph) (hdone : done.back?.any isReturn = false)
    (glyphs : List Glyph) :
    (glyphs.foldl joinStep done).toList = done.toList ++ joinLineEnds glyphs := by
  rw [joinLineEnds_eq]
  induction glyphs using linesInduction isFeed generalizing done with
  | line xs hxs => simp [foldl_joinStep_line hxs]
  | lines xs g ys hxs hg ih =>
      rw [List.foldl_append, List.foldl_append, List.foldl_cons, List.foldl_cons,
        foldl_joinStep_line hxs, foldl_joinStep_line hxs, joinStep_feed hdone xs hg,
        joinStep_feed rfl xs hg, ih _ (any_isReturn_push_feed _ hg),
        ih _ (any_isReturn_push_feed _ hg)]
      simp

theorem joinLineEnds_of_forall {xs : List Glyph} (h : ∀ g ∈ xs, isFeed g = false) :
    joinLineEnds xs = xs := by
  rw [joinLineEnds_eq, foldl_joinStep_line h]
  simp

theorem joinLineEnds_append {xs ys : List Glyph} (h : ∀ g ∈ xs, isFeed g = false) {g : Glyph}
    (hg : isFeed g = true) :
    joinLineEnds (xs ++ g :: ys) = dropReturn isReturn xs ++ g :: joinLineEnds ys := by
  have hstep : joinStep (#[] ++ xs.toArray) g = (dropReturn isReturn xs).toArray.push g := by
    rw [joinStep_feed rfl xs hg, Array.empty_append]
  rw [joinLineEnds_eq, List.foldl_append, List.foldl_cons, foldl_joinStep_line h, hstep,
    toList_foldl_joinStep _ (any_isReturn_push_feed _ hg)]
  simp

theorem forall_dropReturn {α : Type} {isReturn : α → Bool} {p : α → Prop} {xs : List α}
    (h : ∀ x ∈ xs, p x) : ∀ x ∈ dropReturn isReturn xs, p x := by
  unfold dropReturn
  split
  · exact fun x hx => h x (List.mem_of_mem_dropLast hx)
  · exact h

theorem glyphLines_eq (glyphs : List Glyph) :
    glyphLines glyphs = splitLines isFeed isReturn glyphs := by
  have hsplit (xs : List Glyph) : glyphLines xs = (joinLineEnds xs).splitOnP isFeed :=
    splitOn_eq_splitOnP _ _
  rw [hsplit]
  induction glyphs using linesInduction isFeed with
  | line xs hxs =>
      rw [joinLineEnds_of_forall hxs, List.splitOnP_eq_singleton hxs, splitLines_of_forall hxs]
  | lines xs g ys hxs hg ih =>
      rw [joinLineEnds_append hxs hg, splitLines_append hxs hg,
        List.splitOnP_append_cons_of_forall_mem (forall_dropReturn hxs) g hg, ih]

theorem eq_of_mem_glyphsOfBytes {bytes : List UInt8} {g : Glyph} {back : List Glyph}
    {front : List Glyph} (h : glyphsOfBytes bytes = front ++ g :: back)
    (hascii : g.char.toNat < 0x80) :
    ∃ before after, bytes = before ++ g.char.toUInt8 :: after ∧ glyphsOfBytes after = back := by
  obtain ⟨rest, hrest, hback⟩ := eq_cons_of_glyphsOfBytes (glyphsOfBytes_drop h) hascii
  refine ⟨bytes.take (glyphBytes front), rest, ?_, hback⟩
  rw [← hrest, List.take_append_drop]

theorem glyphsOfBytes_concat (xs : List UInt8) {y : UInt8} (hy : y < 0x80) :
    glyphsOfBytes (xs ++ [y]) = glyphsOfBytes xs ++ [⟨Char.ofNat y.toNat, 1⟩] := by
  rw [glyphsOfBytes_append_ascii hy, glyphsOfBytes_nil]

theorem glyphsOfBytes_dropReturn (bytes : List UInt8) :
    glyphsOfBytes (dropReturn (· == 13) bytes) = dropReturn isReturn (glyphsOfBytes bytes) := by
  rcases List.eq_nil_or_concat' bytes with rfl | ⟨front, last, rfl⟩
  · rw [glyphsOfBytes_nil]
    exact glyphsOfBytes_nil
  by_cases hlast : last = 13
  · rw [hlast, glyphsOfBytes_concat front (y := 13) (by decide)]
    simp [dropReturn, isReturn]
  · have hkeep : dropReturn (· == 13) (front ++ [last]) = front ++ [last] := by
      simp [dropReturn, hlast]
    rw [hkeep]
    rcases List.eq_nil_or_concat' (glyphsOfBytes (front ++ [last])) with heq | ⟨before, g, heq⟩
    · rw [heq]
      rfl
    · have hg : isReturn g = false := by
        rw [isReturn, beq_eq_false_iff_ne]
        intro hreturn
        obtain ⟨start, after, hbytes, hafter⟩ :=
          eq_of_mem_glyphsOfBytes heq (by rw [hreturn]; decide)
        obtain rfl : after = [] := by
          have hlength := glyphBytes_glyphsOfBytes after
          rw [hafter, glyphBytes_nil] at hlength
          exact List.length_eq_zero_iff.mp hlength.symm
        have hsame := (List.append_inj' hbytes rfl).2
        rw [hreturn] at hsame
        exact hlast (List.singleton_inj.mp hsame)
      rw [heq]
      simp [dropReturn, hg]

/-- The glyphs of the lines are the lines of the glyphs. -/
theorem map_glyphsOfBytes_byteLines (bytes : List UInt8) :
    (byteLines bytes).map glyphsOfBytes = glyphLines (glyphsOfBytes bytes) := by
  rw [glyphLines_eq]
  refine map_splitLines ?_ ?_ glyphsOfBytes_dropReturn bytes
  · intro xs hxs g hg
    rw [isFeed, beq_eq_false_iff_ne]
    intro hfeed
    obtain ⟨front, back, heq⟩ := List.append_of_mem hg
    obtain ⟨before, after, rfl, -⟩ := eq_of_mem_glyphsOfBytes heq (by rw [hfeed]; decide)
    have hnot := hxs g.char.toUInt8 (by simp)
    rw [hfeed] at hnot
    exact absurd hnot (by decide)
  · intro xs y ys hxs hy
    obtain rfl : y = 10 := beq_iff_eq.mp hy
    exact ⟨⟨'\n', 1⟩, rfl, glyphsOfBytes_append_ascii (by decide) xs ys⟩

end GlyphLines

/-! ## One form of declaration -/

theorem contains_word_iff {c : Char} : CharSet.word.contains c = true ↔
    97 ≤ c.toNat ∧ c.toNat ≤ 122 ∨ 65 ≤ c.toNat ∧ c.toNat ≤ 90 ∨ 48 ≤ c.toNat ∧ c.toNat ≤ 57 ∨
      c.toNat = 95 := by
  simp only [CharSet.word, CharSet.oneOf, CharSet.contains, CharSet.span, CharSet.single,
    Bool.or_eq_true, Bool.and_eq_true, decide_eq_true_eq, Char.reduceToNat]
  omega

theorem isWordChar_of_contains_word {c : Char} (h : CharSet.word.contains c = true) :
    isWordChar c = true := by
  have hsmall : c.toNat < 128 := by
    rw [contains_word_iff] at h
    omega
  have hall : ∀ n < 128, CharSet.word.contains (Char.ofNat n) = true →
      isWordChar (Char.ofNat n) = true := by
    decide +kernel
  have hc := hall c.toNat hsmall
  rw [Char.ofNat_toNat] at hc
  exact hc h

namespace LinePattern

/-- The glyphs from place `i` to place `j` are a name from which the tail goes on. -/
structure Named (tail : Pattern) (line : List Glyph) (i j : Nat) : Prop where
  nonempty : i < j
  word : Pattern.Run line .word i j
  tail : ∃ k, tail.Spans line j k

/-- The form fits a line whose glyphs from place `i` to place `j` are the name. -/
def Fits (p : LinePattern) (line : List Glyph) (i j : Nat) : Prop :=
  p.lead.Spans line 0 i ∧ Named p.tail line i j

/-- The name from place `i` to place `j`, with the bytes before it. -/
def nameBetween (line : List Glyph) (i j : Nat) : NameMatch :=
  ⟨glyphBytes (line.take i), textOfGlyphs ((line.take j).drop i)⟩

section Name

variable {tail : Pattern} {line : List Glyph} {i : Nat}

theorem named_iff {j : Nat} (hrun : Pattern.Run line .word i j) :
    (decide ((Cursor.place line i).index < (Cursor.place line j).index) &&
      !(tail.ends (Cursor.place line j)).isEmpty) = true ↔ Named tail line i j := by
  rw [Bool.and_eq_true, decide_eq_true_iff, Bool.not_eq_true',
    (Pattern.lists_ends tail hrun.2.1).isEmpty_eq_false_iff]
  exact ⟨fun ⟨hlt, htail⟩ => ⟨hlt, hrun, htail⟩, fun h => ⟨h.nonempty, h.tail⟩⟩

theorem isSome_nameAt?_iff (hi : i ≤ line.length) :
    (nameAt? tail (Cursor.place line i)
        (Cursor.reach .word (line.drop i) (Cursor.place line i) [])).isSome = true ↔
      ∃ j, Named tail line i j := by
  rw [nameAt?, List.findSome?_isSome_iff]
  constructor
  · rintro ⟨c, hc, hsome⟩
    obtain ⟨j, hrun, rfl⟩ := ((Pattern.lists_reach hi).mem c).mp hc
    rw [Option.isSome_ite, named_iff hrun] at hsome
    exact ⟨j, hsome⟩
  · rintro ⟨j, h⟩
    refine ⟨_, (Pattern.lists_reach hi).mem_place.mpr h.word, ?_⟩
    rw [Option.isSome_ite, named_iff h.word]
    exact h

/-- The ends of the name are tried from the longest on. -/
theorem nameAt?_eq_some (hi : i ≤ line.length) {found : NameMatch}
    (h : nameAt? tail (Cursor.place line i)
        (Cursor.reach .word (line.drop i) (Cursor.place line i) []) = some found) :
    ∃ j, Named tail line i j ∧ (∀ j', Named tail line i j' → j' ≤ j) ∧
      found = nameBetween line i j := by
  have hlists : Lists line _ (Pattern.Run line .word i) := Pattern.lists_reach hi
  have hsorted := Pattern.pairwise_reach .word hi
  obtain ⟨longer, c, shorter, heq, hfound, hnone⟩ := List.findSome?_eq_some_iff.mp h
  obtain ⟨j, hrun, rfl⟩ := (hlists.mem c).mp (by rw [heq]; simp)
  rw [Option.ite_none_right_eq_some, named_iff hrun] at hfound
  refine ⟨j, hfound.1, fun j' hj' => ?_, ?_⟩
  · by_contra hlonger
    have hmem := hlists.mem_place.mpr hj'.word
    rw [heq] at hmem hsorted
    -- a longer name would have been tried before
    have hfirst : Cursor.place line j' ∈ longer := by
      rcases List.mem_append.mp hmem with hmem | hmem
      · exact hmem
      · rcases List.mem_cons.mp hmem with hsame | hmem
        · have hindex : j' = j := congrArg Cursor.index hsame
          omega
        · have hlt := List.rel_of_pairwise_cons (List.pairwise_append.mp hsorted).2.1 hmem
          simp only [Cursor.index_place] at hlt
          omega
    have hfails := hnone _ hfirst
    rw [if_pos ((named_iff hj'.word).mpr hj')] at hfails
    cases hfails
  · rw [← Option.some.inj hfound.2, nameBetween, List.drop_take]
    rfl

end Name

section Line

variable {p : LinePattern} {line : List Glyph}

theorem find?_eq (p : LinePattern) (line : List Glyph) :
    p.find? line = (p.lead.ends (Cursor.place line 0)).findSome? fun start =>
      nameAt? p.tail start (Cursor.reach .word start.rest start []) := rfl

theorem lists_lead (p : LinePattern) (line : List Glyph) :
    Lists line (p.lead.ends (Cursor.place line 0)) (p.lead.Spans line 0) :=
  Pattern.lists_ends p.lead (Nat.zero_le _)

theorem isSome_find?_iff : (p.find? line).isSome = true ↔ ∃ i j, p.Fits line i j := by
  rw [find?_eq, List.findSome?_isSome_iff]
  constructor
  · rintro ⟨c, hc, hsome⟩
    obtain ⟨i, hlead, rfl⟩ := ((lists_lead p line).mem c).mp hc
    obtain ⟨j, h⟩ := (isSome_nameAt?_iff (hlead.bounds (Nat.zero_le _)).2).mp hsome
    exact ⟨i, j, hlead, h⟩
  · rintro ⟨i, j, hlead, h⟩
    exact ⟨_, (lists_lead p line).mem_place.mpr hlead,
      (isSome_nameAt?_iff (hlead.bounds (Nat.zero_le _)).2).mpr ⟨j, h⟩⟩

theorem find?_eq_none_iff : p.find? line = none ↔ ∀ i j, ¬p.Fits line i j := by
  rw [← Option.not_isSome_iff_eq_none, isSome_find?_iff]
  simp only [not_exists]

/-- What is found is a name where the form fits, and the longest one from its first glyph. -/
theorem fits_of_find? {found : NameMatch} (h : p.find? line = some found) :
    ∃ i j, p.Fits line i j ∧ (∀ j', p.Fits line i j' → j' ≤ j) ∧ found = nameBetween line i j := by
  rw [find?_eq] at h
  obtain ⟨c, hc, hfound⟩ := List.exists_of_findSome?_eq_some h
  obtain ⟨i, hlead, rfl⟩ := ((lists_lead p line).mem c).mp hc
  obtain ⟨j, hnamed, hlongest, heq⟩ := nameAt?_eq_some (hlead.bounds (Nat.zero_le _)).2 hfound
  exact ⟨i, j, ⟨hlead, hnamed⟩, fun j' hj' => hlongest j' hj'.2, heq⟩

end Line

end LinePattern

/-! ## The symbols of a text -/

namespace Heuristic

/-- A symbol of a line: it bears a word of the line, begins where the word does, and reaches to the end
of the line. -/
structure ShownIn (s : Symbol) (row : Nat) (line : List UInt8) : Prop where
  nonempty : s.name ≠ ""
  word : ∀ c ∈ s.name.toList, isWordChar c = true
  first_line : s.first.line = row + 1
  column : ∃ column : Nat, s.first.column = column ∧ bytesOfText s.name <+: line.drop column ∧
    column + (bytesOfText s.name).length ≤ line.length
  last : s.last = ⟨row + 1, line.length⟩

/-- The first form that fits a line gives its symbol the kind, and the name that it finds: the longest
one from some place where it fits. -/
def DecidedBy (patterns : List LinePattern) (s : Symbol) (line : List Glyph) : Prop :=
  ∃ others p rest, patterns = others ++ p :: rest ∧ (∀ q ∈ others, ∀ i j, ¬q.Fits line i j) ∧
    s.kind = p.kind ∧ ∃ i j, p.Fits line i j ∧ (∀ j', p.Fits line i j' → j' ≤ j) ∧
      p.find? line = some ⟨glyphBytes (line.take i), s.name⟩ ∧
      s.first.column = glyphBytes (line.take i) ∧ s.name = textOfGlyphs ((line.take j).drop i)

theorem symbolIn?_append (patterns more : List LinePattern) (row : Nat) (line : List Glyph) :
    symbolIn? (patterns ++ more) row line =
      (symbolIn? patterns row line).or (symbolIn? more row line) := by
  rw [symbolIn?, List.findSome?_append]
  rfl

theorem lineSymbol?_eq (patterns : List LinePattern) (row : Nat) (line : List Glyph) :
    lineSymbol? patterns row line = symbolIn? (patterns ++ general) row line := by
  rw [symbolIn?_append]
  rfl

variable {patterns : List LinePattern} {row : Nat} {line : List Glyph} {s : Symbol}

theorem isSome_symbolIn?_iff (row : Nat) :
    (symbolIn? patterns row line).isSome = true ↔ ∃ p ∈ patterns, ∃ i j, p.Fits line i j := by
  rw [symbolIn?, List.findSome?_isSome_iff]
  simp only [Option.isSome_map, LinePattern.isSome_find?_iff]

theorem decidedBy_of_symbolIn? (h : symbolIn? patterns row line = some s) :
    DecidedBy patterns s line := by
  obtain ⟨others, p, rest, heq, hfound, hnone⟩ := List.findSome?_eq_some_iff.mp h
  obtain ⟨found, hfind, rfl⟩ := Option.map_eq_some_iff.mp hfound
  obtain ⟨i, j, hfits, hlongest, rfl⟩ := LinePattern.fits_of_find? hfind
  refine ⟨others, p, rest, heq, fun q hq => ?_, rfl, i, j, hfits, hlongest, hfind, rfl, rfl⟩
  exact LinePattern.find?_eq_none_iff.mp (Option.map_eq_none_iff.mp (hnone q hq))

theorem eq_append_between {α : Type} (xs : List α) {i j : Nat} (hij : i ≤ j) :
    xs = xs.take i ++ ((xs.take j).drop i ++ xs.drop j) := by
  calc xs = xs.take j ++ xs.drop j := (List.take_append_drop j xs).symm
    _ = ((xs.take j).take i ++ (xs.take j).drop i) ++ xs.drop j := by
      rw [List.take_append_drop i (xs.take j)]
    _ = xs.take i ++ ((xs.take j).drop i ++ xs.drop j) := by
      rw [List.take_take, Nat.min_eq_left hij, List.append_assoc]

theorem length_bytesOfText_pos {text : String} (h : text ≠ "") : 0 < (bytesOfText text).length := by
  obtain ⟨cs, rfl⟩ : ∃ cs, text = String.ofList cs := ⟨_, (String.ofList_toList).symm⟩
  rw [bytesOfText_ofList]
  cases cs with
  | nil => exact absurd rfl h
  | cons c cs =>
      rw [List.flatMap_cons, List.length_append, String.length_utf8EncodeChar]
      have := c.utf8Size_pos
      omega

theorem shownIn_of_symbolIn? {bytes : List UInt8}
    (h : symbolIn? patterns row (glyphsOfBytes bytes) = some s) : ShownIn s row bytes := by
  obtain ⟨p, -, hfound⟩ := List.exists_of_findSome?_eq_some h
  obtain ⟨found, hfind, rfl⟩ := Option.map_eq_some_iff.mp hfound
  obtain ⟨i, j, ⟨-, hnamed⟩, -, rfl⟩ := LinePattern.fits_of_find? hfind
  obtain ⟨hij, hj, hword⟩ := hnamed.word
  have hlt := hnamed.nonempty
  have hcut := eq_append_between (glyphsOfBytes bytes) hij
  have hprefix := bytesOfText_prefix_drop hcut fun g hg => by
    have := contains_word_iff.mp (hword g hg)
    omega
  have hname : textOfGlyphs (((glyphsOfBytes bytes).take j).drop i) ≠ "" := by
    intro hempty
    have hnil := congrArg (fun text => text.toList.length) hempty
    simp only [textOfGlyphs, String.toList_ofList, List.length_map, List.length_drop,
      List.length_take, String.toList_empty, List.length_nil] at hnil
    omega
  refine ⟨hname, ?_, rfl, ⟨_, rfl, hprefix, ?_⟩, ?_⟩
  · intro c hc
    simp only [LinePattern.nameBetween, textOfGlyphs, String.toList_ofList, List.mem_map] at hc
    obtain ⟨g, hg, rfl⟩ := hc
    exact isWordChar_of_contains_word (hword g hg)
  · have hlength := hprefix.length_le
    have hpos := length_bytesOfText_pos hname
    rw [List.length_drop] at hlength
    simp only [LinePattern.nameBetween]
    omega
  · rw [glyphBytes_glyphsOfBytes]

theorem mem_symbols_extract_iff {language : Language} {glyphs : List Glyph} :
    s ∈ (extract language glyphs).symbols ↔
      ∃ row line, (glyphLines glyphs)[row]? = some line ∧
        symbolIn? (patternsFor language ++ general) row line = some s := by
  simp only [extract, List.mem_filterMap, lineSymbol?_eq, Prod.exists, List.mem_zipIdx_iff_getElem?]
  constructor
  · rintro ⟨line, row, hline, hs⟩
    exact ⟨row, line, hline, hs⟩
  · rintro ⟨row, line, hline, hs⟩
    exact ⟨line, row, hline, hs⟩

theorem line_of_symbolIn? (h : symbolIn? patterns row line = some s) : s.first.line = row + 1 := by
  obtain ⟨p, -, hfound⟩ := List.exists_of_findSome?_eq_some h
  obtain ⟨found, -, rfl⟩ := Option.map_eq_some_iff.mp hfound
  rfl

theorem pairwise_symbols_extract (language : Language) (glyphs : List Glyph) :
    (extract language glyphs).symbols.Pairwise fun s t => s.first.line < t.first.line := by
  rw [extract, List.pairwise_filterMap]
  have hrows : ((glyphLines glyphs).zipIdx).Pairwise fun x y => x.2 < y.2 := by
    rw [← List.pairwise_map, List.zipIdx_map_snd]
    exact List.pairwise_lt_range'
  refine hrows.imp fun {x y} hlt s hs t ht => ?_
  have hs' := line_of_symbolIn? ((lineSymbol?_eq _ x.2 x.1).symm.trans hs)
  have ht' := line_of_symbolIn? ((lineSymbol?_eq _ y.2 y.1).symm.trans ht)
  omega

theorem getElem?_glyphLines_iff {content : List UInt8} {row : Nat} {line : List Glyph} :
    (glyphLines (glyphsOfBytes content))[row]? = some line ↔
      ∃ bytes, (byteLines content)[row]? = some bytes ∧ glyphsOfBytes bytes = line := by
  rw [← map_glyphsOfBytes_byteLines, List.getElem?_map, Option.map_eq_some_iff]

/-- Symbols stand at their names: one for each line that a form of declaration fits, the forms of the
language before the general ones. -/
theorem extract_shows_names (language : Language) (content : List UInt8) :
    let found := extract language (glyphsOfBytes content)
    let patterns := patternsFor language ++ general
    found.usages = [] ∧
      found.symbols.Pairwise (fun s t => s.first.line < t.first.line) ∧
      (∀ s ∈ found.symbols, ∃ row line, (byteLines content)[row]? = some line ∧
        ShownIn s row line ∧ DecidedBy patterns s (glyphsOfBytes line)) ∧
      ∀ (row : Nat) line, (byteLines content)[row]? = some line →
        ((∃ s ∈ found.symbols, s.first.line = row + 1) ↔
          ∃ p ∈ patterns, ∃ i j, p.Fits (glyphsOfBytes line) i j) := by
  intro found patterns
  refine ⟨rfl, pairwise_symbols_extract language _, fun s hs => ?_, fun row line hline => ?_⟩
  · obtain ⟨row, line, hline, hsymbol⟩ := mem_symbols_extract_iff.mp hs
    obtain ⟨bytes, hbytes, rfl⟩ := getElem?_glyphLines_iff.mp hline
    exact ⟨row, bytes, hbytes, shownIn_of_symbolIn? hsymbol, decidedBy_of_symbolIn? hsymbol⟩
  · rw [← isSome_symbolIn?_iff row]
    constructor
    · rintro ⟨s, hs, hrow⟩
      obtain ⟨row', line', hline', hsymbol⟩ := mem_symbols_extract_iff.mp hs
      have hsame : row' = row := by
        have := line_of_symbolIn? hsymbol
        omega
      have hline'' := getElem?_glyphLines_iff.mpr ⟨line, hline, rfl⟩
      rw [hsame, hline''] at hline'
      rw [hsame, ← Option.some.inj hline'] at hsymbol
      exact Option.isSome_of_mem hsymbol
    · intro hsome
      obtain ⟨s, hs⟩ := Option.isSome_iff_exists.mp hsome
      exact ⟨s, mem_symbols_extract_iff.mpr ⟨row, _, getElem?_glyphLines_iff.mpr ⟨line, hline, rfl⟩, hs⟩,
        line_of_symbolIn? hs⟩

end Heuristic

end CodeAtlas
