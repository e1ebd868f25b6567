import CodeAtlas.Proofs.Text.Glyphs
import CodeAtlas.Source.Scanner
import Mathlib.Tactic.SplitIfs

/-!
# Scanning moves on

The eye of the scanner only moves forward, and whatever it reads it stays at a true offset of the text.
Each token therefore starts behind the one before it, unless it is the end of the text.
-/

namespace CodeAtlas.Source

namespace Scanner

/-- The glyphs from the eye on. -/
def ahead (s : Scanner) : List Glyph := s.current.toList ++ s.rest

/-- A scanner at a true offset of a text whose glyphs are all some bytes wide. -/
structure Sound (s : Scanner) : Prop where
  unread : s.unread = s.rest.length
  ended : s.current = none → s.rest = []
  widths : ∀ g ∈ s.ahead, 0 < g.width
  size : s.offset + glyphBytes s.ahead = s.table.size

theorem Sound.offset_le {s : Scanner} (h : s.Sound) : s.offset ≤ s.table.size := by
  rw [← h.size]
  exact Nat.le_add_right _ _

/-- One state of a scanner comes before another in the same text. -/
structure Reaches (s t : Scanner) : Prop where
  sound : s.Sound → t.Sound
  offset : s.offset ≤ t.offset
  unread : t.unread ≤ s.unread
  size : t.table.size = s.table.size
  starts : t.table.starts = s.table.starts
  counts : t.lineEndCounts = s.lineEndCounts
  pending : t.pendingLineEnd = s.pendingLineEnd

variable {s t u : Scanner}

@[refl]
theorem Reaches.refl (s : Scanner) : s.Reaches s :=
  ⟨id, Nat.le_refl _, Nat.le_refl _, rfl, rfl, rfl, rfl⟩

@[trans]
theorem Reaches.trans (h : s.Reaches t) (h' : t.Reaches u) : s.Reaches u where
  sound hs := h'.sound (h.sound hs)
  offset := Nat.le_trans h.offset h'.offset
  unread := Nat.le_trans h'.unread h.unread
  size := h'.size.trans h.size
  starts := h'.starts.trans h.starts
  counts := h'.counts.trans h.counts
  pending := h'.pending.trans h.pending

theorem reaches_complain (s : Scanner) (offset : Nat) : s.Reaches (s.complain offset) :=
  ⟨fun h => ⟨h.unread, h.ended, h.widths, h.size⟩, Nat.le_refl _, Nat.le_refl _, rfl, rfl, rfl, rfl⟩

/-- The offset behind the glyph under the eye. -/
def behind (s : Scanner) : Nat := s.offset + (s.current.map Glyph.width).getD 0

theorem next_of_nil (h : s.rest = []) :
    s.next = { s with
      offset := s.behind
      lineOffset := if s.sees '\n' then s.behind else s.lineOffset
      current := none } := by
  rw [next, h]
  rfl

theorem next_of_cons {g : Glyph} {rest : List Glyph} (h : s.rest = g :: rest) :
    ∃ complaints, s.next = { s with
      offset := s.behind
      lineOffset := if s.sees '\n' then s.behind else s.lineOffset
      current := some g
      rest := rest
      unread := s.unread - 1
      complaints := complaints } := by
  rw [next, h]
  dsimp only
  split
  · exact ⟨_, rfl⟩
  split
  · exact ⟨_, rfl⟩
  split
  · exact ⟨_, rfl⟩
  · exact ⟨_, rfl⟩

theorem reaches_next (s : Scanner) : s.Reaches s.next := by
  have hbehind : s.offset ≤ s.behind := Nat.le_add_right _ _
  cases hrest : s.rest with
  | nil =>
      rw [next_of_nil hrest]
      refine ⟨fun hs => ⟨hs.unread, fun _ => hrest, ?_, ?_⟩, hbehind, Nat.le_refl _, rfl, rfl, rfl, rfl⟩
      · simp [ahead, hrest]
      · have hsize := hs.size
        cases hcurrent : s.current <;> simpa [ahead, behind, hrest, hcurrent] using hsize
  | cons g rest =>
      obtain ⟨complaints, hnext⟩ := next_of_cons hrest
      rw [hnext]
      refine ⟨fun hs => ⟨?_, ?_, ?_, ?_⟩, hbehind, Nat.sub_le _ _, rfl, rfl, rfl, rfl⟩
      · rw [hs.unread, hrest]
        rfl
      · intro hnone
        cases hnone
      · intro g' hg'
        exact hs.widths g' (by simp [ahead, hrest] at hg' ⊢; tauto)
      · have hsize := hs.size
        simp only [ahead, hrest, glyphBytes_append, glyphBytes_cons, Option.toList_some,
          glyphBytes_nil, behind] at hsize ⊢
        cases hcurrent : s.current <;> simp [hcurrent] at hsize ⊢ <;> omega

theorem Sound.next (h : s.Sound) : s.next.Sound := (reaches_next s).sound h

/-- With a glyph under its eye the scanner moves on. -/
theorem Sound.offset_lt_next (h : s.Sound) {c : Char} (hc : s.ch = some c) :
    s.offset < s.next.offset := by
  obtain ⟨g, hg, -⟩ := Option.map_eq_some_iff.mp hc
  have hwidth : 0 < g.width := h.widths g (by simp [ahead, hg])
  have hoffset : s.next.offset = s.behind := by
    cases hrest : s.rest with
    | nil => rw [next_of_nil hrest]
    | cons g' rest =>
        obtain ⟨complaints, hnext⟩ := next_of_cons hrest
        rw [hnext]
  rw [hoffset, behind, hg]
  exact Nat.lt_add_of_pos_right hwidth

theorem Sound.unread_next (h : s.Sound) {c : Char} (hc : s.next.ch = some c) :
    s.next.unread < s.unread := by
  cases hrest : s.rest with
  | nil =>
      rw [next_of_nil hrest] at hc
      cases hc
  | cons g rest =>
      obtain ⟨complaints, hnext⟩ := next_of_cons hrest
      have hunread := h.unread
      rw [hrest, List.length_cons] at hunread
      rw [hnext]
      change s.unread - 1 < s.unread
      omega

/-! ## Runs of characters -/

theorem reaches_skipWhile (p : Char → Bool) (fuel : Nat) (s : Scanner) (done : String) :
    s.Reaches (skipWhile p fuel s done).1 := by
  induction fuel generalizing s done with
  | zero => exact .refl s
  | succ fuel ih =>
      rw [skipWhile]
      split
      · split
        · exact (reaches_next s).trans (ih s.next _)
        · exact .refl s
      · exact .refl s

theorem length_le_skipWhile (p : Char → Bool) (fuel : Nat) (s : Scanner) (done : String) :
    done.length ≤ (skipWhile p fuel s done).2.length := by
  induction fuel generalizing s done with
  | zero => exact Nat.le_refl _
  | succ fuel ih =>
      rw [skipWhile]
      split
      · split
        · refine Nat.le_trans ?_ (ih s.next _)
          rw [String.length_push]
          exact Nat.le_succ _
        · exact Nat.le_refl _
      · exact Nat.le_refl _

theorem reaches_takeWhile (p : Char → Bool) (s : Scanner) : s.Reaches (s.takeWhile p).1 :=
  reaches_skipWhile p _ s ""

/-- A run that starts with the character under the eye is not empty. -/
theorem Sound.takeWhile_of_ch (h : s.Sound) {p : Char → Bool} {c : Char} (hc : s.ch = some c)
    (hp : p c = true) :
    s.offset < (s.takeWhile p).1.offset ∧ (s.takeWhile p).2 ≠ "" := by
  have hfirst : s.takeWhile p = skipWhile p s.unread s.next ("".push c) := by
    rw [takeWhile, left, skipWhile, hc]
    exact if_pos hp
  rw [hfirst]
  refine ⟨Nat.lt_of_lt_of_le (h.offset_lt_next hc) (reaches_skipWhile p _ _ _).offset, fun hempty => ?_⟩
  have hlength := length_le_skipWhile p s.unread s.next ("".push c)
  rw [hempty] at hlength
  simp at hlength

theorem takeWhile_of_none (p : Char → Bool) (h : s.ch = none) : s.takeWhile p = (s, "") := by
  rw [takeWhile, left, skipWhile, h]

theorem reaches_skipSpace (s : Scanner) : s.Reaches s.skipSpace := reaches_takeWhile _ s

theorem reaches_digits (s : Scanner) (base : Nat) : s.Reaches (s.digits base).1 :=
  reaches_takeWhile _ s

/-! ## Literals -/

theorem Reaches.complainIf (h : s.Reaches t) (b : Bool) (offset : Nat) :
    s.Reaches (if b then t.complain offset else t) := by
  split
  · exact h.trans (reaches_complain t offset)
  · exact h

theorem Reaches.next (h : s.Reaches t) : s.Reaches t.next := h.trans (reaches_next t)

theorem Reaches.digits (h : s.Reaches t) (base : Nat) : s.Reaches (t.digits base).1 :=
  h.trans (reaches_digits t base)

/-! ### Numbers

A number is read part by part: the mark of its base, the digits before the point, those behind it, and an
exponent. What a part needs of the text before it are its arguments here. -/

/-- What marks the base of a number, the base, and the letter or zero that stands for it. -/
def baseMark (s : Scanner) : Scanner × String × Nat × Char :=
  if s.sees '0' then
    let s := s.next
    let marked := "0" ++ String.ofList s.ch.toList
    match s.ch.map lowerAscii with
    | some 'x' => (s.next, marked, 16, 'x')
    | some 'o' => (s.next, marked, 8, 'o')
    | some 'b' => (s.next, marked, 2, 'b')
    | _ => (s, "0", 8, '0')
  else (s, "", 10, ' ')

def integerPart (fromPoint : Bool) (base : Nat) (s : Scanner) : Scanner × String × Bool × Bool :=
  if fromPoint then (s, "", false, false) else s.digits base

def fractionPart (start base : Nat) (mark : Char) (s : Scanner) : Scanner × String × Bool :=
  if s.sees '.' then
    let s := if mark == 'o' || mark == 'b' then s.complain start else s
    let (s, fraction, any, _) := s.next.digits base
    (s, "." ++ fraction, any)
  else (s, "", false)

def exponentPart (start : Nat) (mark : Char) (hasPoint : Bool) (s : Scanner) : Scanner × String :=
  let e := s.ch.map lowerAscii
  if e == some 'e' || e == some 'p' then
    let s := if (e == some 'e' && mark != ' ' && mark != '0') || (e == some 'p' && mark != 'x') then
      s.complain start else s
    let letter := String.ofList s.ch.toList
    let s := s.next
    let (s, sign) :=
      if s.sees '+' || s.sees '-' then (s.next, String.ofList s.ch.toList) else (s, "")
    let (s, ds, any, _) := s.digits 10
    (if !any then s.complain start else s, letter ++ sign ++ ds)
  else (if mark == 'x' && hasPoint then s.complain start else s, "")

/-- The parts of a number follow each other; between and behind them there may be complaints. -/
theorem scanNumber_parts (s : Scanner) :
    let mark := s.baseMark
    let whole := integerPart (s.sees '.') mark.2.2.1 mark.1
    let fraction := fractionPart s.offset mark.2.2.1 mark.2.2.2 whole.1
    ∃ missing misplaced bad : Bool,
      let exponent := exponentPart s.offset mark.2.2.2 (whole.1.sees '.')
        (if missing then fraction.1.complain s.offset else fraction.1)
      let suffixed := if exponent.1.sees 'i' then (exponent.1.next, "i") else (exponent.1, "")
      let t := if misplaced then suffixed.1.complain s.offset else suffixed.1
      s.scanNumber.1 = if bad then t.complain s.offset else t :=
  ⟨_, _, _, rfl⟩

theorem baseMark_moves (hs : s.Sound) {c : Char} (hc : s.ch = some c) : s.Reaches s.baseMark.1 ∧
    (s.offset < s.baseMark.1.offset ∨ s.baseMark.1 = s ∧ s.baseMark.2.2.1 = 10) := by
  have hnext : s.offset < s.next.offset := hs.offset_lt_next hc
  have hmark : s.Reaches s.next.next ∧ s.offset < s.next.next.offset :=
    ⟨(reaches_next s).next, Nat.lt_of_lt_of_le hnext (reaches_next s.next).offset⟩
  unfold baseMark
  split
  · dsimp only
    split
    · exact ⟨hmark.1, .inl hmark.2⟩
    · exact ⟨hmark.1, .inl hmark.2⟩
    · exact ⟨hmark.1, .inl hmark.2⟩
    · exact ⟨reaches_next s, .inl hnext⟩
  · exact ⟨.refl s, .inr ⟨rfl, rfl⟩⟩

theorem reaches_integerPart (fromPoint : Bool) (base : Nat) (s : Scanner) :
    s.Reaches (integerPart fromPoint base s).1 := by
  unfold integerPart
  split
  · exact .refl s
  · exact reaches_digits s base

theorem Sound.lt_integerPart (hs : s.Sound) {c : Char} (hc : s.ch = some c) (hdigit : c.isDigit = true) :
    s.offset < (integerPart false 10 s).1.offset :=
  (hs.takeWhile_of_ch hc (by simp [hdigit])).1

theorem reaches_fractionPart (start base : Nat) (mark : Char) (s : Scanner) :
    s.Reaches (fractionPart start base mark s).1 := by
  unfold fractionPart
  split
  · exact ((Reaches.refl s).complainIf _ start).next.digits base
  · exact .refl s

theorem Sound.lt_fractionPart (hs : s.Sound) (hpoint : s.ch = some '.') (start base : Nat) (mark : Char) :
    s.offset < (fractionPart start base mark s).1.offset := by
  have hsees : s.sees '.' = true := by simp [sees, hpoint]
  have hnext : s.offset < ((if mark == 'o' || mark == 'b' then s.complain start else s).next).offset := by
    split
    · exact ((reaches_complain s start).sound hs).offset_lt_next (c := '.') hpoint
    · exact hs.offset_lt_next hpoint
  unfold fractionPart
  rw [if_pos hsees]
  exact Nat.lt_of_lt_of_le hnext (reaches_digits _ base).offset

theorem reaches_exponentPart (start : Nat) (mark : Char) (hasPoint : Bool) (s : Scanner) :
    s.Reaches (exponentPart start mark hasPoint s).1 := by
  unfold exponentPart
  dsimp only
  split
  · have hsign (t : Scanner) : t.Reaches
        (if t.sees '+' || t.sees '-' then (t.next, String.ofList t.ch.toList) else (t, "")).1 := by
      split
      · exact reaches_next t
      · exact .refl t
    exact ((((Reaches.refl s).complainIf _ start).next.trans (hsign _)).digits 10).complainIf _ start
  · exact (Reaches.refl s).complainIf _ start

/-- A number has at least the digit or the point that it starts with. -/
theorem scanNumber_spec (hs : s.Sound) {c : Char} (hc : s.ch = some c)
    (hstart : c.isDigit = true ∨ c = '.') :
    s.Reaches s.scanNumber.1 ∧ s.offset < s.scanNumber.1.offset := by
  obtain ⟨missing, misplaced, bad, hparts⟩ := scanNumber_parts s
  obtain ⟨hmark, hmoved⟩ := baseMark_moves hs hc
  have hwhole := reaches_integerPart (s.sees '.') s.baseMark.2.2.1 s.baseMark.1
  have hfraction := reaches_fractionPart s.offset s.baseMark.2.2.1 s.baseMark.2.2.2
    (integerPart (s.sees '.') s.baseMark.2.2.1 s.baseMark.1).1
  -- a digit is passed with the whole part at the latest, and a point with the fraction
  have hpassed : s.offset < (fractionPart s.offset s.baseMark.2.2.1 s.baseMark.2.2.2
      (integerPart (s.sees '.') s.baseMark.2.2.1 s.baseMark.1).1).1.offset := by
    obtain hmoved | ⟨hsame, hbase⟩ := hmoved
    · exact Nat.lt_of_lt_of_le hmoved (hwhole.trans hfraction).offset
    · rw [hsame, hbase] at hfraction ⊢
      by_cases hpoint : c = '.'
      · have hsees : s.sees '.' = true := by simp [sees, hc, hpoint]
        rw [hsees]
        exact hs.lt_fractionPart (hpoint ▸ hc) _ _ _
      · have hsees : s.sees '.' = false := by simp [sees, hc, hpoint]
        rw [hsees] at hfraction ⊢
        exact Nat.lt_of_lt_of_le (hs.lt_integerPart hc (hstart.resolve_right hpoint)) hfraction.offset
  have hrest : (fractionPart s.offset s.baseMark.2.2.1 s.baseMark.2.2.2
      (integerPart (s.sees '.') s.baseMark.2.2.1 s.baseMark.1).1).1.Reaches s.scanNumber.1 := by
    have hsuffix (t : Scanner) : t.Reaches (if t.sees 'i' then (t.next, "i") else (t, "")).1 := by
      split
      · exact reaches_next t
      · exact .refl t
    rw [hparts]
    exact ((((Reaches.refl _).complainIf missing _).trans (reaches_exponentPart ..)).trans
      (hsuffix _)).complainIf misplaced _ |>.complainIf bad _
  exact ⟨(hmark.trans (hwhole.trans hfraction)).trans hrest, Nat.lt_of_lt_of_le hpassed hrest.offset⟩

/-! ### Strings and characters -/

theorem reaches_escapeDigits (base count value : Nat) (s : Scanner) (done : String) :
    s.Reaches (escapeDigits base count value s done).1 := by
  induction count generalizing value s done with
  | zero => exact .refl s
  | succ count ih =>
      rw [escapeDigits]
      split
      · split
        · exact (reaches_next s).trans (ih _ s.next _)
        · exact reaches_complain s _
      · exact reaches_complain s _

theorem reaches_scanEscape (quote : Char) (s : Scanner) : s.Reaches (scanEscape quote s).1 := by
  unfold scanEscape
  extract_lets start numeric
  have hnumeric (count base limit : Nat) {t : Scanner} (h : s.Reaches t) :
      s.Reaches (numeric count base limit t).1 := by
    have hdigits := h.trans (reaches_escapeDigits base count 0 t "")
    simp only [numeric]
    split
    · rename_i t' value text heq
      rw [heq] at hdigits
      split
      · exact hdigits.trans (reaches_complain t' _)
      · exact hdigits
    · rename_i t' heq
      rwa [heq] at hdigits
  split
  · exact reaches_complain s _
  · split_ifs
    · exact reaches_next s
    · exact hnumeric _ _ _ (.refl s)
    · exact hnumeric _ _ _ (reaches_next s)
    · exact hnumeric _ _ _ (reaches_next s)
    · exact hnumeric _ _ _ (reaches_next s)
    · exact reaches_complain s _

theorem reaches_scanQuoted (quote : Char) (always : Bool) (start fuel : Nat) (s : Scanner) (n : Nat)
    (valid : Bool) : s.Reaches (scanQuoted quote always start fuel s n valid).1 := by
  induction fuel generalizing s n valid with
  | zero => exact .refl s
  | succ fuel ih =>
      have hunfinished : s.Reaches
          (if valid || always then (s.complain start, n, false) else (s, n, valid)).1 := by
        split
        · exact reaches_complain s _
        · exact .refl s
      rw [scanQuoted]
      split
      · exact hunfinished
      · exact hunfinished
      · split_ifs
        · exact reaches_next s
        · exact ((reaches_next s).trans (reaches_scanEscape quote _)).trans (ih _ _ _)
        · exact (reaches_next s).trans (ih _ _ _)

theorem reaches_scanRaw (start fuel : Nat) (s : Scanner) : s.Reaches (scanRaw start fuel s) := by
  induction fuel generalizing s with
  | zero => exact .refl s
  | succ fuel ih =>
      rw [scanRaw]
      split
      · exact reaches_complain s _
      · split
        · exact reaches_next s
        · exact (reaches_next s).trans (ih _)

/-! ## Comments -/

/-- The first line end of a block comment is one of those that are passed. -/
theorem scanBlock_spec (fuel : Nat) (s : Scanner) (lineEnd : Option Nat) :
    s.Reaches (scanBlock fuel s lineEnd).1 ∧
      (s.Sound → ∀ offset, (scanBlock fuel s lineEnd).2.2 = some offset →
        lineEnd = some offset ∨ s.offset ≤ offset ∧ offset < (scanBlock fuel s lineEnd).1.offset) := by
  induction fuel generalizing s lineEnd with
  | zero => exact ⟨.refl s, fun _ offset h => Or.inl h⟩
  | succ fuel ih =>
      rw [scanBlock]
      split
      · exact ⟨.refl s, fun _ offset h => Or.inl h⟩
      · rename_i c hc
        extract_lets lineEnd' s'
        have hnext : s.Reaches s' := reaches_next s
        -- a line end under the eye is passed at once
        have hhere (hs : s.Sound) {offset : Nat} (h : lineEnd' = some offset) :
            lineEnd = some offset ∨ s.offset ≤ offset ∧ offset < s'.offset := by
          simp only [lineEnd'] at h
          split at h
          · rcases Option.or_eq_some_iff.mp h with h | ⟨-, h⟩
            · exact Or.inl h
            · obtain rfl := Option.some.inj h
              exact Or.inr ⟨Nat.le_refl _, hs.offset_lt_next hc⟩
          · exact Or.inl h
        split
        · exact ⟨hnext.next, fun hs offset h => (hhere hs h).imp id fun h =>
            ⟨h.1, Nat.lt_of_lt_of_le h.2 (reaches_next s').offset⟩⟩
        · obtain ⟨hrest, hends⟩ := ih s' lineEnd'
          refine ⟨hnext.trans hrest, fun hs offset h => ?_⟩
          rcases hends (hnext.sound hs) offset h with h | h
          · exact (hhere hs h).imp id fun h => ⟨h.1, Nat.lt_of_lt_of_le h.2 hrest.offset⟩
          · exact Or.inr ⟨Nat.le_trans hnext.offset h.1, h.2⟩

theorem addInfo_size (table : LineTable) (info : LineInfo) : (table.addInfo info).size = table.size := by
  unfold LineTable.addInfo
  extract_lets after
  split <;> rfl

theorem addInfo_starts (table : LineTable) (info : LineInfo) :
    (table.addInfo info).starts = table.starts := by
  unfold LineTable.addInfo
  extract_lets after
  split <;> rfl

theorem reaches_addInfo (s : Scanner) (info : LineInfo) :
    s.Reaches { s with table := s.table.addInfo info } :=
  ⟨fun h => ⟨h.unread, h.ended, h.widths, h.size.trans (addInfo_size _ _).symm⟩, Nat.le_refl _,
    Nat.le_refl _, addInfo_size _ _, addInfo_starts _ _, rfl, rfl⟩

theorem reaches_directive (s : Scanner) (start next : Nat) (text : List Char) :
    s.Reaches (s.directive start next text) := by
  unfold directive
  extract_lets complainAfter bad
  have hcomplain (part : List Char) : s.Reaches (complainAfter part) := reaches_complain s _
  split
  · exact .refl s
  · exact hcomplain _
  · split
    · split_ifs
      · exact hcomplain _
      · exact hcomplain _
      · exact reaches_addInfo s _
    · split_ifs
      · exact hcomplain _
      · exact reaches_addInfo s _

theorem Reaches.directiveIf (h : s.Reaches t) (b : Bool) (start next : Nat) (text : List Char) :
    s.Reaches (if b then t.directive start next text else t) := by
  split
  · exact h.trans (reaches_directive t _ _ _)
  · exact h

theorem scanComment_spec (s : Scanner) :
    s.Reaches s.scanComment.1 ∧
      (s.Sound → ∀ offset, s.scanComment.2 = some offset →
        s.offset ≤ offset ∧ offset < s.scanComment.1.offset) := by
  have hnext := reaches_next s
  unfold scanComment
  extract_lets start s₁ 
  split
  · split
    rename_i s₂ text htake
    have h₂ : s.Reaches s₂ := by
      have heq : (s₁.takeWhile (· != '\n')).1 = s₂ := congrArg Prod.fst htake
      exact heq ▸ hnext.trans (reaches_takeWhile _ s₁)
    exact ⟨h₂.directiveIf _ _ _ _, fun _ _ h => by cases h⟩
  · obtain ⟨hblock, hends⟩ := scanBlock_spec s₁.left s₁ none
    split
    rename_i s₂ closed lineEnd heq
    rw [heq] at hblock hends
    have hline (hs : s.Sound) {offset : Nat} (h : lineEnd = some offset) :
        s.offset ≤ offset ∧ offset < s₂.offset := by
      rcases hends (hnext.sound hs) offset h with h | h
      · cases h
      · exact ⟨Nat.le_trans hnext.offset h.1, h.2⟩
    split
    · extract_lets text s₃
      have h₃ : s₂.Reaches s₃ := (Reaches.refl s₂).directiveIf _ _ _ _
      exact ⟨(hnext.trans hblock).trans h₃, fun hs offset h =>
        ⟨(hline hs h).1, Nat.lt_of_lt_of_le (hline hs h).2 h₃.offset⟩⟩
    · exact ⟨(hnext.trans hblock).trans (reaches_complain s₂ _), fun hs offset h => hline hs h⟩

/-! ## Tokens -/

theorem reaches_scanOperator {c : Char} {text : String} (h : scanOperator c s = some (t, text)) :
    s.Reaches t := by
  have hassign (s : Scanner) (text : String) :
      s.Reaches (if s.sees '=' then (s.next, text ++ "=") else (s, text)).1 := by
    split
    · exact reaches_next s
    · exact .refl s
  have hsame {r : Scanner × String} (h : some r = some (t, text)) : r.1 = t :=
    congrArg Prod.fst (Option.some.inj h)
  unfold scanOperator at h
  extract_lets one assign shown at h
  -- every operator is what has been passed, one or two glyphs more, and possibly an equals sign
  split at h
  all_goals try split_ifs at h
  all_goals try (cases h; done)
  all_goals
    refine hsame h ▸ ?_
    first
    | exact .refl s
    | exact reaches_next s
    | exact (reaches_next s).next
    | exact hassign s _
    | exact (reaches_next s).trans (hassign _ _)

/-- What a token says of the scanner before and after it: it starts at or behind the eye, and the eye
passes it unless the text is over. -/
structure Scans (base : Nat) (s t : Scanner) (l : Lexeme) : Prop where
  sound : t.Sound
  pending : t.pendingLineEnd = none
  size : t.table.size = s.table.size
  starts : t.table.starts = s.table.starts
  unread : t.unread ≤ s.unread
  base_le : base ≤ l.pos
  stop : l.pos ≤ l.stop
  passed : l.pos < t.offset ∨ l.pos = t.offset ∧ t.current = none ∧ t.lineEndCounts = false
  named : l.token = .name → l.text ≠ "" ∧ l.pos < t.offset

variable {base : Nat}

theorem Reaches.scans (h : s.Reaches t) (hs : s.Sound) (hpending : s.pendingLineEnd = none)
    (counts : Bool) {l : Lexeme} (hbase : base ≤ l.pos) (hstop : l.pos ≤ l.stop)
    (hpos : l.pos < t.offset) (hnamed : l.token = .name → l.text ≠ "") :
    Scans base s { t with lineEndCounts := counts } l where
  sound := ⟨(h.sound hs).unread, (h.sound hs).ended, (h.sound hs).widths, (h.sound hs).size⟩
  pending := h.pending.trans hpending
  size := h.size
  starts := h.starts
  unread := h.unread
  base_le := hbase
  stop := hstop
  passed := Or.inl hpos
  named hname := ⟨hnamed hname, hpos⟩

/-- At the end of the text there is a line end, if one counts, and then the end. -/
theorem Reaches.scans_end (h : s.Reaches t) (hs : s.Sound) (hpending : s.pendingLineEnd = none)
    (hbase : base ≤ t.offset) (hend : t.ch = none) :
    Scans base s (if t.lineEndCounts then t.emitLineEnd t.offset else t.emit .eof t.offset "").1
      (if t.lineEndCounts then t.emitLineEnd t.offset else t.emit .eof t.offset "").2 := by
  have hcurrent : t.current = none := Option.map_eq_none_iff.mp hend
  have ht := h.sound hs
  split
  · exact ⟨⟨ht.unread, ht.ended, ht.widths, ht.size⟩, h.pending.trans hpending, h.size, h.starts,
      h.unread, hbase, Nat.le_refl _, Or.inr ⟨rfl, hcurrent, rfl⟩, fun hname => by cases hname⟩
  · exact ⟨⟨ht.unread, ht.ended, ht.widths, ht.size⟩, h.pending.trans hpending, h.size, h.starts,
      h.unread, hbase, Nat.le_refl _, Or.inr ⟨rfl, hcurrent, rfl⟩, fun hname => by cases hname⟩

/-- A line end that a comment has passed is the next token. -/
theorem Reaches.scans_lineEnd (h : s.Reaches t) (hs : s.Sound) (hpending : s.pendingLineEnd = none)
    (fuel : Nat) {offset : Nat} (hbase : base ≤ offset) (hpassed : offset < t.offset) :
    Scans base s
      (scan (fuel + 1) { t with lineEndCounts := false, pendingLineEnd := some offset }).1
      (scan (fuel + 1) { t with lineEndCounts := false, pendingLineEnd := some offset }).2 := by
  have hsame : { t with lineEndCounts := false, pendingLineEnd := none } =
      { t with lineEndCounts := false } := by
    rw [← h.pending.trans hpending]
  rw [scan]
  dsimp only
  rw [hsame]
  exact h.scans hs hpending false hbase (Nat.le_refl _) hpassed fun hname => by cases hname

theorem Scans.after {base : Nat} {l : Lexeme} (h : s.Reaches t) (h' : Scans base t u l) :
    Scans base s u l :=
  { h' with
    size := h'.size.trans h.size
    starts := h'.starts.trans h.starts
    unread := Nat.le_trans h'.unread h.unread }

theorem scan_of_end (fuel : Nat) (hpending : s.pendingLineEnd = none) (hend : s.current = none)
    (hcounts : s.lineEndCounts = false) :
    (scan (fuel + 1) s).2 = ⟨.eof, s.offset, s.offset, ""⟩ := by
  have hch : s.ch = none := Option.map_eq_none_iff.mpr hend
  have hspace : s.skipSpace = s := congrArg Prod.fst (takeWhile_of_none _ hch)
  rw [scan]
  simp only [hpending, hspace, hch, hcounts]
  rfl

/-- With a unit of fuel for each comment that can follow, the next token is found. -/
theorem scans_scan (fuel : Nat) (s : Scanner) (hs : s.Sound) (hbase : base ≤ s.offset)
    (hpending : s.pendingLineEnd = none) (hfuel : s.unread + 2 ≤ fuel) :
    Scans base s (scan fuel s).1 (scan fuel s).2 := by
  induction fuel generalizing s with
  | zero => omega
  | succ fuel ih =>
      rw [scan]
      split
      · rename_i offset hsome
        rw [hpending] at hsome
        cases hsome
      extract_lets s₀ pos s₁ s₂
      have h₀ : s.Reaches s₀ := reaches_skipSpace s
      have hs₀ := h₀.sound hs
      have hpending₀ := h₀.pending.trans hpending
      have hpos : base ≤ pos := Nat.le_trans hbase h₀.offset
      refine Scans.after h₀ ?_
      split
      · rename_i hch
        exact (Reaches.refl s₀).scans_end hs₀ hpending₀ hpos hch
      rename_i c hc
      have hmoves : s₀.offset < s₁.offset := hs₀.offset_lt_next hc
      have h₁ : s₀.Reaches s₁ := reaches_next s₀
      have hemit {t : Scanner} (h : s₁.Reaches t) {token : Token} (text : String)
          (hnamed : token ≠ .name) :
          Scans base s₀ (t.emit token pos text).1 (t.emit token pos text).2 :=
        (h₁.trans h).scans hs₀ hpending₀ _ hpos (Nat.le_trans h₁.offset h.offset)
          (Nat.lt_of_lt_of_le hmoves h.offset) fun hname => absurd hname hnamed
      split
      · rename_i hstart
        have hpart : isNamePart c = true := by
          rw [isNamePart, hstart]
          rfl
        obtain ⟨hpassed, hword⟩ := hs₀.takeWhile_of_ch hc hpart
        exact (reaches_takeWhile isNamePart s₀).scans hs₀ hpending₀ _ hpos (Nat.le_of_lt hpassed)
          hpassed fun _ => hword
      split
      · rename_i hstart
        have hnumber : c.isDigit = true ∨ c = '.' := by
          rw [Bool.or_eq_true, Bool.and_eq_true, beq_iff_eq] at hstart
          exact hstart.imp id And.left
        obtain ⟨hreaches, hpassed⟩ := scanNumber_spec hs₀ hc hnumber
        exact hreaches.scans hs₀ hpending₀ _ hpos (Nat.le_of_lt hpassed) hpassed fun hname => by
          cases hname
      extract_lets illegal
      split
      · exact h₁.scans hs₀ hpending₀ _ hpos (Nat.le_refl _) hmoves fun hname => by cases hname
      split
      · split
        rename_i t n valid heq
        have hquoted : s₁.Reaches t := by
          rw [← show (scanQuoted '"' true pos s₁.left s₁ 0 true).1 = t from congrArg Prod.fst heq]
          exact reaches_scanQuoted ..
        exact hemit hquoted _ (by decide)
      split
      · split
        rename_i t n valid heq
        have hquoted : s₁.Reaches t := by
          rw [← show (scanQuoted '\'' false pos s₁.left s₁ 0 true).1 = t from congrArg Prod.fst heq]
          exact reaches_scanQuoted ..
        exact hemit (hquoted.complainIf _ _) _ (by decide)
      split
      · exact hemit (reaches_scanRaw ..) _ (by decide)
      split
      · rename_i hslash
        obtain ⟨hreaches, hends⟩ := scanComment_spec s₁
        split
        rename_i t lineEnd heq
        rw [heq] at hreaches hends
        have ht : s₀.Reaches t := h₁.trans hreaches
        -- the second character of the comment is one glyph less that is unread
        have hunread : s₁.unread < s₀.unread := by
          rw [Bool.and_eq_true, Bool.or_eq_true] at hslash
          rcases hslash.2 with hsees | hsees
          · exact hs₀.unread_next (beq_iff_eq.mp hsees)
          · exact hs₀.unread_next (beq_iff_eq.mp hsees)
        have hless : t.unread + 2 ≤ fuel := by
          have htunread : t.unread ≤ s₁.unread := hreaches.unread
          have := h₀.unread
          omega
        split
        · rename_i offset hcounts
          obtain ⟨hoffset, hpassed⟩ := hends (h₁.sound hs₀) offset rfl
          obtain ⟨fuel, rfl⟩ : ∃ n, fuel = n + 1 := ⟨fuel - 1, by omega⟩
          exact ht.scans_lineEnd hs₀ hpending₀ fuel
            (Nat.le_trans hpos (Nat.le_trans h₁.offset hoffset)) hpassed
        · exact Scans.after ht (ih t (ht.sound hs₀) (Nat.le_trans hpos ht.offset)
            (ht.pending.trans hpending₀) hless)
      split
      · rename_i t text hoperator
        exact hemit (reaches_scanOperator hoperator) _ (by simp)
      · have hillegal : s₁.Reaches illegal := by
          simp only [illegal]
          split
          · exact .refl s₁
          · exact reaches_complain s₁ _
        exact (h₁.trans hillegal).scans hs₀ hpending₀ _ hpos
          (Nat.le_trans h₁.offset hillegal.offset) (Nat.lt_of_lt_of_le hmoves hillegal.offset)
          fun hname => by cases hname

/-! ## The start of a text -/

theorem size_ofGlyphs (glyphs : List Glyph) : (LineTable.ofGlyphs glyphs).size = glyphBytes glyphs := by
  have hfold (state : Array Nat × Nat) : (glyphs.foldl (fun (state : Array Nat × Nat) g =>
      (if g.char == '\n' then state.1.push (state.2 + g.width) else state.1, state.2 + g.width))
      state).2 = state.2 + glyphBytes glyphs := by
    induction glyphs generalizing state with
    | nil => rfl
    | cons g rest ih =>
        rw [List.foldl_cons, ih, glyphBytes_cons]
        exact Nat.add_assoc _ _ _
  have hsize := hfold (#[0], 0)
  rw [Nat.zero_add] at hsize
  exact hsize

/-- A scanner at the start of a text is sound, and knows where the lines of the text start. -/
theorem sound_start {glyphs : List Glyph} (hwidths : ∀ g ∈ glyphs, 0 < g.width) :
    (start glyphs).Sound ∧ (start glyphs).pendingLineEnd = none ∧
      (start glyphs).table.size = (LineTable.ofGlyphs glyphs).size ∧
      (start glyphs).table.starts = (LineTable.ofGlyphs glyphs).starts := by
  let s : Scanner :=
    { current := none, rest := glyphs, unread := glyphs.length, offset := 0, lineOffset := 0
      lineEndCounts := false, pendingLineEnd := none, table := .ofGlyphs glyphs
      complaints := ⟨0, none⟩ }
  have hreaches : s.next.Reaches (start glyphs) := by
    change s.next.Reaches (if s.next.sees byteOrderMark then s.next.next else s.next)
    split
    · exact reaches_next s.next
    · exact .refl s.next
  have hnext := reaches_next s
  have hsound : s.next.Sound := by
    cases hglyphs : glyphs with
    | nil =>
        refine hnext.sound ⟨rfl, fun _ => hglyphs, hwidths, ?_⟩
        exact (Nat.zero_add _).trans (size_ofGlyphs glyphs).symm
    | cons g rest =>
        obtain ⟨complaints, heq⟩ := next_of_cons (s := s) hglyphs
        rw [heq]
        refine ⟨by simp [s, hglyphs], nofun, fun g' hg' => hwidths g' (hglyphs ▸ hg'), ?_⟩
        have hsize := size_ofGlyphs glyphs
        simp only [ahead, Option.toList_some, List.singleton_append, behind, s, Option.map_none,
          Option.getD_none, Nat.zero_add]
        rw [← hglyphs, hsize]
  have htransitive := hnext.trans hreaches
  exact ⟨hreaches.sound hsound, htransitive.pending, htransitive.size, htransitive.starts⟩

end Scanner

end CodeAtlas.Source
