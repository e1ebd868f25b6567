import CodeAtlas.Proofs.Source.Scanning
import CodeAtlas.Source.Parse.Basic

/-!
# Reading a stretch of tokens

A parser that succeeds has moved on over some tokens. What it answers is said in terms of the moments
at which it started and stopped: names that it has read stand between the two. A moment is twice the
place of the token to come, and one more unless that token is a name, so that a name which is still to
be read lies behind the moment, and a name that has been missed lies before it.
-/

namespace CodeAtlas.Source

namespace ParseState

def moment (s : ParseState) : Nat := 2 * s.look.pos + if s.look.token = .name then 0 else 1

theorem moment_bounds (s : ParseState) : 2 * s.look.pos ≤ s.moment ∧ s.moment ≤ 2 * s.look.pos + 1 := by
  unfold moment
  split <;> omega

theorem moment_of_name {s : ParseState} (h : s.look.token = .name) : s.moment = 2 * s.look.pos := by
  rw [moment, if_pos h, Nat.add_zero]

theorem moment_of_ne_name {s : ParseState} (h : s.look.token ≠ .name) :
    s.moment = 2 * s.look.pos + 1 := by
  rw [moment, if_neg h]

/-- A parse of the text with the given lines whose scanner stands behind the token to come. -/
structure Sound (lines : LineTable) (s : ParseState) : Prop where
  scanner : s.scanner.Sound
  size : s.scanner.table.size = lines.size
  starts : s.scanner.table.starts = lines.starts
  pending : s.scanner.pendingLineEnd = none
  stop : s.look.pos ≤ s.look.stop
  passed : s.look.pos < s.scanner.offset ∨
    s.look.pos = s.scanner.offset ∧ s.scanner.current = none ∧ s.scanner.lineEndCounts = false
  named : s.look.token = .name → s.look.text ≠ "" ∧ s.look.pos < s.scanner.offset

variable {lines : LineTable} {s t : ParseState}

theorem Sound.pos_le (h : s.Sound lines) : s.look.pos ≤ lines.size := by
  have hoffset := h.scanner.offset_le
  rw [h.size] at hoffset
  rcases h.passed with hpassed | ⟨hend, -⟩
  · exact Nat.le_trans (Nat.le_of_lt hpassed) hoffset
  · exact hend ▸ hoffset

/-- A change that leaves the scanner at its place and the token to come. -/
theorem Sound.congr (h : s.Sound lines) (hlook : t.look = s.look)
    (hscanner : s.scanner.Reaches t.scanner) (hoffset : t.scanner.offset = s.scanner.offset)
    (hcurrent : t.scanner.current = s.scanner.current) : t.Sound lines where
  scanner := hscanner.sound h.scanner
  size := hscanner.size.trans h.size
  starts := hscanner.starts.trans h.starts
  pending := hscanner.pending.trans h.pending
  stop := hlook ▸ h.stop
  passed := by
    rw [hlook, hoffset, hcurrent, hscanner.counts]
    exact h.passed
  named := by
    rw [hlook, hoffset]
    exact h.named

end ParseState

/-- From any moment on, the parser answers what satisfies `A` together with a later moment, one at which
the parse has arrived when it is done. -/
def Reads (lines : LineTable) {α : Type} (m : Nat) (p : Parse α) (A : Nat → α → Prop) : Prop :=
  ∀ s a t, s.Sound lines → m ≤ s.moment → p s = .ok (a, t) →
    t.Sound lines ∧ ∃ m', m ≤ m' ∧ m' ≤ t.moment ∧ A m' a

/-- The parser passes no token. -/
def Stays (lines : LineTable) {α : Type} (p : Parse α) : Prop :=
  ∀ s a t, s.Sound lines → p s = .ok (a, t) → t.Sound lines ∧ t.moment = s.moment

variable {lines : LineTable} {α β : Type} {m : Nat} {p : Parse α} {k : α → Parse β}
  {A : Nat → α → Prop} {B : Nat → β → Prop}

theorem bind_eq_ok {s u : ParseState} {b : β} (h : (p >>= k) s = .ok (b, u)) :
    ∃ a t, p s = .ok (a, t) ∧ k a t = .ok (b, u) := by
  change (p s >>= fun x => k x.1 x.2) = .ok (b, u) at h
  cases hp : p s with
  | error e =>
      rw [hp] at h
      cases h
  | ok x =>
      rw [hp] at h
      exact ⟨x.1, x.2, rfl, h⟩

namespace Reads

theorem pure {a : α} (h : A m a) : Reads lines m (Pure.pure a) A := by
  intro s b t hs hm heq
  obtain ⟨rfl, rfl⟩ := Prod.mk.inj (Except.ok.inj heq)
  exact ⟨hs, m, Nat.le_refl m, hm, h⟩

theorem bind (hp : Reads lines m p A)
    (hk : ∀ a m', m ≤ m' → A m' a → Reads lines m' (k a) B) : Reads lines m (p >>= k) B := by
  intro s b u hs hm heq
  obtain ⟨a, t, hpa, hkb⟩ := bind_eq_ok heq
  obtain ⟨ht, m', hmm', hm', ha⟩ := hp s a t hs hm hpa
  obtain ⟨hu, m'', hmm'', hm'', hb⟩ := hk a m' hmm' ha t b u ht hm' hkb
  exact ⟨hu, m'', Nat.le_trans hmm' hmm'', hm'', hb⟩

theorem imp {C : Nat → α → Prop} (h : Reads lines m p A) (himp : ∀ m' a, m ≤ m' → A m' a → C m' a) :
    Reads lines m p C := by
  intro s a t hs hm heq
  obtain ⟨ht, m', hmm', hm', ha⟩ := h s a t hs hm heq
  exact ⟨ht, m', hmm', hm', himp m' a hmm' ha⟩

theorem stay (hp : Stays lines p) (hk : ∀ a, Reads lines m (k a) B) :
    Reads lines m (p >>= k) B := by
  intro s b u hs hm heq
  obtain ⟨a, t, hpa, hkb⟩ := bind_eq_ok heq
  obtain ⟨ht, hmoment⟩ := hp s a t hs hpa
  exact hk a t b u ht (hmoment ▸ hm) hkb

/-- A step that passes nothing and may be left out. -/
theorem whenStay {c : Prop} [Decidable c] {q : Parse PUnit} {k : PUnit → Parse β}
    (hq : Stays lines q) (hk : ∀ u, Reads lines m (k u) B) :
    Reads lines m (if c then q >>= k else k PUnit.unit) B := by
  split
  · exact .stay hq hk
  · exact hk _

theorem thenStay {q : Parse PUnit} (hp : Reads lines m p A) (hq : Stays lines q) :
    Reads lines m (do let a ← p; q; Pure.pure a) A :=
  hp.bind fun _ _ _ ha => .stay hq fun _ => .pure ha

end Reads

/-- The parser moves on, whatever it answers. -/
def Moves (lines : LineTable) (p : Parse α) : Prop := ∀ m, Reads lines m p fun _ _ => True

theorem Reads.moves {A : Nat → Nat → α → Prop} (h : ∀ m, Reads lines m p (A m)) : Moves lines p :=
  fun m => (h m).imp fun _ _ _ _ => trivial

/-- A step that may be left out. -/
theorem Reads.whenMove {c : Prop} [Decidable c] {q : Parse PUnit} {k : PUnit → Parse β}
    (hq : Moves lines q) (hk : ∀ u m', m ≤ m' → Reads lines m' (k u) B) :
    Reads lines m (if c then q >>= k else k PUnit.unit) B := by
  split
  · exact (hq m).bind fun u m' hm _ => hk u m' hm
  · exact hk _ m (Nat.le_refl m)

theorem Reads.move (hp : Moves lines p) (hk : ∀ a m', m ≤ m' → Reads lines m' (k a) B) :
    Reads lines m (p >>= k) B :=
  (hp m).bind fun a m' hm _ => hk a m' hm

theorem Moves.bind (hp : Moves lines p) (hk : ∀ a, Moves lines (k a)) : Moves lines (p >>= k) :=
  fun _ => Reads.move hp fun a m' _ => hk a m'

theorem Moves.pure (a : α) : Moves lines (Pure.pure a : Parse α) := fun _ => Reads.pure trivial

theorem Stays.moves (hp : Stays lines p) : Moves lines p := by
  intro m s a t hs hm heq
  obtain ⟨ht, hmoment⟩ := hp s a t hs heq
  exact ⟨ht, m, Nat.le_refl m, hmoment ▸ hm, trivial⟩

theorem Stays.pure (a : α) : Stays lines (Pure.pure a : Parse α) := by
  intro s b t hs heq
  obtain ⟨-, rfl⟩ := Prod.mk.inj (Except.ok.inj heq)
  exact ⟨hs, rfl⟩

theorem Stays.bind (hp : Stays lines p) (hk : ∀ a, Stays lines (k a)) : Stays lines (p >>= k) := by
  intro s b u hs heq
  obtain ⟨a, t, hpa, hkb⟩ := bind_eq_ok heq
  obtain ⟨ht, hmoment⟩ := hp s a t hs hpa
  obtain ⟨hu, hmoment'⟩ := hk a t b u ht hkb
  exact ⟨hu, hmoment'.trans hmoment⟩

theorem Stays.of_looks (h : ∀ s, ∃ a, p s = .ok (a, s)) : Stays lines p := by
  intro s a t hs heq
  obtain ⟨a', ha'⟩ := h s
  rw [ha'] at heq
  obtain ⟨-, rfl⟩ := Prod.mk.inj (Except.ok.inj heq)
  exact ⟨hs, rfl⟩

/-- Things each of which was read no earlier than the one before it was done. -/
inductive Sequence {α : Type} (P : Nat → Nat → α → Prop) : Nat → Nat → List α → Prop where
  | nil {a b : Nat} (hab : a ≤ b) : Sequence P a b []
  | cons {a b c d : Nat} {x : α} {xs : List α} (hab : a ≤ b) (hx : P b c x)
      (hxs : Sequence P c d xs) : Sequence P a d (x :: xs)

namespace Sequence

variable {P : Nat → Nat → α → Prop} {a b c d : Nat} {x : α} {xs ys : List α}

theorem mono_left (h : Sequence P b c xs) (hab : a ≤ b) : Sequence P a c xs := by
  cases h with
  | nil hbc => exact .nil (Nat.le_trans hab hbc)
  | cons hbx hx hxs => exact .cons (Nat.le_trans hab hbx) hx hxs

theorem append (hxs : Sequence P a b xs) (hys : Sequence P b c ys) : Sequence P a c (xs ++ ys) := by
  induction hxs with
  | nil hab => exact hys.mono_left hab
  | cons hab hx _ ih => exact .cons hab hx (ih hys)

theorem split (h : Sequence P a c (xs ++ ys)) : ∃ b, Sequence P a b xs ∧ Sequence P b c ys := by
  induction xs generalizing a with
  | nil => exact ⟨a, .nil (Nat.le_refl a), h⟩
  | cons x xs ih =>
      cases h with
      | cons hab hx hxs =>
          obtain ⟨b, hxs, hys⟩ := ih hxs
          exact ⟨b, .cons hab hx hxs, hys⟩

theorem mono_right (h : Sequence P a b xs) (hbc : b ≤ c) : Sequence P a c xs := by
  have happend := h.append (.nil hbc)
  rwa [List.append_nil] at happend

theorem snoc (hxs : Sequence P a b xs) (hbc : b ≤ c) (hx : P c d x) : Sequence P a d (xs ++ [x]) :=
  hxs.append (.cons hbc hx (.nil (Nat.le_refl d)))

theorem le (h : Sequence P a b xs) (hP : ∀ a b x, P a b x → a ≤ b) : a ≤ b := by
  induction h with
  | nil hab => exact hab
  | cons hab hx _ ih => exact Nat.le_trans hab (Nat.le_trans (hP _ _ _ hx) ih)

theorem exists_of_mem (h : Sequence P a b xs) (hP : ∀ a b x, P a b x → a ≤ b) (hmem : x ∈ xs) :
    ∃ c d, a ≤ c ∧ P c d x ∧ d ≤ b := by
  induction h with
  | nil => cases hmem
  | cons hab hx hxs ih =>
      rcases List.mem_cons.mp hmem with rfl | hmem
      · exact ⟨_, _, hab, hx, hxs.le hP⟩
      · obtain ⟨c, d, hc, hx', hd⟩ := ih hmem
        exact ⟨c, d, Nat.le_trans hab (Nat.le_trans (hP _ _ _ hx) hc), hx', hd⟩

theorem map {Q : Nat → Nat → β → Prop} {f : α → β} (h : Sequence P a b xs)
    (hf : ∀ a b x, P a b x → Q a b (f x)) : Sequence Q a b (xs.map f) := by
  induction h with
  | nil hab => exact .nil hab
  | cons hab hx _ ih => exact .cons hab (hf _ _ _ hx) ih

theorem imp {Q : Nat → Nat → α → Prop} (h : Sequence P a b xs)
    (himp : ∀ a b x, P a b x → Q a b x) : Sequence Q a b xs := by
  induction h with
  | nil hab => exact .nil hab
  | cons hab hx _ ih => exact .cons hab (himp _ _ _ hx) ih

/-- Nodes that may each have been read somewhat later. -/
theorem slack (h : Sequence (fun a b x => ∃ a', a ≤ a' ∧ P a' b x) a b xs) : Sequence P a b xs := by
  induction h with
  | nil hab => exact .nil hab
  | cons hab hx _ ih =>
      obtain ⟨a', ha', hx'⟩ := hx
      exact .cons (Nat.le_trans hab ha') hx' ih

end Sequence

namespace Parse

theorem stays_get : Stays lines (get : Parse ParseState) := .of_looks fun s => ⟨s, rfl⟩

theorem stays_token : Stays lines token := .of_looks fun s => ⟨s.look.token, rfl⟩

theorem stays_pos : Stays lines pos := .of_looks fun s => ⟨s.look.pos, rfl⟩

theorem stays_atOp (text : String) : Stays lines (atOp text) := .of_looks fun _ => ⟨_, rfl⟩

theorem stays_atWord (word : String) : Stays lines (atWord word) := .of_looks fun _ => ⟨_, rfl⟩

theorem stays_atEnd : Stays lines atEnd := .of_looks fun _ => ⟨_, rfl⟩

theorem stays_atLineEnd : Stays lines atLineEnd := .of_looks fun _ => ⟨_, rfl⟩

theorem stays_tokensLeft : Stays lines tokensLeft := .of_looks fun _ => ⟨_, rfl⟩

theorem stays_rounds : Stays lines rounds := .of_looks fun _ => ⟨_, rfl⟩

/-- A place in what is read from moment `m` on. -/
def Reached (m place : Nat) : Prop := m ≤ 2 * place + 1

theorem reads_pos : Reads lines m pos fun _ place => Reached m place := by
  intro s place t hs hm heq
  obtain ⟨rfl, rfl⟩ := Prod.mk.inj (Except.ok.inj heq)
  exact ⟨hs, m, Nat.le_refl m, hm, Nat.le_trans hm s.moment_bounds.2⟩

theorem reads_look : Reads lines m look fun _ l => Reached m l.pos ∧ l.pos ≤ l.stop := by
  intro s l t hs hm heq
  obtain ⟨rfl, rfl⟩ := Prod.mk.inj (Except.ok.inj heq)
  exact ⟨hs, m, Nat.le_refl m, hm, Nat.le_trans hm s.moment_bounds.2, hs.stop⟩

/-- What changes neither the scanner nor the token to come passes nothing. -/
theorem stays_modify {f : ParseState → ParseState}
    (hf : ∀ s, (f s).scanner = s.scanner ∧ (f s).look = s.look) :
    Stays lines (modify f : Parse PUnit) := by
  intro s u t hs heq
  obtain ⟨-, rfl⟩ := Prod.mk.inj (Except.ok.inj heq)
  obtain ⟨hscanner, hlook⟩ := hf s
  refine ⟨hs.congr hlook (hscanner ▸ .refl _) (by rw [hscanner]) (by rw [hscanner]), ?_⟩
  rw [ParseState.moment, hlook]
  rfl

theorem stays_complain (offset : Nat) : Stays lines (complain offset) := by
  intro s u t hs heq
  have hsame : t.look = s.look ∧ s.scanner.Reaches t.scanner ∧
      t.scanner.offset = s.scanner.offset ∧ t.scanner.current = s.scanner.current := by
    change (if s.scanner.complaints.lastLine == some (s.scanner.table.lineAt offset) then _
      else if s.scanner.complaints.count > maxComplaints then _ else _ : Parse Unit) s = _ at heq
    split_ifs at heq
    · obtain ⟨-, rfl⟩ := Prod.mk.inj (Except.ok.inj heq)
      exact ⟨rfl, .refl _, rfl, rfl⟩
    · cases heq
    · obtain ⟨-, rfl⟩ := Prod.mk.inj (Except.ok.inj heq)
      exact ⟨rfl, Scanner.reaches_complain _ offset, rfl, rfl⟩
  obtain ⟨hlook, hscanner, hoffset, hcurrent⟩ := hsame
  refine ⟨hs.congr hlook hscanner hoffset hcurrent, ?_⟩
  rw [ParseState.moment, hlook]
  rfl

theorem stays_complainHere : Stays lines complainHere :=
  stays_pos.bind stays_complain

theorem advance_eq (s : ParseState) :
    advance s = .ok ((), { s with
      scanner := (s.scanner.scan (s.scanner.unread + 2)).1
      look := (s.scanner.scan (s.scanner.unread + 2)).2 }) := rfl

/-- A token has been passed, and a name lies before the moment after it. -/
theorem advance_spec {s t : ParseState} (hs : s.Sound lines) (heq : advance s = .ok ((), t)) :
    t.Sound lines ∧ s.moment ≤ t.moment ∧
      (s.look.token = .name → 2 * s.look.pos + 2 ≤ t.moment) := by
  have hscan := Scanner.scans_scan (s.scanner.unread + 2) s.scanner hs.scanner (Nat.le_refl _)
    hs.pending (Nat.le_refl _)
  rw [advance_eq] at heq
  obtain ⟨-, rfl⟩ := Prod.mk.inj (Except.ok.inj heq)
  refine ⟨⟨hscan.sound, hscan.size.trans hs.size, hscan.starts.trans hs.starts, hscan.pending,
    hscan.stop, hscan.passed, hscan.named⟩, ?_⟩
  have hbefore := s.moment_bounds.2
  generalize hresult : s.scanner.scan (s.scanner.unread + 2) = result at hscan ⊢
  generalize ht : ({ s with scanner := result.1, look := result.2 } : ParseState) = t
  have hlook : t.look = result.2 := by rw [← ht]
  have hafter := t.moment_bounds.1
  rw [hlook] at hafter
  rcases hs.passed with hpassed | ⟨hpos, hend, hcounts⟩
  · have hbase := hscan.base_le
    exact ⟨by omega, fun _ => by omega⟩
  · have hlast := Scanner.scan_of_end (s.scanner.unread + 1) hs.pending hend hcounts
    rw [hresult] at hlast
    refine ⟨?_, fun hname => ?_⟩
    · have hplace : result.2.pos = s.scanner.offset := by rw [hlast]
      have hkind : t.look.token ≠ .name := by
        rw [hlook, hlast]
        exact nofun
      rw [ParseState.moment_of_ne_name hkind, hlook]
      omega
    · exact absurd hpos (Nat.ne_of_lt (hs.named hname).2)

theorem moves_advance : Moves lines advance := by
  intro m s u t hs hm heq
  obtain ⟨ht, hmoment, -⟩ := advance_spec hs heq
  exact ⟨ht, t.moment, Nat.le_trans hm hmoment, Nat.le_refl _, trivial⟩

theorem reads_expect (want : Token) : Reads lines m (expect want) fun _ place => Reached m place := by
  unfold expect
  refine reads_look.bind fun l m₁ h₁ hl => ?_
  extract_lets jp
  have hjp (x : Unit) (m' : Nat) (h : m₁ ≤ m') : Reads lines m' (jp x) fun _ place => Reached m place :=
    .move moves_advance fun _ _ _ => .pure hl.1
  split
  · exact .stay stays_complainHere fun x => hjp x m₁ (Nat.le_refl _)
  · exact hjp () m₁ (Nat.le_refl _)

theorem reads_expectOp (text : String) : Reads lines m (expectOp text) fun _ place => Reached m place :=
  reads_expect _

theorem reads_expectWord (word : String) :
    Reads lines m (expectWord word) fun _ place => Reached m place :=
  reads_expect _

theorem reads_expectClosing (text : String) :
    Reads lines m (expectClosing text) fun _ place => Reached m place := by
  unfold expectClosing
  refine .stay stays_atLineEnd fun lineEnd => ?_
  extract_lets jp
  split
  · refine .stay stays_complainHere fun _ => .move moves_advance fun x m₁ h₁ => ?_
    exact (reads_expectOp text).imp fun _ place _ h => Nat.le_trans h₁ h
  · exact reads_expectOp text

theorem reads_expectOp? (text : String) :
    Reads lines m (expectOp? text) fun _ place? => ∀ place ∈ place?, Reached m place := by
  unfold expectOp?
  refine reads_look.bind fun l m₁ h₁ hl => ?_
  extract_lets jp
  have hjp (x : Unit) (m' : Nat) (h : m₁ ≤ m') :
      Reads lines m' (jp x) fun _ place? => ∀ place ∈ place?, Reached m place := by
    refine .move moves_advance fun _ _ _ => .pure fun place hplace => ?_
    split at hplace
    · exact Option.some.inj hplace ▸ hl.1
    · cases hplace
  split
  · exact .stay stays_complainHere fun x => hjp x m₁ (Nat.le_refl _)
  · exact hjp () m₁ (Nat.le_refl _)

theorem moves_skipTo (stop : Token → Bool) (fuel : Nat) : Moves lines (skipTo stop fuel) := by
  induction fuel with
  | zero => exact .pure ()
  | succ fuel ih =>
      intro m s u t hs hm heq
      unfold skipTo at heq
      obtain ⟨s', s'', hget, heq⟩ := bind_eq_ok heq
      obtain ⟨rfl, rfl⟩ := Prod.mk.inj (Except.ok.inj hget)
      dsimp only at heq
      split_ifs at heq
      · exact Moves.pure () m s u t hs hm heq
      · obtain ⟨-, rfl⟩ := Prod.mk.inj (Except.ok.inj heq)
        exact ⟨hs.congr rfl (.refl _) rfl rfl, m, Nat.le_refl m, hm, trivial⟩
      · obtain ⟨-, rfl⟩ := Prod.mk.inj (Except.ok.inj heq)
        exact ⟨hs.congr rfl (.refl _) rfl rfl, m, Nat.le_refl m, hm, trivial⟩
      · exact (moves_advance.bind fun _ => ih) m s u t hs hm heq

theorem moves_resync (stop : Token → Bool) : Moves lines (resync stop) :=
  fun _ => .stay stays_tokensLeft fun n => moves_skipTo stop n _

theorem moves_expectEnd : Moves lines expectEnd := by
  intro m
  unfold expectEnd
  refine .stay stays_token fun t => ?_
  split
  · exact .pure trivial
  · exact .pure trivial
  · exact (stays_complainHere.moves.bind fun _ => moves_advance) m
  · exact moves_advance m
  · exact (stays_complainHere.moves.bind fun _ => moves_resync startsStmt) m

theorem moves_atComma (closing : String) : Moves lines (atComma closing) := by
  intro m
  unfold atComma
  refine .stay (stays_atOp ",") fun comma => ?_
  split
  · exact .pure trivial
  refine .stay (stays_atOp closing) fun closed => ?_
  split
  · exact .pure trivial
  · exact (stays_complainHere.moves.bind fun _ => .pure true) m

/-! ## Repetitions -/

/-- What each round keeps, a loop keeps. -/
theorem reads_iterate {step : α → Parse (α × Bool)} {I : Nat → α → Prop}
    (hstep : ∀ a m', m ≤ m' → I m' a → Reads lines m' (step a) fun m'' r => I m'' r.1)
    (n : Nat) {a : α} (ha : I m a) : Reads lines m (iterate step n a) I := by
  induction n generalizing a m with
  | zero => exact .pure ha
  | succ n ih =>
      unfold iterate
      refine (hstep a m (Nat.le_refl m) ha).bind fun r m₁ h₁ hr => ?_
      dsimp only
      split
      · exact ih (fun a m' hm => hstep a m' (Nat.le_trans h₁ hm)) hr
      · exact .pure hr

theorem reads_whileM {more : Parse Bool} {item : Parse Node} {P : Nat → Nat → Node → Prop}
    (hmore : Stays lines more) (hitem : ∀ m, Reads lines m item (P m)) :
    Reads lines m (whileM more item) (Sequence P m) := by
  unfold whileM
  refine .stay stays_rounds fun n => ?_
  refine Reads.bind (reads_iterate (I := fun m' done => Sequence P m m' done.toList)
    (fun done m' _ h => ?_) n (.nil (Nat.le_refl m))) fun done m' _ h => .pure h
  refine .stay hmore fun again => ?_
  split
  · refine (hitem m').bind fun item m'' _ hitem => .pure ?_
    rw [Array.toList_push]
    exact h.snoc (Nat.le_refl m') hitem
  · exact .pure h

theorem reads_commaList {closing : String} {item : Parse Node} {P : Nat → Nat → Node → Prop}
    (hitem : ∀ m, Reads lines m item (P m)) :
    Reads lines m (commaList closing item) (Sequence P m) := by
  unfold commaList
  refine .stay stays_rounds fun n => ?_
  refine Reads.bind (reads_iterate (I := fun m' done => Sequence P m m' done.toList)
    (fun done m' _ h => ?_) n (.nil (Nat.le_refl m))) fun done m' _ h => .pure h
  refine .stay (stays_atOp closing) fun closed => .stay stays_atEnd fun ended => ?_
  split
  · exact .pure h
  refine (hitem m').bind fun item m₁ _ hitem => ?_
  have hpushed : Sequence P m m₁ (done.push item).toList := by
    rw [Array.toList_push]
    exact h.snoc (Nat.le_refl m') hitem
  refine .move (moves_atComma closing) fun comma m₂ h₂ => ?_
  split
  · exact .move moves_advance fun _ m₃ h₃ => .pure (hpushed.mono_right (Nat.le_trans h₂ h₃))
  · exact .pure (hpushed.mono_right h₂)

theorem reads_commaSeparated {item : Parse Node} {P : Nat → Nat → Node → Prop}
    (hitem : ∀ m, Reads lines m item (P m)) : Reads lines m (commaSeparated item) fun m' ns =>
      ∃ first rest m₁, ns = first :: rest ∧ P m m₁ first ∧ Sequence P m₁ m' rest := by
  unfold commaSeparated
  refine (hitem m).bind fun first m₁ _ hfirst => ?_
  have hnext (m : Nat) : Reads lines m (do advance; item) fun m'' n => ∃ m', m ≤ m' ∧ P m' m'' n :=
    .move moves_advance fun _ m' h' => (hitem m').imp fun m'' n _ hn => ⟨m', h', hn⟩
  refine (reads_whileM (stays_atOp ",") hnext).bind fun rest m₂ _ hrest => .pure ?_
  exact ⟨first, rest, m₁, rfl, hfirst, hrest.slack⟩

/-! ## Contexts -/

theorem stays_deepen : Stays lines deepen := by
  unfold deepen
  have hmodify : Stays lines (modify fun s => { s with nesting := s.nesting + 1 } : Parse PUnit) :=
    stays_modify fun _ => ⟨rfl, rfl⟩
  refine hmodify.bind fun _ => stays_get.bind fun s => ?_
  split
  · refine stays_complainHere.bind fun _ => ?_
    intro s a t hs heq
    cases heq
  · exact .pure PUnit.unit

theorem stays_leave (levels : Nat) : Stays lines (leave levels) := stays_modify fun _ => ⟨rfl, rfl⟩

theorem reads_nested (h : Reads lines m p A) : Reads lines m (nested p) A :=
  .stay stays_deepen fun _ => h.thenStay (stays_leave 1)

theorem reads_inBrackets (h : Reads lines m p A) : Reads lines m (inBrackets p) A :=
  .stay (stays_modify fun _ => ⟨rfl, rfl⟩) fun _ => h.thenStay (stays_modify fun _ => ⟨rfl, rfl⟩)

theorem reads_inHead (h : Reads lines m p A) : Reads lines m (inHead p) A :=
  .stay stays_get fun _ => .stay (stays_modify fun _ => ⟨rfl, rfl⟩) fun _ =>
    h.thenStay (stays_modify fun _ => ⟨rfl, rfl⟩)

theorem reads_withRhs (inRhs : Bool) (h : Reads lines m p A) : Reads lines m (withRhs inRhs p) A :=
  .stay stays_get fun _ => .stay (stays_modify fun _ => ⟨rfl, rfl⟩) fun _ =>
    h.thenStay (stays_modify fun _ => ⟨rfl, rfl⟩)

end Parse

end CodeAtlas.Source
