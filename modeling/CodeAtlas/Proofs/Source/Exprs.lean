import CodeAtlas.Proofs.Source.Types
import CodeAtlas.Source.Parse.Exprs

/-!
# Expressions are read in order
-/

namespace CodeAtlas.Source

namespace Read

variable {a b c : Nat} {x y : Node}

/-- A blank name that is made up where a name is used. -/
theorem blank {pos : Nat} (hab : a ≤ b) (hpos : Parse.Reached a pos) : Read a b (.ofName pos "_") where
  chain := by
    rw [spots_ofName]
    exact hab
  ends := .mk (hpos.add _) fun _ => nofun
  shaped := .mk trivial nofun
  members := nofun

/-- A part that may be missing, with a bad node in its place. -/
theorem getD {x? : Option Node} {pos stop : Nat} (hab : a ≤ b) (hstop : Parse.Reached a stop)
    (h : ∀ x ∈ x?, Read a b x) : Read a b (x?.getD (.bad pos stop)) := by
  cases x? with
  | none => exact .leaf rfl hab hstop
  | some x => exact h x rfl

theorem unary {op : String} {start : Nat} (hx : Read a b x) : Read a b (Parse.unaryNode op start x) :=
  .node rfl hx.all hx.stop

/-- The arrows of channel types move about, the types that they stand in do not. -/
theorem receiveChan {start : Nat} (hx : Read a b x) : Read a b (Parse.receiveChan start x).1 := by
  fun_induction Parse.receiveChan start x with
  | case1 start receives sends arrow pos stop misplaced hsends r s arrow' pos' stop' children value more
      heq ih =>
      exact .node rfl (ih ((hx.children rfl rfl).single rfl)).all hx.stop
  | case2 start receives sends arrow pos stop value => exact .node rfl (hx.children rfl rfl) hx.stop
  | case3 start receives sends arrow pos stop value => exact .node rfl (hx.children rfl rfl) hx.stop
  | case4 start other => exact hx

end Read

namespace Parse

variable {lines : LineTable} {g : Grammar} {m m₀ m' : Nat}

theorem reads_funcOrLiteral (hg : g.Sound lines) : Reads lines m (funcOrLiteral g) (Read m) := by
  unfold funcOrLiteral
  refine (reads_funcType hg).bind fun t m₁ h₁ ht => .stay (stays_atOp "\x7b") fun brace => ?_
  split
  · refine (reads_inBrackets (hg.body m₁)).bind fun body m₂ _ hbody => .pure ?_
    exact .node rfl (.cons ht hbody.all) (hbody.stop.mono h₁)
  · exact .pure ht

theorem reads_operand (hg : g.Sound lines) : Reads lines m (operand g) (Read m) := by
  unfold operand
  refine reads_look.bind fun l m₁ h₁ hl => ?_
  have hliteral : Reads lines m₁ (do advance; return .mk (.literal l.text) l.pos l.stop [])
      (Read m) :=
    .move moves_advance fun _ m₂ h₂ => .pure (.leaf rfl (Nat.le_trans h₁ h₂) (hl.1.mono_place hl.2))
  split
  · exact reads_ident.imp fun m₂ n _ hn => hn.read.mono h₁ (Nat.le_refl m₂)
  · exact hliteral
  · exact hliteral
  · exact hliteral
  · refine .move moves_advance fun _ m₂ h₂ => (reads_inBrackets (reads_rhs hg)).bind fun x m₃ h₃ hx => ?_
    refine (reads_expectOp ")").bind fun rparen m₄ h₄ hrparen => .pure ?_
    exact .node rfl (hx.all.mono (by omega) h₄) ((hrparen.mono (by omega)).add 1)
  · exact (reads_funcOrLiteral hg).imp fun m₂ n _ hn => hn.mono h₁ (Nat.le_refl m₂)
  · refine (hg.type? m₁).bind fun t? m₂ h₂ ht => ?_
    split
    · exact .pure ((ht _ rfl).mono h₁ (Nat.le_refl m₂))
    · exact (reads_bad startsStmt).imp fun m₃ n _ hn => hn.mono (by omega) (Nat.le_refl m₃)

theorem reads_afterPoint (hg : g.Sound lines) {x : Node} (hx : Read m₀ m x) :
    Reads lines m (afterPoint g x) (Read m₀) := by
  unfold afterPoint
  have hle := hx.le
  refine .stay stays_token fun t => ?_
  split
  · exact reads_ident.bind fun name m₁ _ hname => .pure (hx.selected hname.read hname.isName)
  · refine (reads_expectOp "(").bind fun _ m₁ h₁ _ => .stay (stays_atWord "type") fun word => ?_
    extract_lets jp
    have hjp (t : Option Node) (m₂ : Nat) (h₂ : m₁ ≤ m₂) (ht : ∀ x ∈ t, Read m₁ m₂ x) :
        Reads lines m₂ (jp t) (Read m₀) := by
      refine (reads_expectOp ")").bind fun rparen m₃ h₃ hrparen => .pure ?_
      have hparts : ReadAll m₀ m₂ (x :: t.toList) :=
        .cons (hx.mono (Nat.le_refl m₀) h₁) (.toList h₂ ht)
      exact .node rfl (hparts.mono (Nat.le_refl m₀) h₃) ((hrparen.mono (by omega)).add 1)
    split
    · exact .move moves_advance fun _ m₂ h₂ => hjp none m₂ h₂ nofun
    · exact (reads_type hg).bind fun t m₂ h₂ ht =>
        hjp (some t) m₂ h₂ fun _ h => Option.some.inj h ▸ ht
  · refine reads_pos.bind fun start m₁ h₁ hstart => .stay (stays_complain start) fun _ => ?_
    refine .whenMove moves_advance fun _ m₂ h₂ => .pure ?_
    exact hx.selected (.blank (Nat.le_trans h₁ h₂) hstart) rfl

/-- A part of a slice expression, after its colon. -/
def PartRead (m m' : Nat) (part : Nat × Option Node) : Prop :=
  m ≤ m' ∧ Reached m part.1 ∧ ∀ x ∈ part.2, Read m m' x

theorem reads_sliceParts (hg : g.Sound lines) :
    Reads lines m (sliceParts g) (Sequence PartRead m) := by
  unfold sliceParts
  extract_lets part
  have hpart (m : Nat) : Reads lines m part (PartRead m) := by
    refine reads_pos.bind fun colon m₁ h₁ hcolon => .move moves_advance fun _ m₂ h₂ => ?_
    refine .stay (stays_atOp ":") fun _ => .stay (stays_atOp "]") fun _ => .stay stays_atEnd fun _ => ?_
    split
    · exact .pure ⟨by omega, hcolon, nofun⟩
    · refine (reads_rhs hg).bind fun x m₃ h₃ hx => .pure ⟨by omega, hcolon, ?_⟩
      exact fun _ h => Option.some.inj h ▸ hx.mono (by omega) (Nat.le_refl m₃)
  refine (hpart m).bind fun first m₁ _ hfirst => .stay (stays_atOp ":") fun colon => ?_
  split
  · refine (hpart m₁).bind fun second m₂ _ hsecond => .pure ?_
    exact .cons (Nat.le_refl m) hfirst (.cons (Nat.le_refl m₁) hsecond (.nil (Nat.le_refl m₂)))
  · exact .pure (.cons (Nat.le_refl m) hfirst (.nil (Nat.le_refl m₁)))

theorem reads_indexOrSlice (hg : g.Sound lines) {x : Node} (hx : Read m₀ m x) :
    Reads lines m (indexOrSlice g x) (Read m₀) := by
  unfold indexOrSlice
  have hle := hx.le
  refine (reads_expectOp "[").bind fun lbrack m₁ h₁ _ => .stay (stays_atOp "]") fun closed => ?_
  have hx₁ : Read m₀ m₁ x := hx.mono (Nat.le_refl m₀) h₁
  split
  · refine reads_pos.bind fun rbrack m₂ h₂ hrbrack => .stay (stays_complain rbrack) fun _ => ?_
    refine .move moves_advance fun _ m₃ h₃ => .pure ?_
    have hbad : Read m₁ m₃ (.bad rbrack rbrack) := .leaf rfl (by omega) hrbrack
    exact .node rfl (.cons hx₁ hbad.all) ((hrbrack.mono (by omega)).add 1)
  refine Reads.bind (A := fun m' r => ∃ m₂ m₃, m₁ ≤ m₂ ∧ (∀ x ∈ r.1, Read m₁ m₂ x) ∧
    Sequence PartRead m₂ m₃ r.2.1 ∧ Sequence Read m₃ m' r.2.2) (reads_inBrackets ?_) ?_
  · refine .stay (stays_atOp ":") fun colon => ?_
    extract_lets step jp
    have hstep {m₂ m' : Nat} (done : Array Node) (hdone : Sequence Read m₂ m' done.toList) :
        Reads lines m' (step done) fun m'' r => Sequence Read m₂ m'' r.1.toList := by
      refine .stay (stays_atOp ",") fun comma => ?_
      split
      · refine .move moves_advance fun _ m₄ h₄ => ?_
        refine .stay (stays_atOp "]") fun _ => .stay stays_atEnd fun _ => ?_
        split
        · exact .pure (hdone.mono_right h₄)
        · refine (reads_type hg).bind fun x m₅ h₅ hx => .pure ?_
          rw [Array.toList_push]
          exact hdone.snoc h₄ hx
      · exact .pure hdone
    have hjp (first : Option Node) (m₂ : Nat) (h₂ : m₁ ≤ m₂) (hfirst : ∀ x ∈ first, Read m₁ m₂ x) :
        Reads lines m₂ (jp first) fun m' r => ∃ m₂ m₃, m₁ ≤ m₂ ∧ (∀ x ∈ r.1, Read m₁ m₂ x) ∧
          Sequence PartRead m₂ m₃ r.2.1 ∧ Sequence Read m₃ m' r.2.2 := by
      refine .stay (stays_atOp ":") fun colon => ?_
      split
      · refine (reads_sliceParts hg).bind fun parts m₃ _ hparts => .pure ?_
        exact ⟨m₂, m₃, h₂, hfirst, hparts, .nil (Nat.le_refl m₃)⟩
      refine .stay (stays_atOp ",") fun comma => ?_
      split
      · refine .stay stays_rounds fun n => ?_
        refine (reads_iterate (fun done m' _ h => hstep done h) n (.nil (Nat.le_refl m₂))).bind
          fun args m₃ h₃ hargs => .pure ?_
        exact ⟨m₂, m₂, h₂, hfirst, .nil (Nat.le_refl m₂), hargs⟩
      · exact .pure ⟨m₂, m₂, h₂, hfirst, .nil (Nat.le_refl m₂), .nil (Nat.le_refl m₂)⟩
    split
    · exact hjp none m₁ (Nat.le_refl m₁) nofun
    · exact (reads_rhs hg).bind fun x m₂ h₂ hx => hjp (some x) m₂ h₂ fun _ h => Option.some.inj h ▸ hx
  · rintro ⟨first, slices, args⟩ m₂ h₂ ⟨m₃, m₄, h₃, hfirst, hslices, hargs⟩
    have h₄ : m₃ ≤ m₄ := hslices.le fun _ _ _ h => h.1
    have h₅ : m₄ ≤ m₂ := hargs.readAll.le
    have hfirst' : ReadAll m₁ m₃ first.toList := .toList h₃ hfirst
    refine (reads_expectOp "]").bind fun rbrack m₅ h₆ hrbrack => ?_
    have hstop : Reached m₀ (rbrack + 1) := (hrbrack.mono (by omega)).add 1
    split
    · refine .pure ?_
      have hindices : ReadAll m₁ m₂ (first.toList ++ args) :=
        hfirst'.append (hargs.readAll.mono h₄ (Nat.le_refl m₂))
      exact (hx₁.indexed hindices hrbrack).mono (Nat.le_refl m₀) h₆
    · next colon high =>
        cases hslices with
        | cons hab hpart hrest =>
            cases hrest with
            | nil hcd =>
                refine .pure (.node rfl ((ReadAll.cons hx₁ hfirst').append ?_) hstop)
                exact (ReadAll.toList hpart.1 hpart.2.2).mono hab (by omega)
    · next colon high colon' top rest =>
        cases hslices with
        | @cons _ b c _ _ _ hab hpart hrest =>
            cases hrest with
            | @cons _ b' c' _ _ _ hcb' hpart' hrest =>
                have hc' : c' ≤ m₄ := hrest.le fun _ _ _ h => h.1
                have hle' := hpart.1
                have hle'' := hpart'.1
                have hhigh : Read m₃ b' (high.getD (.bad (colon + 1) colon')) := by
                  refine .getD (by omega) (hpart'.2.1.mono (by omega)) fun x hx => ?_
                  exact (hpart.2.2 x hx).mono hab hcb'
                have htop : Read b' m₅ (top.getD (.bad (colon' + 1) rbrack)) := by
                  refine .getD (by omega) (hrbrack.mono (by omega)) fun x hx => ?_
                  exact (hpart'.2.2 x hx).mono (Nat.le_refl b') (by omega)
                have hnode : Read m₀ m₅ (.mk .slice x.pos (rbrack + 1)
                    (x :: first.toList ++ [high.getD (.bad (colon + 1) colon')] ++
                      [top.getD (.bad (colon' + 1) rbrack)])) :=
                  .node rfl (((ReadAll.cons hx₁ hfirst').append hhigh.all).append htop.all) hstop
                exact .whenStay (stays_complain colon) fun _ =>
                  .whenStay (stays_complain colon') fun _ => .pure hnode

theorem reads_callArgs (hg : g.Sound lines) {callee : Node} (hcallee : Read m₀ m callee) :
    Reads lines m (callArgs g callee) (Read m₀) := by
  unfold callArgs
  have hle := hcallee.le
  refine (reads_expectOp "(").bind fun _ m₁ h₁ _ => ?_
  extract_lets step
  have hstep (state : Array Node × Bool) (m' : Nat) (hdone : Sequence Read m₁ m' state.1.toList) :
      Reads lines m' (step state) fun m'' r => Sequence Read m₁ m'' r.1.1.toList := by
    obtain ⟨done, spread⟩ := state
    refine .stay (stays_atOp ")") fun closed => .stay stays_atEnd fun ended => ?_
    split
    · exact .pure hdone
    refine (reads_rhs hg).bind fun arg m₂ _ harg => .stay (stays_atOp "...") fun dots => ?_
    have hpushed : Sequence Read m₁ m₂ (done.push arg).toList := by
      rw [Array.toList_push]
      exact hdone.snoc (Nat.le_refl m') harg
    refine .whenMove moves_advance fun _ m₃ h₃ => .move (moves_atComma ")") fun comma m₄ h₄ => ?_
    split
    · refine .move moves_advance fun _ m₅ h₅ => .pure ?_
      exact hpushed.mono_right (by omega)
    · exact .pure (hpushed.mono_right (Nat.le_trans h₃ h₄))
  refine (reads_inBrackets (.stay stays_rounds fun n => reads_iterate
    (fun state m' _ h => hstep state m' h) n (.nil (Nat.le_refl m₁)))).bind fun state m₂ h₂ hargs => ?_
  obtain ⟨args, spread⟩ := state
  refine (reads_expectClosing ")").bind fun rparen m₃ h₃ hrparen => .pure ?_
  have hparts : ReadAll m₀ m₂ (callee :: args.toList) :=
    .cons (hcallee.mono (Nat.le_refl m₀) h₁) hargs.readAll
  exact .node rfl (hparts.mono (Nat.le_refl m₀) h₃) ((hrparen.mono (by omega)).add 1)

theorem reads_elementValue (hg : g.Sound lines) : Reads lines m (elementValue g) (Read m) := by
  unfold elementValue
  refine .stay (stays_atOp "\x7b") fun brace => ?_
  split
  · exact hg.literalValue none (Nat.le_refl m) nofun
  · exact hg.expr m

theorem reads_element (hg : g.Sound lines) : Reads lines m (element g) (Read m) := by
  unfold element
  refine (reads_elementValue hg).bind fun x m₁ h₁ hx => .stay (stays_atOp ":") fun colon => ?_
  split
  · refine .move moves_advance fun _ m₂ h₂ => (reads_elementValue hg).bind fun y m₃ _ hy => .pure ?_
    exact .node rfl (.cons (hx.mono (Nat.le_refl m) h₂) hy.all) (hy.stop.mono (Nat.le_trans h₁ h₂))
  · exact .pure hx

theorem reads_literalValue (hg : g.Sound lines) (type : Option Node) (h₀ : m₀ ≤ m)
    (htype : ∀ x ∈ type, Read m₀ m x) : Reads lines m (Parse.literalValue g type) (Read m₀) := by
  unfold Parse.literalValue
  refine reads_nested ?_
  refine (reads_expectOp "\x7b").bind fun lbrace m₁ h₁ _ => ?_
  refine (reads_inBrackets (reads_commaList fun _ => reads_element hg)).bind fun elements m₂ h₂ helements => ?_
  refine (reads_expectClosing "\x7d").bind fun rbrace m₃ h₃ hrbrace => .pure ?_
  have hparts : ReadAll m₀ m₂ (type.toList ++ elements) :=
    ((ReadAll.toList h₀ htype).mono (Nat.le_refl m₀) h₁).append helements.readAll
  exact .node rfl (hparts.mono (Nat.le_refl m₀) h₃) ((hrbrace.mono (by omega)).add 1)

/-- An operand with what follows it, a level of nesting for each part. -/
theorem reads_levels {step : Node × Nat → Parse ((Node × Nat) × Bool)}
    (hstep : ∀ state m', Read m₀ m' state.1 → Reads lines m' (step state) fun m'' r => Read m₀ m'' r.1.1)
    {x : Node} (hx : Read m₀ m x) : Reads lines m (do
      let (x, n) ← iterate step (← rounds) (x, 0)
      leave n
      return x) (Read m₀) := by
  refine .stay stays_rounds fun n => ?_
  refine (reads_iterate (I := fun m' state => Read m₀ m' state.1) (fun state m' _ h => hstep state m' h)
    n hx).bind fun state m₁ _ hstate => ?_
  obtain ⟨y, levels⟩ := state
  exact .stay (stays_leave levels) fun _ => .pure hstate

theorem reads_primary (hg : g.Sound lines) (first : Option Node) (h₀ : m₀ ≤ m)
    (hfirst : ∀ x ∈ first, Read m₀ m x) : Reads lines m (primary g first) (Read m₀) := by
  unfold primary
  extract_lets step finish
  have hstep (state : Node × Nat) (m' : Nat) (hx : Read m₀ m' state.1) :
      Reads lines m' (step state) fun m'' r => Read m₀ m'' r.1.1 := by
    obtain ⟨x, n⟩ := state
    refine .stay stays_deepen fun _ => .stay stays_token fun t => ?_
    split
    · refine .move moves_advance fun _ m₁ h₁ => ?_
      exact (reads_afterPoint hg (hx.mono (Nat.le_refl m₀) h₁)).bind fun y m₂ _ hy => .pure hy
    · exact (reads_indexOrSlice hg hx).bind fun y m₁ _ hy => .pure hy
    · exact (reads_callArgs hg hx).bind fun y m₁ _ hy => .pure hy
    · refine .stay stays_get fun s => ?_
      split
      · refine .whenStay (stays_complain _) fun _ => ?_
        refine (hg.literalValue (some x) hx.le fun _ h => ?_).bind fun y m₁ _ hy => .pure hy
        exact Option.some.inj h ▸ hx
      · exact .pure hx
    · exact .pure hx
  have hfinish (x : Node) (m' : Nat) (hx : Read m₀ m' x) : Reads lines m' (finish x) (Read m₀) :=
    reads_levels hstep hx
  split
  · exact hfinish _ m (hfirst _ rfl)
  · exact (reads_operand hg).bind fun x m₁ _ hx => hfinish x m₁ (hx.mono h₀ (Nat.le_refl m₁))

theorem stays_complainAll (places : List Nat) :
    Stays lines (forIn places PUnit.unit fun place _ => do
      complain place
      pure (ForInStep.yield PUnit.unit)) := by
  induction places with
  | nil => exact .pure PUnit.unit
  | cons place places ih =>
      rw [List.forIn_cons]
      refine ((stays_complain place).bind fun _ => .pure _).bind fun r => ?_
      cases r with
      | done => exact .pure PUnit.unit
      | yield => exact ih

theorem reads_unary (hg : g.Sound lines) : Reads lines m (Parse.unary g) (Read m) := by
  unfold Parse.unary
  refine reads_nested (reads_look.bind fun l m₁ h₁ _ => ?_)
  have hprimary : Reads lines m₁ (primary g none) (Read m) :=
    reads_primary hg none h₁ nofun
  split
  · refine .move moves_advance fun _ m₂ h₂ => (hg.unary m₂).bind fun x m₃ _ hx => ?_
    replace hx : Read m m₃ x := hx.mono (Nat.le_trans h₁ h₂) (Nat.le_refl m₃)
    split
    · exact .stay (stays_complainAll _) fun _ => .pure hx.receiveChan
    · exact .pure hx.unary
  · refine .move moves_advance fun _ m₂ h₂ => (hg.unary m₂).bind fun x m₃ _ hx => .pure ?_
    exact hx.star.mono (Nat.le_trans h₁ h₂) (Nat.le_refl m₃)
  · split
    · refine .move moves_advance fun _ m₂ h₂ => (hg.unary m₂).bind fun x m₃ _ hx => .pure ?_
      exact hx.unary.mono (Nat.le_trans h₁ h₂) (Nat.le_refl m₃)
    · exact hprimary
  · exact hprimary

theorem stays_operator : Stays lines operator := .of_looks fun _ => ⟨_, rfl⟩

theorem reads_binary (hg : g.Sound lines) (first : Option Node) (least : Nat) (h₀ : m₀ ≤ m)
    (hfirst : ∀ x ∈ first, Read m₀ m x) : Reads lines m (Parse.binary g first least) (Read m₀) := by
  unfold Parse.binary
  extract_lets step finish
  have hstep (state : Node × Nat) (m' : Nat) (hx : Read m₀ m' state.1) :
      Reads lines m' (step state) fun m'' r => Read m₀ m'' r.1.1 := by
    obtain ⟨x, n⟩ := state
    refine .stay stays_deepen fun _ => .stay stays_operator fun op => ?_
    obtain ⟨t, p⟩ := op
    dsimp only
    split
    · exact .pure hx
    · refine (reads_expect t).bind fun _ m₁ h₁ _ => ?_
      refine (hg.binary none (p + 1) (Nat.le_refl m₁) nofun).bind fun y m₂ _ hy => .pure ?_
      exact (hx.mono (Nat.le_refl m₀) h₁).binary hy
  have hfinish (x : Node) (m' : Nat) (hx : Read m₀ m' x) : Reads lines m' (finish x) (Read m₀) :=
    reads_levels hstep hx
  split
  · exact hfinish _ m (hfirst _ rfl)
  · exact (reads_unary hg).bind fun x m₁ _ hx => hfinish x m₁ (hx.mono h₀ (Nat.le_refl m₁))

theorem reads_expr (hg : g.Sound lines) : Reads lines m (Parse.expr g) (Read m) :=
  reads_binary hg none 1 (Nat.le_refl m) nofun

theorem reads_exprList (hg : g.Sound lines) (inRhs : Bool) :
    Reads lines m (exprList g inRhs) fun m' xs => xs ≠ [] ∧ Sequence Read m m' xs := by
  refine (reads_withRhs inRhs (reads_commaSeparated hg.expr)).imp fun m' xs _ h => ?_
  obtain ⟨x, rest, m₁, rfl, hx, hrest⟩ := h
  exact ⟨List.cons_ne_nil x rest, .cons (Nat.le_refl m) hx hrest⟩

end Parse

end CodeAtlas.Source
