import CodeAtlas.Proofs.Source.Exprs
import CodeAtlas.Source.Parse.Stmts

/-!
# Statements are read in order
-/

namespace CodeAtlas.Source

variable {a b c : Nat} {x y : Node} {xs ys : List Node}

theorem Sequence.head (h : Sequence Read a b (x :: xs)) : Read a b x := by
  cases h with
  | cons hab hx hxs => exact hx.mono hab hxs.readAll.le

theorem ReadAll.unparen (h : ReadAll a b [x]) : ReadAll a b [x.unparen] := by
  fun_induction Node.unparen x with
  | case1 _ _ x ih => exact ih ((h.single rfl).children rfl rfl)
  | case2 => exact h

/-- The last node of a list, replaced by what stands in it. -/
theorem ReadAll.open_last (h : ReadAll a b (xs ++ [x])) (hlabel : x.label.isPlain)
    (hfield : x.label.isField = false) : ReadAll a b (xs ++ x.children) where
  chain := by
    obtain ⟨label, pos, stop, children⟩ := x
    have hchain := h.chain
    have hplain : label.isPlain := hlabel
    rw [plainSpots_append, plainSpots_singleton, spots_of_isPlain hplain] at hchain
    rw [plainSpots_append]
    exact hchain
  ends n hn := by
    rcases List.mem_append.mp hn with hn | hn
    · exact h.ends n (List.mem_append_left _ hn)
    · exact (h.ends x (List.mem_append_right _ (List.mem_singleton.mpr rfl))).children hfield n hn
  shaped n hn := by
    rcases List.mem_append.mp hn with hn | hn
    · exact h.shaped n (List.mem_append_left _ hn)
    · exact (h.shaped x (List.mem_append_right _ (List.mem_singleton.mpr rfl))).children n hn

theorem Read.assign {op : String} {start : Nat} (hstart : Parse.Reached a start)
    (hleft : ReadAll a b xs) (hright : ReadAll b c ys) :
    Read a c (Parse.assignNode op start xs ys) := by
  have hle := hleft.le
  refine .node rfl (hleft.append hright) ?_
  unfold Node.lastStop
  cases hlast : ys.getLast? with
  | none => exact hstart
  | some y => exact (hright.ends y (List.mem_of_getLast? hlast)).stop.mono hle

theorem Read.clause {label : Label} {start colon : Nat} (hlabel : label.isPlain)
    (hcolon : Parse.Reached a colon) (hhead : ReadAll a b xs) (hstmts : ReadAll b c ys) :
    Read a c (Parse.clauseNode label start colon xs ys) := by
  have hle := hhead.le
  refine .node hlabel (hhead.append hstmts) ?_
  unfold Node.lastStop
  cases hlast : ys.getLast? with
  | none => exact hcolon.add 1
  | some y => exact (hstmts.ends y (List.mem_of_getLast? hlast)).stop.mono hle

namespace Parse

variable {lines : LineTable} {g : Grammar} {m m₀ m' : Nat} {α : Type}

/-- The head of a range loop ends with the operand of `range`. -/
def IsRangeHead (s : Node) : Prop :=
  ∃ op place left start y, s = assignNode op place left [unaryNode "range" start y]

theorem reads_simpleStmt (hg : g.Sound lines) (mode : SimpleMode) :
    Reads lines m (simpleStmt g mode) fun m' r =>
      Read m m' r.1 ∧ (r.2 = true → IsRangeHead r.1) := by
  unfold simpleStmt
  refine (reads_exprList hg false).bind fun left m₁ h₁ hleft => ?_
  obtain ⟨hne, hleft⟩ := hleft
  refine reads_look.bind fun l m₂ h₂ hl => ?_
  obtain ⟨x, rest, rfl⟩ := List.exists_cons_of_ne_nil hne
  have hx : Read m m₁ x := hleft.head
  have hpos : Reached m l.pos := hl.1.mono h₁
  extract_lets head assigns op finish
  have hsingle {label : Label} {m₃ pos stop : Nat} (hlabel : label.isPlain) (h₃ : m₁ ≤ m₃)
      (hstop : Reached m stop) : Read m m₃ (.mk label pos stop [x]) :=
    .node hlabel (hx.all.mono (Nat.le_refl m) h₃) hstop
  have hplain {m₃ : Nat} {s : Node} (h : Read m m₃ s) :
      Reads lines m₃ (pure (s, false)) fun m' r => Read m m' r.1 ∧ (r.2 = true → IsRangeHead r.1) :=
    .pure ⟨h, nofun⟩
  split
  · refine .move moves_advance fun _ m₃ h₃ => .stay (stays_atWord "range") fun range => ?_
    have hleftAll : ReadAll m m₃ (x :: rest) := hleft.readAll.mono (Nat.le_refl m) (by omega)
    split
    · refine .stay stays_pos fun start => .move moves_advance fun _ m₄ h₄ => ?_
      refine (reads_rhs hg).bind fun y m₅ h₅ hy => .pure ⟨?_, fun _ => ⟨_, _, _, _, _, rfl⟩⟩
      exact .assign hpos hleftAll (hy.unary.all.mono h₄ (Nat.le_refl m₅))
    · refine (reads_exprList hg true).bind fun right m₄ h₄ hright => hplain ?_
      exact .assign hpos hleftAll hright.2.readAll
  · refine .whenStay (stays_complain _) fun _ => ?_
    dsimp only [finish]
    split
    · refine .move moves_advance fun _ m₃ h₃ => ?_
      split
      · refine (hg.stmt m₃).bind fun s m₄ h₄ hs => hplain ?_
        refine .node rfl (.cons (hx.mono (Nat.le_refl m) (by omega)) hs.all) (hs.stop.mono (by omega))
      · refine .stay (stays_complain _) fun _ => hplain ?_
        exact .leaf rfl (by omega) (hpos.add 1)
    · refine .move moves_advance fun _ m₃ h₃ => (reads_rhs hg).bind fun y m₄ h₄ hy => hplain ?_
      exact .node rfl (.cons (hx.mono (Nat.le_refl m) (by omega)) hy.all) (hy.stop.mono (by omega))
    · exact .move moves_advance fun _ m₃ h₃ => hplain (hsingle rfl (by omega) (hpos.add 2))
    · exact .move moves_advance fun _ m₃ h₃ => hplain (hsingle rfl (by omega) (hpos.add 2))
    · exact hplain (hsingle rfl h₂ hx.stop)

theorem reads_stmtList (hg : g.Sound lines) : Reads lines m (stmtList g) (Sequence Read m) := by
  unfold stmtList
  refine reads_whileM (stays_token.bind fun t => ?_) hg.stmt
  split <;> exact .pure _

theorem reads_body (hg : g.Sound lines) : Reads lines m (Parse.body g) (Read m) := by
  unfold Parse.body
  refine (reads_expectOp "\x7b").bind fun lbrace m₁ h₁ hlbrace => ?_
  refine (reads_stmtList hg).bind fun list m₂ h₂ hlist => ?_
  refine (reads_expectOp? "\x7d").bind fun rbrace m₃ h₃ hrbrace => .pure ?_
  have hlistAll : ReadAll m m₃ list := hlist.readAll.mono h₁ h₃
  refine .node rfl hlistAll ?_
  cases rbrace with
  | none => exact hlistAll.lastStop (hlbrace.add 1)
  | some place => exact ((hrbrace place rfl).mono (by omega)).add 1

theorem reads_deferredCall (hg : g.Sound lines) :
    Reads lines m (deferredCall g) fun m' c => ReadAll m m' c.toList := by
  unfold deferredCall
  refine (reads_rhs hg).bind fun x m₁ h₁ hx => .whenStay (stays_complain _) fun _ => ?_
  split
  · exact .pure hx.all.unparen
  · exact .pure (.nil h₁)
  · exact .stay (stays_complain _) fun _ => .pure (.nil h₁)

theorem reads_deferred (hg : g.Sound lines) (word : String) {label : Label} (hlabel : label.isPlain) :
    Reads lines m (deferred g word label) (Read m) := by
  unfold deferred
  refine (reads_expectWord word).bind fun start m₁ h₁ hstart => ?_
  refine (reads_deferredCall hg).bind fun call m₂ h₂ hcall => .move moves_expectEnd fun _ m₃ h₃ => ?_
  split
  · next call =>
      have hstop := (hcall.ends call (List.mem_singleton.mpr rfl)).stop
      exact .pure (.node hlabel (hcall.mono h₁ h₃) (hstop.mono h₁))
  · exact .pure (.leaf rfl (by omega) (hstart.add _))

theorem reads_returnStmt (hg : g.Sound lines) : Reads lines m (returnStmt g) (Read m) := by
  unfold returnStmt
  refine (reads_expectWord "return").bind fun start m₁ h₁ hstart => ?_
  refine .stay (stays_atOp ";") fun _ => .stay (stays_atOp "\x7d") fun _ => ?_
  extract_lets jp
  have hjp (results : List Node) (m₂ : Nat) (hresults : ReadAll m₁ m₂ results) :
      Reads lines m₂ (jp results) (Read m) := by
    refine .move moves_expectEnd fun _ m₃ h₃ => .pure ?_
    have hall : ReadAll m m₃ results := hresults.mono h₁ h₃
    exact .node rfl hall (hall.lastStop (hstart.add 6))
  split
  · exact hjp [] m₁ (.nil (Nat.le_refl m₁))
  · exact (reads_exprList hg true).bind fun results m₂ _ h => hjp results m₂ h.2.readAll

theorem reads_branchStmt (word : String) : Reads lines m (branchStmt word) (Read m) := by
  unfold branchStmt
  refine (reads_expectWord word).bind fun start m₁ h₁ hstart => .stay stays_token fun t => ?_
  extract_lets named jp
  have hjp (label : Option Node) (m₂ : Nat) (h₂ : m₁ ≤ m₂) (hlabel : ∀ x ∈ label, Named m₁ m₂ x) :
      Reads lines m₂ (jp label) (Read m) := by
    refine .move moves_expectEnd fun _ m₃ h₃ => .pure (.node rfl ?_ ?_)
    · exact (ReadAll.toList h₂ fun x hx => (hlabel x hx).read).mono h₁ h₃
    · cases label with
      | none => exact hstart.add _
      | some x => exact (hlabel x rfl).read.stop.mono h₁
  split
  · exact reads_ident.bind fun name m₂ h₂ hname => hjp (some name) m₂ h₂ fun _ h => Option.some.inj h ▸ hname
  · exact hjp none m₁ (Nat.le_refl m₁) nofun

/-- The expression of a statement has been read with it. -/
theorem reads_asExpr {a b : Nat} {s : Option Node} (hab : a ≤ b) (hs : ∀ x ∈ s, Read a b x) :
    Reads lines m (asExpr s) fun _ x => ReadAll a b x.toList := by
  unfold asExpr
  split
  · exact .pure (.nil hab)
  · next s =>
      have hread : Read a b s := hs s rfl
      split
      · next x hlabel hchildren =>
          have hx := hread.children (hlabel ▸ rfl) (hlabel ▸ rfl)
          rw [hchildren] at hx
          exact .pure hx
      · refine .stay (stays_complain _) fun _ => .pure ?_
        have hbad : Read a b (.bad s.pos s.stop) := .leaf rfl hab hread.stop
        exact hbad.all

theorem reads_simple (hg : g.Sound lines) (mode : SimpleMode) {k : Option Node → Parse α}
    {A : Nat → α → Prop} (hk : ∀ s m', m ≤ m' → (∀ x ∈ s, Read m m' x) → Reads lines m' (k s) A) :
    Reads lines m (do
      let r ← simpleStmt g mode
      let s ← pure (some r.1)
      k s) A :=
  (reads_simpleStmt hg mode).bind fun r m₁ h₁ hr => hk (some r.1) m₁ h₁ fun _ h => Option.some.inj h ▸ hr.1

/-- The statement before the condition, and the condition. -/
theorem reads_ifHeader (hg : g.Sound lines) : Reads lines m (ifHeader g) fun m' r =>
    ∃ m₁, ReadAll m m₁ r.1.toList ∧ ReadAll m₁ m' [r.2] := by
  unfold ifHeader
  refine .stay (stays_atOp "\x7b") fun brace => ?_
  split
  · refine reads_pos.bind fun here m₁ h₁ hhere => .stay (stays_complain here) fun _ => .pure ?_
    have hbad : Read m m₁ (.bad here here) := .leaf rfl h₁ hhere
    exact ⟨m, .nil (Nat.le_refl m), hbad.all⟩
  refine reads_inHead (.stay (stays_atOp ";") fun semi => ?_)
  extract_lets finish withFirst
  have hfinish (first second : Option Node) (semi : Option Nat) {m₁ m₂ m₃ : Nat} (h₁ : m ≤ m₁)
      (h₂ : m₁ ≤ m₂) (h₃ : m₂ ≤ m₃) (hfirst : ∀ x ∈ first, Read m m₁ x)
      (hsecond : ∀ x ∈ second, Read m₁ m₂ x) :
      Reads lines m₃ (finish (first, second, semi)) fun m' r =>
        ∃ m₁, ReadAll m m₁ r.1.toList ∧ ReadAll m₁ m' [r.2] := by
    refine (reads_asExpr h₂ hsecond).bind fun cond m₄ h₄ hcond => ?_
    have hlast : Reads lines m₄ (do
        let here ← pos
        return (first, cond.getD (.bad here here))) fun m' r =>
          ∃ m₁, ReadAll m m₁ r.1.toList ∧ ReadAll m₁ m' [r.2] := by
      refine reads_pos.bind fun here m₅ h₅ hhere => .pure ⟨m₁, .toList h₁ hfirst, ?_⟩
      cases cond with
      | some x => exact hcond.mono (Nat.le_refl m₁) (by omega)
      | none =>
          have hbad : Read m₁ m₅ (.bad here here) := .leaf rfl (by omega) (hhere.mono (by omega))
          exact hbad.all
    split
    · split
      · exact .stay (stays_complain _) fun _ => hlast
      · exact hlast
    · exact hlast
  have hwithFirst (first : Option Node) (m₁ : Nat) (h₁ : m ≤ m₁) (hfirst : ∀ x ∈ first, Read m m₁ x) :
      Reads lines m₁ (withFirst first) fun m' r =>
        ∃ m₁, ReadAll m m₁ r.1.toList ∧ ReadAll m₁ m' [r.2] := by
    refine .stay (stays_atOp "\x7b") fun brace => ?_
    split
    · exact hfinish none first none (Nat.le_refl m) h₁ (Nat.le_refl m₁) nofun hfirst
    refine .stay stays_pos fun here => .stay (stays_atOp ";") fun semi => ?_
    extract_lets withSecond
    have hwithSecond (semi : Option Nat) (m₂ : Nat) (h₂ : m₁ ≤ m₂) :
        Reads lines m₂ (withSecond semi) fun m' r =>
          ∃ m₁, ReadAll m m₁ r.1.toList ∧ ReadAll m₁ m' [r.2] := by
      refine .stay (stays_atOp "\x7b") fun brace => ?_
      split
      · exact hfinish first none semi h₁ (Nat.le_refl m₁) h₂ hfirst nofun
      · refine reads_simple hg .basic fun second m₃ h₃ hsecond => ?_
        exact hfinish first second semi h₁ (Nat.le_trans h₂ h₃) (Nat.le_refl m₃) hfirst fun x hx =>
          (hsecond x hx).mono h₂ (Nat.le_refl m₃)
    split
    · exact .move moves_advance fun _ m₂ h₂ => hwithSecond (some here) m₂ h₂
    · exact (reads_expectOp ";").bind fun _ m₂ h₂ _ => hwithSecond none m₂ h₂
  have hsimple {m₁ : Nat} (h₁ : m ≤ m₁) : Reads lines m₁ (do
      let r ← simpleStmt g .basic
      let first ← pure (some r.1)
      withFirst first) fun m' r => ∃ m₁, ReadAll m m₁ r.1.toList ∧ ReadAll m₁ m' [r.2] :=
    reads_simple hg .basic fun first m₂ h₂ hfirst =>
      hwithFirst first m₂ (Nat.le_trans h₁ h₂) fun x hx => (hfirst x hx).mono h₁ (Nat.le_refl m₂)
  split
  · exact hwithFirst none m (Nat.le_refl m) nofun
  · refine .stay (stays_atWord "var") fun word => ?_
    split
    · exact .move moves_advance fun _ m₁ h₁ => .stay stays_complainHere fun _ => hsimple h₁
    · exact hsimple (Nat.le_refl m)

theorem reads_ifStmt (hg : g.Sound lines) : Reads lines m (Parse.ifStmt g) (Read m) := by
  unfold Parse.ifStmt
  refine reads_nested ?_
  refine (reads_expectWord "if").bind fun start m₁ h₁ _ => (reads_ifHeader hg).bind fun r m₂ h₂ hr => ?_
  obtain ⟨first, cond⟩ := r
  obtain ⟨m₃, hfirst, hcond⟩ := hr
  refine (reads_body hg).bind fun block m₄ h₄ hblock => .stay (stays_atWord "else") fun word => ?_
  extract_lets jp
  have hjp (otherwise : Option Node) (m₅ : Nat) (h₅ : m₄ ≤ m₅) (hother : ∀ x ∈ otherwise, Read m₄ m₅ x) :
      Reads lines m₅ (jp otherwise) (Read m) := by
    have hparts : ReadAll m₁ m₅ (first.toList ++ [cond, block] ++ otherwise.toList) :=
      (hfirst.append (hcond.append hblock.all)).append (.toList h₅ hother)
    refine .pure (.node rfl (hparts.mono h₁ (Nat.le_refl m₅)) ?_)
    cases otherwise with
    | none => exact hblock.stop.mono (by omega)
    | some x => exact (hother x rfl).stop.mono (by omega)
  have hsome {x : Node} {m₅ : Nat} (hx : Read m₄ m₅ x) : ∀ y ∈ some x, Read m₄ m₅ y :=
    fun _ h => Option.some.inj h ▸ hx
  split
  · refine .move moves_advance fun _ m₅ h₅ => .stay stays_token fun t => ?_
    split
    · refine (hg.ifStmt m₅).bind fun x m₆ h₆ hx => hjp (some x) m₆ (by omega) ?_
      exact hsome (hx.mono h₅ (Nat.le_refl m₆))
    · refine (reads_body hg).bind fun x m₆ h₆ hx => .move moves_expectEnd fun _ m₇ h₇ => ?_
      exact hjp (some x) m₇ (by omega) (hsome (hx.mono h₅ h₇))
    · refine reads_pos.bind fun here m₆ h₆ hhere => .stay (stays_complain here) fun _ => ?_
      exact hjp (some _) m₆ (by omega) (hsome (.leaf rfl (by omega) (hhere.mono h₅)))
  · exact .move moves_expectEnd fun _ m₅ h₅ => hjp none m₅ h₅ nofun

/-! ## Cases -/

theorem reads_caseClause (hg : g.Sound lines) : Reads lines m (caseClause g) (Read m) := by
  unfold caseClause
  refine .stay stays_pos fun start => .stay (stays_atWord "case") fun word => ?_
  extract_lets jp
  have hjp (list : List Node) (m₁ : Nat) (hlist : ReadAll m m₁ list) :
      Reads lines m₁ (jp list) (Read m) := by
    have hle := hlist.le
    refine (reads_expectOp ":").bind fun colon m₂ h₂ hcolon => ?_
    refine (reads_stmtList hg).bind fun stmts m₃ h₃ hstmts => .pure ?_
    exact .clause rfl (hcolon.mono hle) hlist (hstmts.readAll.mono h₂ (Nat.le_refl m₃))
  split
  · refine .move moves_advance fun _ m₁ h₁ => (reads_exprList hg true).bind fun list m₂ _ hlist => ?_
    exact hjp list m₂ (hlist.2.readAll.mono h₁ (Nat.le_refl m₂))
  · exact (reads_expectWord "default").bind fun _ m₁ h₁ _ => hjp [] m₁ (.nil h₁)

theorem stays_typeSwitchGuard (s : Option Node) : Stays lines (typeSwitchGuard s) := by
  unfold typeSwitchGuard
  split
  · exact .pure false
  · split
    · exact .pure _
    · split
      · extract_lets jp
        split
        · exact (stays_complain _).bind fun _ => .pure _
        · exact .pure _
      · exact .pure false
    · exact .pure false

theorem reads_clauses {clause : Parse Node} (hclause : ∀ m, Reads lines m clause (Read m)) :
    Reads lines m (clauses clause) (Read m) := by
  unfold clauses
  have hmore : Stays lines (do return (← atWord "case") || (← atWord "default")) :=
    (stays_atWord "case").bind fun _ => (stays_atWord "default").bind fun _ => .pure _
  refine (reads_expectOp "\x7b").bind fun lbrace m₁ h₁ _ => ?_
  refine (reads_whileM hmore hclause).bind fun list m₂ h₂ hlist => ?_
  refine (reads_expectOp "\x7d").bind fun rbrace m₃ h₃ hrbrace => .move moves_expectEnd fun _ m₄ h₄ => ?_
  exact .pure (.node rfl (hlist.readAll.mono h₁ (by omega)) ((hrbrace.mono (by omega)).add 1))

theorem reads_switchStmt (hg : g.Sound lines) : Reads lines m (switchStmt g) (Read m) := by
  unfold switchStmt
  refine (reads_expectWord "switch").bind fun start m₁ h₁ _ => .stay (stays_atOp "\x7b") fun brace => ?_
  extract_lets jp withFirst
  have hjp (first second : Option Node) {m₂ m₃ : Nat} (h₂ : m₁ ≤ m₂) (h₃ : m₂ ≤ m₃)
      (hfirst : ∀ x ∈ first, Read m₁ m₂ x) (hsecond : ∀ x ∈ second, Read m₂ m₃ x) :
      Reads lines m₃ (jp (first, second)) (Read m) := by
    refine .stay (stays_typeSwitchGuard second) fun typed => ?_
    refine (reads_clauses fun _ => reads_caseClause hg).bind fun cases m₄ h₄ hcases => ?_
    have hnode {label : Label} {tag : List Node} {m₅ : Nat} (hlabel : label.isPlain) (h₅ : m₄ ≤ m₅)
        (htag : ReadAll m₂ m₃ tag) :
        Read m m₅ (.mk label start cases.stop (first.toList ++ tag ++ [cases])) := by
      have hparts : ReadAll m₁ m₄ (first.toList ++ tag ++ [cases]) :=
        ((ReadAll.toList h₂ hfirst).append htag).append hcases.all
      exact .node hlabel (hparts.mono h₁ h₅) (hcases.stop.mono (by omega))
    split
    · exact .pure (hnode rfl (Nat.le_refl m₄) (.toList h₃ hsecond))
    · exact (reads_asExpr h₃ hsecond).bind fun tag m₅ h₅ htag => .pure (hnode rfl h₅ htag)
  split
  · exact hjp none none (Nat.le_refl m₁) (Nat.le_refl m₁) nofun nofun
  refine Reads.bind (A := fun m' r => ∃ m₂, m₁ ≤ m₂ ∧ m₂ ≤ m' ∧ (∀ x ∈ r.1, Read m₁ m₂ x) ∧
    ∀ x ∈ r.2, Read m₂ m' x) (reads_inHead ?_) ?_
  · have hwithFirst (s : Option Node) (m₂ : Nat) (h₂ : m₁ ≤ m₂) (hs : ∀ x ∈ s, Read m₁ m₂ x) :
        Reads lines m₂ (withFirst s) fun m' r => ∃ m₂, m₁ ≤ m₂ ∧ m₂ ≤ m' ∧
          (∀ x ∈ r.1, Read m₁ m₂ x) ∧ ∀ x ∈ r.2, Read m₂ m' x := by
      refine .stay (stays_atOp ";") fun semi => ?_
      split
      · refine .move moves_advance fun _ m₃ h₃ => .stay (stays_atOp "\x7b") fun brace => ?_
        split
        · exact .pure ⟨m₂, h₂, h₃, hs, nofun⟩
        · refine (reads_simpleStmt hg .basic).bind fun r m₄ h₄ hr => .pure ⟨m₂, h₂, by omega, hs, ?_⟩
          exact fun _ h => Option.some.inj h ▸ hr.1.mono h₃ (Nat.le_refl m₄)
      · exact .pure ⟨m₁, Nat.le_refl m₁, h₂, nofun, hs⟩
    refine .stay (stays_atOp ";") fun semi => ?_
    split
    · exact hwithFirst none m₁ (Nat.le_refl m₁) nofun
    · exact reads_simple hg .basic hwithFirst
  · rintro ⟨first, second⟩ m₂ _ ⟨m₃, h₂, h₃, hfirst, hsecond⟩
    exact hjp first second h₂ h₃ hfirst hsecond

theorem reads_commHead (hg : g.Sound lines) : Reads lines m (commHead g) (Read m) := by
  unfold commHead
  refine (reads_exprList hg false).bind fun left m₁ h₁ hleft => ?_
  obtain ⟨hne, hleft⟩ := hleft
  refine reads_look.bind fun l m₂ h₂ hl => ?_
  obtain ⟨x, rest, rfl⟩ := List.exists_cons_of_ne_nil hne
  have hx : Read m m₁ x := hleft.head
  extract_lets head
  have hassign {op : String} : Reads lines m₂ (do
      advance
      let y ← rhs g
      return assignNode op l.pos ((x :: rest).take 2) [y]) (Read m) := by
    refine .move moves_advance fun _ m₃ h₃ => (reads_rhs hg).bind fun y m₄ _ hy => .pure ?_
    have hkept : ReadAll m m₃ ((x :: rest).take 2) :=
      (hleft.readAll.sublist (List.take_sublist 2 _)).mono (Nat.le_refl m) (by omega)
    exact .assign (hl.1.mono h₁) hkept hy.all
  split
  · refine .whenStay (stays_complain _) fun _ => .move moves_advance fun _ m₃ h₃ => ?_
    refine (reads_rhs hg).bind fun y m₄ h₄ hy => .pure ?_
    exact .node rfl (.cons (hx.mono (Nat.le_refl m) (by omega)) hy.all) (hy.stop.mono (by omega))
  · exact .whenStay (stays_complain _) fun _ => hassign
  · exact .whenStay (stays_complain _) fun _ => hassign
  · refine .whenStay (stays_complain _) fun _ => .pure ?_
    exact .node rfl (hx.all.mono (Nat.le_refl m) h₂) hx.stop

theorem reads_commClause (hg : g.Sound lines) : Reads lines m (commClause g) (Read m) := by
  unfold commClause
  refine .stay stays_pos fun start => .stay (stays_atWord "case") fun word => ?_
  extract_lets jp
  have hjp (comm : List Node) (m₁ : Nat) (hcomm : ReadAll m m₁ comm) :
      Reads lines m₁ (jp comm) (Read m) := by
    have hle := hcomm.le
    refine (reads_expectOp ":").bind fun colon m₂ h₂ hcolon => ?_
    refine (reads_stmtList hg).bind fun stmts m₃ h₃ hstmts => .pure ?_
    exact .clause rfl (hcolon.mono hle) hcomm (hstmts.readAll.mono h₂ (Nat.le_refl m₃))
  split
  · refine .move moves_advance fun _ m₁ h₁ => (reads_commHead hg).bind fun s m₂ h₂ hs => ?_
    exact hjp [s] m₂ (hs.all.mono h₁ (Nat.le_refl m₂))
  · exact (reads_expectWord "default").bind fun _ m₁ h₁ _ => hjp [] m₁ (.nil h₁)

theorem reads_selectStmt (hg : g.Sound lines) : Reads lines m (selectStmt g) (Read m) := by
  unfold selectStmt
  refine (reads_expectWord "select").bind fun start m₁ h₁ _ => ?_
  refine (reads_clauses fun _ => reads_commClause hg).bind fun cases m₂ h₂ hcases => .pure ?_
  exact .node rfl (hcases.all.mono h₁ (Nat.le_refl m₂)) (hcases.stop.mono h₁)

/-! ## Loops -/

/-- The parts of the head of a loop, and of a range its operand. -/
structure ForHeadRead (m m' : Nat) (head : ForHead) : Prop where
  parts : ∃ m₁ m₂, m ≤ m₁ ∧ m₁ ≤ m₂ ∧ m₂ ≤ m' ∧ (∀ x ∈ head.first, Read m m₁ x) ∧
    (∀ x ∈ head.second, Read m₁ m₂ x) ∧ ∀ x ∈ head.third, Read m₂ m' x
  range : head.isRange = true → ∃ s, head.second = some s ∧ IsRangeHead s

theorem reads_forHead (hg : g.Sound lines) : Reads lines m (forHead g) (ForHeadRead m) := by
  unfold forHead
  refine .stay (stays_atOp ";") fun semi => .stay (stays_atWord "range") fun range => ?_
  extract_lets finish
  have hfinish (second : Option Node) (isRange : Bool) (m₁ : Nat) (h₁ : m ≤ m₁)
      (hsecond : ∀ x ∈ second, Read m m₁ x)
      (hrange : isRange = true → ∃ s, second = some s ∧ IsRangeHead s) :
      Reads lines m₁ (finish (second, isRange)) (ForHeadRead m) := by
    refine .stay (stays_atOp ";") fun semi => ?_
    split
    · refine .move moves_advance fun _ m₂ h₂ => .stay (stays_atOp ";") fun semi => ?_
      extract_lets withCond
      have hwithCond (cond : Option Node) (m₃ : Nat) (h₃ : m₂ ≤ m₃) (hcond : ∀ x ∈ cond, Read m₂ m₃ x) :
          Reads lines m₃ (withCond cond) (ForHeadRead m) := by
        refine .move moves_expectEnd fun _ m₄ h₄ => .stay (stays_atOp "\x7b") fun brace => ?_
        have hhead (post : Option Node) (m₅ : Nat) (h₅ : m₄ ≤ m₅) (hpost : ∀ x ∈ post, Read m₄ m₅ x) :
            ForHeadRead m m₅ ⟨second, cond, post, false⟩ := by
          refine ⟨⟨m₁, m₄, h₁, by omega, h₅, hsecond, fun x hx => ?_, hpost⟩, nofun⟩
          exact (hcond x hx).mono h₂ h₄
        split
        · exact .pure (hhead none m₄ (Nat.le_refl m₄) nofun)
        · exact reads_simple hg .basic fun post m₅ h₅ hpost => .pure (hhead post m₅ h₅ hpost)
      split
      · exact hwithCond none m₂ (Nat.le_refl m₂) nofun
      · refine .stay (stays_atOp "\x7b") fun brace => ?_
        exact .whenStay stays_complainHere fun _ => reads_simple hg .basic hwithCond
    · exact .pure ⟨⟨m, m₁, Nat.le_refl m, h₁, Nat.le_refl m₁, nofun, hsecond, nofun⟩, hrange⟩
  split
  · exact hfinish none false m (Nat.le_refl m) nofun nofun
  split
  · refine reads_pos.bind fun start m₁ h₁ hstart => .move moves_advance fun _ m₂ h₂ => ?_
    refine (reads_rhs hg).bind fun y m₃ h₃ hy => ?_
    refine hfinish (some _) true m₃ (by omega) ?_ fun _ => ⟨_, rfl, _, _, _, _, _, rfl⟩
    refine fun _ h => Option.some.inj h ▸ .assign hstart (.nil (Nat.le_refl m)) ?_
    exact hy.unary.all.mono (by omega) (Nat.le_refl m₃)
  · refine (reads_simpleStmt hg .rangeOk).bind fun r m₁ h₁ hr => ?_
    obtain ⟨s, isRange⟩ := r
    exact hfinish (some s) isRange m₁ h₁ (fun _ h => Option.some.inj h ▸ hr.1) fun h => ⟨s, rfl, hr.2 h⟩

theorem reads_forStmt (hg : g.Sound lines) : Reads lines m (forStmt g) (Read m) := by
  unfold forStmt
  refine (reads_expectWord "for").bind fun start m₁ h₁ hstart => .stay (stays_atOp "\x7b") fun brace => ?_
  extract_lets jp
  have hjp (head : ForHead) (m₂ : Nat) (hhead : ForHeadRead m₁ m₂ head) :
      Reads lines m₂ (jp head) (Read m) := by
    obtain ⟨⟨m₃, m₄, h₃, h₄, h₅, hfirst, hsecond, hthird⟩, hrange⟩ := hhead
    refine (reads_body hg).bind fun block m₅ h₆ hblock => .move moves_expectEnd fun _ m₆ h₇ => ?_
    have hstop : Reached m block.stop := hblock.stop.mono (by omega)
    dsimp only
    split
    · next hisRange =>
        obtain ⟨s, hs, op, place, left, begin, y, rfl⟩ := hrange hisRange
        have hread : Read m₃ m₄ (assignNode op place left [unaryNode "range" begin y]) := hsecond _ hs
        have hoperands : ReadAll m₃ m₄ (left ++ [y]) := (hread.children rfl rfl).open_last rfl rfl
        have hchildren : (assignNode op place left [unaryNode "range" begin y]).children =
            left ++ [unaryNode "range" begin y] := rfl
        rw [hs, Option.getD_some, hchildren, List.dropLast_concat, List.getLast?_concat]
        have hparts : ReadAll m₃ m₅ (left ++ [y] ++ [block]) :=
          hoperands.append (hblock.all.mono h₅ (Nat.le_refl m₅))
        split
        · refine .stay (stays_complain _) fun _ => .pure (.leaf rfl ?_ hstop)
          omega
        · exact .pure (.node rfl (hparts.mono (by omega) h₇) hstop)
    · refine (reads_asExpr h₄ hsecond).bind fun cond m₇ h₈ hcond => .pure (.node rfl ?_ hstop)
      have hparts : ReadAll m₁ m₅ (head.first.toList ++ cond.toList ++ head.third.toList ++ [block]) :=
        (((ReadAll.toList h₃ hfirst).append hcond).append (.toList h₅ hthird)).append hblock.all
      exact hparts.mono h₁ (by omega)
  split
  · refine hjp ⟨none, none, none, false⟩ m₁ ⟨⟨m₁, m₁, ?_⟩, nofun⟩
    exact ⟨Nat.le_refl m₁, Nat.le_refl m₁, Nat.le_refl m₁, nofun, nofun, nofun⟩
  · exact (reads_inHead (reads_forHead hg)).bind fun head m₂ _ hhead => hjp head m₂ hhead

theorem reads_stmt (hg : g.Sound lines) : Reads lines m (Parse.stmt g) (Read m) := by
  unfold Parse.stmt
  refine reads_nested (reads_look.bind fun l m₁ h₁ hl => ?_)
  have hpos : Reached m l.pos := hl.1
  have hlater {p : Parse Node} (hp : Reads lines m₁ p (Read m₁)) : Reads lines m₁ p (Read m) :=
    hp.imp fun m₂ n _ hn => hn.mono h₁ (Nat.le_refl m₂)
  have hdecl : Reads lines m₁ (do
      let d ← g.decl startsStmt
      return .mk .declStmt d.pos d.stop [d]) (Read m₁) :=
    (hg.decl startsStmt m₁).bind fun d m₂ _ hd => .pure (.node rfl hd.all hd.stop)
  split
  · exact hlater hdecl
  · exact hlater hdecl
  · exact hlater hdecl
  · exact hlater (reads_deferred hg "go" rfl)
  · exact hlater (reads_deferred hg "defer" rfl)
  · exact hlater (reads_returnStmt hg)
  · exact hlater (reads_branchStmt "break")
  · exact hlater (reads_branchStmt "continue")
  · exact hlater (reads_branchStmt "goto")
  · exact hlater (reads_branchStmt "fallthrough")
  · refine hlater ((reads_body hg).bind fun b m₂ _ hb => .move moves_expectEnd fun _ m₃ h₃ => .pure ?_)
    exact hb.mono (Nat.le_refl m₁) h₃
  · exact hlater (reads_ifStmt hg)
  · exact hlater (reads_switchStmt hg)
  · exact hlater (reads_selectStmt hg)
  · exact hlater (reads_forStmt hg)
  · refine .move moves_advance fun _ m₂ h₂ => .pure (.leaf rfl (by omega) ?_)
    split
    · exact hpos
    · exact hpos.add 1
  · exact .pure (.leaf rfl h₁ hpos)
  · split
    · refine (reads_simpleStmt hg .labelOk).bind fun r m₂ h₂ hr => ?_
      obtain ⟨s, isRange⟩ := r
      refine .whenMove moves_expectEnd fun _ m₃ h₃ => .pure (hr.1.mono h₁ h₃)
    · refine .stay (stays_complain _) fun _ => .move (moves_resync startsStmt) fun _ m₂ h₂ => ?_
      exact reads_pos.bind fun place m₃ h₃ hplace =>
        .pure (.leaf rfl (by omega) (hplace.mono (by omega)))

end Parse

end CodeAtlas.Source
