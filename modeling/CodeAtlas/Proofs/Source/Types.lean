import CodeAtlas.Proofs.Source.Spots
import CodeAtlas.Source.Parse.Types

/-!
# Types, parameters and fields are read in order

What the grammar for nested constructs reads is assumed to be read between two moments; what is made
of it then is, too.
-/

namespace CodeAtlas.Source

/-- A grammar whose parsers answer nodes that they have read.  A part that was read before begins at the
moment `m₀`. -/
structure Grammar.Sound (lines : LineTable) (g : Grammar) : Prop where
  type? (m : Nat) : Reads lines m g.type? fun m' t? => ∀ t ∈ t?, Read m m' t
  expr (m : Nat) : Reads lines m g.expr (Read m)
  unary (m : Nat) : Reads lines m g.unary (Read m)
  binary {m₀ m : Nat} (first : Option Node) (least : Nat) (h₀ : m₀ ≤ m)
    (hfirst : ∀ x ∈ first, Read m₀ m x) : Reads lines m (g.binary first least) (Read m₀)
  literalValue {m₀ m : Nat} (type : Option Node) (h₀ : m₀ ≤ m)
    (htype : ∀ x ∈ type, Read m₀ m x) : Reads lines m (g.literalValue type) (Read m₀)
  body (m : Nat) : Reads lines m g.body (Read m)
  stmt (m : Nat) : Reads lines m g.stmt (Read m)
  ifStmt (m : Nat) : Reads lines m g.ifStmt (Read m)
  decl (sync : Token → Bool) (m : Nat) : Reads lines m (g.decl sync) (Read m)

theorem ReadAll.toList {a b : Nat} {x? : Option Node} (hab : a ≤ b) (h : ∀ x ∈ x?, Read a b x) :
    ReadAll a b x?.toList := by
  cases x? with
  | none => exact .nil hab
  | some x => exact (h x rfl).all

theorem Parse.Reached.mono_place {m place place' : Nat} (h : Parse.Reached m place)
    (hplace : place ≤ place') : Parse.Reached m place' :=
  Nat.le_trans h (Nat.succ_le_succ (Nat.mul_le_mul_left 2 hplace))

theorem Parse.Reached.add {m place : Nat} (h : Parse.Reached m place) (n : Nat) :
    Parse.Reached m (place + n) :=
  h.mono_place (Nat.le_add_right place n)

namespace Read

variable {a b c : Nat} {x y name : Node} {indices : List Node}

theorem indexed {lbrack rbrack : Nat} (hx : Read a b x) (hindices : ReadAll b c indices)
    (hrbrack : Parse.Reached c rbrack) : Read a c (Parse.indexed x indices lbrack rbrack) := by
  have hstop : Parse.Reached a (rbrack + 1) :=
    (hrbrack.mono (Nat.le_trans hx.le hindices.le)).add 1
  have hbad : Read b c (.bad (lbrack + 1) rbrack) :=
    .leaf rfl hindices.le (hrbrack.mono hindices.le)
  unfold Parse.indexed
  dsimp only
  split
  · exact .node rfl (.cons hx hbad.all) hstop
  · exact .node rfl (.cons hx hindices) hstop

theorem selected (hx : Read a b x) (hname : Read b c name) (hisName : name.isName) :
    Read a c (Parse.selected x name) where
  chain := by
    rw [Parse.selected, spots_mk rfl, spotsFrom_eq fun _ _ => rfl]
    exact (ReadAll.cons hx hname.all).chain
  ends := .mk (hname.stop.mono hx.le) fun _ => (ReadAll.cons hx hname.all).ends
  shaped := by
    refine .mk (fun n hn => ?_) (ReadAll.cons hx hname.all).shaped
    rwa [List.mem_singleton.mp hn]
  members := nofun

theorem arrayType {lbrack : Nat} {length : Option Node} (hab : a ≤ b)
    (hlength : ∀ x ∈ length, Read a b x) (hx : Read b c x) :
    Read a c (Parse.arrayNode lbrack length x) :=
  .node rfl ((ReadAll.toList hab hlength).append hx.all) (hx.stop.mono hab)

theorem binary {op : String} (hx : Read a b x) (hy : Read b c y) :
    Read a c (Parse.binaryNode op x y) :=
  .node rfl (.cons hx hy.all) (hy.stop.mono hx.le)

theorem star {place : Nat} (hx : Read a b x) : Read a b (Parse.starNode place x) :=
  .node rfl hx.all hx.stop

end Read

theorem ReadSince.binary {a b c d : Nat} {x y : Node} {op : String} (hx : ReadSince a b c x)
    (hy : Read c d y) (hac : a ≤ c) : ReadSince a b d (Parse.binaryNode op x y) where
  chain := by
    rw [Parse.binaryNode, spots_of_isPlain rfl, plainSpots_cons, plainSpots_singleton]
    exact hx.chain.append hy.chain
  ends := by
    refine .mk (hy.stop.mono hac) fun _ n hn => ?_
    rcases List.mem_cons.mp hn with rfl | hn
    · exact hx.ends
    · exact List.mem_singleton.mp hn ▸ hy.ends.mono hac
  shaped := by
    refine .mk trivial fun n hn => ?_
    rcases List.mem_cons.mp hn with rfl | hn
    · exact hx.shaped
    · exact List.mem_singleton.mp hn ▸ hy.shaped
  members := nofun

/-! ## Fields -/

/-- A field that has been read as a member of a type. -/
structure FieldRead (m m' : Nat) (f : Node) : Prop where
  chain : Chain m m' (spots .member f)
  ends : Ends m f
  shaped : Shaped f
  named : FieldNamed f

theorem spots_member_fieldNode (names : List Node) (type : Node) (tag : Option Node) :
    spots .member (Parse.fieldNode names type tag) =
      names.flatMap (spots .declared) ++ plainSpots (type :: tag.toList) := by
  have hnames : ∀ k < names.length,
      childStanding (.field names.length tag.isSome) .member k = .declared := by
    intro k hk
    rw [childStanding, if_pos ⟨rfl, hk⟩]
  have hrest : ∀ k, names.length ≤ k →
      childStanding (.field names.length tag.isSome) .member k = .plain := by
    intro k hk
    rw [childStanding, if_neg fun h => Nat.not_lt.mpr hk h.2]
  rw [Parse.fieldNode, spots_mk rfl, List.append_assoc, spotsFrom_names hnames hrest,
    List.singleton_append]

theorem FieldRead.of_parts {a b c d : Nat} {names : List Node} {type : Node} {tag : Option Node}
    (hnames : Sequence Named a b names) (htype : Read b c type) (hcd : c ≤ d)
    (htag : ∀ x ∈ tag, Read c d x) : FieldRead a d (Parse.fieldNode names type tag) := by
  have hab : a ≤ b := hnames.le fun _ _ _ h => h.le
  have hrest : ReadAll b d (type :: tag.toList) := .cons htype (.toList hcd htag)
  have hstop : Parse.Reached b (tag.getD type).stop := by
    cases tag with
    | none => exact htype.stop
    | some x => exact (htag x rfl).stop.mono htype.le
  have hshaped : ReadAll a d (names ++ type :: tag.toList) :=
    (hnames.imp fun _ _ _ h => h.read).readAll.append hrest
  refine ⟨?_, .mk (hstop.mono hab) nofun, .mk trivial ?_, ?_⟩
  · rw [spots_member_fieldNode]
    exact hnames.declared.append hrest.chain
  · rw [List.append_assoc]
    exact hshaped.shaped
  · intro name hname
    have hmem : name ∈ names := by
      rw [Parse.fieldNode, fieldParts] at hname
      simpa [Node.label, Node.children] using hname
    exact hnames.namedBefore hstop name hmem

namespace Read

theorem fieldsNode {a b opening closing : Nat} {fields : List Node} (h : ReadAll a b fields)
    (hclosing : Parse.Reached a closing) : Read a b (Parse.fieldsNode opening closing fields) :=
  .node rfl h (hclosing.add 1)

theorem func {a b c d start : Nat} {typeParams results : Option Node} {params : Node} (hab : a ≤ b)
    (hcd : c ≤ d) (htypeParams : ∀ x ∈ typeParams, Read a b x) (hparams : Read b c params)
    (hresults : ∀ x ∈ results, Read c d x) :
    Read a d (Parse.funcNode start typeParams params results) := by
  have hstop : Parse.Reached b (results.getD params).stop := by
    cases results with
    | none => exact hparams.stop
    | some x => exact (hresults x rfl).stop.mono hparams.le
  refine .node rfl ?_ (hstop.mono hab)
  exact ((ReadAll.toList hab htypeParams).append hparams.all).append (.toList hcd hresults)

/-- A struct or an interface. -/
theorem members_of_fields {a b start stop opening closing : Nat} {label : Label} {fields : List Node}
    (hlabel : label = .structType ∨ label = .interfaceType) (h : Sequence FieldRead a b fields)
    (hclosing : Parse.Reached a closing) (hstop : Parse.Reached a stop) :
    Read a b (.mk label start stop [Parse.fieldsNode opening closing fields]) := by
  have hchain : Chain a b (fields.flatMap (spots .member)) := by
    clear hclosing hstop
    induction h with
    | nil hab => exact hab
    | cons hab hx _ ih => exact (hx.chain.mono_left hab).append ih
  have hfields : spots .members (Parse.fieldsNode opening closing fields) =
      fields.flatMap (spots .member) := by
    rw [Parse.fieldsNode, spots_mk rfl, spotsFrom_eq fun _ _ => rfl]
  have hread (f : Node) (hf : f ∈ fields) : Ends a f ∧ Shaped f ∧ FieldNamed f := by
    obtain ⟨b', c', hb', hf, -⟩ := h.exists_of_mem (fun _ _ _ h => h.chain.le) hf
    exact ⟨hf.ends.mono hb', hf.shaped, hf.named⟩
  have hends : Ends a (.mk label start stop [Parse.fieldsNode opening closing fields]) := by
    refine .mk hstop fun _ n hn => ?_
    rw [List.mem_singleton.mp hn]
    exact .mk (hclosing.add 1) fun _ f hf => (hread f hf).1
  have hshaped : Shaped (.mk label start stop [Parse.fieldsNode opening closing fields]) := by
    refine .mk ?_ fun n hn => ?_
    · rcases hlabel with rfl | rfl <;> exact ⟨_, _, _, rfl⟩
    · rw [List.mem_singleton.mp hn]
      exact .mk trivial fun f hf => (hread f hf).2.1
  refine ⟨?_, hends, hshaped, fun f hf => (hread f ?_).2.2⟩
  · have hspots : spots .plain (.mk label start stop [Parse.fieldsNode opening closing fields]) =
        fields.flatMap (spots .member) := by
      rcases hlabel with rfl | rfl <;> exact (List.append_nil _).trans hfields
    exact hspots ▸ hchain
  · rcases hlabel with rfl | rfl <;> exact hf

end Read

namespace Parse

variable {lines : LineTable} {g : Grammar} {m m₀ m' : Nat}

theorem reads_ident : Reads lines m ident (Named m) := by
  intro s n t hs hm heq
  unfold ident at heq
  obtain ⟨l, s', hlook, heq⟩ := bind_eq_ok heq
  obtain ⟨rfl, rfl⟩ := Prod.mk.inj (Except.ok.inj hlook)
  have hchain (text : String) {m' : Nat} (hname : text ≠ "_" → m ≤ 2 * s.look.pos ∧ 2 * s.look.pos + 2 ≤ m')
      (hblank : m ≤ 2 * s.look.pos + 1 ∧ 2 * s.look.pos + 1 ≤ m') :
      Chain m m' (spots .declared (.ofName s.look.pos text)) := by
    rw [spots_ofName, spot?]
    by_cases htext : text ≠ "_"
    · rw [if_pos htext]
      exact hname htext
    · rw [if_neg htext, if_pos rfl]
      exact hblank
  by_cases hname : s.look.token = .name
  · rw [hname] at heq
    obtain ⟨u, t', hadvance, heq⟩ := bind_eq_ok heq
    obtain ⟨rfl, rfl⟩ := Prod.mk.inj (Except.ok.inj heq)
    obtain ⟨ht, -, hpassed⟩ := advance_spec hs hadvance
    have hmoment := s.moment_of_name hname
    exact ⟨ht, 2 * s.look.pos + 2, by omega, hpassed hname, rfl, (hs.named hname).1,
      hchain _ (fun _ => by omega) (by omega)⟩
  · have hunderscore : "_" ≠ "" := by decide
    have hmoment := s.moment_of_ne_name hname
    have hblank : (do let _ ← expect .name; return .ofName s.look.pos "_" : Parse Node) s = .ok (n, t) := by
      revert heq
      generalize s.look.token = token at hname
      cases token with
      | name => exact absurd rfl hname
      | _ => exact id
    obtain ⟨place, t', hexpect, heq⟩ := bind_eq_ok hblank
    obtain ⟨rfl, rfl⟩ := Prod.mk.inj (Except.ok.inj heq)
    obtain ⟨ht, m', hm', hmoment', -⟩ := reads_expect .name s place t' hs (Nat.le_refl _) hexpect
    exact ⟨ht, m', Nat.le_trans hm hm', hmoment', rfl, hunderscore,
      hchain "_" (fun h => absurd rfl h) (by omega)⟩

/-- A bad node in place of what was skipped. -/
theorem reads_bad (stop : Token → Bool) : Reads lines m (do
    let start ← pos
    complain start
    resync stop
    return .bad start (← pos)) (Read m) := by
  refine .stay stays_pos fun start => .stay (stays_complain start) fun _ => ?_
  refine .move (moves_resync stop) fun _ m₁ h₁ => reads_pos.bind fun place m₂ h₂ hplace => .pure ?_
  exact .leaf rfl (Nat.le_trans h₁ h₂) (hplace.mono h₁)

theorem reads_type (hg : g.Sound lines) : Reads lines m (type g) (Read m) := by
  unfold type
  refine (hg.type? m).bind fun t? m₁ h₁ ht => ?_
  split
  · exact .pure (ht _ rfl)
  · exact (reads_bad endsExpr).imp fun m' t _ h => h.mono h₁ (Nat.le_refl m')

theorem reads_rhs (hg : g.Sound lines) : Reads lines m (rhs g) (Read m) :=
  reads_withRhs true (hg.expr m)

theorem reads_typeName (first : Option Node) (h₀ : m₀ ≤ m) (hfirst : ∀ x ∈ first, Read m₀ m x) :
    Reads lines m (typeName first) (Read m₀) := by
  unfold typeName
  extract_lets jp
  have hjp (x : Node) (m' : Nat) (h : Read m₀ m' x) : Reads lines m' (jp x) (Read m₀) := by
    refine .stay (stays_atOp ".") fun dot => ?_
    split
    · refine .move moves_advance fun _ m₁ h₁ => reads_ident.bind fun name m₂ h₂ hname => .pure ?_
      exact (h.mono (Nat.le_refl m₀) h₁).selected hname.read hname.isName
    · exact .pure h
  split
  · exact hjp _ m (hfirst _ rfl)
  · exact reads_ident.bind fun x m₁ h₁ hx => hjp x m₁ (hx.read.mono h₀ (Nat.le_refl m₁))

/-- What is answered as a name is the name that was read. -/
theorem named_typeName :
    Reads lines m (typeName none) fun m' x => Read m m' x ∧ (x.isName → Named m m' x) := by
  unfold typeName
  refine reads_ident.bind fun x m₁ h₁ hx => .stay (stays_atOp ".") fun dot => ?_
  split
  · refine .move moves_advance fun _ m₂ h₂ => reads_ident.bind fun name m₃ h₃ hname => .pure ?_
    exact ⟨(hx.read.mono (Nat.le_refl m) h₂).selected hname.read hname.isName, nofun⟩
  · exact .pure ⟨hx.read, fun _ => hx⟩

theorem reads_typeInstance (hg : g.Sound lines) {x : Node} (hx : Read m₀ m x) :
    Reads lines m (typeInstance g x) (Read m₀) := by
  unfold typeInstance
  refine (reads_expectOp "[").bind fun lbrack m₁ h₁ _ => ?_
  refine (reads_inBrackets (reads_commaList fun _ => reads_type hg)).bind fun args m₂ h₂ hargs => ?_
  refine (reads_expectClosing "]").bind fun rbrack m₃ h₃ hrbrack => ?_
  refine .whenStay (stays_complain rbrack) fun _ => .pure ?_
  have hx₁ : Read m₀ m₁ x := hx.mono (Nat.le_refl m₀) h₁
  exact (hx₁.indexed hargs.readAll hrbrack).mono (Nat.le_refl m₀) h₃

theorem reads_qualifiedName (hg : g.Sound lines) (first : Option Node) (h₀ : m₀ ≤ m)
    (hfirst : ∀ x ∈ first, Read m₀ m x) : Reads lines m (qualifiedName g first) (Read m₀) := by
  refine (reads_typeName first h₀ hfirst).bind fun x m₁ h₁ hx => .stay (stays_atOp "[") fun bracket => ?_
  split
  · exact reads_typeInstance hg hx
  · exact .pure hx

theorem reads_arrayType (hg : g.Sound lines) {lbrack : Nat} (known : Option Node) (h₀ : m₀ ≤ m)
    (hknown : ∀ x ∈ known, Read m₀ m x) : Reads lines m (arrayType g lbrack known) (Read m₀) := by
  unfold arrayType
  extract_lets jp
  have hjp (length : Option Node) (m' : Nat) (h : m₀ ≤ m') (hlength : ∀ x ∈ length, Read m₀ m' x) :
      Reads lines m' (jp length) (Read m₀) := by
    refine .stay (stays_atOp ",") fun comma => ?_
    extract_lets rest
    have hrest (u : Unit) (m₁ : Nat) (h₁ : m' ≤ m₁) : Reads lines m₁ (rest u) (Read m₀) := by
      refine (reads_expectOp "]").bind fun _ m₂ h₂ _ => (reads_type hg).bind fun x m₃ _ hx => .pure ?_
      exact .arrayType (by omega) (fun x hx => (hlength x hx).mono (Nat.le_refl m₀) (by omega)) hx
    split
    · exact .stay stays_complainHere fun _ => .move moves_advance fun u m₁ h₁ => hrest u m₁ h₁
    · exact hrest () m' (Nat.le_refl m')
  split
  · exact hjp _ m h₀ hknown
  have hlength : Reads lines m (do
      if ← atOp "..." then
        let p ← pos
        advance
        return some (.mk .ellipsis p (p + 3) [])
      else if ← atOp "]" then
        return none
      else
        return some (← rhs g)) fun m' length => ∀ x ∈ length, Read m m' x := by
    refine .stay (stays_atOp "...") fun dots => ?_
    split
    · refine reads_pos.bind fun place m₁ h₁ hplace => .move moves_advance fun _ m₂ h₂ => .pure ?_
      rintro x ⟨⟩
      exact .leaf rfl (by omega) (hplace.add 3)
    refine .stay (stays_atOp "]") fun closed => ?_
    split
    · exact .pure nofun
    · refine (reads_rhs hg).bind fun x m₁ _ hx => .pure ?_
      rintro _ ⟨⟩
      exact hx
  refine (reads_inBrackets hlength).bind fun length m₁ h₁ hlength => ?_
  exact hjp length m₁ (by omega) fun x hx => (hlength x hx).mono h₀ (Nat.le_refl m₁)

/-- The name keeps its place in front of an array type, or is taken into the type. -/
theorem reads_arrayOrInstance (hg : g.Sound lines) {name : Node} (hname : Read m₀ m name) :
    Reads lines m (arrayOrInstance g name) fun m' r =>
      r.1 = some name ∧ Read m m' r.2 ∨ r.1 = none ∧ Read m₀ m' r.2 := by
  unfold arrayOrInstance
  refine (reads_expectOp "[").bind fun lbrack m₁ h₁ _ => ?_
  extract_lets step jp
  have hjp (state : Array Node × Option Nat) (m₂ : Nat) (hargs : Sequence Read m₁ m₂ state.1.toList) :
      Reads lines m₂ (jp state) fun m' r =>
        r.1 = some name ∧ Read m m' r.2 ∨ r.1 = none ∧ Read m₀ m' r.2 := by
    have hargsAll := hargs.readAll
    have hle := hargsAll.le
    have hname := hname.mono (Nat.le_refl m₀) h₁
    refine (reads_expectOp "]").bind fun rbrack m₃ h₃ hrbrack => ?_
    split
    · refine (reads_type hg).bind fun elem m₄ h₄ helem => .pure (.inl ⟨rfl, ?_⟩)
      exact .arrayType (by omega) nofun helem
    · next length heq =>
        rw [heq] at hargs hargsAll
        refine (hg.type? m₃).bind fun elem? m₄ h₄ helem => ?_
        split
        · next elem =>
            have harray : Read m m₄ (arrayNode lbrack (some length) elem) := by
              refine .arrayType (by omega) ?_ (helem elem rfl)
              rintro _ ⟨⟩
              exact hargs.single.mono h₁ h₃
            extract_lets last
            split
            · exact .stay (stays_complain _) fun _ => .pure (.inl ⟨rfl, harray⟩)
            · exact .pure (.inl ⟨rfl, harray⟩)
        · exact .pure (.inr ⟨rfl, (hname.indexed hargsAll hrbrack).mono (Nat.le_refl m₀) (by omega)⟩)
    · exact .pure (.inr ⟨rfl, (hname.indexed hargsAll hrbrack).mono (Nat.le_refl m₀) h₃⟩)
  have hstep (state : Array Node × Option Nat) (m' : Nat) (h : Sequence Read m₁ m' state.1.toList) :
      Reads lines m' (step state) fun m'' r => Sequence Read m₁ m'' r.1.1.toList := by
    refine (reads_rhs hg).bind fun arg m₂ _ harg => .stay (stays_atOp ",") fun comma => ?_
    have hdone : Sequence Read m₁ m₂ (state.1.push arg).toList := by
      rw [Array.toList_push]
      exact h.snoc (Nat.le_refl m') harg
    split
    · refine .stay stays_pos fun place => .move moves_advance fun _ m₃ h₃ => ?_
      refine .stay (stays_atOp "]") fun closed => ?_
      split
      · exact .pure (hdone.mono_right h₃)
      · exact .pure (hdone.mono_right h₃)
    · exact .pure hdone
  refine .stay (stays_atOp "]") fun closed => ?_
  split
  · exact hjp (#[], none) m₁ (.nil (Nat.le_refl m₁))
  · refine (reads_inBrackets (.stay stays_rounds fun n => ?_)).bind fun state m₂ _ h => hjp state m₂ h
    exact reads_iterate (fun state m' _ h => hstep state m' h) n (.nil (Nat.le_refl m₁))

theorem reads_parenthesized {p : Parse Node} (hp : ∀ m, Reads lines m p (Read m)) :
    Reads lines m (parenthesized p) (Read m) := by
  unfold parenthesized
  refine .stay stays_complainHere fun _ => .move moves_advance fun _ m₁ h₁ => ?_
  refine (hp m₁).bind fun x m₂ h₂ hx => .stay (stays_atOp ")") fun closed => ?_
  exact .whenMove moves_advance fun _ m₃ h₃ => .pure (hx.mono h₁ h₃)

theorem reads_pointer (hg : g.Sound lines) : Reads lines m (do
    let star ← pos
    advance
    return starNode star (← qualifiedName g none)) (Read m) := by
  refine .stay stays_pos fun star => .move moves_advance fun _ m₁ h₁ => ?_
  refine (reads_qualifiedName hg none (Nat.le_refl m₁) nofun).bind fun x m₂ _ hx => .pure ?_
  exact hx.star.mono h₁ (Nat.le_refl m₂)

/-- What a field declares: names, then a type. -/
theorem reads_fieldDecl (hg : g.Sound lines) : Reads lines m (fieldDecl g) (FieldRead m) := by
  unfold fieldDecl
  have hembedded {m m' : Nat} {x : Node} (hx : Read m m' x) :
      ∃ m₁, Sequence Named m m₁ [] ∧ Read m₁ m' x := ⟨m, .nil (Nat.le_refl m), hx⟩
  refine Reads.bind (A := fun m' parts => ∃ m₁, Sequence Named m m₁ parts.1 ∧ Read m₁ m' parts.2) ?_ ?_
  · refine .stay stays_token fun t => ?_
    split
    · refine reads_ident.bind fun name m₁ h₁ hname => .stay stays_token fun t => ?_
      split
      · have hfirst : ∀ x ∈ some name, Read m m₁ x := by
          rintro _ ⟨⟩
          exact hname.read
        exact (reads_qualifiedName hg (some name) h₁ hfirst).bind fun x _ _ hx => .pure (hembedded hx)
      · exact .pure (hembedded hname.read)
      · exact .pure (hembedded hname.read)
      · exact .pure (hembedded hname.read)
      refine (reads_whileM (P := fun m m' n => ∃ m₁, m ≤ m₁ ∧ Named m₁ m' n) (stays_atOp ",") fun m =>
        .move moves_advance fun _ m' h' => reads_ident.imp fun m'' n _ hn => ⟨m', h', hn⟩).bind
        fun more m₂ h₂ hmore => .stay (stays_atOp "[") fun bracket => ?_
      split
      · refine (reads_arrayOrInstance hg (hname.read.mono (Nat.le_refl m) h₂)).bind
          fun r m₃ h₃ hr => ?_
        obtain ⟨name?, x⟩ := r
        refine .pure ?_
        rcases hr with ⟨rfl, hx⟩ | ⟨rfl, hx⟩
        · exact ⟨m₂, .cons (Nat.le_refl m) hname (.nil h₂), hx⟩
        · exact hembedded hx
      · refine (reads_type hg).bind fun x m₃ h₃ hx => .pure ?_
        exact ⟨m₂, .cons (Nat.le_refl m) hname hmore.slack, hx⟩
    · refine .stay stays_pos fun star => .move moves_advance fun _ m₁ h₁ => ?_
      refine .stay (stays_atOp "(") fun opened => ?_
      have hname (m : Nat) : Reads lines m (qualifiedName g none) (Read m) :=
        reads_qualifiedName hg none (Nat.le_refl m) nofun
      split
      · refine (reads_parenthesized hname).bind fun x m₂ _ hx => .pure (hembedded ?_)
        exact hx.star.mono h₁ (Nat.le_refl m₂)
      · refine (hname m₁).bind fun x m₂ _ hx => .pure (hembedded ?_)
        exact hx.star.mono h₁ (Nat.le_refl m₂)
    · refine (reads_parenthesized fun m => ?_).bind fun x m₂ _ hx => .pure (hembedded hx)
      refine .stay (stays_atOp "*") fun star => ?_
      split
      · exact reads_pointer hg
      · exact reads_qualifiedName hg none (Nat.le_refl m) nofun
    · refine .stay stays_pos fun start => .stay (stays_complain start) fun _ => ?_
      refine .move (moves_resync endsExpr) fun _ m₁ h₁ => reads_pos.bind fun place m₂ h₂ hplace => ?_
      exact .pure (hembedded (.leaf rfl (Nat.le_trans h₁ h₂) (hplace.mono h₁)))
  · rintro ⟨names, x⟩ m₁ h₁ ⟨m₂, hnames, hx⟩
    refine reads_look.bind fun l m₃ h₃ hl => ?_
    extract_lets jp
    have hjp (tag : Option Node) (m' : Nat) (h' : m₁ ≤ m') (htag : ∀ x ∈ tag, Read m₁ m' x) :
        Reads lines m' (jp tag) (FieldRead m) := by
      refine .move moves_expectEnd fun _ m₄ h₄ => .pure ?_
      refine .of_parts hnames hx (Nat.le_trans h' h₄) fun x hx => ?_
      exact (htag x hx).mono (Nat.le_refl m₁) h₄
    split
    · refine .move moves_advance fun _ m₄ h₄ => hjp (some _) m₄ (by omega) ?_
      rintro _ ⟨⟩
      exact .leaf rfl (by omega) (hl.1.mono_place hl.2)
    · exact hjp none m₃ h₃ nofun

theorem reads_structType (hg : g.Sound lines) : Reads lines m (structType g) (Read m) := by
  unfold structType
  have hmore : Stays lines (do return (← token) == .name || (← atOp "*") || (← atOp "(")) :=
    stays_token.bind fun _ => (stays_atOp "*").bind fun _ => (stays_atOp "(").bind fun _ => .pure _
  refine (reads_expectWord "struct").bind fun start m₁ h₁ hstart => ?_
  refine (reads_expectOp "\x7b").bind fun lbrace m₂ h₂ _ => ?_
  refine (reads_whileM hmore fun _ => reads_fieldDecl hg).bind fun fields m₃ h₃ hfields => ?_
  refine (reads_expectOp "\x7d").bind fun rbrace m₄ h₄ hrbrace => .pure ?_
  have hclosing : Reached m rbrace := hrbrace.mono (by omega)
  exact .members_of_fields (.inl rfl) ((hfields.mono_left (by omega)).mono_right h₄) hclosing
    (hclosing.add 1)

theorem reads_pointerType (hg : g.Sound lines) : Reads lines m (pointerType g) (Read m) := by
  unfold pointerType
  refine (reads_expectOp "*").bind fun star m₁ h₁ _ => (reads_type hg).bind fun x m₂ _ hx => .pure ?_
  exact hx.star.mono h₁ (Nat.le_refl m₂)

theorem reads_dotsType (hg : g.Sound lines) : Reads lines m (dotsType g) (Read m) := by
  unfold dotsType
  refine (reads_expectOp "...").bind fun start m₁ h₁ _ => ?_
  refine (reads_type hg).bind fun x m₂ _ hx => .pure ?_
  exact .node rfl (hx.all.mono h₁ (Nat.le_refl m₂)) (hx.stop.mono h₁)

theorem reads_setTerm (hg : g.Sound lines) : Reads lines m (setTerm g) (Read m) := by
  unfold setTerm
  refine .stay (stays_atOp "~") fun tilde => ?_
  split
  · refine .stay stays_pos fun start => .move moves_advance fun _ m₁ h₁ => ?_
    refine (reads_type hg).bind fun x m₂ _ hx => .pure ?_
    exact .node rfl (hx.all.mono h₁ (Nat.le_refl m₂)) (hx.stop.mono h₁)
  · exact reads_type hg

theorem reads_setElem_since {e : Nat} (hg : g.Sound lines) (first : Option Node) (he : e ≤ m₀)
    (h₀ : m₀ ≤ m) (hfirst : ∀ x ∈ first, ReadSince e m₀ m x) :
    Reads lines m (setElem g first) (ReadSince e m₀) := by
  unfold setElem
  extract_lets step jp
  have hjp (x : Node) (m' : Nat) (hx : ReadSince e m₀ m' x) :
      Reads lines m' (jp x) (ReadSince e m₀) := by
    refine .stay stays_rounds fun n => reads_iterate (fun x m₁ h₁ hx => ?_) n hx
    refine .stay (stays_atOp "|") fun bar => ?_
    split
    · refine .move moves_advance fun _ m₂ h₂ => (reads_setTerm hg).bind fun y m₃ _ hy => .pure ?_
      have hle := hx.le
      exact (hx.mono h₂).binary hy (by omega)
    · exact .pure hx
  split
  · exact hjp _ m (hfirst _ rfl)
  · refine (reads_setTerm hg).bind fun x m₁ _ hx => hjp x m₁ ?_
    exact (hx.mono h₀ (Nat.le_refl m₁)).since he

theorem reads_setElem (hg : g.Sound lines) (first : Option Node) (h₀ : m₀ ≤ m)
    (hfirst : ∀ x ∈ first, Read m₀ m x) : Reads lines m (setElem g first) (Read m₀) :=
  (reads_setElem_since hg first (Nat.le_refl m₀) h₀ fun x hx => (hfirst x hx).since (Nat.le_refl m₀)).imp
    fun _ _ _ h => h.read

/-! ## Parameters -/

/-- A parameter whose name and type, as far as it has them, have been read one after the other. -/
def ParamRead (e m m' : Nat) (p : Param) : Prop :=
  ∃ m₁, m ≤ m₁ ∧ m₁ ≤ m' ∧ (∀ x ∈ p.name, Read m m₁ x) ∧ ∀ x ∈ p.type, ReadSince e m₁ m' x

namespace ParamRead

variable {e : Nat} {p : Param} {a b c : Nat}

theorem of_type {x : Node} (hx : Read a b x) (hea : e ≤ a) (hma : m ≤ a) :
    ParamRead e m b ⟨none, some x⟩ :=
  ⟨a, hma, hx.le, nofun, fun _ h => Option.some.inj h ▸ hx.since hea⟩

theorem of_name {name : Node} (hname : Read a b name) : ParamRead e a b ⟨some name, none⟩ :=
  ⟨b, hname.le, Nat.le_refl b, fun _ h => Option.some.inj h ▸ hname, nofun⟩

theorem of_both {name x : Node} (hname : Read a b name) (hx : Read b c x) (heb : e ≤ b) :
    ParamRead e a c ⟨some name, some x⟩ :=
  ⟨b, hname.le, hx.le, fun _ h => Option.some.inj h ▸ hname, fun _ h => Option.some.inj h ▸ hx.since heb⟩

theorem none_none (hab : a ≤ b) : ParamRead e a b ⟨none, none⟩ :=
  ⟨b, hab, Nat.le_refl b, nofun, nofun⟩

theorem le (h : ParamRead e a b p) : a ≤ b := by
  obtain ⟨m₁, h₁, h₂, -⟩ := h
  exact Nat.le_trans h₁ h₂

end ParamRead

theorem reads_paramDecl {e : Nat} (hg : g.Sound lines) (known : Option Node) (sets : Bool)
    (he : e ≤ m₀) (h₀ : m₀ ≤ m) (hknown : ∀ x ∈ known, Read m₀ m x) :
    Reads lines m (paramDecl g known sets) (ParamRead e m₀) := by
  unfold paramDecl
  extract_lets joined afterName
  have hjoined {b : Nat} (p : Param) (hp : ParamRead e m₀ b p) :
      Reads lines b (joined p) (ParamRead e m₀) := by
    obtain ⟨name, type⟩ := p
    cases type with
    | none => exact .pure hp
    | some t =>
        refine .stay (stays_atOp "|") fun bar => ?_
        split
        · obtain ⟨m₁, h₁, h₂, hname, htype⟩ := hp
          refine (reads_setElem_since hg (some t) (by omega) h₂ htype).bind fun x m₂ h₃ hx => .pure ?_
          exact ⟨m₁, h₁, by omega, hname, fun _ h => Option.some.inj h ▸ hx⟩
        · exact .pure hp
  have hafter {b : Nat} (name : Node) (hname : Read m₀ b name) :
      Reads lines b (afterName name) (ParamRead e m₀) := by
    have hle := hname.le
    have heb : e ≤ b := Nat.le_trans he hle
    have hsome : ∀ x ∈ some name, Read m₀ b x := fun _ h => Option.some.inj h ▸ hname
    refine .stay stays_token fun t => ?_
    split
    · refine (reads_arrayOrInstance hg hname).bind fun r m₁ h₁ hr => ?_
      obtain ⟨name?, x⟩ := r
      refine hjoined ⟨name?, some x⟩ ?_
      rcases hr with ⟨rfl, hx⟩ | ⟨rfl, hx⟩
      · exact .of_both hname hx heb
      · exact .of_type hx he (Nat.le_refl m₀)
    · exact (reads_dotsType hg).bind fun x m₁ _ hx => .pure (.of_both hname hx heb)
    · refine (reads_qualifiedName hg (some name) hle hsome).bind fun x m₁ h₁ hx => ?_
      exact hjoined ⟨none, some x⟩ (.of_type hx he (Nat.le_refl m₀))
    · split
      · refine (reads_setElem hg none (Nat.le_refl b) nofun).bind fun x m₁ _ hx => .pure ?_
        exact .of_both hname hx heb
      · exact .pure (.of_name hname)
    · split
      · refine (reads_setElem hg (some name) hle hsome).bind fun x m₁ h₁ hx => .pure ?_
        exact .of_type hx he (Nat.le_refl m₀)
      · exact .pure (.of_name hname)
    · split
      · refine (reads_type hg).bind fun x m₁ _ hx => ?_
        exact hjoined ⟨some name, some x⟩ (.of_both hname hx heb)
      · exact .pure (.of_name hname)
  have hem : e ≤ m := Nat.le_trans he h₀
  split
  · exact hafter _ (hknown _ rfl)
  refine .stay stays_token fun t => ?_
  split
  · exact reads_ident.bind fun name m₁ _ hname => hafter name (hname.read.mono h₀ (Nat.le_refl m₁))
  · exact (reads_dotsType hg).bind fun x m₁ _ hx => .pure (.of_type hx hem h₀)
  split
  · exact (reads_setElem hg none (Nat.le_refl m) nofun).bind fun x m₁ _ hx =>
      .pure (.of_type hx hem h₀)
  split
  · exact (reads_type hg).bind fun x m₁ _ hx => hjoined ⟨none, some x⟩ (.of_type hx hem h₀)
  · refine .stay stays_complainHere fun _ => .move (moves_resync endsExpr) fun _ m₁ h₁ => .pure ?_
    exact .none_none (Nat.le_trans h₀ h₁)

/-- Names that have been read and then the type that they share. -/
def GroupRead (e m m' : Nat) (group : ParamGroup) : Prop :=
  ∃ m₁, Chain m m₁ (plainSpots group.names) ∧ (∀ name ∈ group.names, Shaped name) ∧
    ReadSince e m₁ m' group.type

variable {e : Nat}

theorem GroupRead.le {group : ParamGroup} (h : GroupRead e m m' group) : m ≤ m' := by
  obtain ⟨m₁, hnames, -, htype⟩ := h
  exact Nat.le_trans hnames.le htype.le

theorem GroupRead.single {a b c : Nat} {name type : Node} (hname : Chain a b (spots .plain name))
    (hshaped : Shaped name) (htype : ReadSince e b c type) : GroupRead e a c ⟨[name], type⟩ := by
  refine ⟨b, ?_, fun n hn => ?_, htype⟩
  · rwa [plainSpots_singleton]
  · rwa [List.mem_singleton.mp hn]

/-- A bad node in place of a type. -/
theorem readSince_bad {a b pos stop : Nat} (hab : a ≤ b) (hstop : Reached e stop) :
    ReadSince e a b (.bad pos stop) :=
  ⟨hab, .mk hstop fun _ => nofun, .mk trivial nofun, nofun⟩

theorem sequence_distribute {a b here : Nat} {params : List Param}
    (h : Sequence (ParamRead e) a b params) (hhere : Reached e here) :
    Sequence (GroupRead e) a b (distribute here params).1 := by
  unfold distribute
  extract_lets step
  change Sequence (GroupRead e) a b (params.foldr step ([], false, none)).1
  induction h with
  | nil hab => exact .nil hab
  | @cons a b c d p params hab hp _ ih =>
      obtain ⟨m₁, h₁, h₂, hname, htype⟩ := hp
      obtain ⟨name, type⟩ := p
      rw [List.foldr_cons]
      generalize params.foldr step ([], false, none) = state at ih ⊢
      obtain ⟨groups, typed, fault⟩ := state
      cases type with
      | some t =>
          cases name with
          | some n => exact .cons hab (.single (hname n rfl).chain (hname n rfl).shaped (htype t rfl)) ih
          | none =>
              have hblank : Chain b m₁ (spots .plain (.ofName t.pos "_")) := by
                rw [spots_ofName]
                exact h₁
              exact .cons hab (.single hblank (.mk trivial nofun) (htype t rfl)) ih
      | none =>
          cases name with
          | none => exact ih.mono_left (by omega)
          | some n =>
              have halone : Sequence (GroupRead e) a d (⟨[n], .bad n.pos here⟩ :: groups) :=
                .cons hab (.single (hname n rfl).chain (hname n rfl).shaped (readSince_bad h₂ hhere)) ih
              cases typed with
              | false => exact halone
              | true =>
                  cases ih with
                  | nil => exact halone
                  | @cons _ c' _ _ group rest hcc' hgroup hrest =>
                      obtain ⟨m₂, hnames, hshaped, htype⟩ := hgroup
                      refine .cons hab ⟨m₂, ?_, ?_, htype⟩ hrest
                      · rw [plainSpots_cons]
                        exact (hname n rfl).chain.append (hnames.mono_left (by omega))
                      · exact List.forall_mem_cons.mpr ⟨(hname n rfl).shaped, hshaped⟩

/-- Names that lose their type to a bad node, each in a group of its own. -/
theorem sequence_withdrawn {a b pos stop : Nat} {names : List Node}
    (hnames : Chain a b (plainSpots names)) (hshaped : ∀ name ∈ names, Shaped name)
    (hstop : Reached e stop) :
    Sequence (GroupRead e) a b (names.map fun name => ⟨[name], .bad pos stop⟩) := by
  induction names generalizing a with
  | nil => exact .nil hnames
  | cons name names ih =>
      rw [plainSpots_cons] at hnames
      obtain ⟨m₁, hname, hnames⟩ := hnames.split
      obtain ⟨hfirst, hshaped⟩ := List.forall_mem_cons.mp hshaped
      exact .cons (Nat.le_refl a) (.single hname hfirst (readSince_bad (Nat.le_refl m₁) hstop))
        (ih hnames hshaped)

theorem sequence_withdrawDots {a b : Nat} (allowed : Bool) {groups : List ParamGroup}
    (h : Sequence (GroupRead e) a b groups) :
    Sequence (GroupRead e) a b (withdrawDots allowed groups).1 := by
  induction h with
  | nil hab => exact .nil hab
  | @cons a a' c b group rest hab hgroup hrest ih =>
      obtain ⟨m₁, hnames, hshaped, htype⟩ := hgroup
      have hstop : Reached e group.type.stop := htype.ends.stop
      unfold withdrawDots
      generalize withdrawDots allowed rest = result at ih ⊢
      obtain ⟨later, fault⟩ := result
      dsimp only
      split
      · split
        · split
          · exact .cons hab ⟨m₁, hnames, hshaped, htype⟩ ih
          · exact .cons hab ⟨m₁, hnames.le, nofun, readSince_bad htype.le hstop⟩ ih
        · next hsome =>
            dsimp only
            by_cases hkeeps : (allowed && rest.isEmpty) = true
            · rw [if_pos hkeeps, if_pos hkeeps]
              have hsplit : group.names = group.names.dropLast ++
                  group.names.drop (group.names.length - 1) := by
                rw [List.dropLast_eq_take, List.take_append_drop]
              have hne : group.names ≠ [] := fun hnil => hsome (List.isEmpty_iff.mpr hnil)
              have hlast : group.names.drop (group.names.length - 1) = [group.names.getLast hne] :=
                List.append_cancel_left (hsplit.symm.trans (List.dropLast_concat_getLast hne).symm)
              rw [hsplit, plainSpots_append] at hnames
              obtain ⟨m₂, hwrong, hright⟩ := hnames.split
              rw [hlast, plainSpots_singleton] at hright
              rw [hlast, List.append_assoc, List.map_singleton, List.singleton_append]
              refine Sequence.mono_left ?_ hab
              have hwithdrawn : ∀ name ∈ group.names.dropLast, Shaped name :=
                fun name hname => hshaped name (List.dropLast_subset _ hname)
              exact (sequence_withdrawn hwrong hwithdrawn hstop).append
                (.cons (Nat.le_refl m₂) (.single hright (hshaped _ (List.getLast_mem hne)) htype) ih)
            · rw [if_neg hkeeps, if_neg hkeeps, List.map_nil, List.append_nil]
              have hlater : Sequence (GroupRead e) m₁ b later := ih.mono_left htype.le
              exact ((sequence_withdrawn hnames hshaped hstop).append hlater).mono_left hab
      · exact .cons hab ⟨m₁, hnames, hshaped, htype⟩ ih

/-- Parameters without names: what stands for the name of one is its type. -/
theorem sequence_unnamed {a b : Nat} {params : List Param} (hea : e ≤ a)
    (h : Sequence (ParamRead e) a b params) :
    Sequence (GroupRead e) a b
      (params.filterMap fun p => (p.type.or p.name).map fun t => ⟨[], t⟩) := by
  induction h with
  | nil hab => exact .nil hab
  | @cons a b c d p params hab hp _ ih =>
      obtain ⟨m₁, h₁, h₂, hname, htype⟩ := hp
      have ih := ih (by omega)
      obtain ⟨name, type⟩ := p
      cases type with
      | some t => exact .cons hab ⟨m₁, h₁, nofun, htype t rfl⟩ ih
      | none =>
          cases name with
          | none => exact ih.mono_left (by omega)
          | some n =>
              have hn : ReadSince e b c n := ((hname n rfl).since (by omega)).mono h₂
              exact .cons hab ⟨b, Nat.le_refl b, nofun, hn⟩ ih

/-- Fields that are made of groups. -/
theorem readAll_fields {a b : Nat} {groups : List ParamGroup} (hea : e ≤ a)
    (h : Sequence (GroupRead e) a b groups) :
    ReadAll e b (groups.map fun group => fieldNode group.names group.type none) := by
  have hfields : Chain a b (plainSpots (groups.map fun group => fieldNode group.names group.type none)) ∧
      ∀ f ∈ groups.map fun group => fieldNode group.names group.type none, Ends e f ∧ Shaped f := by
    clear hea
    induction h with
    | nil hab => exact ⟨hab, nofun⟩
    | @cons a b c d group groups hab hgroup _ ih =>
        obtain ⟨m₁, hnames, hshaped, htype⟩ := hgroup
        constructor
        · have hfield : Chain b c (spots .plain (fieldNode group.names group.type none)) := by
            rw [fieldNode, spots_of_isPlain rfl, Option.toList_none, List.append_nil, plainSpots_append,
              plainSpots_singleton]
            exact hnames.append htype.chain
          rw [List.map_cons, plainSpots_cons]
          exact (hfield.append ih.1).mono_left hab
        · intro f hf
          rcases List.mem_cons.mp hf with rfl | hf
          · refine ⟨.mk htype.ends.stop nofun, .mk trivial fun n hn => ?_⟩
            rw [Option.toList_none, List.append_nil] at hn
            rcases List.mem_append.mp hn with hn | hn
            · exact hshaped n hn
            · exact List.mem_singleton.mp hn ▸ htype.shaped
          · exact ih.2 f hf
  exact ⟨hfields.1.mono_left hea, fun f hf => (hfields.2 f hf).1, fun f hf => (hfields.2 f hf).2⟩

theorem reads_paramList (hg : g.Sound lines) (name₀ type₀ : Option Node) (closing : String)
    (dots : Bool) (h : ParamRead m₀ m₀ m ⟨name₀, type₀⟩) :
    Reads lines m (paramList g name₀ type₀ closing dots) (ReadAll m₀) := by
  let Pending (m' : Nat) (state : Array Param × Option Node × Option Node) : Prop :=
    ∃ m₁, m₀ ≤ m₁ ∧ Sequence (ParamRead m₀) m₀ m₁ state.1.toList ∧
      ParamRead m₀ m₁ m' ⟨state.2.1, state.2.2⟩
  unfold paramList
  extract_lets generic step finish
  refine .stay stays_pos fun here => ?_
  extract_lets first
  have hstep (state : Array Param × Option Node × Option Node) (m' : Nat) (hstate : Pending m' state) :
      Reads lines m' (step state) fun m'' r => Pending m'' r.1 := by
    obtain ⟨done, name, type⟩ := state
    obtain ⟨m₁, h₀, hdone, hpending⟩ := hstate
    have hrest {m' : Nat} {done : Array Param} (h : Sequence (ParamRead m₀) m₀ m' done.toList) :
        Pending m' (done, none, none) :=
      ⟨m', h.le fun _ _ _ h => h.le, h, .none_none (Nat.le_refl m')⟩
    refine .stay (stays_atOp closing) fun closed => .stay stays_atEnd fun ended => ?_
    obtain ⟨m₂, h₁, h₂, hname, htype⟩ := hpending
    split
    · exact .pure (hrest (hdone.mono_right (Nat.le_trans h₁ h₂)))
    extract_lets jp
    have hjp (p : Param) (m₃ : Nat) (hp : ParamRead m₀ m₁ m₃ p) :
        Reads lines m₃ (jp p) fun m'' r => Pending m'' r.1 := by
      have hpushed : Sequence (ParamRead m₀) m₀ m₃
          (if (p.name.isSome || p.type.isSome) = true then done.push p else done).toList := by
        split
        · rw [Array.toList_push]
          exact hdone.snoc (Nat.le_refl m₁) hp
        · obtain ⟨m₄, h₃, h₄, -⟩ := hp
          exact hdone.mono_right (Nat.le_trans h₃ h₄)
      refine .move (moves_atComma closing) fun comma m₄ h₄ => ?_
      split
      · exact .move moves_advance fun _ m₅ h₅ => .pure (hrest (hpushed.mono_right (Nat.le_trans h₄ h₅)))
      · exact .pure (hrest (hpushed.mono_right h₄))
    cases type with
    | none =>
        refine (reads_paramDecl hg name generic h₀ (Nat.le_trans h₁ h₂) fun x hx => ?_).bind
          fun p m₃ _ hp => hjp p m₃ hp
        exact (hname x hx).mono (Nat.le_refl m₁) h₂
    | some t =>
        dsimp only
        split
        · refine (reads_setElem_since hg (some t) (by omega) h₂ htype).bind fun x m₃ h₃ hx => ?_
          exact hjp ⟨name, some x⟩ m₃ ⟨m₂, h₁, Nat.le_trans h₂ h₃, hname, fun _ h => Option.some.inj h ▸ hx⟩
        · exact hjp ⟨name, some t⟩ m' ⟨m₂, h₁, h₂, hname, htype⟩
  have hstart : Pending m (#[], name₀, type₀) := ⟨m₀, Nat.le_refl m₀, .nil (Nat.le_refl m₀), h⟩
  refine .stay stays_rounds fun n => ?_
  refine (reads_iterate (fun state m' _ h => hstep state m' h) n hstart).bind fun state m' _ hstate => ?_
  obtain ⟨params, name, type⟩ := state
  obtain ⟨m₁, h₀, hparams, hpending⟩ := hstate
  have hle : m₀ ≤ m' := Nat.le_trans h₀ hpending.le
  replace hparams : Sequence (ParamRead m₀) m₀ m' params.toList := hparams.mono_right hpending.le
  dsimp only
  have hfinish (groups : List ParamGroup) (m'' : Nat) (hgroups : Sequence (GroupRead m₀) m₀ m'' groups) :
      Reads lines m'' (finish groups) (ReadAll m₀) := by
    have hfields : ReadAll m₀ m''
        ((withdrawDots dots groups).1.map fun group => fieldNode group.names group.type none) :=
      readAll_fields (Nat.le_refl m₀) (sequence_withdrawDots dots hgroups)
    dsimp only [finish]
    split
    · exact .stay (stays_complain _) fun _ => .pure hfields
    · exact .pure hfields
  split
  · exact hfinish [] m' (.nil hle)
  split
  · have hgroups := hfinish _ m' (sequence_unnamed (Nat.le_refl m₀) hparams)
    split
    · split
      · exact .stay stays_complainHere fun _ => hgroups
      · exact .stay (stays_complain first) fun _ => hgroups
    · exact hgroups
  · refine reads_pos.bind fun here m'' hm'' hhere => ?_
    have hgroups := hfinish _ m'' ((sequence_distribute hparams (hhere.mono hle)).mono_right hm'')
    split
    · split
      · split
        · exact .stay stays_complainHere fun _ => hgroups
        · exact .stay (stays_complain _) fun _ => hgroups
      · exact hgroups
    · exact hgroups

theorem reads_typeParameters (hg : g.Sound lines) :
    Reads lines m (typeParameters g) fun m' list? => ∀ list ∈ list?, Read m m' list := by
  unfold typeParameters
  refine .stay (stays_atOp "[") fun bracket => ?_
  split
  · refine .stay stays_pos fun opening => .move moves_advance fun _ m₁ h₁ => ?_
    refine (reads_paramList hg none none "]" false (.none_none (Nat.le_refl _))).bind fun list m₂ h₂ hlist => ?_
    refine (reads_expectOp "]").bind fun rbrack m₃ h₃ hrbrack => ?_
    extract_lets node
    split
    · exact .stay (stays_complain rbrack) fun _ => .pure nofun
    · refine .pure ?_
      rintro _ ⟨⟩
      exact .fieldsNode (hlist.mono h₁ h₃) (hrbrack.mono (by omega))
  · exact .pure nofun

theorem reads_parameters (hg : g.Sound lines) (dots : Bool) :
    Reads lines m (parameters g dots) (Read m) := by
  unfold parameters
  refine (reads_expectOp "(").bind fun opening m₁ h₁ _ => .stay (stays_atOp ")") fun closed => ?_
  extract_lets jp
  have hjp (list : List Node) (m₂ : Nat) (h₂ : m₁ ≤ m₂) (hlist : ReadAll m₁ m₂ list) :
      Reads lines m₂ (jp list) (Read m) := by
    refine (reads_expectOp ")").bind fun closing m₃ h₃ hclosing => .pure ?_
    exact .fieldsNode (hlist.mono h₁ h₃) (hclosing.mono (by omega))
  split
  · exact hjp [] m₁ (Nat.le_refl m₁) (.nil (Nat.le_refl m₁))
  · exact (reads_paramList hg none none ")" dots (.none_none (Nat.le_refl _))).bind hjp

theorem reads_result (hg : g.Sound lines) :
    Reads lines m (result g) fun m' results => ∀ x ∈ results, Read m m' x := by
  unfold result
  refine .stay (stays_atOp "(") fun opened => ?_
  split
  · refine (reads_parameters hg false).bind fun list m₁ _ hlist => .pure ?_
    rintro _ ⟨⟩
    exact hlist
  · refine (hg.type? m).bind fun t? m₁ h₁ ht => ?_
    split
    · next t =>
        refine .pure ?_
        rintro _ ⟨⟩
        have hfield : Read m m₁ (fieldNode [] t none) := .node rfl (ht t rfl).all (ht t rfl).stop
        exact .node rfl hfield.all (ht t rfl).stop
    · exact .pure nofun

theorem reads_funcType (hg : g.Sound lines) : Reads lines m (funcType g) (Read m) := by
  unfold funcType
  refine (reads_expectWord "func").bind fun start m₁ h₁ _ => ?_
  refine (reads_typeParameters hg).bind fun list? m₂ h₂ _ => ?_
  extract_lets jp
  have hjp (u : Unit) : Reads lines m₂ (jp u) (Read m) := by
    refine (reads_parameters hg true).bind fun params m₃ h₃ hparams => ?_
    refine (reads_result hg).bind fun results m₄ h₄ hresults => .pure ?_
    refine Read.mono (b := m₂) ?_ (Nat.le_trans h₁ h₂) (Nat.le_refl m₄)
    exact .func (Nat.le_refl m₂) h₄ nofun hparams hresults
  split
  · exact .stay (stays_complain _) hjp
  · exact hjp ()

theorem reads_methodType (hg : g.Sound lines) : Reads lines m (methodType g) (Read m) := by
  unfold methodType
  refine (reads_parameters hg true).bind fun params m₁ h₁ hparams => ?_
  refine (reads_result hg).bind fun results m₂ h₂ hresults => .pure ?_
  exact .func (Nat.le_refl m) h₂ nofun hparams hresults

/-- A method keeps its name in front of its type; an embedded type has none. -/
theorem reads_methodSpec (hg : g.Sound lines) : Reads lines m (methodSpec g) fun m' r =>
    ∃ m₁, Sequence Named m m₁ r.1.toList ∧ Read m₁ m' r.2 := by
  unfold methodSpec
  have hembedded {m m' : Nat} {x : Node} (hx : Read m m' x) :
      ∃ m₁, Sequence Named m m₁ (none : Option Node).toList ∧ Read m₁ m' x :=
    ⟨m, .nil (Nat.le_refl m), hx⟩
  refine named_typeName.bind fun x m₁ h₁ hx => ?_
  obtain ⟨hx, hnamed⟩ := hx
  have hmethod (m₂ : Nat) (h₂ : m₁ ≤ m₂) (hname : x.isName) :
      Reads lines m₂ (do return (some x, ← methodType g)) fun m' r =>
        ∃ m₁, Sequence Named m m₁ r.1.toList ∧ Read m₁ m' r.2 := by
    refine (reads_methodType hg).bind fun t m₃ h₃ ht => .pure ?_
    exact ⟨m₂, .cons (Nat.le_refl m) (hnamed hname) (.nil h₂), ht⟩
  split
  · refine .stay (stays_atOp "[") fun bracket => ?_
    split
    · exact (reads_typeInstance hg hx).bind fun t m₂ _ ht => .pure (hembedded ht)
    · exact .pure (hembedded hx)
  next hname =>
  replace hname : x.isName := by simpa using hname
  refine .stay (stays_atOp "[") fun bracket => ?_
  split
  · refine .stay stays_pos fun lbrack => .move moves_advance fun _ m₂ h₂ => ?_
    refine (reads_inBrackets (hg.expr m₂)).bind fun arg m₃ h₃ harg => ?_
    refine .stay (stays_atOp ",") fun comma => .stay (stays_atOp "]") fun closed => ?_
    split
    · refine (reads_paramList hg (some arg) none "]" false (.of_name harg)).bind fun _ m₄ h₄ _ => ?_
      refine (reads_expectOp "]").bind fun _ m₅ h₅ _ => .stay (stays_complain lbrack) fun _ => ?_
      exact hmethod m₅ (by omega) hname
    · refine .move (moves_atComma "]") fun comma m₄ h₄ => ?_
      extract_lets jp
      have hjp (more : List Node) (m₅ : Nat) (h₅ : m₄ ≤ m₅) (hmore : Sequence Read m₄ m₅ more) :
          Reads lines m₅ (jp more) fun m' r => ∃ m₁, Sequence Named m m₁ r.1.toList ∧ Read m₁ m' r.2 := by
        refine (reads_expectClosing "]").bind fun rbrack m₆ h₆ hrbrack => .pure (hembedded ?_)
        have hargs : ReadAll m₁ m₅ (arg :: more) :=
          .cons (harg.mono h₂ h₄) hmore.readAll
        exact (hx.indexed hargs hrbrack).mono (Nat.le_refl m) h₆
      split
      · refine Reads.bind (reads_inBrackets (.move moves_advance fun _ m₅ h₅ => ?_)) hjp
        exact (reads_commaList fun _ => reads_type hg).imp fun _ _ _ h => h.mono_left h₅
      · exact hjp [] m₄ (Nat.le_refl m₄) (.nil (Nat.le_refl m₄))
  refine .stay (stays_atOp "(") fun opened => ?_
  split
  · exact hmethod m₁ (Nat.le_refl m₁) hname
  · exact .pure (hembedded hx)

theorem reads_interfaceElem (hg : g.Sound lines) :
    Reads lines m (interfaceElem g) fun m' f? => ∀ f ∈ f?, FieldRead m m' f := by
  unfold interfaceElem
  extract_lets finish
  have hfinish (name : Option Node) (t : Node) {m₁ m₂ : Nat} (hname : Sequence Named m m₁ name.toList)
      (ht : Read m₁ m₂ t) :
      Reads lines m₂ (finish name t) fun m' f? => ∀ f ∈ f?, FieldRead m m' f := by
    have hfield (t : Node) {m₃ : Nat} (ht : Read m₁ m₃ t) : Reads lines m₃ (do
        expectEnd
        return some (fieldNode name.toList t none)) fun m' f? => ∀ f ∈ f?, FieldRead m m' f := by
      refine .move moves_expectEnd fun _ m₄ h₄ => .pure ?_
      rintro _ ⟨⟩
      exact .of_parts hname ht h₄ nofun
    cases name with
    | some name => exact hfield t ht
    | none =>
        refine (reads_setElem hg (some t) ht.le ?_).bind fun t m₃ _ ht => hfield t ht
        exact fun _ h => Option.some.inj h ▸ ht
  refine .stay stays_token fun t => ?_
  split
  · refine (reads_methodSpec hg).bind fun r m₁ _ hr => ?_
    obtain ⟨name, t⟩ := r
    obtain ⟨m₂, hname, ht⟩ := hr
    exact hfinish name t hname ht
  · exact (reads_setTerm hg).bind fun t m₁ _ ht => hfinish none t (.nil (Nat.le_refl m)) ht
  · refine (hg.type? m).bind fun t? m₁ _ ht => ?_
    split
    · exact hfinish none _ (.nil (Nat.le_refl m)) (ht _ rfl)
    · exact .pure nofun

theorem reads_interfaceType (hg : g.Sound lines) : Reads lines m (interfaceType g) (Read m) := by
  unfold interfaceType
  refine (reads_expectWord "interface").bind fun start m₁ h₁ _ => ?_
  refine (reads_expectOp "\x7b").bind fun lbrace m₂ h₂ _ => ?_
  extract_lets step
  have hstep (done : Array Node) (m' : Nat) (hdone : Sequence FieldRead m₂ m' done.toList) :
      Reads lines m' (step done) fun m'' r => Sequence FieldRead m₂ m'' r.1.toList := by
    refine (reads_interfaceElem hg).bind fun f? m'' hm hf => ?_
    split
    · refine .pure ?_
      rw [Array.toList_push]
      exact hdone.snoc (Nat.le_refl m') (hf _ rfl)
    · exact .pure (hdone.mono_right hm)
  refine .stay stays_rounds fun n => ?_
  refine (reads_iterate (fun done m' _ h => hstep done m' h) n (.nil (Nat.le_refl m₂))).bind
    fun fields m₃ h₃ hfields => ?_
  refine (reads_expectOp "\x7d").bind fun rbrace m₄ h₄ hrbrace => .pure ?_
  have hclosing : Reached m rbrace := hrbrace.mono (by omega)
  exact .members_of_fields (.inr rfl) ((hfields.mono_left (by omega)).mono_right h₄) hclosing
    (hclosing.add 1)

theorem reads_mapType (hg : g.Sound lines) : Reads lines m (mapType g) (Read m) := by
  unfold mapType
  refine (reads_expectWord "map").bind fun start m₁ h₁ _ => ?_
  refine (reads_expectOp "[").bind fun _ m₂ h₂ _ => (reads_type hg).bind fun key m₃ h₃ hkey => ?_
  refine (reads_expectOp "]").bind fun _ m₄ h₄ _ => (reads_type hg).bind fun value m₅ h₅ hvalue => .pure ?_
  exact .node rfl (.cons (hkey.mono (by omega) h₄) hvalue.all) (hvalue.stop.mono (by omega))

theorem reads_chanType (hg : g.Sound lines) : Reads lines m (chanType g) (Read m) := by
  unfold chanType
  have hchan {m₁ m₂ start : Nat} {label : Label} {value : Node} (hlabel : label.isPlain) (h : m ≤ m₁)
      (hvalue : Read m₁ m₂ value) : Read m m₂ (.mk label start value.stop [value]) :=
    .node hlabel (hvalue.all.mono h (Nat.le_refl m₂)) (hvalue.stop.mono h)
  refine .stay stays_pos fun start => .stay (stays_atWord "chan") fun chan => ?_
  split
  · refine .move moves_advance fun _ m₁ h₁ => .stay stays_pos fun arrow => ?_
    refine .stay (stays_atOp "<-") fun sends => .whenMove moves_advance fun _ m₂ h₂ => ?_
    exact (reads_type hg).bind fun value m₃ _ hvalue => .pure (hchan rfl (Nat.le_trans h₁ h₂) hvalue)
  · refine (reads_expectOp "<-").bind fun _ m₁ h₁ _ => (reads_expectWord "chan").bind fun _ m₂ h₂ _ => ?_
    exact (reads_type hg).bind fun value m₃ _ hvalue => .pure (hchan rfl (Nat.le_trans h₁ h₂) hvalue)

theorem reads_type? (hg : g.Sound lines) :
    Reads lines m (Parse.type? g) fun m' t? => ∀ t ∈ t?, Read m m' t := by
  unfold Parse.type?
  have hsome {p : Parse Node} (hp : Reads lines m p (Read m)) :
      Reads lines m (do return some (← p)) fun m' t? => ∀ t ∈ t?, Read m m' t :=
    hp.bind fun t _ _ ht => .pure fun _ h => Option.some.inj h ▸ ht
  refine reads_nested (.stay stays_token fun t => ?_)
  split
  · exact hsome (reads_qualifiedName hg none (Nat.le_refl m) nofun)
  · refine (reads_expectOp "[").bind fun lbrack m₁ h₁ _ => ?_
    refine (reads_arrayType hg none (Nat.le_refl m₁) nofun).bind fun t m₂ _ ht => .pure ?_
    exact fun _ h => Option.some.inj h ▸ ht.mono h₁ (Nat.le_refl m₂)
  · exact hsome (reads_structType hg)
  · exact hsome (reads_pointerType hg)
  · exact hsome (reads_funcType hg)
  · exact hsome (reads_interfaceType hg)
  · exact hsome (reads_mapType hg)
  · exact hsome (reads_chanType hg)
  · exact hsome (reads_chanType hg)
  · refine .stay stays_pos fun lparen => .move moves_advance fun _ m₁ h₁ => ?_
    refine (reads_type hg).bind fun x m₂ h₂ hx => (reads_expectOp ")").bind fun rparen m₃ h₃ hrparen => ?_
    refine .pure fun _ h => Option.some.inj h ▸ .node rfl (hx.all.mono h₁ h₃) ?_
    exact (hrparen.mono (by omega)).add 1
  · exact .pure nofun

end Parse

end CodeAtlas.Source
