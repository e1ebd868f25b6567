import CodeAtlas.Proofs.Source.Stmts
import CodeAtlas.Source.Parse.Decls

/-!
# Declarations and files are read in order

With its place in the text, a declaration keeps that what it declares is named and stops behind its name.
-/

namespace CodeAtlas.Source

/-- What a specification in a declaration led by the word declares. -/
def specDeclared (word : String) (spec : Node) : List Declared :=
  match spec.label with
  | .typeSpec _ => declaredType spec
  | .valueSpec names typed => declaredValues word names typed spec
  | _ => []

theorem declared_genDecl (word : String) (pos stop : Nat) (specs : List Node) :
    declared (.mk (.genDecl word) pos stop specs) = specs.flatMap (specDeclared word) := rfl

/-- A specification that has been read, with what it declares. -/
structure SpecRead (word : String) (m m' : Nat) (spec : Node) : Prop where
  read : Read m m' spec
  named : ∀ d ∈ specDeclared word spec, NamedBefore d.stop d.name

/-- A declaration that has been read, with what it declares. -/
structure DeclRead (m m' : Nat) (decl : Node) : Prop where
  read : Read m m' decl
  named : ∀ d ∈ declared decl, NamedBefore d.stop d.name

/-! ## Specifications of names -/

theorem spots_valueSpec {names rest : List Node} {pos stop : Nat} {typed : Bool} :
    spots .plain (.mk (.valueSpec names.length typed) pos stop (names ++ rest)) =
      names.flatMap (spots .declared) ++ plainSpots rest := by
  have hnames : ∀ k < names.length,
      childStanding (.valueSpec names.length typed) .plain k = .declared := by
    intro k hk
    rw [childStanding, if_pos hk]
  have hrest : ∀ k, names.length ≤ k →
      childStanding (.valueSpec names.length typed) .plain k = .plain := by
    intro k hk
    rw [childStanding, if_neg (Nat.not_lt.mpr hk)]
  rw [spots_mk rfl, spotsFrom_names hnames hrest]

variable {a b c d : Nat}

/-- What ends a specification stops behind the names that the specification begins with. -/
theorem Sequence.namedBefore_lastStop {names rest : List Node} (hnames : Sequence Named a b names)
    (hrest : ReadAll b c rest) (otherwise : Nat) :
    ∀ name ∈ names, NamedBefore (Node.lastStop (names ++ rest) otherwise) name := by
  intro name hname
  by_cases hnil : rest = []
  · rw [hnil, List.append_nil]
    have hne : names ≠ [] := List.ne_nil_of_mem hname
    have hlast : Node.lastStop names otherwise = (names.getLast hne).stop := by
      rw [Node.lastStop, List.getLast?_eq_some_getLast hne]
      rfl
    rw [hlast]
    have hparts := List.dropLast_concat_getLast hne
    rw [← hparts] at hnames hname
    obtain ⟨m₁, hinit, hlast⟩ := hnames.split
    cases hlast with
    | cons hab hlast _ =>
        rcases List.mem_append.mp hname with hmem | hmem
        · exact hinit.namedBefore (hlast.read.stop.mono hab) name hmem
        · rw [List.mem_singleton.mp hmem]
          exact ⟨hlast.text, hlast.pos_le_stop⟩
  · have hstop : Parse.Reached b (Node.lastStop (names ++ rest) otherwise) := by
      rw [Node.lastStop, List.getLast?_append_of_ne_nil _ hnil, List.getLast?_eq_some_getLast hnil]
      exact (hrest.ends _ (List.getLast_mem hnil)).stop
    exact hnames.namedBefore hstop name hname

theorem SpecRead.values {word : String} {typed : Bool} {pos otherwise : Nat} {names rest : List Node}
    (hnames : Sequence Named a b names) (hrest : ReadAll b c rest)
    (hotherwise : Parse.Reached a otherwise) :
    SpecRead word a c (.mk (.valueSpec names.length typed) pos
      (Node.lastStop (names ++ rest) otherwise) (names ++ rest)) := by
  have hall : ReadAll a c (names ++ rest) :=
    (hnames.imp fun _ _ _ h => h.read).readAll.append hrest
  refine ⟨⟨?_, .mk (hall.lastStop hotherwise) fun _ => hall.ends, .mk trivial hall.shaped, nofun⟩,
    fun d hd => ?_⟩
  · rw [spots_valueSpec]
    exact hnames.declared.append hrest.chain
  · have hd : d ∈ declaredValues word names.length typed (.mk (.valueSpec names.length typed) pos
      (Node.lastStop (names ++ rest) otherwise) (names ++ rest)) := hd
    obtain ⟨name, hname, rfl⟩ := List.mem_map.mp hd
    have hmem : name ∈ names := by
      have htake := List.mem_of_mem_filter hname
      rwa [Node.children, List.take_left] at htake
    exact hnames.namedBefore_lastStop hrest otherwise name hmem

theorem typeSpec_declared (word : String) {name type : Node} {typeParams : Option Node} :
    ∀ d ∈ specDeclared word (Parse.typeSpecNode name typeParams type),
      d.name = name ∧ d.stop = type.stop ∨
        ∃ f ∈ type.members, d.name ∈ (fieldParts f).1 ∧ d.stop = f.stop := by
  intro d hd
  have hd : d ∈ declaredType (Parse.typeSpecNode name typeParams type) := hd
  have hhead : (Parse.typeSpecNode name typeParams type).children.head? = some name := rfl
  have hlast : (Parse.typeSpecNode name typeParams type).children.getLast? = some type :=
    List.getLast?_concat
  rw [declaredType, hhead, hlast] at hd
  dsimp only at hd
  have hmember {make : Node → Node → Declared}
      (hmembers : type.members = memberFields type)
      (hd : d ∈ (memberFields type).flatMap fun f => (fieldParts f).1.map fun n => make f n)
      (hmake : ∀ f n, (make f n).name = n ∧ (make f n).stop = f.stop) :
      ∃ f ∈ type.members, d.name ∈ (fieldParts f).1 ∧ d.stop = f.stop := by
    obtain ⟨f, hf, hd⟩ := List.mem_flatMap.mp hd
    obtain ⟨n, hn, rfl⟩ := List.mem_map.mp hd
    refine ⟨f, hmembers ▸ hf, ?_, (hmake f n).2⟩
    rwa [(hmake f n).1]
  split at hd
  · next hlabel =>
      have hmembers : type.members = memberFields type := by rw [Node.members, hlabel]
      rcases List.mem_cons.mp hd with rfl | hd
      · exact .inl ⟨rfl, rfl⟩
      · exact .inr (hmember hmembers hd fun _ _ => ⟨rfl, rfl⟩)
  · next hlabel =>
      have hmembers : type.members = memberFields type := by rw [Node.members, hlabel]
      rcases List.mem_cons.mp hd with rfl | hd
      · exact .inl ⟨rfl, rfl⟩
      · exact .inr (hmember hmembers hd fun _ _ => ⟨rfl, rfl⟩)
  · exact .inl (List.mem_singleton.mp hd ▸ ⟨rfl, rfl⟩)

/-- The name of a type is the first thing that its specification holds. -/
theorem spots_typeSpec {name : Node} {rest : List Node} {generic : Bool} {pos stop : Nat} :
    spots .plain (.mk (.typeSpec generic) pos stop (name :: rest)) =
      spots .declared name ++ plainSpots rest := by
  have hnames : ∀ k < [name].length, childStanding (.typeSpec generic) .plain k = .declared := by
    intro k hk
    rw [childStanding, if_pos (Nat.lt_one_iff.mp hk)]
  have hrest : ∀ k, [name].length ≤ k → childStanding (.typeSpec generic) .plain k = .plain := by
    intro k hk
    have hpos : k ≠ 0 := Nat.ne_of_gt (Nat.lt_of_lt_of_le (Nat.succ_pos _) hk)
    rw [childStanding, if_neg hpos]
  have hfrom := @spotsFrom_names _ _ [name] rest hnames hrest
  rw [List.singleton_append, List.flatMap_singleton] at hfrom
  rw [spots_mk rfl, hfrom]

theorem SpecRead.type {word : String} {name type : Node} {typeParams : Option Node}
    (hname : Named a b name) (hbc : b ≤ c) (htypeParams : ∀ x ∈ typeParams, Read b c x)
    (htype : Read c d type) : SpecRead word a d (Parse.typeSpecNode name typeParams type) := by
  have hab := hname.le
  have hrest : ReadAll b d (typeParams.toList ++ [type]) :=
    (ReadAll.toList hbc htypeParams).append htype.all
  have hall : ReadAll a d (name :: (typeParams.toList ++ [type])) := .cons hname.read hrest
  have hfits : (Label.typeSpec typeParams.isSome).Fits (name :: (typeParams.toList ++ [type])) :=
    ⟨name, type, typeParams, rfl, rfl⟩
  refine ⟨⟨?_, .mk (htype.stop.mono (by omega)) fun _ => hall.ends, .mk hfits hall.shaped, nofun⟩,
    fun x hx => ?_⟩
  · have hspots : spots .plain (Parse.typeSpecNode name typeParams type) =
        spots .declared name ++ plainSpots (typeParams.toList ++ [type]) := spots_typeSpec
    rw [hspots]
    exact hname.chain.append hrest.chain
  · rcases typeSpec_declared word x hx with ⟨hname', hstop⟩ | ⟨f, hf, hmem, hstop⟩
    · rw [hname', hstop]
      have hbefore := hname.before
      have hreached : c ≤ 2 * type.stop + 1 := htype.stop
      exact ⟨hname.text, by omega⟩
    · rw [hstop]
      exact htype.members f hf _ hmem

/-! ## Functions -/

/-- A function declares its name, which follows the receiver of a method. -/
theorem mem_declaredFunc {method : Bool} {decl : Node} {d : Declared}
    (hd : d ∈ declaredFunc method decl) : d.stop = decl.stop ∧
      ∃ rest, (if method then decl.children.drop 1 else decl.children) = d.name :: rest := by
  unfold declaredFunc at hd
  extract_lets receiver? at hd
  split at hd
  · next name type rest heq =>
      cases hreceiver : receiver? <;>
        · simp only [hreceiver] at hd
          rw [List.mem_singleton.mp hd]
          exact ⟨rfl, _, heq⟩
  · cases hd

theorem declared_funcDecl {receiver block : Option Node} {name type : Node} {pos stop : Nat} :
    ∀ d ∈ declared (.mk (.funcDecl receiver.isSome) pos stop
      (receiver.toList ++ [name, type] ++ block.toList)), d.name = name ∧ d.stop = stop := by
  intro d hd
  obtain ⟨hstop, rest, hparts⟩ := mem_declaredFunc hd
  refine ⟨?_, hstop⟩
  cases receiver with
  | none => exact (List.cons.inj hparts).1.symm
  | some r => exact (List.cons.inj hparts).1.symm

theorem spots_funcDecl {receiver block : Option Node} {name type : Node} {pos stop : Nat} :
    spots .plain (.mk (.funcDecl receiver.isSome) pos stop
      (receiver.toList ++ [name, type] ++ block.toList)) =
      plainSpots receiver.toList ++ spots .declared name ++ plainSpots (type :: block.toList) := by
  have hbehind {i : Nat} (hi : (if receiver.isSome then 1 else 0) < i) (ns : List Node) :
      spotsFrom (.funcDecl receiver.isSome) .plain i ns = plainSpots ns :=
    spotsFrom_eq fun k _ => by rw [childStanding, if_neg (by omega)]
  rw [spots_mk rfl]
  cases receiver with
  | none =>
      rw [Option.toList_none, List.nil_append, List.cons_append, spotsFrom, hbehind (Nat.succ_pos _)]
      rfl
  | some r =>
      rw [Option.toList_some, List.singleton_append, List.cons_append, List.cons_append, spotsFrom,
        spotsFrom, hbehind (i := 0 + 1 + 1) (Nat.lt_succ_self 1), plainSpots_singleton,
        List.append_assoc]
      rfl

namespace Parse

variable {lines : LineTable} {g : Grammar} {m : Nat}

/-! ## Productions -/

theorem reads_importSpec (word : String) : Reads lines m importSpec (SpecRead word m) := by
  unfold importSpec
  refine reads_look.bind fun l m₁ h₁ hl => ?_
  extract_lets withName
  have hwithName (name : Option Node) (m₂ : Nat) (h₂ : m ≤ m₂)
      (hname : ∀ x ∈ name, Ends m x ∧ Shaped x) :
      Reads lines m₂ (withName name) (SpecRead word m) := by
    refine reads_look.bind fun l m₃ h₃ hl => ?_
    have hpos : Reached m l.pos := hl.1.mono h₂
    extract_lets withPath
    have hwithPath (path : Node) (m₄ : Nat) (h₄ : m ≤ m₄) (hpath : Ends m path ∧ Shaped path) :
        Reads lines m₄ (withPath path) (SpecRead word m) := by
      have hparts : ∀ n ∈ name.toList ++ [path], Ends m n ∧ Shaped n := by
        intro n hn
        rcases List.mem_append.mp hn with hn | hn
        · exact hname n (Option.mem_toList.mp hn)
        · exact List.mem_singleton.mp hn ▸ hpath
      refine .move moves_expectEnd fun _ m₅ h₅ => .pure ⟨⟨?_, ?_, ?_, nofun⟩, nofun⟩
      · rw [spots_importSpec]
        exact Nat.le_trans h₄ h₅
      · exact .mk hpath.1.stop fun _ n hn => (hparts n hn).1
      · exact .mk trivial fun n hn => (hparts n hn).2
    have hmissing (u : Unit) (m₄ : Nat) (h₄ : m ≤ m₄) : Reads lines m₄ (do
        let path ← pure (.mk (.literal "") l.pos l.pos [])
        withPath path) (SpecRead word m) :=
      hwithPath _ m₄ h₄ ⟨.mk hpos fun _ => nofun, .mk trivial nofun⟩
    split
    · refine .move moves_advance fun _ m₄ h₄ => hwithPath _ m₄ (by omega) ⟨?_, .mk trivial nofun⟩
      exact .mk (hpos.mono_place hl.2) fun _ => nofun
    · refine .stay (stays_complain _) fun _ => ?_
      split
      · exact .move moves_advance fun u m₄ h₄ => hmissing u m₄ (by omega)
      · exact .move (moves_resync endsExpr) fun u m₄ h₄ => hmissing u m₄ (by omega)
  split
  · refine reads_ident.bind fun name m₂ h₂ hname => hwithName (some name) m₂ (by omega) ?_
    exact fun _ h => Option.some.inj h ▸ ⟨hname.read.ends.mono h₁, hname.read.shaped⟩
  · refine .move moves_advance fun _ m₂ h₂ => hwithName (some _) m₂ (by omega) ?_
    exact fun _ h => Option.some.inj h ▸ ⟨.mk (hl.1.add _) fun _ => nofun, .mk trivial nofun⟩
  · exact hwithName none m₁ h₁ nofun

theorem reads_valueSpec (hg : g.Sound lines) (word : String) :
    Reads lines m (valueSpec g word) (SpecRead word m) := by
  unfold valueSpec
  refine (reads_commaSeparated fun _ => reads_ident).bind fun names m₁ h₁ hnames => ?_
  obtain ⟨first, rest, m₂, rfl, hfirst, hrest⟩ := hnames
  have hnames : Sequence Named m m₁ (first :: rest) := .cons (Nat.le_refl m) hfirst hrest
  extract_lets values start finish
  have hfinish (t : Option Node) (values : List Node) {m₃ m₄ : Nat} (h₃ : m₁ ≤ m₃)
      (ht : ∀ x ∈ t, Read m₁ m₃ x) (hvalues : ReadAll m₃ m₄ values) :
      Reads lines m₄ (finish (t, values)) (SpecRead word m) := by
    refine .move moves_expectEnd fun _ m₅ h₅ => .pure ?_
    have hothers : ReadAll m₁ m₅ (t.toList ++ values) :=
      (ReadAll.toList h₃ ht).append (hvalues.mono (Nat.le_refl m₃) h₅)
    rw [List.append_assoc]
    exact .values hnames hothers hfirst.reached
  have hvalues (t : Option Node) {m₃ : Nat} (h₃ : m₁ ≤ m₃) (ht : ∀ x ∈ t, Read m₁ m₃ x) :
      Reads lines m₃ (do
        let vs ← values
        let r ← pure (t, vs)
        finish r) (SpecRead word m) := by
    refine Reads.bind (A := fun m' vs => ReadAll m₃ m' vs) ?_ fun vs m₄ _ hvs => hfinish t vs h₃ ht hvs
    refine .stay (stays_atOp "=") fun equals => ?_
    split
    · refine .move moves_advance fun _ m₄ h₄ => (reads_exprList hg true).imp fun m₅ vs _ hvs => ?_
      exact hvs.2.readAll.mono h₄ (Nat.le_refl m₅)
    · exact .pure (.nil (Nat.le_refl m₃))
  split
  · refine .stay stays_atEnd fun _ => .stay (stays_atOp ";") fun _ => .stay (stays_atOp ")") fun _ => ?_
    split
    · exact hfinish none [] (Nat.le_refl m₁) nofun (.nil (Nat.le_refl m₁))
    · exact (hg.type? m₁).bind fun t m₃ h₃ ht => hvalues t h₃ ht
  · refine .stay (stays_atOp "=") fun equals => ?_
    split
    · exact hvalues none (Nat.le_refl m₁) nofun
    · exact (reads_type hg).bind fun t m₃ h₃ ht => hvalues (some t) h₃ fun _ h => Option.some.inj h ▸ ht

/-! ## Types -/

/-- The two parts of a node, each with its share of the spots. -/
theorem parts_of_pair {label : Label} {pos stop : Nat} {x y : Node} (hlabel : label.isPlain)
    (hfield : label.isField = false) (hchain : Chain a b (spots .plain (.mk label pos stop [x, y])))
    (hends : Ends a (.mk label pos stop [x, y])) (hshaped : Shaped (.mk label pos stop [x, y])) :
    ∃ c, Chain a c (spots .plain x) ∧ Chain c b (spots .plain y) ∧ (Ends a x ∧ Shaped x) ∧
      Ends a y ∧ Shaped y := by
  rw [spots_of_isPlain hlabel, plainSpots_cons, plainSpots_singleton] at hchain
  obtain ⟨c, hx, hy⟩ := hchain.split
  have hends := hends.children hfield
  have hshaped := hshaped.children
  exact ⟨c, hx, hy, ⟨hends x (.head _), hshaped x (.head _)⟩,
    hends y (.tail _ (.head _)), hshaped y (.tail _ (.head _))⟩

theorem read_of_isName {x : Node} (hname : x.isName) (hchain : Chain a b (spots .plain x))
    (hparts : Ends a x ∧ Shaped x) : Read a b x := by
  refine ⟨hchain, hparts.1, hparts.2, ?_⟩
  obtain ⟨label, pos, stop, children⟩ := x
  cases label with
  | structType | interfaceType => cases hname
  | _ => exact nofun

/-- A name and the type after it, in an expression that is read that way. -/
theorem paramRead_extractName {force : Bool} {x name : Node} {bound : Option Node}
    (h : extractName force x = some (name, bound)) (hchain : Chain a b (spots .plain x))
    (hends : Ends a x) (hshaped : Shaped x) : ParamRead a a b ⟨some name, bound⟩ := by
  have htyped {c d pos stop : Nat} {label : Label} {name y : Node} (hlabel : label.isPlain)
      (hname : Read a c name) (hy : Chain c d (spots .plain y)) (hparts : Ends a y ∧ Shaped y)
      (hstop : Reached a stop) : ParamRead a a d ⟨some name, some (.mk label pos stop [y])⟩ := by
    refine ⟨c, hname.le, hy.le, fun _ h => Option.some.inj h ▸ hname, ?_⟩
    refine fun _ h => Option.some.inj h ▸ ⟨?_, .mk hstop fun _ n hn => ?_, .mk ?_ fun n hn => ?_, ?_⟩
    · rw [spots_of_isPlain hlabel, plainSpots_singleton]
      exact hy
    · exact List.mem_singleton.mp hn ▸ hparts.1
    · exact Label.fits_of_isPlain hlabel [y]
    · exact List.mem_singleton.mp hn ▸ hparts.2
    · cases label with
      | structType | interfaceType => cases hlabel
      | _ => exact nofun
  induction force, x using extractName.induct generalizing name bound b with
  | case1 force text pos stop cs =>
      cases h
      exact .of_name ⟨hchain, hends, hshaped, nofun⟩
  | case2 force pos stop x y hname =>
      rw [extractName, if_pos hname] at h
      cases h
      obtain ⟨c, hx, hy, hxparts, hyparts⟩ := parts_of_pair rfl rfl hchain hends hshaped
      have hxname : x.isName := (Bool.and_eq_true_iff.mp hname).1
      exact htyped rfl (read_of_isName hxname hx hxparts) hy hyparts hends.stop
  | case3 force pos stop x y hname =>
      rw [extractName, if_neg hname] at h
      cases h
  | case4 force pos stop x y name' left heq ih =>
      rw [extractName, heq] at h
      cases h
      obtain ⟨c, hx, hy, hxparts, hyparts⟩ := parts_of_pair rfl rfl hchain hends hshaped
      obtain ⟨m₁, h₁, h₂, hname, hleft⟩ := ih heq hx hxparts.1 hxparts.2
      have hleft : ReadSince a m₁ c left := hleft left rfl
      refine ⟨m₁, h₁, Nat.le_trans h₂ hy.le, hname, fun _ h => Option.some.inj h ▸ ⟨?_, ?_, ?_, nofun⟩⟩
      · rw [spots_of_isPlain rfl, plainSpots_cons, plainSpots_singleton]
        exact hleft.chain.append hy
      · refine .mk hends.stop fun _ n hn => ?_
        rcases List.mem_cons.mp hn with rfl | hn
        · exact hleft.ends
        · exact List.mem_singleton.mp hn ▸ hyparts.1
      · refine .mk trivial fun n hn => ?_
        rcases List.mem_cons.mp hn with rfl | hn
        · exact hleft.shaped
        · exact List.mem_singleton.mp hn ▸ hyparts.2
  | case5 force pos stop x y hnone =>
      rw [extractName] at h
      split at h
      · exact absurd ‹_› (hnone _ _)
      · cases h
  | case6 force pos stop f arg hname =>
      rw [extractName, if_pos hname] at h
      cases h
      obtain ⟨c, hf, harg, hfparts, hargparts⟩ := parts_of_pair rfl rfl hchain hends hshaped
      have hfname : f.isName := (Bool.and_eq_true_iff.mp hname).1
      exact htyped rfl (read_of_isName hfname hf hfparts) harg hargparts hends.stop
  | case7 force pos stop f arg hname =>
      rw [extractName, if_neg hname] at h
      cases h
  | case8 x force h₁ h₂ h₃ h₄ =>
      rw [extractName] at h
      · cases h
      · exact h₁
      · exact h₂
      · exact h₃
      · exact h₄

theorem reads_aliasOrType (hg : g.Sound lines) : Reads lines m (aliasOrType g) (Read m) := by
  unfold aliasOrType
  refine .stay (stays_atOp "=") fun equals => .whenMove moves_advance fun _ m₁ h₁ => ?_
  exact (reads_type hg).imp fun m₂ t _ ht => ht.mono h₁ (Nat.le_refl m₂)

theorem reads_genericType {m₀ m₁ lbrack : Nat} {name param : Node} {bound : Option Node}
    (hg : g.Sound lines) (word : String) (hname : Named m₀ m₁ name) (h₁ : m₁ ≤ m)
    (hparam : ParamRead m₁ m₁ m ⟨some param, bound⟩) :
    Reads lines m (genericType g name lbrack param bound) (SpecRead word m₀) := by
  unfold genericType
  refine (reads_paramList hg (some param) bound "]" false hparam).bind fun list m₂ h₂ hlist => ?_
  refine (reads_expectOp "]").bind fun rbrack m₃ h₃ hrbrack => ?_
  refine (reads_aliasOrType hg).bind fun t m₄ _ ht => .pure (.type hname (by omega) ?_ ht)
  rintro _ ⟨⟩
  exact .fieldsNode (hlist.mono (Nat.le_refl m₁) h₃) (hrbrack.mono (by omega))

theorem reads_typeSpec (hg : g.Sound lines) (word : String) :
    Reads lines m (typeSpec g) (SpecRead word m) := by
  unfold typeSpec
  refine reads_ident.bind fun name m₁ h₁ hname => .stay (stays_atOp "[") fun bracket => ?_
  extract_lets finish
  have hfinish (node : Node) (m₂ : Nat) (h₂ : m₁ ≤ m₂) (hnode : SpecRead word m m₂ node) :
      Reads lines m₂ (finish node) (SpecRead word m) := by
    refine .move moves_expectEnd fun _ m₃ h₃ => .pure ?_
    exact ⟨hnode.read.mono (Nat.le_refl m) h₃, hnode.named⟩
  have hplain (t : Node) (m₂ : Nat) (ht : Read m₁ m₂ t) :
      Reads lines m₂ (do
        let node ← pure (typeSpecNode name none t)
        finish node) (SpecRead word m) :=
    hfinish _ m₂ ht.le (.type hname (Nat.le_refl m₁) nofun ht)
  split
  · refine .stay stays_pos fun lbrack => .move moves_advance fun _ m₂ h₂ => .stay stays_token fun t => ?_
    split
    · refine reads_ident.bind fun first m₃ h₃ hfirst => .stay (stays_atOp "[") fun bracket => ?_
      extract_lets withLength
      have hwithLength (x : Node) (m₄ : Nat) (hx : Read m₁ m₄ x) :
          Reads lines m₄ (withLength x) (SpecRead word m) := by
        have hle := hx.le
        have harray : Reads lines m₄ (do
            let t ← arrayType g lbrack (some x)
            let node ← pure (typeSpecNode name none t)
            finish node) (SpecRead word m) :=
          (reads_arrayType hg (some x) hle fun _ h => Option.some.inj h ▸ hx).bind
            fun t m₅ _ ht => hplain t m₅ ht
        refine .stay (stays_atOp ",") fun comma => ?_
        split
        · next param bound heq =>
            refine .stay (stays_atOp "]") fun closed => ?_
            split
            · have hparam := paramRead_extractName heq hx.chain hx.ends hx.shaped
              refine (reads_genericType hg word hname hle hparam).bind fun node m₅ h₅ hnode => ?_
              exact hfinish node m₅ (by omega) hnode
            · exact harray
        · exact harray
      have hfirst' : Read m₁ m₃ first := hfirst.read.mono h₂ (Nat.le_refl m₃)
      have hle : m₁ ≤ m₃ := hfirst'.le
      split
      · exact hwithLength first m₃ hfirst'
      · refine Reads.bind (reads_inBrackets ?_) fun x m₄ _ hx => hwithLength x m₄ hx
        refine (reads_primary hg (some first) hle fun _ h => Option.some.inj h ▸ hfirst').bind
          fun left m₄ h₄ hleft => ?_
        exact reads_binary hg (some left) 1 (by omega) fun _ h => Option.some.inj h ▸ hleft
    · refine (reads_arrayType hg none (Nat.le_refl m₂) nofun).bind fun t m₃ _ ht => ?_
      exact hplain t m₃ (ht.mono h₂ (Nat.le_refl m₃))
  · exact (reads_aliasOrType hg).bind fun t m₂ _ ht => hplain t m₂ ht

/-! ## Declarations -/

theorem reads_genDecl {word : String} {spec : Parse Node}
    (hspec : ∀ m, Reads lines m spec (SpecRead word m)) :
    Reads lines m (genDecl word spec) (DeclRead m) := by
  unfold genDecl
  have hnode {a b pos stop : Nat} {specs : List Node} (hstop : Reached a stop)
      (hspecs : Sequence (SpecRead word) a b specs) : DeclRead a b (.mk (.genDecl word) pos stop specs) := by
    refine ⟨.node rfl (hspecs.imp fun _ _ _ h => h.read).readAll hstop, fun d hd => ?_⟩
    rw [declared_genDecl] at hd
    obtain ⟨spec, hmem, hd⟩ := List.mem_flatMap.mp hd
    obtain ⟨_, _, -, hread, -⟩ := hspecs.exists_of_mem (fun _ _ _ h => h.read.le) hmem
    exact hread.named d hd
  have hmore : Stays lines (do return !(← atOp ")") && !(← atEnd)) :=
    (stays_atOp ")").bind fun _ => stays_atEnd.bind fun _ => .pure _
  refine (reads_expectWord word).bind fun start m₁ h₁ hstart => .stay (stays_atOp "(") fun opened => ?_
  split
  · refine .move moves_advance fun _ m₂ h₂ => (reads_whileM hmore hspec).bind fun list m₃ h₃ hlist => ?_
    refine (reads_expectOp ")").bind fun rparen m₄ h₄ hrparen => .move moves_expectEnd fun _ m₅ h₅ => ?_
    refine .pure (hnode ((hrparen.mono (by omega)).add 1) ?_)
    exact (hlist.mono_left (by omega)).mono_right (by omega)
  · refine (hspec m₁).bind fun spec m₂ h₂ hread => .pure (hnode (hread.read.stop.mono h₁) ?_)
    exact .cons h₁ hread (.nil (Nat.le_refl m₂))

theorem reads_funcDecl (hg : g.Sound lines) : Reads lines m (funcDecl g) (DeclRead m) := by
  unfold funcDecl
  refine (reads_expectWord "func").bind fun start m₁ h₁ _ => .stay (stays_atOp "(") fun opened => ?_
  extract_lets withReceiver
  have hwithReceiver (receiver : Option Node) (m₂ : Nat) (h₂ : m₁ ≤ m₂)
      (hreceiver : ∀ x ∈ receiver, Read m₁ m₂ x) :
      Reads lines m₂ (withReceiver receiver) (DeclRead m) := by
    refine reads_ident.bind fun name m₃ h₃ hname => ?_
    refine (reads_typeParameters hg).bind fun typeParams m₄ h₄ htypeParams => ?_
    refine (reads_parameters hg true).bind fun params m₅ h₅ hparams => ?_
    refine (reads_result hg).bind fun results m₆ h₆ hresults => ?_
    extract_lets t withBlock
    have ht : Read m₃ m₆ t := .func h₄ h₆ htypeParams hparams hresults
    have hwithBlock (block : Option Node) (m₇ : Nat) (h₇ : m₆ ≤ m₇) (hblock : ∀ x ∈ block, Read m₆ m₇ x) :
        Reads lines m₇ (withBlock block) (DeclRead m) := by
      have hstop : Reached m₃ (block.getD t).stop := by
        cases block with
        | none => exact ht.stop
        | some b => exact (hblock b rfl).stop.mono (by omega)
      have hparts : ReadAll m₃ m₇ (t :: block.toList) := .cons ht (.toList h₇ hblock)
      have hreceivers : ReadAll m₁ m₂ receiver.toList := .toList h₂ hreceiver
      have hall : ReadAll m₁ m₇ (receiver.toList ++ [name, t] ++ block.toList) := by
        rw [List.append_assoc]
        exact hreceivers.append (.cons hname.read hparts)
      refine .pure ⟨⟨?_, ?_, ?_, nofun⟩, fun d hd => ?_⟩
      · rw [spots_funcDecl]
        exact ((hreceivers.chain.append hname.chain).append hparts.chain).mono_left h₁
      · exact .mk (hstop.mono (by omega)) fun _ n hn => (hall.ends n hn).mono h₁
      · exact .mk ⟨name, t, receiver, block, rfl, rfl⟩ hall.shaped
      · obtain ⟨hdname, hdstop⟩ := declared_funcDecl d hd
        have hbefore := hname.before
        unfold Reached at hstop
        rw [hdname, hdstop]
        exact ⟨hname.text, by omega⟩
    refine .stay stays_token fun token => ?_
    have hbody {m₇ : Nat} (h₇ : m₆ ≤ m₇) : Reads lines m₇ (do
        let b ← Parse.body g
        expectEnd
        let block ← pure (some b)
        withBlock block) (DeclRead m) := by
      refine (reads_body hg).bind fun b m₈ h₈ hb => .move moves_expectEnd fun _ m₉ h₉ => ?_
      exact hwithBlock (some b) m₉ (by omega) fun _ h => Option.some.inj h ▸ hb.mono h₇ h₉
    split
    · exact hbody (Nat.le_refl m₆)
    · refine .move moves_advance fun _ m₇ h₇ => .stay (stays_atOp "\x7b") fun brace => ?_
      split
      · exact .stay stays_complainHere fun _ => hbody h₇
      · exact hwithBlock none m₇ h₇ nofun
    · exact .move moves_expectEnd fun _ m₇ h₇ => hwithBlock none m₇ h₇ nofun
  split
  · refine (reads_parameters hg true).bind fun list m₂ h₂ hlist => ?_
    exact hwithReceiver (some list) m₂ h₂ fun _ h => Option.some.inj h ▸ hlist
  · exact hwithReceiver none m₁ (Nat.le_refl m₁) nofun

theorem reads_decl (hg : g.Sound lines) (sync : Token → Bool) :
    Reads lines m (Parse.decl g sync) (DeclRead m) := by
  unfold Parse.decl
  refine .stay stays_token fun t => ?_
  split
  · exact reads_genDecl fun _ => reads_importSpec "import"
  · exact reads_genDecl fun _ => reads_valueSpec hg "const"
  · exact reads_genDecl fun _ => reads_valueSpec hg "var"
  · exact reads_genDecl fun _ => reads_typeSpec hg "type"
  · exact reads_funcDecl hg
  · refine .stay stays_pos fun start => .stay (stays_complain start) fun _ => ?_
    refine .move (moves_resync sync) fun _ m₁ h₁ => reads_pos.bind fun place m₂ h₂ hplace => .pure ?_
    exact ⟨.leaf rfl (by omega) (hplace.mono h₁), nofun⟩

/-- Every depth of the grammar reads in order what it reads. -/
theorem sound_grammar (depth : Nat) : (grammar depth).Sound lines := by
  induction depth with
  | zero => constructor <;> (intros; intro s a t _ _ heq; cases heq)
  | succ depth ih =>
      exact {
        type? := fun _ => reads_type? ih
        expr := fun _ => reads_expr ih
        unary := fun _ => reads_unary ih
        binary := fun first least h₀ hfirst => reads_binary ih first least h₀ hfirst
        literalValue := fun type h₀ htype => reads_literalValue ih type h₀ htype
        body := fun _ => reads_body ih
        stmt := fun _ => reads_stmt ih
        ifStmt := fun _ => reads_ifStmt ih
        decl := fun sync _ => (reads_decl ih sync).imp fun _ _ _ h => h.read }

theorem stays_complaintCount : Stays lines complaintCount := .of_looks fun _ => ⟨_, rfl⟩

/-- The declarations of a file stand one after the other. -/
theorem reads_file (hg : g.Sound lines) : Reads lines m (file g) fun m' file? =>
    ∀ f ∈ file?, ∃ m₁, m ≤ m₁ ∧ Sequence DeclRead m₁ m' f.decls := by
  unfold file
  refine .stay stays_complaintCount fun _ => ?_
  split
  · exact .pure nofun
  refine (reads_expectWord "package").bind fun _ m₁ h₁ _ => reads_ident.bind fun name m₂ h₂ _ => ?_
  refine .move moves_expectEnd fun _ m₃ h₃ => .stay stays_complaintCount fun _ => ?_
  split
  · exact .pure nofun
  refine (reads_whileM (stays_atWord "import") fun _ =>
    reads_genDecl fun _ => reads_importSpec "import").bind fun imports m₄ h₄ himports => ?_
  extract_lets step
  have hstep (state : Array Node × Bool) (m' : Nat) (hdone : Sequence DeclRead m₃ m' state.1.toList) :
      Reads lines m' (step state) fun m'' r => Sequence DeclRead m₃ m'' r.1.1.toList := by
    obtain ⟨done, afterImport⟩ := state
    refine .stay stays_atEnd fun ended => ?_
    split
    · exact .pure hdone
    refine .stay (stays_atWord "import") fun isImport => .whenStay stays_complainHere fun _ => ?_
    refine (reads_decl hg startsDecl).bind fun d m'' _ hd => .pure ?_
    rw [Array.toList_push]
    exact hdone.snoc (Nat.le_refl m') hd
  refine .stay stays_rounds fun n => ?_
  refine (reads_iterate (I := fun m' state => Sequence DeclRead m₃ m' state.1.toList)
    (fun state m' _ h => hstep state m' h) n himports).bind fun state m₅ _ hdecls => .pure ?_
  rintro _ ⟨⟩
  exact ⟨m₃, by omega, hdecls⟩

end Parse

section ParseFile

variable {glyphs : List Glyph} {first : Scanner × Lexeme}

/-- The state in which the parsing of a text starts, once its first token has been scanned. -/
def ParseState.ofScan (first : Scanner × Lexeme) : ParseState :=
  { scanner := first.1, look := first.2, syncPos := none, syncCount := 0, exprLevel := 0
    inRhs := false, nesting := 0 }

theorem parseFile_of_ok {file : Option SourceFile} {t : ParseState}
    (hfirst : (Scanner.start glyphs).scan ((Scanner.start glyphs).unread + 2) = first)
    (hrun : Parse.file (Parse.grammar (Parse.maxNesting + glyphs.length)) (.ofScan first) =
      .ok (file, t)) :
    parseFile glyphs = ⟨file, t.scanner.table, t.scanner.complaints.count != 0⟩ := by
  unfold parseFile
  dsimp only
  rw [hfirst]
  unfold ParseState.ofScan at hrun
  rw [StateT.run, hrun]

theorem parseFile_of_error {e : Abandoned}
    (hfirst : (Scanner.start glyphs).scan ((Scanner.start glyphs).unread + 2) = first)
    (hrun : Parse.file (Parse.grammar (Parse.maxNesting + glyphs.length)) (.ofScan first) = .error e) :
    parseFile glyphs = ⟨none, first.1.table, true⟩ := by
  unfold parseFile
  dsimp only
  rw [hfirst]
  unfold ParseState.ofScan at hrun
  rw [StateT.run, hrun]

end ParseFile

/-- A file that is parsed from a text holds what has been read of the text, in its order. -/
theorem sequence_parseFile {glyphs : List Glyph} {f : SourceFile} (hwidths : ∀ g ∈ glyphs, 0 < g.width)
    (h : (parseFile glyphs).file = some f) :
    (parseFile glyphs).table.size = (LineTable.ofGlyphs glyphs).size ∧
      (parseFile glyphs).table.starts = (LineTable.ofGlyphs glyphs).starts ∧
      ∃ m m', Sequence DeclRead m m' f.decls ∧ m' ≤ 2 * (LineTable.ofGlyphs glyphs).size + 1 := by
  obtain ⟨hstart, hpending, hsize, hstarts⟩ := Scanner.sound_start hwidths
  have hscan := Scanner.scans_scan ((Scanner.start glyphs).unread + 2) _ hstart (Nat.zero_le _) hpending
    (Nat.le_refl _)
  generalize hfirst : (Scanner.start glyphs).scan ((Scanner.start glyphs).unread + 2) = first at hscan
  let s := ParseState.ofScan first
  have hs : s.Sound (.ofGlyphs glyphs) :=
    ⟨hscan.sound, hscan.size.trans hsize, hscan.starts.trans hstarts, hscan.pending, hscan.stop,
      hscan.passed, hscan.named⟩
  cases hrun : Parse.file (Parse.grammar (Parse.maxNesting + glyphs.length)) s with
  | error e =>
      rw [parseFile_of_error hfirst hrun] at h
      cases h
  | ok result =>
      obtain ⟨file, t⟩ := result
      rw [parseFile_of_ok hfirst hrun] at h ⊢
      obtain ⟨ht, m', -, hm', hfile⟩ :=
        Parse.reads_file (Parse.sound_grammar _) s file t hs (Nat.le_refl _) hrun
      obtain ⟨m, -, hdecls⟩ := hfile f h
      have hend := t.moment_bounds.2
      have hpos := ht.pos_le
      exact ⟨ht.size, ht.starts, m, m', hdecls, by omega⟩

end CodeAtlas.Source
