import CodeAtlas.Proofs.Source.Decls

/-!
# Identifiers are definitions or usages

A walk of a file meets identifiers and imports.  What a declaration at the top level gives a name is a
symbol, and any other identifier that is not blank is one usage, as is an import; both are found in the
order of the walk.  Main statement: `extract_splits_identifiers`.
-/

namespace CodeAtlas.Source

/-- The way from a node up to a declaration at the top level: what the nodes on it are, each with the
number of the child that the way comes from. -/
abbrev Way := List (Label × Nat)

/-- An identifier or an import that a walk meets. -/
structure Visit where
  way : Way
  node : Node

mutual

/-- What a walk of a node meets, in its order.  What stands in an import is passed over. -/
def walk (way : Way) : Node → List Visit
  | .mk (.name text) pos stop ns => [⟨way, .mk (.name text) pos stop ns⟩]
  | .mk (.importSpec named) pos stop ns => [⟨way, .mk (.importSpec named) pos stop ns⟩]
  | .mk label _ _ ns => walkFrom label way 0 ns

def walkFrom (label : Label) (way : Way) (i : Nat) : List Node → List Visit
  | [] => []
  | n :: ns => walk ((label, i) :: way) n ++ walkFrom label way (i + 1) ns

end

/-- What a node is to the declarations of a file: one of them, a specification in it, the type that it
gives a name, the list of the members of that type, one of them, a name that is declared, or anything
else. -/
inductive Place where
  | decl
  | spec
  | type
  | members
  | member
  | name
  | other
  deriving DecidableEq, Repr

def Place.child (place : Place) (label : Label) (i : Nat) : Place :=
  match place, label with
  | decl, .funcDecl method => if i = (if method then 1 else 0) then name else other
  | decl, .genDecl _ => spec
  | spec, .valueSpec names _ => if i < names then name else other
  | spec, .typeSpec generic =>
      if i = 0 then name else if i = (if generic then 2 else 1) then type else other
  | type, .structType | type, .interfaceType => members
  | members, .fieldList => member
  | member, .field names _ => if i < names then name else other
  | _, _ => other

def placeAt : Way → Place
  | [] => .decl
  | (label, i) :: way => (placeAt way).child label i

/-- How an identifier at the end of a way is used: as what is called or as the name that is selected in
what is called, as an operand that is assigned, or in any other way. -/
def usageAt : Way → UsageKind
  | (.call _, 0) :: _ | (.selector, 1) :: (.call _, 0) :: _ => .call
  | (.assign _ left _, i) :: _ => if i < left then .assignment else .reference
  | (.incDec, _) :: _ => .assignment
  | _ => .reference

/-- What an import is known as: its alias, or the last element of its path. -/
def importedAs : Node → String
  | .mk (.importSpec true) _ _ (name :: _) => name.nameText
  | .mk (.importSpec false) _ _ (.mk (.literal path) _ _ _ :: _) =>
      String.ofList (((trimQuotes path).splitOn '/').getLastD [])
  | _ => ""

namespace Visit

def isImport (v : Visit) : Bool :=
  match v.node.label with
  | .importSpec _ => true
  | _ => false

/-- An identifier other than the blank one. -/
def isIdentifier (v : Visit) : Bool := v.node.isName && v.node.nameText != "_"

def isDefinition (v : Visit) : Bool := v.isIdentifier && placeAt v.way == .name

def isUsage (v : Visit) : Bool := v.isImport || v.isIdentifier && placeAt v.way != .name

def usedAs (v : Visit) : String := if v.isImport then importedAs v.node else v.node.nameText

def kind (v : Visit) : UsageKind := if v.isImport then .importing else usageAt v.way

end Visit

/-- What is found of the visits of a walk: a symbol for each definition, but for blank ones, and a usage
for each of the others. -/
structure Splits (position : Nat → Position) (visits : List Visit) (found : Extraction) : Prop where
  symbols : (found.symbols.filter (·.name != "_")).map (fun s => (s.name, s.first)) =
    (visits.filter Visit.isDefinition).map fun v => (v.node.nameText, position v.node.pos)
  usages : found.usages.map (fun u => (u.name, u.location.first, u.location.last, u.kind)) =
    (visits.filter Visit.isUsage).map fun v =>
      (v.usedAs, position v.node.pos, position v.node.stop, v.kind)

variable {way : Way} {label : Label} {place : Place} {n : Node} {ns xs ys : List Node} {i : Nat}

/-! ## What a walk meets -/

theorem walk_mk {pos stop : Nat} (h : label.isMet = false) :
    walk way (.mk label pos stop ns) = walkFrom label way 0 ns := by
  cases label with
  | name | importSpec => cases h
  | _ => rw [walk]; exact nofun; exact nofun

theorem walk_of_isName (h : n.isName) : walk way n = [⟨way, n⟩] := by
  obtain ⟨label, pos, stop, children⟩ := n
  cases label with
  | name text => rw [walk]
  | _ => cases h

mutual

/-- What holds of a way holds of the ways that go on from it, if it does so one step further. -/
theorem forall_walk {P : Way → Prop} (hstep : ∀ way label i, P way → P ((label, i) :: way))
    {way : Way} (hway : P way) : ∀ n, ∀ v ∈ walk way n, P v.way
  | .mk label pos stop ns, v, hv => by
      have hparts := forall_walkFrom hstep hway label 0 ns
      cases label with
      | name | importSpec =>
          rw [walk, List.mem_singleton] at hv
          exact hv ▸ hway
      | _ =>
          rw [walk_mk rfl] at hv
          exact hparts v hv

theorem forall_walkFrom {P : Way → Prop} (hstep : ∀ way label i, P way → P ((label, i) :: way))
    {way : Way} (hway : P way) (label : Label) (i : Nat) : ∀ ns, ∀ v ∈ walkFrom label way i ns, P v.way
  | [], v, hv => by cases hv
  | n :: ns, v, hv => by
      rw [walkFrom] at hv
      rcases List.mem_append.mp hv with hv | hv
      · exact forall_walk hstep (hstep way label i hway) n v hv
      · exact forall_walkFrom hstep hway label (i + 1) ns v hv

end

/-! ## Names that are declared -/

/-- The names in a node that a declaration at the top level declares, blank ones too. -/
def namesIn (way : Way) (n : Node) : List Node :=
  ((walk way n).filter fun v => v.node.isName && placeAt v.way == .name).map Visit.node

def namesFrom (label : Label) (way : Way) (i : Nat) (ns : List Node) : List Node :=
  ((walkFrom label way i ns).filter fun v => v.node.isName && placeAt v.way == .name).map Visit.node

theorem namesFrom_nil : namesFrom label way i [] = [] := rfl

theorem namesFrom_cons : namesFrom label way i (n :: ns) =
    namesIn ((label, i) :: way) n ++ namesFrom label way (i + 1) ns := by
  rw [namesFrom, walkFrom, List.filter_append, List.map_append]
  rfl

theorem namesIn_of_other (h : placeAt way = .other) : namesIn way n = [] := by
  have hother : ∀ v ∈ walk way n, placeAt v.way = .other :=
    forall_walk (P := fun way => placeAt way = .other)
      (fun way label i h => by rw [placeAt, h]; rfl) h n
  have hnone : (walk way n).filter (fun v => v.node.isName && placeAt v.way == .name) = [] := by
    refine List.filter_eq_nil_iff.mpr fun v hv => ?_
    rw [hother v hv, Bool.and_eq_true]
    exact fun h => nomatch h.2
  rw [namesIn, hnone, List.map_nil]

theorem namesIn_name (hname : n.isName) (h : placeAt way = .name) : namesIn way n = [n] := by
  rw [namesIn, walk_of_isName hname, List.filter_cons_of_pos (by rw [hname, h]; rfl)]
  rfl

theorem namesIn_mk {pos stop : Nat} (h : label.isMet = false) :
    namesIn way (.mk label pos stop ns) = namesFrom label way 0 ns := by
  rw [namesIn, walk_mk h]
  rfl

theorem namesFrom_of_other (h : ∀ k, i ≤ k → (placeAt way).child label k = .other) :
    namesFrom label way i ns = [] := by
  induction ns generalizing i with
  | nil => rfl
  | cons n ns ih =>
      have hfirst : placeAt ((label, i) :: way) = .other := h i (Nat.le_refl i)
      rw [namesFrom_cons, namesIn_of_other hfirst, List.nil_append]
      exact ih fun k hk => h k (Nat.le_of_succ_le hk)

/-- A node whose first so many parts are names that it declares. -/
theorem namesFrom_take {names : Nat}
    (h : ∀ k, (placeAt way).child label k = if k < names then .name else .other)
    (hnames : ∀ n ∈ ns.take (names - i), n.isName) :
    namesFrom label way i ns = ns.take (names - i) := by
  induction ns generalizing i with
  | nil => rw [List.take_nil, namesFrom_nil]
  | cons n ns ih =>
      by_cases hi : i < names
      · have hplace : placeAt ((label, i) :: way) = .name := (h i).trans (if_pos hi)
        have htake : (n :: ns).take (names - i) = n :: ns.take (names - (i + 1)) := by
          rw [show names - i = names - (i + 1) + 1 by omega, List.take_succ_cons]
        rw [htake] at hnames ⊢
        obtain ⟨hfirst, hrest⟩ := List.forall_mem_cons.mp hnames
        rw [namesFrom_cons, namesIn_name hfirst hplace, ih hrest, List.singleton_append]
      · rw [namesFrom_of_other fun k hk => (h k).trans (if_neg (by omega)),
          show names - i = 0 by omega, List.take_zero]

/-- A node of which no part is on the way to a declared name. -/
theorem namesIn_of_parts (hplace : placeAt way ≠ .name)
    (hparts : ∀ k, (placeAt way).child n.label k = .other) : namesIn way n = [] := by
  obtain ⟨label, pos, stop, ns⟩ := n
  have hvisit (v : Visit) (hv : v.way = way) :
      ([v].filter fun v => v.node.isName && placeAt v.way == .name).map Visit.node = [] := by
    rw [List.filter_cons_of_neg, List.filter_nil, List.map_nil]
    rw [hv, Bool.and_eq_true]
    exact fun h => hplace (eq_of_beq h.2)
  cases label with
  | name | importSpec =>
      rw [namesIn, walk]
      exact hvisit _ rfl
  | _ => exact (namesIn_mk rfl).trans (namesFrom_of_other fun k _ => hparts k)

theorem isName_of_nameText (h : n.nameText ≠ "") : n.isName := by
  obtain ⟨label, pos, stop, ns⟩ := n
  cases label with
  | name => rfl
  | _ => exact absurd rfl h

/-- A field declares its names. -/
theorem namesIn_field (hplace : placeAt way = .member) (hnames : ∀ name ∈ (fieldParts n).1, name.isName) :
    namesIn way n = (fieldParts n).1 := by
  obtain ⟨label, pos, stop, ns⟩ := n
  cases label with
  | field names tagged =>
      exact (namesIn_mk rfl).trans (namesFrom_take (fun k => by rw [hplace]; rfl) hnames)
  | _ =>
      refine namesIn_of_parts (by rw [hplace]; exact nofun) fun k => ?_
      rw [hplace]
      rfl

theorem namesFrom_members {first last : Nat} {fields : List Node}
    (hplace : (placeAt way).child label 0 = .members)
    (hnames : ∀ f ∈ fields, ∀ name ∈ (fieldParts f).1, name.isName) :
    namesFrom label way 0 [.mk .fieldList first last fields] = fields.flatMap fun f => (fieldParts f).1 := by
  have hfields (i : Nat) : namesFrom .fieldList ((label, 0) :: way) i fields =
      fields.flatMap fun f => (fieldParts f).1 := by
    induction fields generalizing i with
    | nil => rfl
    | cons f fields ih =>
        obtain ⟨hfirst, hrest⟩ := List.forall_mem_cons.mp hnames
        have hmember : placeAt ((.fieldList, i) :: (label, 0) :: way) = .member := by
          rw [placeAt, placeAt, hplace]
          rfl
        rw [namesFrom_cons, namesIn_field hmember hfirst, ih hrest, List.flatMap_cons]
  rw [namesFrom_cons, namesFrom_nil, List.append_nil, namesIn_mk rfl, hfields 0]

/-- The type that a declaration gives a name declares the names of its members. -/
theorem namesIn_type (hplace : placeAt way = .type) (hshaped : Shaped n)
    (hnames : ∀ f ∈ n.members, ∀ name ∈ (fieldParts f).1, name.isName) :
    namesIn way n = n.members.flatMap fun f => (fieldParts f).1 := by
  obtain ⟨label, pos, stop, ns⟩ := n
  cases label with
  | structType | interfaceType =>
      cases hshaped with
      | mk hfits _ =>
          obtain ⟨first, last, fields, rfl⟩ := hfits
          exact (namesIn_mk rfl).trans (namesFrom_members (by rw [hplace]; rfl) hnames)
  | _ =>
      refine namesIn_of_parts (by rw [hplace]; exact nofun) fun k => ?_
      rw [hplace]
      rfl

/-- Names that are among the given ones, of which the others are blank. -/
structure Covers (names given : List Node) : Prop where
  subset : given ⊆ names
  others : given.filter (·.nameText != "_") = names.filter (·.nameText != "_")

namespace Covers

theorem refl (names : List Node) : Covers names names := ⟨fun _ h => h, rfl⟩

theorem filter (names : List Node) : Covers names (names.filter (·.nameText != "_")) where
  subset := List.filter_subset_self names
  others := by rw [List.filter_filter]; simp only [Bool.and_self]

theorem append {names given names' given' : List Node} (h : Covers names given)
    (h' : Covers names' given') : Covers (names ++ names') (given ++ given') where
  subset := List.append_subset.mpr
    ⟨List.subset_append_of_subset_left _ h.subset, List.subset_append_of_subset_right _ h'.subset⟩
  others := by rw [List.filter_append, List.filter_append, h.others, h'.others]

end Covers

theorem names_declaredType {pos stop : Nat} {generic : Bool} {name type : Node} {rest : List Node} :
    (declaredType (.mk (.typeSpec generic) pos stop (name :: (rest ++ [type])))).map Declared.name =
      name :: type.members.flatMap fun f => (fieldParts f).1 := by
  have hlast : (name :: (rest ++ [type])).getLast? = some type := by
    rw [← List.cons_append]
    exact List.getLast?_concat
  rw [declaredType, Node.children, List.head?_cons, hlast]
  dsimp only
  have hmembers {make : Node → Node → Declared} (hmake : ∀ f n, (make f n).name = n) (fs : List Node) :
      (fs.flatMap fun f => (fieldParts f).1.map (make f)).map Declared.name =
        fs.flatMap fun f => (fieldParts f).1 := by
    simp only [List.map_flatMap, List.map_map, Function.comp_def, hmake, List.map_id']
  obtain ⟨label, first, last, fields⟩ := type
  cases label with
  | structType | interfaceType => exact congrArg _ (hmembers (fun _ _ => rfl) _)
  | _ => rfl

theorem namesIn_typeSpec {pos stop : Nat} {generic : Bool} (hplace : placeAt way = .spec)
    (hshaped : Shaped (.mk (.typeSpec generic) pos stop ns))
    (hnames : ∀ name ∈ (declaredType (.mk (.typeSpec generic) pos stop ns)).map Declared.name, name.isName) :
    namesIn way (.mk (.typeSpec generic) pos stop ns) =
      (declaredType (.mk (.typeSpec generic) pos stop ns)).map Declared.name := by
  cases hshaped with
  | mk hfits hchildren =>
  obtain ⟨name, type, typeParams, rfl, rfl⟩ := hfits
  rw [names_declaredType] at hnames ⊢
  obtain ⟨hname, hmembers⟩ := List.forall_mem_cons.mp hnames
  have hfirst : placeAt ((.typeSpec typeParams.isSome, 0) :: way) = .name := by
    rw [placeAt, hplace]
    rfl
  have hrest : namesFrom (.typeSpec typeParams.isSome) way 1 (typeParams.toList ++ [type]) =
      namesIn ((.typeSpec typeParams.isSome, if typeParams.isSome then 2 else 1) :: way) type := by
    cases typeParams with
    | none =>
        rw [Option.toList_none, List.nil_append, namesFrom_cons, namesFrom_nil, List.append_nil]
        rfl
    | some params =>
        have hother : placeAt ((.typeSpec true, 1) :: way) = .other := by
          rw [placeAt, hplace]
          rfl
        rw [Option.toList_some, List.singleton_append, namesFrom_cons, Option.isSome_some,
          namesIn_of_other hother, List.nil_append, namesFrom_cons, namesFrom_nil, List.append_nil]
        rfl
  have htype : placeAt ((.typeSpec typeParams.isSome, if typeParams.isSome then 2 else 1) :: way) =
      .type := by
    rw [placeAt, hplace]
    cases typeParams <;> rfl
  have hlast : Shaped type := hchildren type (List.mem_cons_of_mem _ (List.mem_append_right _ (.head _)))
  rw [namesIn_mk rfl, namesFrom_cons, namesIn_name hname hfirst, hrest, namesIn_type htype hlast]
  · rfl
  · exact fun f hf name hname => hmembers name (List.mem_flatMap.mpr ⟨f, hf, hname⟩)

theorem names_declaredValues {word : String} {names pos stop : Nat} {typed : Bool} :
    (declaredValues word names typed (.mk (.valueSpec names typed) pos stop ns)).map Declared.name =
      (ns.take names).filter (·.nameText != "_") := by
  rw [declaredValues, List.map_map]
  exact List.map_id _

/-- What a specification declares are the names in it, but for blank ones. -/
theorem covers_specDeclared {word : String} {spec : Node} (hplace : placeAt way = .spec)
    (hshaped : Shaped spec) (hnamed : ∀ d ∈ specDeclared word spec, d.name.nameText ≠ "") :
    Covers (namesIn way spec) ((specDeclared word spec).map Declared.name) := by
  have hnames (name : Node) (h : name ∈ (specDeclared word spec).map Declared.name) : name.isName := by
    obtain ⟨d, hd, rfl⟩ := List.mem_map.mp h
    exact isName_of_nameText (hnamed d hd)
  obtain ⟨label, pos, stop, ns⟩ := spec
  cases label with
  | typeSpec generic =>
      rw [namesIn_typeSpec hplace hshaped hnames]
      exact .refl _
  | valueSpec names typed =>
      have hspec : (specDeclared word (.mk (.valueSpec names typed) pos stop ns)).map Declared.name =
          (ns.take names).filter (·.nameText != "_") := names_declaredValues
      rw [hspec] at hnames ⊢
      have hchild (k : Nat) : (placeAt way).child (.valueSpec names typed) k =
          if k < names then .name else .other := by
        rw [hplace]
        rfl
      have htake : ∀ n ∈ ns.take (names - 0), n.isName := by
        intro n hn
        by_cases hblank : n.nameText = "_"
        · exact isName_of_nameText (by rw [hblank]; decide)
        · exact hnames n (List.mem_filter.mpr ⟨hn, bne_iff_ne.mpr hblank⟩)
      rw [namesIn_mk rfl, namesFrom_take hchild htake]
      exact .filter _
  | _ =>
      rw [namesIn_of_parts]
      · exact .refl []
      · rw [hplace]
        exact nofun
      · intro k
        rw [hplace]
        rfl

theorem names_declaredFunc {receiver block : Option Node} {name type : Node} {pos stop : Nat} :
    (declared (.mk (.funcDecl receiver.isSome) pos stop
      (receiver.toList ++ [name, type] ++ block.toList))).map Declared.name = [name] := by
  cases receiver with
  | none => rfl
  | some list =>
      obtain ⟨_, _, _, fields⟩ := list
      cases fields <;> rfl

theorem namesIn_funcDecl {receiver block : Option Node} {name type : Node} {pos stop : Nat}
    (hname : name.isName) :
    namesIn [] (.mk (.funcDecl receiver.isSome) pos stop
      (receiver.toList ++ [name, type] ++ block.toList)) = [name] := by
  have hbehind {i : Nat} (hi : (if receiver.isSome then 1 else 0) < i) (ns : List Node) :
      namesFrom (.funcDecl receiver.isSome) [] i ns = [] :=
    namesFrom_of_other fun k hk => if_neg (by omega)
  rw [namesIn_mk rfl]
  cases receiver with
  | none =>
      have hfirst : namesIn [(.funcDecl false, 0)] name = [name] := namesIn_name hname rfl
      rw [Option.toList_none, List.nil_append, List.cons_append, namesFrom_cons,
        hbehind (Nat.succ_pos _), List.append_nil]
      exact hfirst
  | some list =>
      have hsecond : namesIn [(.funcDecl true, 1)] name = [name] := namesIn_name hname rfl
      rw [Option.toList_some, List.singleton_append, List.cons_append, List.cons_append, namesFrom_cons,
        namesIn_of_other rfl, List.nil_append, namesFrom_cons, hbehind (Nat.lt_succ_self 1),
        List.append_nil]
      exact hsecond

/-- What a declaration declares are the names in it, but for blank ones. -/
theorem covers_declared {decl : Node} (hshaped : Shaped decl)
    (hnamed : ∀ d ∈ declared decl, d.name.nameText ≠ "") :
    Covers (namesIn [] decl) ((declared decl).map Declared.name) := by
  obtain ⟨label, pos, stop, ns⟩ := decl
  cases label with
  | genDecl word =>
      have hspecs (specs : List Node) (hshaped : ∀ spec ∈ specs, Shaped spec)
          (hnamed : ∀ d ∈ specs.flatMap (specDeclared word), d.name.nameText ≠ "") (i : Nat) :
          Covers (namesFrom (.genDecl word) [] i specs)
            ((specs.flatMap (specDeclared word)).map Declared.name) := by
        induction specs generalizing i with
        | nil => exact .refl []
        | cons spec specs ih =>
            obtain ⟨hspec, hrest⟩ := List.forall_mem_cons.mp hshaped
            rw [List.flatMap_cons] at hnamed ⊢
            obtain ⟨hfirst, hothers⟩ := List.forall_mem_append.mp hnamed
            rw [namesFrom_cons, List.map_append]
            exact (covers_specDeclared rfl hspec hfirst).append (ih hrest hothers (i + 1))
      rw [declared_genDecl] at hnamed ⊢
      rw [namesIn_mk rfl]
      exact hspecs ns hshaped.children hnamed 0
  | funcDecl method =>
      cases hshaped with
      | mk hfits _ =>
      obtain ⟨name, type, receiver, block, rfl, rfl⟩ := hfits
      have hnames := @names_declaredFunc receiver block name type pos stop
      obtain ⟨d, hd, hname⟩ : ∃ d ∈ declared (.mk (.funcDecl receiver.isSome) pos stop
          (receiver.toList ++ [name, type] ++ block.toList)), d.name = name := by
        refine List.mem_map.mp ?_
        rw [hnames]
        exact .head _
      rw [hnames, namesIn_funcDecl (isName_of_nameText (hname ▸ hnamed d hd))]
      exact .refl _
  | _ =>
      rw [namesIn_of_parts]
      · exact .refl []
      · exact nofun
      · exact fun _ => rfl

/-! ## Where visits stand in the text -/

def standingAt : Way → Standing
  | [] => .plain
  | (label, i) :: way => childStanding label (standingAt way) i

def Visit.spots (v : Visit) : List Spot :=
  if v.node.isName then (spot? (standingAt v.way) v.node.nameText v.node.pos).toList else []

mutual

theorem spots_eq_walk (way : Way) : ∀ n, spots (standingAt way) n = (walk way n).flatMap Visit.spots
  | .mk label pos stop ns => by
      have hparts := spotsFrom_eq_walk label way 0 ns
      cases label with
      | name text =>
          rw [spots, walk, List.flatMap_singleton]
          rfl
      | importSpec named => rw [spots, walk, List.flatMap_singleton]; rfl
      | _ => rw [walk_mk rfl, ← hparts, spots]; exact nofun; exact nofun

theorem spotsFrom_eq_walk (label : Label) (way : Way) (i : Nat) : ∀ ns,
    spotsFrom label (standingAt way) i ns = (walkFrom label way i ns).flatMap Visit.spots
  | [] => rfl
  | n :: ns => by
      rw [spotsFrom, walkFrom, List.flatMap_append, ← spots_eq_walk, ← spotsFrom_eq_walk]
      rfl

end

/-- How a node stands, as far as its place tells. -/
def Place.Stands (place : Place) (standing : Standing) : Prop :=
  match place with
  | members => standing = .members
  | member => standing = .member
  | name => standing = .declared
  | _ => True

theorem Place.stands_ite {p : Prop} [Decidable p] :
    Place.Stands (if p then name else other) (if p then .declared else .plain) := by
  by_cases hp : p
  · rw [if_pos hp, if_pos hp]
    rfl
  · rw [if_neg hp]
    trivial

theorem Place.stands_child {standing : Standing} (h : place.Stands standing) :
    (place.child label i).Stands (childStanding label standing i) := by
  unfold child
  split
  · exact stands_ite
  · trivial
  · exact stands_ite
  · by_cases hi : i = 0
    · rw [if_pos hi, childStanding, if_pos hi]
      rfl
    · rw [if_neg hi]
      split_ifs <;> trivial
  · rfl
  · rfl
  · exact if_pos h
  · have hmember : standing = .member := h
    rw [hmember, childStanding]
    simp only [true_and]
    exact stands_ite
  · trivial

theorem stands_placeAt (way : Way) : (placeAt way).Stands (standingAt way) := by
  induction way with
  | nil => trivial
  | cons step way ih => exact Place.stands_child ih

/-- Visits of names that stand at one place are the same visit, if one of the names is not blank. -/
theorem visit_of_pos {a b : Nat} {decls : List Node} {v w : Visit} (h : Chain a b (plainSpots decls))
    (hv : v ∈ decls.flatMap (walk [])) (hw : w ∈ decls.flatMap (walk []))
    (hname : v.isIdentifier) (hdeclared : w.node.isName ∧ placeAt w.way = .name)
    (hpos : v.node.pos = w.node.pos) : v = w := by
  have hspots : plainSpots decls = (decls.flatMap (walk [])).flatMap Visit.spots := by
    rw [List.flatMap_assoc]
    exact List.flatMap_congr fun decl _ => spots_eq_walk [] decl
  have hordered := h.pairwise
  rw [hspots, List.pairwise_flatMap] at hordered
  obtain ⟨hvname, hvtext⟩ := Bool.and_eq_true_iff.mp hname
  have hvspot : v.spots = [.name v.node.pos] := by
    rw [Visit.spots, if_pos hvname, spot?, if_pos (bne_iff_ne.mp hvtext), Option.toList_some]
  obtain ⟨spot, hspot, hspotpos⟩ : ∃ spot ∈ w.spots, spot.pos = w.node.pos := by
    have hstanding : standingAt w.way = .declared := by
      have h := stands_placeAt w.way
      rwa [hdeclared.2] at h
    rw [Visit.spots, if_pos hdeclared.1, spot?, if_pos hstanding]
    by_cases htext : w.node.nameText ≠ "_"
    · exact ⟨_, by rw [if_pos htext]; exact .head _, rfl⟩
    · exact ⟨_, by rw [if_neg htext]; exact .head _, rfl⟩
  have hapart {x y : Visit} (h : ∀ s ∈ x.spots, ∀ t ∈ y.spots, s.after ≤ t.first) :
      (x = v → y = w → False) ∧ (x = w → y = v → False) := by
    constructor
    · rintro rfl rfl
      have hle := h _ (by rw [hvspot]; exact .head _) spot hspot
      cases spot <;> simp only [Spot.after, Spot.first, Spot.pos] at hle hspotpos <;> omega
    · rintro rfl rfl
      have hle := h spot hspot _ (by rw [hvspot]; exact .head _)
      cases spot <;> simp only [Spot.after, Spot.first, Spot.pos] at hle hspotpos <;> omega
  obtain ⟨i, hi, hvi⟩ := List.mem_iff_getElem.mp hv
  obtain ⟨j, hj, hwj⟩ := List.mem_iff_getElem.mp hw
  have hbefore := List.pairwise_iff_getElem.mp hordered.2
  rcases Nat.lt_trichotomy i j with hlt | rfl | hlt
  · exact ((hapart (hbefore i j hi hj hlt)).1 hvi hwj).elim
  · exact hvi.symm.trans hwj
  · exact ((hapart (hbefore j i hj hi hlt)).2 hwj hvi).elim

/-! ## How visits are used -/

def roleAt : Way → UsageKind
  | [] => .reference
  | (label, i) :: way => childRole label (roleAt way) i

/-- The last part of a list that is split is what no separator stands behind. -/
theorem getLast?_splitOn {α : Type} [DecidableEq α] (sep : α) (xs : List α) :
    (xs.splitOn sep).getLast? = some (xs.reverse.takeWhile (· != sep)).reverse := by
  have hlast : ∀ x ∈ (xs.reverse.takeWhile (· != sep)).reverse, (x == sep) = false := by
    intro x hx
    have hother : (x != sep) = true := List.all_eq_true.mp List.all_takeWhile x (List.mem_reverse.mp hx)
    exact beq_eq_false_iff_ne.mpr (bne_iff_ne.mp hother)
  have hparts : xs = (xs.reverse.dropWhile (· != sep)).reverse ++
      (xs.reverse.takeWhile (· != sep)).reverse := by
    rw [← List.reverse_append, List.takeWhile_append_dropWhile, List.reverse_reverse]
  generalize (xs.reverse.takeWhile (· != sep)).reverse = last at hlast hparts ⊢
  have hsplit : last.splitOn sep = [last] := List.splitOnP_eq_singleton hlast
  cases hrest : xs.reverse.dropWhile (· != sep) with
  | nil =>
      rw [hrest, List.reverse_nil, List.nil_append] at hparts
      rw [hparts, hsplit, List.getLast?_singleton]
  | cons y ys =>
      have hy : (y == sep) = true := by
        have hfirst : (y != sep) = false := by
          have hhead := List.head?_dropWhile_not (· != sep) xs.reverse
          rwa [hrest] at hhead
        exact beq_iff_eq.mpr (bne_eq_false_iff_eq.mp hfirst)
      rw [hrest, List.reverse_cons, List.append_assoc, List.singleton_append] at hparts
      have hjoin : (ys.reverse ++ y :: last).splitOn sep = ys.reverse.splitOn sep ++ last.splitOn sep :=
        List.splitOnP_append_cons _ _ hy
      rw [hparts, hjoin, hsplit, List.getLast?_concat]

theorem importName_eq {named : Bool} {pos stop : Nat} :
    importName named ns = importedAs (.mk (.importSpec named) pos stop ns) := by
  cases ns with
  | nil => cases named <;> rfl
  | cons n ns =>
      cases named with
      | true => rfl
      | false =>
          obtain ⟨label, first, last, parts⟩ := n
          cases label with
          | literal path =>
              rw [importedAs, List.getLastD_eq_getLast?, getLast?_splitOn]
              rfl
          | _ => rfl

def Visit.occurrences (v : Visit) : List Occurrence :=
  if v.isImport then [⟨importedAs v.node, v.node.pos, v.node.stop, .importing⟩]
  else if v.isIdentifier then [⟨v.node.nameText, v.node.pos, v.node.stop, roleAt v.way⟩]
  else []

mutual

theorem occurrences_eq_walk (way : Way) : ∀ n,
    occurrences (roleAt way) n = (walk way n).flatMap Visit.occurrences
  | .mk label pos stop ns => by
      have hparts := occurrencesFrom_eq_walk label way 0 ns
      cases label with
      | name text =>
          rw [occurrences, walk, List.flatMap_singleton]
          have himport : (⟨way, .mk (.name text) pos stop ns⟩ : Visit).isImport = false := rfl
          have hidentifier :
              (⟨way, .mk (.name text) pos stop ns⟩ : Visit).isIdentifier = !(text == "_") := rfl
          rw [Visit.occurrences, himport, hidentifier]
          cases text == "_" <;> rfl
      | importSpec named =>
          rw [occurrences, walk, List.flatMap_singleton, importName_eq]
          rfl
      | _ => rw [walk_mk rfl, ← hparts, occurrences]; exact nofun; exact nofun

theorem occurrencesFrom_eq_walk (label : Label) (way : Way) (i : Nat) : ∀ ns,
    occurrencesFrom label (roleAt way) i ns = (walkFrom label way i ns).flatMap Visit.occurrences
  | [] => rfl
  | n :: ns => by
      rw [occurrencesFrom, walkFrom, List.flatMap_append, ← occurrences_eq_walk,
        ← occurrencesFrom_eq_walk]
      rfl

end

theorem mem_walkFrom {v : Visit} (h : v ∈ walkFrom label way i ns) :
    ∃ k n, ns[k]? = some n ∧ v ∈ walk ((label, i + k) :: way) n := by
  induction ns generalizing i with
  | nil => cases h
  | cons n ns ih =>
      rw [walkFrom] at h
      rcases List.mem_append.mp h with h | h
      · exact ⟨0, n, rfl, h⟩
      · obtain ⟨k, n', hn', hv⟩ := ih h
        refine ⟨k + 1, n', hn', ?_⟩
        rwa [Nat.add_assoc, Nat.add_comm 1] at hv

/-- A step into a node that does not select a name. -/
theorem childRole_eq_usageAt (hlabel : label ≠ .selector) (role : UsageKind) :
    childRole label role i = usageAt ((label, i) :: way) := by
  cases label with
  | call spread => cases i <;> rfl
  | selector => exact absurd rfl hlabel
  | _ => rfl

theorem childRole_selector (h : ∀ k rest, way ≠ (.selector, k + 1) :: rest) :
    childRole .selector (usageAt way) i = usageAt ((.selector, i) :: way) := by
  match i with
  | 0 => rfl
  | k + 2 => rfl
  | 1 =>
      cases way with
      | nil => rfl
      | cons step rest =>
          obtain ⟨label, j⟩ := step
          cases label with
          | selector =>
              cases j with
              | zero => rfl
              | succ k => exact absurd rfl (h k rest)
          | call spread => cases j <;> rfl
          | assign op left place => by_cases hj : j < left <;> simp [childRole, usageAt, hj]
          | _ => rfl

/-- The roles that are handed down are those that ways tell, since a name that is selected holds no
other. -/
theorem roleAt_eq_usageAt (hshaped : Shaped n) (hway : roleAt way = usageAt way)
    (hselected : ∀ k rest, way = (.selector, k + 1) :: rest → n.isName) :
    ∀ v ∈ walk way n, roleAt v.way = usageAt v.way := by
  induction hshaped generalizing way with
  | @mk label pos stop ns hfits _ ih =>
      intro v hv
      by_cases hmet : label.isMet
      · have hv : v = ⟨way, .mk label pos stop ns⟩ := by
          cases label with
          | name | importSpec => rwa [walk, List.mem_singleton] at hv
          | _ => cases hmet
        rw [hv]
        exact hway
      · rw [Bool.not_eq_true] at hmet
        rw [walk_mk hmet] at hv
        obtain ⟨k, n, hn, hv⟩ := mem_walkFrom hv
        rw [Nat.zero_add] at hv
        refine ih n (List.mem_of_getElem? hn) ?_ ?_ v hv
        · rw [roleAt, hway]
          by_cases hlabel : label = .selector
          · rw [hlabel] at hselected ⊢
            exact childRole_selector fun k rest hway => nomatch hselected k rest hway
          · exact childRole_eq_usageAt hlabel _
        · intro j rest heq
          obtain ⟨hstep, -⟩ := List.cons.inj heq
          obtain ⟨rfl, rfl⟩ := Prod.mk.inj hstep
          refine hfits n (List.mem_of_getElem? (i := j) ?_)
          rwa [List.getElem?_tail]

/-! ## What is found of a file -/

theorem contains_foldl_insert {α : Type} (f : α → Nat) (xs : List α) (set : Std.HashSet Nat) (k : Nat) :
    (xs.foldl (fun set x => set.insert (f x)) set).contains k ↔ set.contains k ∨ ∃ x ∈ xs, f x = k := by
  induction xs generalizing set with
  | nil => simp
  | cons x xs ih =>
      rw [List.foldl_cons, ih, Std.HashSet.contains_insert, List.exists_mem_cons_iff, Bool.or_eq_true,
        beq_iff_eq]
      tauto

variable {m m' : Nat} {decls : List Node}

theorem covers_decls (h : Sequence DeclRead m m' decls) :
    Covers (decls.flatMap (namesIn [])) ((decls.flatMap declared).map Declared.name) := by
  induction h with
  | nil => exact .refl []
  | cons _ hdecl _ ih =>
      rw [List.flatMap_cons, List.flatMap_cons, List.map_append]
      exact (covers_declared hdecl.read.shaped fun d hd => (hdecl.named d hd).1).append ih

theorem namesIn_flatMap (decls : List Node) : decls.flatMap (namesIn []) =
    ((decls.flatMap (walk [])).filter fun v => v.node.isName && placeAt v.way == .name).map Visit.node := by
  rw [List.filter_flatMap, List.map_flatMap]
  rfl

/-- An identifier stands where a name is declared if it is that name. -/
theorem declared_at_iff (h : Sequence DeclRead m m' decls) {v : Visit}
    (hv : v ∈ decls.flatMap (walk [])) (hname : v.isIdentifier) :
    (∃ d ∈ decls.flatMap declared, d.name.pos = v.node.pos) ↔ placeAt v.way = .name := by
  have hcovers := covers_decls h
  have hnames := namesIn_flatMap decls
  constructor
  · rintro ⟨d, hd, hpos⟩
    have hmem := hcovers.subset (List.mem_map_of_mem hd)
    rw [hnames] at hmem
    obtain ⟨w, hw, hwd⟩ := List.mem_map.mp hmem
    obtain ⟨hw, hplace⟩ := List.mem_filter.mp hw
    rw [Bool.and_eq_true, beq_iff_eq] at hplace
    have hread : Chain m m' (plainSpots decls) := (h.imp fun _ _ _ h => h.read).readAll.chain
    have heq : v = w := visit_of_pos hread hv hw hname hplace (by rw [hwd, hpos])
    rw [heq]
    exact hplace.2
  · intro hplace
    obtain ⟨hisName, hblank⟩ := Bool.and_eq_true_iff.mp hname
    have hmem : v.node ∈ decls.flatMap (namesIn []) := by
      rw [hnames]
      refine List.mem_map_of_mem (List.mem_filter.mpr ⟨hv, ?_⟩)
      rw [hisName, hplace]
      rfl
    have hother : v.node ∈ (decls.flatMap (namesIn [])).filter (·.nameText != "_") :=
      List.mem_filter.mpr ⟨hmem, hblank⟩
    rw [← hcovers.others] at hother
    obtain ⟨d, hd, hdv⟩ := List.mem_map.mp (List.mem_filter.mp hother).1
    exact ⟨d, hd, by rw [hdv]⟩

theorem usageAt_ne_importing (way : Way) : usageAt way ≠ .importing := by
  unfold usageAt
  split
  · exact nofun
  · exact nofun
  · split <;> exact nofun
  · exact nofun
  · exact nofun

/-- The walk reaches a visit from a declaration with all its names in their places. -/
theorem roleAt_of_mem (h : Sequence DeclRead m m' decls) {v : Visit} (hv : v ∈ decls.flatMap (walk [])) :
    roleAt v.way = usageAt v.way := by
  obtain ⟨decl, hdecl, hv⟩ := List.mem_flatMap.mp hv
  obtain ⟨_, _, -, hread, -⟩ := h.exists_of_mem (fun _ _ _ h => h.read.le) hdecl
  have hroot : roleAt [] = usageAt [] := rfl
  exact roleAt_eq_usageAt hread.read.shaped hroot nofun v hv

theorem outline_symbols {file : SourceFile} {table : LineTable} {lines : Array String}
    (h : Sequence DeclRead m m' file.decls) :
    ((outline file table lines).symbols.filter (·.name != "_")).map (fun s => (s.name, s.first)) =
      ((file.decls.flatMap (walk [])).filter Visit.isDefinition).map
        fun v => (v.node.nameText, table.position v.node.pos) := by
  have hsymbols : (outline file table lines).symbols.map (fun s => (s.name, s.first)) =
      ((file.decls.flatMap declared).map Declared.name).map
        fun n => (n.nameText, table.position n.pos) := by
    rw [outline, List.map_map, List.map_map]
    rfl
  have hvisits : ((file.decls.flatMap (walk [])).filter Visit.isDefinition).map Visit.node =
      (file.decls.flatMap (namesIn [])).filter (·.nameText != "_") := by
    rw [namesIn_flatMap, List.filter_map, List.filter_filter]
    congr 1
    refine List.filter_congr fun v _ => ?_
    rw [Visit.isDefinition, Visit.isIdentifier, Function.comp_apply, Bool.and_assoc, Bool.and_left_comm]
  calc ((outline file table lines).symbols.filter (·.name != "_")).map (fun s => (s.name, s.first))
    _ = ((outline file table lines).symbols.map fun s => (s.name, s.first)).filter (·.1 != "_") := by
      rw [List.filter_map]
      rfl
    _ = (((file.decls.flatMap declared).map Declared.name).filter (·.nameText != "_")).map
          fun n => (n.nameText, table.position n.pos) := by
      rw [hsymbols, List.filter_map]
      rfl
    _ = ((file.decls.flatMap (walk [])).filter Visit.isDefinition).map
          fun v => (v.node.nameText, table.position v.node.pos) := by
      rw [(covers_decls h).others, ← hvisits, List.map_map]
      rfl

/-- A visit occurs as what it is used as, unless a name is declared where it stands. -/
theorem kept_occurrences {defined : Nat → Bool} {v : Visit} (hrole : roleAt v.way = usageAt v.way)
    (hdefined : v.isIdentifier → defined v.node.pos = (placeAt v.way == .name)) :
    (v.occurrences.filter fun o => o.kind == .importing || !defined o.pos) =
      if v.isUsage then [⟨v.usedAs, v.node.pos, v.node.stop, v.kind⟩] else [] := by
  unfold Visit.occurrences Visit.isUsage Visit.usedAs Visit.kind
  cases himport : v.isImport with
  | true => rfl
  | false =>
      cases hname : v.isIdentifier with
      | false => rfl
      | true =>
          have hkind : (usageAt v.way == .importing) = false :=
            beq_eq_false_iff_ne.mpr (usageAt_ne_importing v.way)
          simp only [hrole, hkind, hdefined hname, List.filter_cons, List.filter_nil, Bool.false_or,
            Bool.true_and, Bool.false_eq_true, if_false, if_true, bne]

theorem outline_usages {file : SourceFile} {table : LineTable} {lines : Array String}
    (h : Sequence DeclRead m m' file.decls) :
    (outline file table lines).usages.map
        (fun u => (u.name, u.location.first, u.location.last, u.kind)) =
      ((file.decls.flatMap (walk [])).filter Visit.isUsage).map fun v =>
        (v.usedAs, table.position v.node.pos, table.position v.node.stop, v.kind) := by
  have hfound : file.decls.flatMap (occurrences .reference) =
      (file.decls.flatMap (walk [])).flatMap Visit.occurrences := by
    rw [List.flatMap_assoc]
    exact List.flatMap_congr fun decl _ => occurrences_eq_walk [] decl
  let set : Std.HashSet Nat :=
    (file.decls.flatMap declared).foldl (fun set d => set.insert d.name.pos) {}
  have hdefined (v : Visit) (hv : v ∈ file.decls.flatMap (walk [])) (hname : v.isIdentifier) :
      set.contains v.node.pos = (placeAt v.way == .name) := by
    rw [Bool.eq_iff_iff, contains_foldl_insert (fun d : Declared => d.name.pos), beq_iff_eq,
      ← declared_at_iff h hv hname]
    simp
  have hkept : (file.decls.flatMap (occurrences .reference)).filter
      (fun o => o.kind == .importing || !set.contains o.pos) =
      ((file.decls.flatMap (walk [])).filter Visit.isUsage).map
        fun v => ⟨v.usedAs, v.node.pos, v.node.stop, v.kind⟩ := by
    rw [hfound, List.filter_flatMap, ← List.flatMap_singleton' (file.decls.flatMap (walk [])),
      List.filter_flatMap, List.map_flatMap, List.flatMap_singleton']
    refine List.flatMap_congr fun v hv => ?_
    rw [kept_occurrences (roleAt_of_mem h hv) (hdefined v hv), List.filter_cons, List.filter_nil]
    split <;> rfl
  rw [outline, List.map_map]
  dsimp only
  rw [hkept, List.map_map]
  rfl

/-- In any text that is read as a file, the identifiers that declarations at the top level declare are the
symbols that are found, and all others and the imports are the usages, each once and in the order of a
walk; blank identifiers are neither. -/
theorem extract_splits_identifiers {content : List UInt8} {found : Extraction}
    (h : extract? (glyphsOfBytes content) = some found) :
    ∃ file, (parseFile (glyphsOfBytes content)).file = some file ∧
      Splits (parseFile (glyphsOfBytes content)).table.position (file.decls.flatMap (walk [])) found := by
  unfold extract? at h
  dsimp only at h
  split at h
  · cases h
  · next file hfile =>
      obtain ⟨-, -, m, m', hdecls, -⟩ := sequence_parseFile (fun _ => width_pos_of_mem_glyphsOfBytes) hfile
      split at h
      · cases h
      · obtain rfl := Option.some.inj h
        exact ⟨file, hfile, outline_symbols hdecls, outline_usages hdecls⟩

def methodText : String :=
  "package a\nimport \"x/y\"\ntype T struct\x7bn int\x7d\nfunc (t T) f() \x7by.g(t.n);_=n\x7d\n"

/-- A call of an imported function in a method of a type. -/
theorem identifiers_of_method : ∃ found, extract? (glyphsOfBytes (bytesOfText methodText)) = some found ∧
    (∃ file, (parseFile (glyphsOfBytes (bytesOfText methodText))).file = some file ∧
      Splits (parseFile (glyphsOfBytes (bytesOfText methodText))).table.position
        (file.decls.flatMap (walk [])) found) ∧
    found.usages.map (fun u => (u.name, u.kind)) =
      [("y", .importing), ("int", .reference), ("t", .reference), ("T", .reference), ("y", .reference),
        ("g", .call), ("t", .reference), ("n", .reference), ("n", .reference)] := by
  obtain ⟨found, hfound⟩ : ∃ found, extract? (glyphsOfBytes (bytesOfText methodText)) = some found :=
    Option.isSome_iff_exists.mp (by decide +kernel)
  obtain ⟨file, hfile, hsplits⟩ := extract_splits_identifiers hfound
  have hwalk : (parseFile (glyphsOfBytes (bytesOfText methodText))).file.map (fun file =>
      ((file.decls.flatMap (walk [])).filter Visit.isUsage).map fun v => (v.usedAs, v.kind)) = some
      [("y", .importing), ("int", .reference), ("t", .reference), ("T", .reference), ("y", .reference),
        ("g", .call), ("t", .reference), ("n", .reference), ("n", .reference)] := by
    decide +kernel
  rw [hfile, Option.map_some, Option.some.injEq] at hwalk
  refine ⟨found, hfound, ⟨file, hfile, hsplits⟩, ?_⟩
  have husages := congrArg (List.map fun u => (u.1, u.2.2.2)) hsplits.usages
  rw [List.map_map, List.map_map] at husages
  exact husages.trans hwalk

end CodeAtlas.Source
