import CodeAtlas.Proofs.Source.Reading
import CodeAtlas.Source.Outline
import Mathlib.Data.List.Flatten

/-!
# The names of a tree stand where they were read

A node that is read between two moments holds names that stand between them, each behind the one
before it. The blank name takes up a spot only where a name is declared: elsewhere one is made up at
the place of what follows it.
-/

namespace CodeAtlas.Source

/-- What a name takes up of a text: a name that is written there, or the place where one is declared
blank, which may hold a token of another kind. -/
inductive Spot where
  | name (pos : Nat)
  | blank (pos : Nat)
  deriving DecidableEq, Repr

namespace Spot

def pos : Spot → Nat
  | name pos => pos
  | blank pos => pos

/-- The last moment at which the spot is still to be read. -/
def first : Spot → Nat
  | name pos => 2 * pos
  | blank pos => 2 * pos + 1

/-- The first moment at which the spot has been read. -/
def after : Spot → Nat
  | name pos => 2 * pos + 2
  | blank pos => 2 * pos + 1

theorem first_le_after (spot : Spot) : spot.first ≤ spot.after := by
  cases spot <;> simp only [first, after] <;> omega

end Spot

/-- Spots that are read one after the other between two moments. -/
def Chain (lo hi : Nat) : List Spot → Prop
  | [] => lo ≤ hi
  | spot :: rest => lo ≤ spot.first ∧ Chain spot.after hi rest

namespace Chain

variable {a b c : Nat} {xs ys : List Spot}

theorem le (h : Chain a b xs) : a ≤ b := by
  induction xs generalizing a with
  | nil => exact h
  | cons x xs ih => exact Nat.le_trans h.1 (Nat.le_trans x.first_le_after (ih h.2))

theorem mono_left (h : Chain b c xs) (hab : a ≤ b) : Chain a c xs := by
  cases xs with
  | nil => exact Nat.le_trans hab h
  | cons x xs => exact ⟨Nat.le_trans hab h.1, h.2⟩

theorem mono_right (h : Chain a b xs) (hbc : b ≤ c) : Chain a c xs := by
  induction xs generalizing a with
  | nil => exact Nat.le_trans h hbc
  | cons x xs ih => exact ⟨h.1, ih h.2⟩

theorem append (hxs : Chain a b xs) (hys : Chain b c ys) : Chain a c (xs ++ ys) := by
  induction xs generalizing a with
  | nil => exact hys.mono_left hxs
  | cons x xs ih => exact ⟨hxs.1, ih hxs.2⟩

theorem split (h : Chain a c (xs ++ ys)) : ∃ b, Chain a b xs ∧ Chain b c ys := by
  induction xs generalizing a with
  | nil => exact ⟨a, Nat.le_refl a, h⟩
  | cons x xs ih =>
      obtain ⟨b, hxs, hys⟩ := ih h.2
      exact ⟨b, ⟨h.1, hxs⟩, hys⟩

theorem sublist (h : Chain a b ys) (hsub : xs.Sublist ys) : Chain a b xs := by
  induction hsub generalizing a with
  | slnil => exact h
  | cons y _ ih => exact (ih h.2).mono_left (Nat.le_trans h.1 y.first_le_after)
  | cons_cons y _ ih => exact ⟨h.1, ih h.2⟩

theorem le_first (h : Chain a b xs) {spot : Spot} (hmem : spot ∈ xs) : a ≤ spot.first := by
  have hone := h.sublist (List.singleton_sublist.mpr hmem)
  exact hone.1

/-- Each spot has been read before the next one. -/
theorem pairwise (h : Chain a b xs) : xs.Pairwise fun x y => x.after ≤ y.first := by
  induction xs generalizing a with
  | nil => exact .nil
  | cons x xs ih => exact .cons (fun y hy => h.2.le_first hy) (ih h.2)

end Chain

/-! ## Where names are declared -/

/-- How a node stands in the node that holds it: as a list of members, a member, a name that is
declared, or anything else. -/
inductive Standing where
  | plain
  | members
  | member
  | declared
  deriving DecidableEq, Repr

def childStanding (label : Label) (standing : Standing) (i : Nat) : Standing :=
  match label with
  | .funcDecl method => if i = (if method then 1 else 0) then .declared else .plain
  | .typeSpec _ => if i = 0 then .declared else .plain
  | .valueSpec names _ => if i < names then .declared else .plain
  | .structType | .interfaceType => .members
  | .fieldList => if standing = .members then .member else .plain
  | .field names _ => if standing = .member ∧ i < names then .declared else .plain
  | _ => .plain

/-- The spot that a name takes up. -/
def spot? (standing : Standing) (text : String) (pos : Nat) : Option Spot :=
  if text ≠ "_" then some (.name pos)
  else if standing = .declared then some (.blank pos)
  else none

mutual

/-- The spots in a node, in the order of the text. -/
def spots (standing : Standing) : Node → List Spot
  | .mk (.name text) pos _ _ => (spot? standing text pos).toList
  | .mk (.importSpec _) _ _ _ => []
  | .mk label _ _ children => spotsFrom label standing 0 children

def spotsFrom (label : Label) (standing : Standing) (i : Nat) : List Node → List Spot
  | [] => []
  | child :: rest =>
      spots (childStanding label standing i) child ++ spotsFrom label standing (i + 1) rest

end

theorem spotsFrom_append (label : Label) (standing : Standing) (i : Nat) (xs ys : List Node) :
    spotsFrom label standing i (xs ++ ys) =
      spotsFrom label standing i xs ++ spotsFrom label standing (i + xs.length) ys := by
  induction xs generalizing i with
  | nil => rfl
  | cons x xs ih =>
      rw [List.cons_append, spotsFrom, spotsFrom, ih, List.append_assoc, List.length_cons,
        Nat.add_assoc, Nat.add_comm 1]

/-- Children that all stand alike. -/
theorem spotsFrom_eq {label : Label} {standing same : Standing} {i : Nat} {ns : List Node}
    (h : ∀ k < ns.length, childStanding label standing (i + k) = same) :
    spotsFrom label standing i ns = ns.flatMap (spots same) := by
  induction ns generalizing i with
  | nil => rfl
  | cons n ns ih =>
      have hfirst : childStanding label standing i = same := h 0 (Nat.succ_pos _)
      have hrest : ∀ k < ns.length, childStanding label standing (i + 1 + k) = same := by
        intro k hk
        rw [Nat.succ_add_eq_add_succ]
        exact h (k + 1) (Nat.succ_lt_succ hk)
      rw [spotsFrom, List.flatMap_cons, hfirst, ih hrest]

/-- The spots of nodes that stand next to each other and declare nothing as a whole. -/
def plainSpots (ns : List Node) : List Spot := ns.flatMap (spots .plain)

theorem plainSpots_append (xs ys : List Node) : plainSpots (xs ++ ys) = plainSpots xs ++ plainSpots ys :=
  List.flatMap_append

theorem plainSpots_singleton (n : Node) : plainSpots [n] = spots .plain n :=
  List.flatMap_singleton _ _

theorem plainSpots_cons (n : Node) (ns : List Node) :
    plainSpots (n :: ns) = spots .plain n ++ plainSpots ns :=
  List.flatMap_cons

/-- Children of which the first so many are names that are declared. -/
theorem spotsFrom_names {label : Label} {standing : Standing} {names rest : List Node}
    (hnames : ∀ k < names.length, childStanding label standing k = .declared)
    (hrest : ∀ k, names.length ≤ k → childStanding label standing k = .plain) :
    spotsFrom label standing 0 (names ++ rest) =
      names.flatMap (spots .declared) ++ plainSpots rest := by
  rw [spotsFrom_append, spotsFrom_eq fun k hk => by rw [Nat.zero_add, hnames k hk],
    spotsFrom_eq fun k _ => hrest _ (by omega)]
  rfl

/-- Whether a walk meets a node and does not go on to its children. -/
def Label.isMet : Label → Bool
  | .name _ | .importSpec _ => true
  | _ => false

theorem spots_mk {label : Label} (h : label.isMet = false) (standing : Standing) (pos stop : Nat)
    (ns : List Node) : spots standing (.mk label pos stop ns) = spotsFrom label standing 0 ns := by
  cases label with
  | name | importSpec => cases h
  | _ => rfl

theorem spots_importSpec (standing : Standing) {named : Bool} {pos stop : Nat} {ns : List Node} :
    spots standing (.mk (.importSpec named) pos stop ns) = [] := rfl

/-- Whether the children of a node that stands plainly stand so too, and may be any nodes. -/
def Label.isPlain : Label → Bool
  | .name _ | .selector | .importSpec _ | .funcDecl _ | .typeSpec _ | .valueSpec _ _ | .structType
  | .interfaceType => false
  | _ => true

theorem spots_of_isPlain {label : Label} (h : label.isPlain) (pos stop : Nat) (ns : List Node) :
    spots .plain (.mk label pos stop ns) = plainSpots ns := by
  have hchild (k : Nat) : childStanding label .plain k = .plain := by
    cases label with
    | name | selector | importSpec | funcDecl | typeSpec | valueSpec | structType | interfaceType =>
        cases h
    | field names tagged => simp [childStanding]
    | _ => rfl
  have hmet : label.isMet = false := by
    cases label with
    | name | importSpec => cases h
    | _ => rfl
  rw [spots_mk hmet, spotsFrom_eq fun k _ => hchild _]
  rfl

/-! ## Nodes that have been read -/

def Node.members (n : Node) : List Node :=
  match n.label with
  | .structType | .interfaceType => memberFields n
  | _ => []

/-- A name with a text that stands before the given place. -/
def NamedBefore (stop : Nat) (name : Node) : Prop := name.nameText ≠ "" ∧ name.pos ≤ stop

/-- A field whose names stand before its end. -/
def FieldNamed (f : Node) : Prop := ∀ name ∈ (fieldParts f).1, NamedBefore f.stop name

def Label.isField : Label → Bool
  | .field _ _ => true
  | _ => false

/-- A node that stops behind a moment, as do all nodes in it but the parts of a field, whose blank
names are made up. -/
inductive Ends (m : Nat) : Node → Prop where
  | mk {label : Label} {pos stop : Nat} {ns : List Node} (hstop : Parse.Reached m stop)
      (hchildren : label.isField = false → ∀ n ∈ ns, Ends m n) :
      Ends m (.mk label pos stop ns)

variable {a b c d : Nat} {x y : Node} {xs ys : List Node}

theorem Parse.Reached.mono {place : Nat} (h : Parse.Reached b place) (hab : a ≤ b) :
    Parse.Reached a place :=
  Nat.le_trans hab h

namespace Ends

theorem stop (h : Ends a x) : Parse.Reached a x.stop := by
  cases h with
  | mk hstop => exact hstop

theorem children (h : Ends a x) (hfield : x.label.isField = false) : ∀ n ∈ x.children, Ends a n := by
  cases h with
  | mk _ hchildren => exact hchildren hfield

theorem mono (h : Ends b x) (hab : a ≤ b) : Ends a x := by
  induction h with
  | mk hstop _ ih => exact .mk (hstop.mono hab) ih

end Ends

/-- What stands in a node, where the parts of a declaration or of a name are to be told apart. -/
def Label.Fits (label : Label) (ns : List Node) : Prop :=
  match label with
  | .selector => ∀ n ∈ ns.tail, n.isName
  | .structType | .interfaceType => ∃ pos stop fields, ns = [.mk .fieldList pos stop fields]
  | .typeSpec generic => ∃ (name type : Node) (typeParams : Option Node),
      ns = name :: (typeParams.toList ++ [type]) ∧ typeParams.isSome = generic
  | .funcDecl method => ∃ (name type : Node) (receiver block : Option Node),
      ns = receiver.toList ++ [name, type] ++ block.toList ∧ receiver.isSome = method
  | _ => True

theorem Label.fits_of_isPlain {label : Label} (h : label.isPlain) (ns : List Node) : label.Fits ns := by
  cases label with
  | selector | funcDecl | typeSpec | structType | interfaceType => cases h
  | _ => trivial

/-- A tree whose nodes hold what their labels say. -/
inductive Shaped : Node → Prop where
  | mk {label : Label} {pos stop : Nat} {ns : List Node} (hfits : label.Fits ns)
      (hchildren : ∀ n ∈ ns, Shaped n) : Shaped (.mk label pos stop ns)

theorem Shaped.children (h : Shaped x) : ∀ n ∈ x.children, Shaped n := by
  cases h with
  | mk _ hchildren => exact hchildren

/-- A node that has been read between two moments. -/
structure Read (m m' : Nat) (n : Node) : Prop where
  chain : Chain m m' (spots .plain n)
  ends : Ends m n
  shaped : Shaped n
  members : ∀ f ∈ n.members, FieldNamed f

/-- A node whose names have been read between two moments, and that was begun at an earlier one. -/
structure ReadSince (e m m' : Nat) (n : Node) : Prop where
  chain : Chain m m' (spots .plain n)
  ends : Ends e n
  shaped : Shaped n
  members : ∀ f ∈ n.members, FieldNamed f

/-- Nodes that have been read one after the other. -/
structure ReadAll (m m' : Nat) (ns : List Node) : Prop where
  chain : Chain m m' (plainSpots ns)
  ends : ∀ n ∈ ns, Ends m n
  shaped : ∀ n ∈ ns, Shaped n

namespace Read

theorem mono (h : Read b c x) (hab : a ≤ b) (hcd : c ≤ d) : Read a d x where
  chain := (h.chain.mono_left hab).mono_right hcd
  ends := h.ends.mono hab
  shaped := h.shaped
  members := h.members

theorem le (h : Read a b x) : a ≤ b := h.chain.le

theorem stop (h : Read a b x) : Parse.Reached a x.stop := h.ends.stop

theorem all (h : Read a b x) : ReadAll a b [x] where
  chain := by
    rw [plainSpots_singleton]
    exact h.chain
  ends := by
    intro n hn
    exact List.mem_singleton.mp hn ▸ h.ends
  shaped := by
    intro n hn
    exact List.mem_singleton.mp hn ▸ h.shaped

theorem since (h : Read b c x) (hab : a ≤ b) : ReadSince a b c x :=
  ⟨h.chain, h.ends.mono hab, h.shaped, h.members⟩

end Read

namespace ReadSince

theorem mono (h : ReadSince a b c x) (hcd : c ≤ d) : ReadSince a b d x :=
  ⟨h.chain.mono_right hcd, h.ends, h.shaped, h.members⟩

theorem read (h : ReadSince a a b x) : Read a b x := ⟨h.chain, h.ends, h.shaped, h.members⟩

theorem le (h : ReadSince a b c x) : b ≤ c := h.chain.le

end ReadSince

namespace ReadAll

theorem nil (hab : a ≤ b) : ReadAll a b [] := ⟨hab, nofun, nofun⟩

theorem le (h : ReadAll a b xs) : a ≤ b := h.chain.le

theorem mono (h : ReadAll b c xs) (hab : a ≤ b) (hcd : c ≤ d) : ReadAll a d xs where
  chain := (h.chain.mono_left hab).mono_right hcd
  ends n hn := (h.ends n hn).mono hab
  shaped := h.shaped

theorem append (hxs : ReadAll a b xs) (hys : ReadAll b c ys) : ReadAll a c (xs ++ ys) where
  chain := by
    rw [plainSpots_append]
    exact hxs.chain.append hys.chain
  ends n hn := (List.mem_append.mp hn).elim (hxs.ends n) fun h => (hys.ends n h).mono hxs.le
  shaped n hn := (List.mem_append.mp hn).elim (hxs.shaped n) (hys.shaped n)

theorem cons (hx : Read a b x) (hys : ReadAll b c ys) : ReadAll a c (x :: ys) :=
  hx.all.append hys

theorem sublist (h : ReadAll a b ys) (hsub : xs.Sublist ys) : ReadAll a b xs where
  chain := h.chain.sublist (hsub.flatMap _)
  ends n hn := h.ends n (hsub.subset hn)
  shaped n hn := h.shaped n (hsub.subset hn)

theorem lastStop (h : ReadAll a b xs) {place : Nat} (hplace : Parse.Reached a place) :
    Parse.Reached a (Node.lastStop xs place) := by
  unfold Node.lastStop
  cases hlast : xs.getLast? with
  | none => exact hplace
  | some n => exact (h.ends n (List.mem_of_getLast? hlast)).stop

end ReadAll

theorem Read.node {label : Label} (hlabel : label.isPlain) {pos stop : Nat} (h : ReadAll a b xs)
    (hstop : Parse.Reached a stop) : Read a b (.mk label pos stop xs) where
  chain := by
    rw [spots_of_isPlain hlabel]
    exact h.chain
  ends := .mk hstop fun _ => h.ends
  shaped := .mk (Label.fits_of_isPlain hlabel xs) h.shaped
  members := by
    cases label with
    | structType | interfaceType => cases hlabel
    | _ => exact nofun

theorem ReadAll.single (h : ReadAll a b [x]) (hlabel : x.label.isPlain) : Read a b x where
  chain := by
    have hchain := h.chain
    rwa [plainSpots_singleton] at hchain
  ends := h.ends x (List.mem_singleton.mpr rfl)
  shaped := h.shaped x (List.mem_singleton.mpr rfl)
  members := by
    obtain ⟨label, pos, stop, children⟩ := x
    cases label with
    | structType | interfaceType => cases hlabel
    | _ => exact nofun

/-- A node that holds nothing. -/
theorem Read.leaf {label : Label} (hlabel : label.isPlain) {pos stop : Nat} (hab : a ≤ b)
    (hstop : Parse.Reached a stop) : Read a b (.mk label pos stop []) :=
  .node hlabel (.nil hab) hstop

theorem Sequence.readAll (h : Sequence Read a b xs) : ReadAll a b xs := by
  induction h with
  | nil hab => exact .nil hab
  | cons hab hx _ ih => exact (ReadAll.cons hx ih).mono hab (Nat.le_refl _)

theorem Sequence.single (h : Sequence Read a b [x]) : Read a b x := by
  cases h with
  | cons hab hx hxs =>
      cases hxs with
      | nil hcb => exact hx.mono hab hcb

/-- What stands in a node has been read with it. -/
theorem Read.children (h : Read a b x) (hlabel : x.label.isPlain)
    (hfield : x.label.isField = false) : ReadAll a b x.children where
  chain := by
    cases x with
    | mk label pos stop ns =>
        have hplain : label.isPlain := hlabel
        have hchain := h.chain
        rwa [spots_of_isPlain hplain] at hchain
  ends := h.ends.children hfield
  shaped := h.shaped.children

/-! ## Names that have been read -/

/-- A name that has been read, or the blank name made up for want of one. -/
structure Named (m m' : Nat) (n : Node) : Prop where
  made : n = .ofName n.pos n.nameText
  text : n.nameText ≠ ""
  chain : Chain m m' (spots .declared n)

theorem spots_ofName (standing : Standing) (pos : Nat) (text : String) :
    spots standing (.ofName pos text) = (spot? standing text pos).toList := by
  rw [Node.ofName, spots]

namespace Named

theorem mono (h : Named b c x) (hab : a ≤ b) (hcd : c ≤ d) : Named a d x where
  made := h.made
  text := h.text
  chain := (h.chain.mono_left hab).mono_right hcd

theorem spot (h : Named a b x) : ∃ spot : Spot, spots .declared x = [spot] ∧ spot.pos = x.pos := by
  rw [h.made, spots_ofName]
  by_cases htext : x.nameText ≠ "_"
  · exact ⟨.name x.pos, by rw [spot?, if_pos htext, Option.toList_some], rfl⟩
  · exact ⟨.blank x.pos, by rw [spot?, if_neg htext, if_pos rfl, Option.toList_some], rfl⟩

theorem le (h : Named a b x) : a ≤ b := h.chain.le

theorem reached (h : Named a b x) : Parse.Reached a x.pos := by
  obtain ⟨spot, hspot, hpos⟩ := h.spot
  have hchain := h.chain
  rw [hspot] at hchain
  unfold Parse.Reached
  cases spot <;> simp only [Chain, Spot.first, Spot.pos] at hchain hpos <;> omega

theorem before (h : Named a b x) : 2 * x.pos + 1 ≤ b := by
  obtain ⟨spot, hspot, hpos⟩ := h.spot
  have hchain := h.chain
  rw [hspot] at hchain
  cases spot <;> simp only [Chain, Spot.after, Spot.pos] at hchain hpos <;> omega

theorem pos_le_stop (h : Named a b x) : x.pos ≤ x.stop := by
  rw [h.made]
  exact Nat.le_add_right _ _

theorem isName (h : Named a b x) : x.isName := by
  rw [h.made]
  rfl

theorem read (h : Named a b x) : Read a b x where
  chain := by
    refine h.chain.sublist ?_
    rw [h.made, spots_ofName, spots_ofName]
    by_cases htext : x.nameText ≠ "_"
    · rw [spot?, spot?, if_pos htext, if_pos htext]
    · rw [spot?, if_neg htext, if_neg nofun]
      exact List.nil_sublist _
  ends := by
    have hstop : Parse.Reached a x.stop := Nat.le_trans h.reached (by have := h.pos_le_stop; omega)
    rw [h.made] at hstop ⊢
    exact .mk hstop nofun
  shaped := by
    rw [h.made]
    exact .mk trivial nofun
  members := by
    rw [h.made]
    exact nofun

end Named

/-- Names that have been read one after the other. -/
theorem Sequence.declared (h : Sequence Named a b xs) : Chain a b (xs.flatMap (spots .declared)) := by
  induction h with
  | nil hab => exact hab
  | cons hab hx _ ih => exact (hx.chain.mono_left hab).append ih

/-- Names stand before a place that is reached after them. -/
theorem Sequence.namedBefore {a b stop : Nat} {names : List Node} (h : Sequence Named a b names)
    (hstop : Parse.Reached b stop) : ∀ name ∈ names, NamedBefore stop name := by
  intro name hname
  obtain ⟨c, d, -, hnamed, hd⟩ := h.exists_of_mem (fun _ _ _ h => h.le) hname
  have hbefore := hnamed.before
  unfold Parse.Reached at hstop
  exact ⟨hnamed.text, by omega⟩

end CodeAtlas.Source
