import CodeAtlas.Proofs.Graph.Peeling
import CodeAtlas.Proofs.Text.Glyphs
import Mathlib.Data.Fintype.Pigeonhole
import Mathlib.Data.Set.Finite.List
import Mathlib.Order.Bounds.Defs

/-!
# Layers as lengths of paths

Nothing behind a cycle is ever free, and where no remaining node is free all of them are behind a cycle:
so the last layer has what is behind cycles, if there is such a node. Of the other nodes, each one is
pointed at from earlier layers only, and from the layer right before its own. So its layer is the number
of edges of the longest path that ends at it.
-/

namespace CodeAtlas.SymbolGraph

open Relation (TransGen ReflTransGen)

variable {g : SymbolGraph} {remaining : List String} {layers : List (List String)} {i j : Nat}
  {a b id : String}

/-- A node is in the layer with a number. -/
def At (layers : List (List String)) (i : Nat) (id : String) : Prop :=
  ∃ layer, layers[i]? = some layer ∧ id ∈ layer

/-- A directed path that ends at a node, without this node. -/
def PathTo (g : SymbolGraph) (path : List String) (id : String) : Prop :=
  (path ++ [id]).IsChain g.Points ∧ (path ++ [id]).Nodup

/-! ## What is left when nothing is free -/

/-- Going back from pointer to pointer within a list of nodes runs into a cycle. -/
theorem behind_of_pointed (hall : ∀ k ∈ remaining, ∃ a ∈ remaining, g.Points a k)
    (hid : id ∈ remaining) : g.Behind id := by
  choose source hsource hpoints using hall
  let back (k : {k // k ∈ remaining}) : {k // k ∈ remaining} := ⟨source k k.2, hsource k k.2⟩
  let walk (n : Nat) : {k // k ∈ remaining} := back^[n] ⟨id, hid⟩
  have hstep (n : Nat) : g.Points (walk (n + 1)) (walk n) := by
    have hnext : walk (n + 1) = back (walk n) := Function.iterate_succ_apply' back n _
    rw [hnext]
    exact hpoints (walk n) (walk n).2
  have hreach (m n : Nat) : ReflTransGen g.Points (walk (m + n)) (walk m) := by
    induction n with
    | zero => exact .refl
    | succ n ih => exact ih.head (hstep (m + n))
  have hagain : ∃ m n, m < n ∧ walk m = walk n := by
    have : Finite {k // k ∈ remaining} := (List.finite_toSet remaining).to_subtype
    obtain ⟨m, n, hne, heq⟩ := Finite.exists_ne_map_eq_of_infinite walk
    rcases Nat.lt_or_gt_of_ne hne with hless | hless
    · exact ⟨m, n, hless, heq⟩
    · exact ⟨n, m, hless, heq.symm⟩
  obtain ⟨m, n, hless, heq⟩ := hagain
  obtain ⟨k, rfl⟩ := Nat.exists_eq_add_of_lt hless
  have hround : TransGen g.Points (walk m) (walk m) := by
    have hback := Relation.TransGen.head' (hstep (m + k)) (hreach m k)
    rwa [← heq] at hback
  have hto := hreach 0 m
  rw [Nat.zero_add] at hto
  exact behind_iff.mpr ⟨walk m, hround, hto⟩

theorem Peels.last_behind (h : Peels g remaining layers) (hall : ∀ k, g.Behind k → k ∈ remaining)
    (hid : g.Behind id) : ∃ last, layers.getLast? = some last ∧ ∀ k, k ∈ last ↔ g.Behind k := by
  induction h with
  | done => cases hall id hid
  | @last remaining _ hpointed =>
      refine ⟨remaining, rfl, fun k => ⟨fun hk => ?_, hall k⟩⟩
      exact behind_of_pointed (fun k hk => pointed_iff.mp (hpointed k hk)) hk
  | @round remaining layers _ _ ih =>
      obtain ⟨last, hlast, hbehind⟩ := ih fun k hk => by
        obtain ⟨a, ha, hak⟩ := hk.exists_points
        exact List.mem_filter.mpr ⟨hall k hk, pointed_iff.mpr ⟨a, hall a ha, hak⟩⟩
      exact ⟨last, by simp [List.getLast?_cons, hlast], hbehind⟩

/-! ## What is in which layer -/

theorem at_zero_cons {layer : List String} : At (layer :: layers) 0 id ↔ id ∈ layer := by
  simp [At]

theorem at_succ_cons {layer : List String} : At (layer :: layers) (i + 1) id ↔ At layers i id := by
  simp [At]

theorem Peels.perm (h : Peels g remaining layers) : layers.flatten.Perm remaining := by
  induction h with
  | done => exact .refl _
  | last => simp
  | @round remaining layers _ _ ih =>
      rw [List.flatten_cons]
      refine (ih.append_left _).trans (List.perm_append_comm.trans ?_)
      exact List.filter_append_perm _ remaining

theorem Peels.ne_nil (h : Peels g remaining layers) : ∀ layer ∈ layers, layer ≠ [] := by
  induction h with
  | done => simp
  | last hsome _ => simpa using hsome
  | round hfree _ ih => exact List.forall_mem_cons.mpr ⟨hfree, ih⟩

theorem Peels.sublist (h : Peels g remaining layers) : ∀ layer ∈ layers, layer.Sublist remaining := by
  induction h with
  | done => simp
  | last => simp
  | round _ _ ih =>
      exact List.forall_mem_cons.mpr ⟨List.filter_sublist,
        fun layer hlayer => (ih layer hlayer).trans List.filter_sublist⟩

theorem exists_at_iff : (∃ i, At layers i id) ↔ id ∈ layers.flatten := by
  simp only [At, List.mem_flatten]
  constructor
  · rintro ⟨i, layer, hlayer, hid⟩
    exact ⟨layer, List.mem_of_getElem? hlayer, hid⟩
  · rintro ⟨layer, hlayer, hid⟩
    obtain ⟨i, hi⟩ := List.getElem?_of_mem hlayer
    exact ⟨i, layer, hi, hid⟩

theorem Peels.exists_at (h : Peels g remaining layers) : (∃ i, At layers i id) ↔ id ∈ remaining := by
  rw [exists_at_iff, h.perm.mem_iff]

theorem At.unique (hdisjoint : layers.Pairwise List.Disjoint) (hi : At layers i id)
    (hj : At layers j id) : i = j := by
  obtain ⟨one, hone, hid⟩ := hi
  obtain ⟨other, hother, hid'⟩ := hj
  obtain ⟨hi, rfl⟩ := List.getElem?_eq_some_iff.mp hone
  obtain ⟨hj, rfl⟩ := List.getElem?_eq_some_iff.mp hother
  have hapart := List.pairwise_iff_getElem.mp hdisjoint
  rcases Nat.lt_trichotomy i j with hless | heq | hless
  · exact absurd hid' (hapart i j hi hj hless hid)
  · exact heq
  · exact absurd hid (hapart j i hj hi hless hid')

/-- In the last round of a peeling that stops with a whole layer, all that is left is behind a cycle. -/
theorem behind_of_at_last (hpointed : ∀ k ∈ remaining, g.pointed remaining k = true)
    (hid : At [remaining] i id) : g.Behind id := by
  obtain ⟨layer, hlayer, hmem⟩ := hid
  obtain rfl := List.mem_singleton.mp (List.mem_of_getElem? hlayer)
  exact behind_of_pointed (fun k hk => pointed_iff.mp (hpointed k hk)) hmem

/-- What is not behind a cycle is pointed at from earlier layers only. -/
theorem Peels.earlier (h : Peels g remaining layers) (hid : At layers i id) (hclear : ¬g.Behind id)
    (ha : a ∈ remaining) (hpoints : g.Points a id) : ∃ j < i, At layers j a := by
  induction h generalizing i with
  | done => simp at ha
  | last _ hpointed => exact absurd (behind_of_at_last hpointed hid) hclear
  | @round remaining layers _ hrest ih =>
      have hpointed : g.pointed remaining id = true := pointed_iff.mpr ⟨a, ha, hpoints⟩
      cases i with
      | zero =>
          obtain ⟨-, hfreeId⟩ := List.mem_filter.mp (at_zero_cons.mp hid)
          simp [hpointed] at hfreeId
      | succ i =>
          -- the pointer is free in this round, or it remains for the rounds after it
          cases hfreeA : g.pointed remaining a with
          | false => exact ⟨0, by omega, at_zero_cons.mpr (by simp [ha, hfreeA])⟩
          | true =>
              obtain ⟨j, hj, hat⟩ := ih (at_succ_cons.mp hid) (by simp [ha, hfreeA])
              exact ⟨j + 1, by omega, at_succ_cons.mpr hat⟩

/-- What is not behind a cycle, and not in the first layer, is pointed at from the layer right before
its own. -/
theorem Peels.before (h : Peels g remaining layers) (hid : At layers (i + 1) id)
    (hclear : ¬g.Behind id) : ∃ a, g.Points a id ∧ At layers i a := by
  induction h generalizing i with
  | done => simp [At] at hid
  | last _ hpointed => exact absurd (behind_of_at_last hpointed hid) hclear
  | @round remaining layers _ hrest ih =>
      have hid := at_succ_cons.mp hid
      cases i with
      | zero =>
          -- a node that becomes free in the next round had a pointer until now, and lost it
          have hmem := hrest.exists_at.mp ⟨0, hid⟩
          obtain ⟨a, ha, hpoints⟩ := pointed_iff.mp (List.mem_filter.mp hmem).2
          refine ⟨a, hpoints, at_zero_cons.mpr ?_⟩
          cases hfreeA : g.pointed remaining a with
          | false => simp [ha, hfreeA]
          | true =>
              obtain ⟨j, hj, -⟩ := hrest.earlier hid hclear (by simp [ha, hfreeA]) hpoints
              omega
      | succ i =>
          obtain ⟨a, hpoints, hat⟩ := ih hid
          exact ⟨a, hpoints, at_succ_cons.mpr hat⟩

/-! ## Paths -/

theorem nodup_of_isChain {path : List String} (hclear : ¬g.Behind id)
    (hchain : (path ++ [id]).IsChain g.Points) : (path ++ [id]).Nodup := by
  have hpairwise : (path ++ [id]).Pairwise (TransGen g.Points) :=
    (hchain.imp fun _ _ => .single).pairwise
  refine hpairwise.imp_of_mem fun {a b} ha _ hab heq => hclear ?_
  subst heq
  refine behind_iff.mpr ⟨a, hab, ?_⟩
  rcases List.mem_append.mp ha with ha | ha
  · exact ((List.pairwise_append.mp hpairwise).2.2 a ha id (by simp)).to_reflTransGen
  · obtain rfl := List.mem_singleton.mp ha
    exact .refl

/-- No path to a node is longer than the number of its layer: it climbs at every edge. -/
theorem Peels.length_le (h : Peels g remaining layers) (hall : ∀ a b, g.Points a b → a ∈ remaining)
    {path : List String} (hid : At layers i id) (hclear : ¬g.Behind id)
    (hchain : (path ++ [id]).IsChain g.Points) : path.length ≤ i := by
  induction path using List.reverseRecOn generalizing i id with
  | nil => simp
  | append_singleton path a ih =>
      rw [List.append_assoc, List.singleton_append, List.isChain_append_cons_cons] at hchain
      obtain ⟨hbefore, hpoints, -⟩ := hchain
      obtain ⟨j, hj, hat⟩ := h.earlier hid hclear (hall a id hpoints) hpoints
      have hshort := ih hat (fun hbehind => hclear (hbehind.step hpoints)) hbefore
      rw [List.length_append, List.length_singleton]
      omega

theorem Peels.exists_path (h : Peels g remaining layers) (hid : At layers i id)
    (hclear : ¬g.Behind id) : ∃ path, (path ++ [id]).IsChain g.Points ∧ path.length = i := by
  induction i generalizing id with
  | zero => exact ⟨[], by simp, rfl⟩
  | succ i ih =>
      obtain ⟨a, hpoints, hat⟩ := h.before hid hclear
      obtain ⟨path, hchain, hlength⟩ := ih hat fun hbehind => hclear (hbehind.step hpoints)
      refine ⟨path ++ [a], ?_, by simp [hlength]⟩
      rw [List.append_assoc, List.singleton_append, List.isChain_append_cons_cons]
      exact ⟨hchain, hpoints, .singleton id⟩

theorem Peels.isGreatest (h : Peels g remaining layers) (hall : ∀ a b, g.Points a b → a ∈ remaining)
    (hid : At layers i id) (hclear : ¬g.Behind id) :
    IsGreatest {n | ∃ path, g.PathTo path id ∧ path.length = n} i := by
  obtain ⟨path, hchain, hlength⟩ := h.exists_path hid hclear
  refine ⟨⟨path, ⟨hchain, nodup_of_isChain hclear hchain⟩, hlength⟩, ?_⟩
  rintro n ⟨other, hother, rfl⟩
  exact h.length_le hall hid hclear hother.1

/-! ## Edges between layers -/

/-- An edge leads to a later layer, or stays in the last one. -/
theorem Peels.forward (h : Peels g remaining layers) (honce : remaining.Nodup)
    (hall : ∀ a b, g.Points a b → a ∈ remaining ∧ b ∈ remaining) (hab : g.Points a b)
    (ha : At layers i a) (hb : At layers j b) :
    i < j ∨ (g.Behind b ∧ i + 1 = layers.length ∧ j + 1 = layers.length) := by
  have hdisjoint := (List.nodup_flatten.mp (h.perm.nodup_iff.mpr honce)).2
  by_cases hbehind : g.Behind b
  · have hinside : ∀ k, g.Behind k → k ∈ remaining := fun k hk => by
      obtain ⟨a, -, hak⟩ := hk.exists_points
      exact (hall a k hak).2
    obtain ⟨last, hlast, hmem⟩ := h.last_behind hinside hbehind
    rw [List.getLast?_eq_getElem?] at hlast
    have hpos : i < layers.length := by
      obtain ⟨layer, hlayer, -⟩ := ha
      exact (List.getElem?_eq_some_iff.mp hlayer).1
    have hj := hb.unique hdisjoint ⟨last, hlast, (hmem b).mpr hbehind⟩
    by_cases hequal : i = layers.length - 1
    · exact .inr ⟨hbehind, by omega, by omega⟩
    · exact .inl (by omega)
  · obtain ⟨k, hk, hat⟩ := h.earlier hb hbehind (hall a b hab).1 hab
    exact .inl (ha.unique hdisjoint hat ▸ hk)

/-! ## The layers of a graph -/

/-- What the layers of a graph are. -/
structure Layered (g : SymbolGraph) (layers : List (List String)) : Prop where
  nonempty : ∀ layer ∈ layers, layer ≠ []
  ordered : ∀ layer ∈ layers, layer.Pairwise fun a b => bytesOfText a < bytesOfText b
  disjoint : layers.Pairwise List.Disjoint
  covering : ∀ id, (∃ layer ∈ layers, id ∈ layer) ↔ g.hasNode id = true
  level : ∀ id, g.hasNode id = true → ¬g.Behind id →
    ∃ i, At layers i id ∧ IsGreatest {n | ∃ path, g.PathTo path id ∧ path.length = n} i
  last : (∃ id, g.Behind id) →
    ∃ last, layers.getLast? = some last ∧ ∀ id, id ∈ last ↔ g.Behind id
  forward : ∀ a b i j, g.Points a b → At layers i a → At layers j b →
    i < j ∨ (i + 1 = layers.length ∧ j + 1 = layers.length)
  acyclic : (∀ a b i j, g.Points a b → At layers i a → At layers j b → i < j) ↔ g.Acyclic

theorem WellFormed.ordered_nodeIds (h : g.WellFormed) :
    g.nodeIds.Pairwise fun a b => bytesOfText a < bytesOfText b := by
  have hsorted : g.nodeIds.Pairwise (· ≤ ·) := pairwise_sorted _
  exact hsorted.imp₂ (fun _ _ hle hne => bytesOfText_lt (lt_of_le_of_ne hle hne)) h.nodup_nodeIds

theorem At.lt_of_transGen (hforward : ∀ a b i j, g.Points a b → At layers i a → At layers j b → i < j)
    (hcovering : ∀ a b, g.Points a b → ∃ i, At layers i a) (hab : TransGen g.Points a b)
    (ha : At layers i a) (hb : At layers j b) : i < j := by
  induction hab generalizing j with
  | single hab => exact hforward _ _ _ _ hab ha hb
  | tail _ hcb ih =>
      obtain ⟨k, hc⟩ := hcovering _ _ hcb
      exact (ih hc).trans (hforward _ _ _ _ hcb hc hb)

theorem WellFormed.layered (h : g.WellFormed) (hpeels : Peels g g.nodeIds layers) :
    g.Layered layers := by
  have hinside : ∀ a b, g.Points a b → a ∈ g.nodeIds ∧ b ∈ g.nodeIds := fun _ _ => h.mem_of_points
  have hforward : ∀ a b i j, g.Points a b → At layers i a → At layers j b →
      i < j ∨ (g.Behind b ∧ i + 1 = layers.length ∧ j + 1 = layers.length) :=
    fun _ _ _ _ => hpeels.forward h.nodup_nodeIds hinside
  have hcovering (id : String) : (∃ i, At layers i id) ↔ id ∈ g.nodeIds := hpeels.exists_at
  refine
    { nonempty := hpeels.ne_nil
      ordered := fun layer hlayer => h.ordered_nodeIds.sublist (hpeels.sublist layer hlayer)
      disjoint := (List.nodup_flatten.mp (hpeels.perm.nodup_iff.mpr h.nodup_nodeIds)).2
      covering := fun id => ?covering
      level := fun id hid hclear => ?level
      last := fun ⟨id, hbehind⟩ => hpeels.last_behind (fun k hk => ?inside) hbehind
      forward := fun a b i j hab ha hb => (hforward a b i j hab ha hb).imp_right And.right
      acyclic := ⟨fun hstrict => ?cycles, fun hacyclic a b i j hab ha hb => ?edges⟩ }
  case covering => rw [← mem_nodeIds, ← hcovering, exists_at_iff, List.mem_flatten]
  case level =>
    obtain ⟨i, hat⟩ := (hcovering id).mpr (mem_nodeIds.mpr hid)
    exact ⟨i, hat, hpeels.isGreatest (fun a b hab => (hinside a b hab).1) hat hclear⟩
  case inside =>
    obtain ⟨a, -, hak⟩ := hk.exists_points
    exact (hinside a k hak).2
  case cycles =>
    intro cycle hcycle
    obtain ⟨id, hid⟩ := List.exists_mem_of_ne_nil cycle fun hnil => by simp [hnil, IsCycle] at hcycle
    have hround := hcycle.transGen hid hid
    obtain ⟨next, hnext, -⟩ := Relation.TransGen.head'_iff.mp hround
    obtain ⟨i, hat⟩ := (hcovering id).mpr (hinside id next hnext).1
    exact absurd (At.lt_of_transGen hstrict (fun a b hab => (hcovering a).mpr (hinside a b hab).1)
      hround hat hat) (lt_irrefl i)
  case edges =>
    exact (hforward a b i j hab ha hb).resolve_right fun hlast => acyclic_iff.mp hacyclic b hlast.1

/-- The peeling comes to its end by itself with one outcome, and its layers are levels: the layer of a
node is the length of the longest path to it, and what lies behind cycles is the last layer. -/
theorem layers_are_levels (calls : List GraphCall) :
    (∀ layers, Peels (after calls) (after calls).nodeIds layers ↔ layers = (after calls).layers) ∧
      (after calls).Layered (after calls).layers := by
  have hformed := (records_after calls).wellFormed
  exact ⟨fun layers => hformed.peels_iff, hformed.layered (hformed.peels_iff.mpr rfl)⟩

end CodeAtlas.SymbolGraph
