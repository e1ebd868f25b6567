import CodeAtlas.Graph.Analysis
import CodeAtlas.Proofs.Graph.WellFormed
import Mathlib.Data.List.Chain
import Mathlib.Data.String.Basic

/-!
# Walks along edges

A directed cycle is a list of nodes of which each points at the next and the last at the first. Whether
a node is on a cycle can also be told from reachability alone.
-/

namespace CodeAtlas.SymbolGraph

open Relation (TransGen ReflTransGen)

/-- An edge leads from one node to another. -/
def Points (g : SymbolGraph) (a b : String) : Prop := ∃ e ∈ g.edges, e.source = a ∧ e.target = b

def IsCycle (g : SymbolGraph) : List String → Prop
  | [] => False
  | first :: rest => (first :: (rest ++ [first])).IsChain g.Points

instance (g : SymbolGraph) (a b : String) : Decidable (g.Points a b) :=
  inferInstanceAs (Decidable (∃ e ∈ g.edges, e.source = a ∧ e.target = b))

instance (g : SymbolGraph) : (cycle : List String) → Decidable (g.IsCycle cycle)
  | [] => .isFalse id
  | first :: rest => inferInstanceAs (Decidable ((first :: (rest ++ [first])).IsChain g.Points))

def Acyclic (g : SymbolGraph) : Prop := ∀ cycle, ¬g.IsCycle cycle

/-- A node that lies on a cycle or can be reached from one. -/
def Behind (g : SymbolGraph) (id : String) : Prop :=
  ∃ cycle, g.IsCycle cycle ∧ ∃ c ∈ cycle, ReflTransGen g.Points c id

variable {g : SymbolGraph} {a b id : String}

theorem IsCycle.around {first : String} {rest : List String} (h : g.IsCycle (first :: rest))
    (hid : id ∈ first :: rest) : TransGen g.Points first id ∧ TransGen g.Points id first := by
  have hchain : (first :: (rest ++ [first])).IsChain (TransGen g.Points) :=
    List.IsChain.imp (fun _ _ => .single) h
  obtain ⟨hfirst, hrest⟩ := List.pairwise_cons.mp hchain.pairwise
  rcases List.mem_cons.mp hid with rfl | hmem
  · exact ⟨hfirst id (by simp), hfirst id (by simp)⟩
  · exact ⟨hfirst id (by simp [hmem]), (List.pairwise_append.mp hrest).2.2 id hmem first (by simp)⟩

/-- Every node of a cycle reaches every node of it. -/
theorem IsCycle.transGen {cycle : List String} (h : g.IsCycle cycle) (ha : a ∈ cycle)
    (hb : b ∈ cycle) : TransGen g.Points a b := by
  cases cycle with
  | nil => cases ha
  | cons first rest => exact (h.around ha).2.trans (h.around hb).1

theorem exists_cycle_of_transGen (h : TransGen g.Points id id) :
    ∃ cycle, g.IsCycle cycle ∧ id ∈ cycle := by
  obtain ⟨next, hnext, hback⟩ := Relation.TransGen.head'_iff.mp h
  obtain ⟨rest, hchain, hlast⟩ := List.exists_isChain_cons_of_relationReflTransGen hback
  refine ⟨id :: (next :: rest).dropLast, ?_, by simp⟩
  have hwhole : (next :: rest).dropLast ++ [id] = next :: rest := by
    rw [← hlast]
    exact List.dropLast_append_getLast _
  rw [IsCycle, hwhole]
  exact .cons_cons hnext hchain

theorem behind_iff : g.Behind id ↔ ∃ c, TransGen g.Points c c ∧ ReflTransGen g.Points c id := by
  constructor
  · rintro ⟨cycle, hcycle, c, hc, hreach⟩
    exact ⟨c, hcycle.transGen hc hc, hreach⟩
  · rintro ⟨c, honCycle, hreach⟩
    obtain ⟨cycle, hcycle, hc⟩ := exists_cycle_of_transGen honCycle
    exact ⟨cycle, hcycle, c, hc, hreach⟩

theorem Behind.step (h : g.Behind a) (hab : g.Points a b) : g.Behind b := by
  obtain ⟨cycle, hcycle, c, hc, hreach⟩ := h
  exact ⟨cycle, hcycle, c, hc, hreach.tail hab⟩

/-- What lies on a cycle or can be reached from one is pointed at by such a node. -/
theorem Behind.exists_points (h : g.Behind id) : ∃ a, g.Behind a ∧ g.Points a id := by
  obtain ⟨c, honCycle, hreach⟩ := behind_iff.mp h
  obtain ⟨a, hca, ha⟩ := Relation.TransGen.tail'_iff.mp (honCycle.trans_left hreach)
  exact ⟨a, behind_iff.mpr ⟨c, honCycle, hca⟩, ha⟩

theorem acyclic_iff : g.Acyclic ↔ ∀ id, ¬g.Behind id := by
  constructor
  · rintro h id ⟨cycle, hcycle, -⟩
    exact h cycle hcycle
  · intro h cycle hcycle
    cases cycle with
    | nil => exact hcycle
    | cons first rest => exact h first ⟨_, hcycle, first, by simp, .refl⟩

/-! ## Nodes and their successors in order -/

theorem sorted_eq_self {texts : List String} (h : texts.Pairwise (· ≤ ·)) : sorted texts = texts :=
  List.mergeSort_of_pairwise (h.imp fun hle => by simpa using hle)

theorem mem_nodeIds : id ∈ g.nodeIds ↔ g.hasNode id = true := by
  rw [nodeIds, mem_sorted, hasNode_iff]

theorem WellFormed.nodup_nodeIds (h : g.WellFormed) : g.nodeIds.Nodup :=
  (List.mergeSort_perm _ _).nodup_iff.mpr h.nodesOnce

theorem WellFormed.mem_of_points (h : g.WellFormed) (hab : g.Points a b) :
    a ∈ g.nodeIds ∧ b ∈ g.nodeIds := by
  obtain ⟨e, he, rfl, rfl⟩ := hab
  rw [mem_nodeIds, mem_nodeIds]
  exact h.ends e he

theorem successors_eq (g : SymbolGraph) (id : String) :
    successors g.targets id = sorted ((g.dependencies id).map (·.target)).eraseDups := by
  rw [successors, getD_targets]

theorem mem_successors : b ∈ successors g.targets a ↔ g.Points a b := by
  rw [successors_eq, mem_sorted, List.mem_eraseDups]
  simp [dependencies, Points, and_assoc]

end CodeAtlas.SymbolGraph
