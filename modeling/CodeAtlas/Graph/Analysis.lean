import CodeAtlas.Graph.Basic
import Std.Data.HashMap
import Std.Data.HashSet

/-!
What is said about a graph as a whole.

Cycles.  Every node that has not been seen starts a search in depth; meeting a node of the current
path closes a cycle and ends that search, so at most one cycle is found from each start.

Layers.  A layer holds the nodes that no other remaining node points at; when every remaining node is
pointed at, all of them form the last layer.
-/

namespace CodeAtlas

namespace SymbolGraph

/-! ### Cycles -/

def successors (targets : Std.HashMap String (List String)) (id : String) : List String :=
  sorted (targets.getD id []).eraseDups

/-- The part of a path, given back to front, from `id` on. -/
def cycleFrom (id : String) (path : List String) : List String :=
  (path.takeWhile (· != id) ++ [id]).reverse

/-- Goes through the neighbours of the last node of a path, which is given back to front.  `visit`
searches on from a new node. -/
def scan (visit : Std.HashSet String → String → Std.HashSet String × Option (List String))
    (path : List String) :
    Std.HashSet String → List String → Std.HashSet String × Option (List String)
  | seen, [] => (seen, none)
  | seen, next :: rest =>
      if seen.contains next then
        if path.contains next then (seen, some (cycleFrom next path)) else scan visit path seen rest
      else
        match visit seen next with
        | (seen, some cycle) => (seen, some cycle)
        | (seen, none) => scan visit path seen rest

/-- Searches from a new node at the end of a path, which may still grow by `room` nodes. -/
def visit (targets : Std.HashMap String (List String)) : (room : Nat) → (path : List String) →
    Std.HashSet String → String → Std.HashSet String × Option (List String)
  | 0, _, seen, _ => (seen, none)
  | room + 1, path, seen, id =>
      scan (visit targets room (id :: path)) (id :: path) (seen.insert id) (successors targets id)

def searchAll (targets : Std.HashMap String (List String)) (room : Nat) :
    Std.HashSet String → List String → List (List String)
  | _, [] => []
  | seen, id :: rest =>
      if seen.contains id then searchAll targets room seen rest
      else
        match visit targets room [] seen id with
        | (seen, some cycle) => cycle :: searchAll targets room seen rest
        | (seen, none) => searchAll targets room seen rest

def cycles (g : SymbolGraph) : List (List String) :=
  searchAll g.targets g.nodes.length ∅ g.nodeIds

/-! ### Layers -/

def countPointers (edges : List (String × String)) : Std.HashMap String Nat :=
  edges.foldl (fun pointers e => pointers.insert e.2 (pointers.getD e.2 0 + 1)) ∅

/-- The numbers of edges that point at each node when a node with the given targets is gone. -/
def withoutPointers (pointers : Std.HashMap String Nat) (targets : List String) :
    Std.HashMap String Nat :=
  targets.foldl (fun pointers id => pointers.insert id (pointers.getD id 0 - 1)) pointers

/-- Peels layer after layer off the remaining nodes; `pointers` tells how many edges from remaining
nodes point at a node, and `room` bounds the number of layers. -/
def peel (targets : Std.HashMap String (List String)) : (room : Nat) → (remaining : List String) →
    (pointers : Std.HashMap String Nat) → List (List String)
  | 0, _, _ => []
  | room + 1, remaining, pointers =>
      if remaining.isEmpty then []
      else
        let (free, rest) := remaining.partition fun id => pointers.getD id 0 == 0
        if free.isEmpty then [remaining]
        else free :: peel targets room rest
          (free.foldl (fun pointers id => withoutPointers pointers (targets.getD id [])) pointers)

def layers (g : SymbolGraph) : List (List String) :=
  peel g.targets g.nodes.length g.nodeIds (countPointers (g.edges.map fun e => (e.source, e.target)))

end SymbolGraph

structure Analysis where
  totalNodes : Nat
  totalEdges : Nat
  cycles : List (List String)
  layers : List (List String)
  coupling : List (String × Coupling)
  deriving DecidableEq, Repr, Inhabited

def SymbolGraph.analyze (g : SymbolGraph) : Analysis where
  totalNodes := g.nodes.length
  totalEdges := g.edgeCount
  cycles := g.cycles
  layers := g.layers
  coupling := g.coupling

end CodeAtlas
