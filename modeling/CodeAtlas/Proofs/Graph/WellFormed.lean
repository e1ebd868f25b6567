import CodeAtlas.Proofs.Graph.Merging
import CodeAtlas.Proofs.List.Basic
import Mathlib.Data.String.Basic

/-!
# Graphs that calls make

Nodes and observations may come in any order, and nodes may come again. What holds of every graph that
comes up follows from one fact: its edges are what the recorded observations merge to, and both ends
of a recorded observation are nodes, then and ever after.
-/

namespace CodeAtlas

/-- A call that changes a graph. -/
inductive GraphCall where
  | addNode (n : Node)
  | addLink (l : Link)

namespace SymbolGraph

def call (g : SymbolGraph) : GraphCall → SymbolGraph
  | .addNode n => g.addNode n
  | .addLink l => (g.addLink l).1

/-- The graph that calls make, beginning with none. -/
def after (calls : List GraphCall) : SymbolGraph := calls.foldl call empty

/-- The observation that a call records, if it does. -/
def recorded (g : SymbolGraph) : GraphCall → List Link
  | .addNode _ => []
  | .addLink l => if (g.addLink l).2 then [l] else []

/-- The observations that calls record, one call after the other. -/
def ledger : SymbolGraph → List GraphCall → List Link
  | _, [] => []
  | g, c :: rest => g.recorded c ++ ledger (g.call c) rest

/-- The pairs of different files, where both nodes of an edge have to be found. -/
def filePairs? (g : SymbolGraph) : Option (List (String × String)) := do
  let pairs ← g.edges.mapM fun e => do
    let source ← g.node? e.source
    let target ← g.node? e.target
    some (source.fileId, target.fileId)
  some (pairs.filter fun p => p.1 != p.2)

/-- What holds of every graph. -/
structure WellFormed (g : SymbolGraph) : Prop where
  nodesOnce : (g.nodes.map (·.symbolId)).Nodup
  ends : ∀ e ∈ g.edges, g.hasNode e.source = true ∧ g.hasNode e.target = true
  distinctEnds : ∀ e ∈ g.edges, e.source ≠ e.target
  relationsOnce : (g.edges.map fun e => (e.source, e.target, e.kind)).Nodup
  strength : ∀ e ∈ g.edges, 0 ≤ e.strength ∧ e.strength ≤ 1
  found : g.filePairs? = some g.filePairs
  dependents : ∀ id, ∀ e ∈ g.dependents id, e.target = id ∧ g.hasNode e.source = true

/-- The identifiers that edges lead from, in order. -/
def sources (g : SymbolGraph) : List String := sorted (g.edges.map (·.source)).eraseDups

/-- A table has the edges of a graph, each list under the source of its edges. The edges that point at an
identifier come up when the table is gone through by its sorted keys. -/
structure Tabulates (table : String → List Edge) (g : SymbolGraph) : Prop where
  lists : ∀ key, table key = g.dependencies key
  keyed : ∀ key, ∀ e ∈ table key, e.source = key
  dependents : ∀ id, g.dependents id = g.sources.flatMap fun key => (table key).filter (·.target == id)

/-- The edges of a graph are what some observations merge to, and both ends of each of them are
different nodes. -/
structure Records (g : SymbolGraph) (links : List Link) : Prop where
  nodesOnce : (g.nodes.map (·.symbolId)).Nodup
  edges : g.edges = merged links
  ends : ∀ l ∈ links, g.hasNode l.source = true ∧ g.hasNode l.target = true
  distinctEnds : ∀ l ∈ links, l.source ≠ l.target

variable {g : SymbolGraph} {links : List Link}

theorem mem_sorted {id : String} {texts : List String} : id ∈ sorted texts ↔ id ∈ texts := List.mem_mergeSort

theorem pairwise_sorted (texts : List String) : (sorted texts).Pairwise (· ≤ ·) := pairwise_mergeSort_by id texts

theorem hasNode_iff {id : String} : g.hasNode id = true ↔ id ∈ g.nodes.map (·.symbolId) := by
  simp [hasNode]

theorem exists_node_of_hasNode {id : String} (h : g.hasNode id = true) :
    ∃ n, g.node? id = some n := by
  exact Option.isSome_iff_exists.mp (List.find?_isSome.mpr (by simpa [hasNode] using h))

theorem length_dependencies (g : SymbolGraph) (id : String) :
    (g.dependencies id).length = g.edges.countP (·.source == id) :=
  List.countP_eq_length_filter.symm

theorem getD_targets (g : SymbolGraph) (id : String) :
    g.targets.getD id [] = (g.dependencies id).map (·.target) := by
  unfold targets dependencies
  induction g.edges with
  | nil => simp
  | cons e rest ih =>
      rw [List.foldr_cons, Std.HashMap.getD_insert, List.filter_cons]
      by_cases hsource : e.source = id
      · subst hsource
        simp [ih]
      · simp [hsource, ih]

theorem ids_addNode (g : SymbolGraph) (n : Node) :
    (g.addNode n).nodes.map (·.symbolId) =
      if g.hasNode n.symbolId then g.nodes.map (·.symbolId)
      else g.nodes.map (·.symbolId) ++ [n.symbolId] := by
  unfold addNode
  split
  · rw [List.map_map]
    refine List.map_congr_left fun m _ => ?_
    by_cases hsame : m.symbolId = n.symbolId <;> simp [hsame]
  · simp

theorem edges_addNode (g : SymbolGraph) (n : Node) : (g.addNode n).edges = g.edges := by
  unfold addNode
  split <;> rfl

theorem hasNode_addNode {n : Node} {id : String} :
    (g.addNode n).hasNode id = true ↔ g.hasNode id = true ∨ id = n.symbolId := by
  rw [hasNode_iff, ids_addNode]
  split
  · rename_i hold
    rw [← hasNode_iff]
    exact ⟨.inl, fun h => h.elim (fun hmem => hmem) fun heq => heq ▸ hold⟩
  · rw [List.mem_append, List.mem_singleton, hasNode_iff]

/-- An observation is recorded, it is passed over, or an end of it is missing. -/
theorem addLink_cases (g : SymbolGraph) (l : Link) :
    (l.source ≠ l.target ∧ g.hasNode l.source = true ∧ g.hasNode l.target = true ∧
      g.addLink l = ({ g with edges := absorbLink l g.edges }, true)) ∨
    (l.source = l.target ∧ g.addLink l = (g, false)) ∨
    ((g.hasNode l.source && g.hasNode l.target) = false ∧
      g.addLink l = ({ g with dropped := g.dropped + 1 }, false)) := by
  unfold addLink
  split
  · rename_i hsame
    exact .inr (.inl ⟨by simpa using hsame, rfl⟩)
  · rename_i hends
    split
    · rename_i hnodes
      rw [Bool.and_eq_true] at hnodes
      exact .inl ⟨by simpa using hends, hnodes.1, hnodes.2, rfl⟩
    · rename_i hmissing
      exact .inr (.inr ⟨by simpa using hmissing, rfl⟩)

/-- An observation is recorded if and only if it relates two different nodes. -/
theorem addLink_snd_iff (l : Link) : (g.addLink l).2 = true ↔
    l.source ≠ l.target ∧ g.hasNode l.source = true ∧ g.hasNode l.target = true := by
  rcases addLink_cases g l with ⟨hne, hsource, htarget, heq⟩ | ⟨hsame, heq⟩ | ⟨hmissing, heq⟩
  · simp [heq, hne, hsource, htarget]
  · simp [heq, hsame]
  · simpa [heq] using fun _ hsource => by simpa [hsource] using hmissing

theorem records_empty : empty.Records [] where
  nodesOnce := by simp [empty]
  edges := rfl
  ends := by simp
  distinctEnds := by simp

theorem Records.addNode (h : g.Records links) (n : Node) : (g.addNode n).Records links where
  nodesOnce := by
    rw [ids_addNode]
    split
    · exact h.nodesOnce
    · rename_i hnew
      rw [← List.concat_eq_append]
      exact h.nodesOnce.concat (mt hasNode_iff.mpr hnew)
  edges := (edges_addNode g n).trans h.edges
  ends l hl := ⟨hasNode_addNode.mpr (.inl (h.ends l hl).1), hasNode_addNode.mpr (.inl (h.ends l hl).2)⟩
  distinctEnds := h.distinctEnds

theorem Records.of_same (h : g.Records links) (g' : SymbolGraph)
    (hnodes : g'.nodes.map (·.symbolId) = g.nodes.map (·.symbolId)) (hedges : g'.edges = g.edges) :
    g'.Records links where
  nodesOnce := hnodes ▸ h.nodesOnce
  edges := hedges.trans h.edges
  ends l hl := by
    rw [hasNode_iff, hasNode_iff, hnodes, ← hasNode_iff, ← hasNode_iff]
    exact h.ends l hl
  distinctEnds := h.distinctEnds

theorem Records.record (h : g.Records links) {l : Link} (hne : l.source ≠ l.target)
    (hsource : g.hasNode l.source = true) (htarget : g.hasNode l.target = true) :
    Records { g with edges := absorbLink l g.edges } (links ++ [l]) where
  nodesOnce := h.nodesOnce
  edges := by rw [merged_append, ← h.edges]
  ends k hk := by
    rcases List.mem_append.mp hk with hk | hk
    · exact h.ends k hk
    · obtain rfl := List.mem_singleton.mp hk
      exact ⟨hsource, htarget⟩
  distinctEnds k hk := by
    rcases List.mem_append.mp hk with hk | hk
    · exact h.distinctEnds k hk
    · exact List.mem_singleton.mp hk ▸ hne

theorem Records.addLink (h : g.Records links) (l : Link) :
    (g.addLink l).1.Records (links ++ g.recorded (.addLink l)) := by
  unfold recorded
  rcases addLink_cases g l with ⟨hne, hsource, htarget, heq⟩ | ⟨-, heq⟩ | ⟨-, heq⟩
  · simpa [heq] using h.record hne hsource htarget
  · simpa [heq] using h
  · simpa [heq] using h.of_same { g with dropped := g.dropped + 1 } rfl rfl

theorem Records.call (h : g.Records links) (c : GraphCall) :
    (g.call c).Records (links ++ g.recorded c) := by
  cases c with
  | addNode n =>
      rw [recorded, List.append_nil]
      exact h.addNode n
  | addLink l => exact h.addLink l

theorem Records.calls (h : g.Records links) (calls : List GraphCall) :
    (calls.foldl SymbolGraph.call g).Records (links ++ g.ledger calls) := by
  induction calls generalizing g links with
  | nil => simpa [ledger] using h
  | cons c rest ih =>
      rw [List.foldl_cons, ledger, ← List.append_assoc]
      exact ih (h.call c)

theorem records_after (calls : List GraphCall) : (after calls).Records (empty.ledger calls) := by
  simpa [after] using records_empty.calls calls

theorem Records.exists_link (h : g.Records links) {e : Edge} (he : e ∈ g.edges) :
    ∃ l ∈ links, l.relation = e.relation :=
  List.mem_map.mp (mem_relations_merged.mp (List.mem_map_of_mem (h.edges ▸ he)))

theorem Records.relation_mem (h : g.Records links) {l : Link} (hl : l ∈ links) :
    l.relation ∈ g.edges.map Edge.relation := by
  rw [h.edges]
  exact mem_relations_merged.mpr (List.mem_map_of_mem hl)

theorem Records.merges (h : g.Records links) {e : Edge} (he : e ∈ g.edges) :
    e.Merges (links.filter (·.fits e)) :=
  merges_of_mem_merged (h.edges ▸ he)

theorem mem_sources {id : String} : id ∈ g.sources ↔ ∃ e ∈ g.edges, e.source = id := by
  simp [sources, mem_sorted]

theorem pairwise_sources (g : SymbolGraph) : g.sources.Pairwise (· < ·) := by
  have honce : g.sources.Nodup := (List.mergeSort_perm _ _).nodup_iff.mpr (nodup_eraseDups _)
  exact ((pairwise_sorted _).and honce).imp fun h => lt_of_le_of_ne h.1 h.2

theorem sortedEdges_eq_flatMap (g : SymbolGraph) : g.sortedEdges = g.sources.flatMap g.dependencies :=
  mergeSort_eq_flatMap g.pairwise_sources fun e he => mem_sources.mpr ⟨e, he, rfl⟩

/-- What is kept under a key are the edges that its observations make. -/
theorem Records.tabulates (h : g.Records links) : Tabulates (SymbolGraph.keyed links) g := by
  have hlists (key : String) : SymbolGraph.keyed links key = g.dependencies key := by
    rw [keyed_eq_filter, ← h.edges, dependencies]
  refine ⟨hlists, fun key e he => source_of_mem_keyed he, fun id => ?_⟩
  rw [dependents, sortedEdges_eq_flatMap, List.filter_flatMap]
  simp only [hlists]

theorem mapM_eq_some_map {α β : Type} {f : α → Option β} (k : α → β) {xs : List α}
    (h : ∀ x ∈ xs, f x = some (k x)) : xs.mapM f = some (xs.map k) := by
  induction xs with
  | nil => rfl
  | cons x rest ih =>
      rw [List.mapM_cons, h x (by simp), ih fun y hy => h y (List.mem_cons_of_mem x hy)]
      rfl

theorem node?_eq_some_fileOf {id : String} (h : g.hasNode id = true) :
    ∃ n, g.node? id = some n ∧ g.fileOf id = n.fileId := by
  obtain ⟨n, hn⟩ := exists_node_of_hasNode h
  exact ⟨n, hn, by simp [fileOf, hn]⟩

/-- The files of both nodes of an edge are found. -/
theorem filePairs?_eq_some (hends : ∀ e ∈ g.edges, g.hasNode e.source = true ∧
    g.hasNode e.target = true) : g.filePairs? = some g.filePairs := by
  unfold filePairs? filePairs
  rw [mapM_eq_some_map fun e => (g.fileOf e.source, g.fileOf e.target)]
  · rfl
  · intro e he
    obtain ⟨source, hsource, hfrom⟩ := node?_eq_some_fileOf (hends e he).1
    obtain ⟨target, htarget, hto⟩ := node?_eq_some_fileOf (hends e he).2
    simp [hsource, htarget, hfrom, hto]

theorem Records.ends_of_mem (h : g.Records links) {e : Edge} (he : e ∈ g.edges) :
    g.hasNode e.source = true ∧ g.hasNode e.target = true ∧ e.source ≠ e.target := by
  obtain ⟨l, hl, hrelation⟩ := h.exists_link he
  have hsource : l.source = e.source := congrArg Prod.fst hrelation
  have htarget : l.target = e.target := congrArg (·.2.1) hrelation
  rw [← hsource, ← htarget]
  exact ⟨(h.ends l hl).1, (h.ends l hl).2, h.distinctEnds l hl⟩

theorem Records.wellFormed (h : g.Records links) : g.WellFormed where
  nodesOnce := h.nodesOnce
  ends e he := ⟨(h.ends_of_mem he).1, (h.ends_of_mem he).2.1⟩
  distinctEnds e he := (h.ends_of_mem he).2.2
  relationsOnce := by
    rw [h.edges]
    exact nodup_relations_merged links
  strength e he := (h.merges he).strength
  found := filePairs?_eq_some fun e he => ⟨(h.ends_of_mem he).1, (h.ends_of_mem he).2.1⟩
  dependents id e he := by
    obtain ⟨hmem, htarget⟩ := List.mem_filter.mp he
    exact ⟨by simpa using htarget, (h.ends_of_mem (List.mem_mergeSort.mp hmem)).1⟩

end SymbolGraph

end CodeAtlas
