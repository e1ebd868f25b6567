import CodeAtlas.Proofs.Graph.Apart
import CodeAtlas.Proofs.Graph.Walks
import Mathlib.Algebra.BigOperators.Ring.Finset
import Mathlib.Algebra.Order.Field.Rat
import Mathlib.Data.List.Sort
import Mathlib.Data.Prod.Lex
import Mathlib.Data.String.Basic

/-!
# Figures that agree

The edges of a node are counted in three places: with the node, in its coupling, and by whoever lists them.
All three count the same, since each counts what an edge has as its source or as its target. Every edge has
one source and one target among the nodes, so that the numbers of edges that go out, and those of edges that
come in, both add up to the number of edges. Symbols ranked by their coupling have one order, so that those who
rank them for themselves agree as well.
-/

namespace CodeAtlas

theorem sum_indicator {κ : Type} [BEq κ] [LawfulBEq κ] (keys : List κ) (k : κ) :
    (keys.map fun key => if k == key then 1 else 0).sum = keys.count k := by
  induction keys with
  | nil => rfl
  | cons key rest ih =>
      rw [List.map_cons, List.sum_cons, ih, List.count_cons, Nat.add_comm, BEq.comm]

/-- Every element is counted under its own key and no other one. -/
theorem sum_countP_eq_length {α κ : Type} [BEq κ] [LawfulBEq κ] {keys : List κ} (hkeys : keys.Nodup)
    (keyOf : α → κ) {xs : List α} (hall : ∀ x ∈ xs, keyOf x ∈ keys) :
    (keys.map fun key => xs.countP (keyOf · == key)).sum = xs.length := by
  induction xs with
  | nil => simp
  | cons x rest ih =>
      obtain ⟨hx, hrest⟩ := List.forall_mem_cons.mp hall
      calc
        (keys.map fun key => (x :: rest).countP (keyOf · == key)).sum =
            (keys.map fun key => rest.countP (keyOf · == key)).sum +
              (keys.map fun key => if keyOf x == key then 1 else 0).sum := by
          simp only [List.countP_cons, List.sum_map_add]
        _ = rest.length + 1 := by
          rw [ih hrest, sum_indicator, List.count_eq_one_of_mem hkeys hx]
        _ = (x :: rest).length := rfl

theorem Coupling.instability_eq (c : Coupling) : c.instability =
    if (c.afferent : Rat) + c.efferent = 0 then 0 else (c.efferent : Rat) / (c.afferent + c.efferent) := by
  unfold instability total
  by_cases hnone : c.afferent + c.efferent = 0
  · have hrat : (c.afferent : Rat) + c.efferent = 0 := by exact_mod_cast hnone
    simp [hnone, hrat]
  · have hrat : (c.afferent : Rat) + c.efferent ≠ 0 := by exact_mod_cast hnone
    rw [if_neg (by simpa using hnone), if_neg hrat, Rat.mkRat_eq_div]
    push_cast
    rfl

theorem Coupling.instability_mem_unit (c : Coupling) : 0 ≤ c.instability ∧ c.instability ≤ 1 := by
  have hin : (0 : Rat) ≤ c.afferent := Nat.cast_nonneg _
  have hout : (0 : Rat) ≤ c.efferent := Nat.cast_nonneg _
  rw [instability_eq]
  split
  · exact ⟨le_rfl, zero_le_one⟩
  · constructor
    · exact div_nonneg hout (add_nonneg hin hout)
    · exact div_le_one_of_le₀ (le_add_of_nonneg_left hin) (add_nonneg hin hout)

namespace SymbolGraph

/-- The figures of a node say what the lists of its edges say. -/
structure FiguresAgree (g : SymbolGraph) (n : Node) : Prop where
  fanOut : n.figures.fanOut = (g.dependencies n.symbolId).length
  fanIn : n.figures.fanIn = (g.dependents n.symbolId).length
  coupling : ∃ c, g.coupling.lookup n.symbolId = some c ∧ c.efferent = n.figures.fanOut ∧
    c.afferent = n.figures.fanIn ∧ c.instability = n.figures.stability
  stability : n.figures.stability = if (n.figures.fanIn : Rat) + n.figures.fanOut = 0 then 0
    else (n.figures.fanOut : Rat) / (n.figures.fanIn + n.figures.fanOut)
  unit : 0 ≤ n.figures.stability ∧ n.figures.stability ≤ 1
  centrality : n.figures.centrality = if g.nodes.length = 1 then 0
    else ((n.figures.fanIn : Rat) + n.figures.fanOut) / ((g.nodes.length : Rat) - 1)

variable {g : SymbolGraph} {links : List Link} {id : String} {n : Node}

theorem dependents_perm (g : SymbolGraph) (id : String) :
    (g.dependents id).Perm (g.edges.filter (·.target == id)) :=
  (List.mergeSort_perm g.edges _).filter _

theorem length_dependents (g : SymbolGraph) (id : String) :
    (g.dependents id).length = g.edges.countP (·.target == id) := by
  rw [(g.dependents_perm id).length_eq, List.countP_eq_length_filter]

/-- The coupling of an identifier counts the edges that are listed for it. -/
theorem couplingOf_eq (g : SymbolGraph) (id : String) : g.couplingOf id =
    ⟨(g.dependents id).length, (g.dependencies id).length⟩ := by
  rw [couplingOf, length_dependents, length_dependencies]

theorem lookup_map_of_mem {α : Type} {keys : List String} (f : String → α) (h : id ∈ keys) :
    (keys.map fun key => (key, f key)).lookup id = some (f id) := by
  induction keys with
  | nil => cases h
  | cons key rest ih =>
      rw [List.map_cons, List.lookup_cons]
      by_cases hkey : id = key
      · subst hkey
        simp
      · rw [beq_false_of_ne hkey]
        exact ih ((List.mem_cons.mp h).resolve_left hkey)

theorem lookup_coupling (h : g.hasNode id = true) : g.coupling.lookup id =
    some ⟨(g.dependents id).length, (g.dependencies id).length⟩ := by
  rw [← couplingOf_eq, coupling_eq]
  exact lookup_map_of_mem g.couplingOf (mem_nodeIds.mpr h)

theorem Records.nodup_edges (h : g.Records links) : g.edges.Nodup :=
  List.Nodup.of_map _ h.wellFormed.relationsOnce

/-- An edge is listed once, with the node that it points at. -/
theorem Records.dependents_once (h : g.Records links) (id : String) : (g.dependents id).Nodup ∧
    ∀ e, e ∈ g.dependents id ↔ e ∈ g.edges ∧ e.target = id := by
  have hperm := g.dependents_perm id
  constructor
  · exact hperm.nodup_iff.mpr (h.nodup_edges.filter _)
  · intro e
    rw [hperm.mem_iff, List.mem_filter, beq_iff_eq]

/-! ## Figures that are computed -/

theorem ids_computeFigures (g : SymbolGraph) :
    g.computeFigures.nodes.map (·.symbolId) = g.nodes.map (·.symbolId) := by
  simp [computeFigures]

theorem Records.computeFigures (h : g.Records links) : g.computeFigures.Records links :=
  h.of_same _ g.ids_computeFigures rfl

/-- What is computed for a node comes from its coupling. -/
theorem exists_figures (hn : n ∈ g.computeFigures.nodes) :
    ∃ c : Coupling, c = ⟨(g.dependents n.symbolId).length, (g.dependencies n.symbolId).length⟩ ∧
      n.figures.fanIn = c.afferent ∧ n.figures.fanOut = c.efferent ∧
      n.figures.stability = c.instability ∧ n.figures.centrality = g.centrality c := by
  rw [nodes_computeFigures] at hn
  obtain ⟨m, -, rfl⟩ := List.mem_map.mp hn
  exact ⟨_, g.couplingOf_eq m.symbolId, rfl, rfl, rfl, rfl⟩

theorem centrality_eq (hsome : g.nodes ≠ []) (c : Coupling) : g.centrality c =
    if g.nodes.length = 1 then 0 else ((c.afferent : Rat) + c.efferent) / ((g.nodes.length : Rat) - 1) := by
  have hpos : 1 ≤ g.nodes.length := List.length_pos_iff.mpr hsome
  unfold centrality Coupling.total
  by_cases hone : g.nodes.length = 1
  · rw [if_neg (by omega), if_pos hone]
  · rw [if_pos (by omega), if_neg hone, Rat.mkRat_eq_div]
    push_cast [hpos]
    rfl

theorem figuresAgree_computeFigures (hn : n ∈ g.computeFigures.nodes) :
    g.computeFigures.FiguresAgree n := by
  have hnode : g.computeFigures.hasNode n.symbolId = true :=
    hasNode_iff.mpr (List.mem_map_of_mem hn)
  have hlength : g.computeFigures.nodes.length = g.nodes.length := by
    simp [SymbolGraph.computeFigures]
  have hsome : g.nodes ≠ [] := by
    rw [← List.length_pos_iff, ← hlength]
    exact List.length_pos_of_mem hn
  obtain ⟨c, hc, hin, hout, hstability, hcentrality⟩ := exists_figures hn
  have hin' : (n.figures.fanIn : Rat) = c.afferent := by exact_mod_cast hin
  have hout' : (n.figures.fanOut : Rat) = c.efferent := by exact_mod_cast hout
  constructor
  case fanOut => rw [hout, hc]; rfl
  case fanIn => rw [hin, hc]; rfl
  case coupling => exact ⟨c, hc ▸ lookup_coupling hnode, hout.symm, hin.symm, hstability.symm⟩
  case stability => rw [hstability, hin', hout', c.instability_eq]
  case unit =>
    rw [hstability]
    exact c.instability_mem_unit
  case centrality => rw [hcentrality, hin', hout', hlength, centrality_eq hsome]

/-- What nodes have as their part of all edges adds up to all edges. -/
theorem Records.sum_parts (h : g.Records links) (endOf : Edge → String)
    (hends : ∀ e ∈ g.edges, g.hasNode (endOf e) = true) {part : Node → Int}
    (hpart : ∀ n ∈ g.nodes, part n = g.edges.countP (endOf · == n.symbolId)) :
    (g.nodes.map part).sum = g.edgeCount := by
  have hcount := sum_countP_eq_length h.nodesOnce endOf fun e he => hasNode_iff.mp (hends e he)
  calc
    (g.nodes.map part).sum =
        (g.nodes.map fun n => (g.edges.countP (endOf · == n.symbolId) : Int)).sum := by
      rw [List.map_congr_left hpart]
    _ = (((g.nodes.map (·.symbolId)).map fun id => g.edges.countP (endOf · == id)).sum : Nat) := by
      rw [Nat.cast_list_sum, List.map_map, List.map_map]
      rfl
    _ = g.edgeCount := by rw [hcount, edgeCount]

/-- The numbers of edges agree wherever they are counted: a node's own figures, its coupling and the lists of
its edges, of which those that point at a node have each edge once. The nodes of a graph are the source of all
its edges together and the target of all of them. The shares that follow from the numbers are fractions
without rounding. -/
theorem coupling_figures_agree (calls : List GraphCall) :
    let g := (after calls).computeFigures
    (∀ n ∈ g.nodes, g.FiguresAgree n) ∧
    g.coupling.map (·.1) = g.nodeIds ∧
    (∀ id, (g.dependents id).Nodup ∧ ∀ e, e ∈ g.dependents id ↔ e ∈ g.edges ∧ e.target = id) ∧
    (g.nodes.map (·.figures.fanIn)).sum = g.edgeCount ∧
    (g.nodes.map (·.figures.fanOut)).sum = g.edgeCount := by
  intro g
  have hrecords : g.Records _ := (records_after calls).computeFigures
  have hends := hrecords.wellFormed.ends
  have hagree : ∀ n ∈ g.nodes, g.FiguresAgree n := fun n hn => figuresAgree_computeFigures hn
  refine ⟨hagree, by simp [coupling_eq, Function.comp_def], hrecords.dependents_once, ?_, ?_⟩
  · apply hrecords.sum_parts (·.target) fun e he => (hends e he).2
    intro n hn
    rw [(hagree n hn).fanIn, length_dependents]
  · apply hrecords.sum_parts (·.source) fun e he => (hends e he).1
    intro n hn
    rw [(hagree n hn).fanOut, length_dependencies]

end SymbolGraph

/-! ## Rankings -/

namespace CouplingRow

variable {a b : CouplingRow} {rows ranked others : List CouplingRow}

/-- The first row stands above the second: its coupling is stronger, or as strong while its name comes first,
or all this is the same while its identifier comes first. -/
def Above (a b : CouplingRow) : Prop :=
  b.coupling.total < a.coupling.total ∨
    a.coupling.total = b.coupling.total ∧ (a.name < b.name ∨ a.name = b.name ∧ a.symbolId < b.symbolId)

/-- What sorting rows by comparing them may give; rows that do not differ may come in any order. -/
def Ranks (rows ranked : List CouplingRow) : Prop :=
  ranked.Perm rows ∧ ranked.Pairwise fun a b => b.before a = false

/-- Where a row stands, in an order without ties. -/
def place (row : CouplingRow) : Natᵒᵈ ×ₗ String ×ₗ String :=
  toLex (OrderDual.toDual row.coupling.total, toLex (row.name, row.symbolId))

theorem above_iff : a.Above b ↔ a.place < b.place := by
  simp [Above, place, Prod.Lex.toLex_lt_toLex]

theorem before_iff : a.before b = true ↔ a.place < b.place := by
  rw [← above_iff, Above, before]
  split_ifs with htotal hname
  · simp [htotal]
  · simp [not_not.mp htotal, hname]
  · simp [not_not.mp htotal, not_not.mp hname]

theorem before_eq_false_iff : b.before a = false ↔ a.place ≤ b.place := by
  rw [Bool.eq_false_iff, Ne, before_iff, not_lt]

theorem isLE_order_iff : (a.order b).isLE = true ↔ a.place ≤ b.place := by
  have horder : a.order b = compare a.place b.place := rfl
  rw [horder, Ordering.isLE_iff_ne_gt]
  exact compare_le_iff_le

theorem symbolId_eq_of_place_eq (h : a.place = b.place) : a.symbolId = b.symbolId :=
  congrArg (fun place => (ofLex (ofLex place).2).2) h

/-- A sort ranks rows if it compares their places, whatever it compares these by. -/
theorem ranks_mergeSort {le : CouplingRow → CouplingRow → Bool} (hle : ∀ a b, le a b = true ↔ a.place ≤ b.place)
    (rows : List CouplingRow) : Ranks rows (rows.mergeSort le) := by
  refine ⟨List.mergeSort_perm rows _, ?_⟩
  simp only [before_eq_false_iff, ← hle]
  apply List.pairwise_mergeSort
  · intro a b c hab hbc
    rw [hle] at hab hbc ⊢
    exact hab.trans hbc
  · intro a b
    rw [Bool.or_eq_true, hle, hle]
    exact le_total a.place b.place

section Once

variable (honce : (rows.map (·.symbolId)).Nodup)
include honce

/-- Rows with identifiers of their own have only one ranking. -/
theorem Ranks.unique (h : Ranks rows ranked) (h' : Ranks rows others) : ranked = others := by
  apply List.Perm.eq_of_pairwise _ h.2 h'.2 (h.1.trans h'.1.symm)
  intro a b ha hb hab hba
  have hplace : a.place = b.place := le_antisymm (before_eq_false_iff.mp hab) (before_eq_false_iff.mp hba)
  exact List.inj_on_of_nodup_map honce (h.1.mem_iff.mp ha) (h'.1.mem_iff.mp hb) (symbolId_eq_of_place_eq hplace)

theorem Ranks.pairwise_above (h : Ranks rows ranked) : ranked.Pairwise Above := by
  have hids : ranked.Pairwise fun a b => a.symbolId ≠ b.symbolId :=
    List.pairwise_map.mp ((h.1.map _).nodup_iff.mpr honce)
  apply (h.2.and hids).imp
  rintro a b ⟨hle, hne⟩
  rw [above_iff]
  exact (before_eq_false_iff.mp hle).lt_of_ne fun hplace => hne (symbolId_eq_of_place_eq hplace)

end Once

end CouplingRow

namespace SymbolGraph

variable {g : SymbolGraph} {coupling entries : List (String × Coupling)}

/-- The rows of the entries that are coupled at all, gone through one after the other. -/
def couplingRows (g : SymbolGraph) (entries : List (String × Coupling)) : List CouplingRow :=
  entries.foldl (fun rows entry =>
    if entry.2.total = 0 then rows else rows ++ [⟨entry.1, g.nameOf entry.1, entry.2⟩]) []

theorem couplingRows_eq (g : SymbolGraph) (entries : List (String × Coupling)) : g.couplingRows entries =
    (entries.filter fun entry => entry.2.total != 0).map fun entry => ⟨entry.1, g.nameOf entry.1, entry.2⟩ := by
  have hfold (rows : List CouplingRow) : entries.foldl (fun rows entry =>
      if entry.2.total = 0 then rows else rows ++ [⟨entry.1, g.nameOf entry.1, entry.2⟩]) rows = rows ++
      (entries.filter fun entry => entry.2.total != 0).map fun entry => ⟨entry.1, g.nameOf entry.1, entry.2⟩ := by
    induction entries generalizing rows with
    | nil => simp
    | cons entry rest ih =>
        by_cases hnone : entry.2.total = 0
        · simp [hnone, ih]
        · simp [hnone, ih]
  exact hfold []

theorem mem_couplingRows {row : CouplingRow} : row ∈ g.couplingRows entries ↔
    (row.symbolId, row.coupling) ∈ entries ∧ row.coupling.total ≠ 0 ∧ row.name = g.nameOf row.symbolId := by
  rw [couplingRows_eq, List.mem_map]
  constructor
  · rintro ⟨entry, hentry, rfl⟩
    obtain ⟨hmem, htotal⟩ := List.mem_filter.mp hentry
    exact ⟨hmem, bne_iff_ne.mp htotal, rfl⟩
  · obtain ⟨id, name, c⟩ := row
    rintro ⟨hmem, htotal, hname⟩
    dsimp only at hmem htotal hname
    subst hname
    exact ⟨(id, c), List.mem_filter.mpr ⟨hmem, bne_iff_ne.mpr htotal⟩, rfl⟩

theorem couplingRows_perm (hperm : entries.Perm coupling) :
    (g.couplingRows entries).Perm (g.couplingRows coupling) := by
  rw [couplingRows_eq, couplingRows_eq]
  exact (hperm.filter _).map _

theorem nodup_couplingRows (hkeys : (entries.map (·.1)).Nodup) :
    ((g.couplingRows entries).map (·.symbolId)).Nodup := by
  rw [couplingRows_eq, List.map_map]
  exact hkeys.sublist (List.filter_sublist.map _)

theorem ranks_reportedRows (g : SymbolGraph) (entries : List (String × Coupling)) :
    CouplingRow.Ranks (g.couplingRows entries) (g.reportedRows entries) := by
  have hrows : g.couplingRows entries = entries.filterMap fun entry =>
      if entry.2.total == 0 then none else some ⟨entry.1, g.nameOf entry.1, entry.2⟩ := by
    rw [couplingRows_eq]
    induction entries with
    | nil => rfl
    | cons entry rest ih =>
        by_cases hnone : entry.2.total = 0
        · simp [hnone, ih]
        · simp [hnone, ih]
  rw [hrows]
  exact CouplingRow.ranks_mergeSort (fun a b => by rw [Bool.not_eq_true', CouplingRow.before_eq_false_iff]) _

theorem ranks_answeredRows (g : SymbolGraph) (entries : List (String × Coupling)) :
    CouplingRow.Ranks (g.couplingRows entries) (g.answeredRows entries) := by
  have hname (id : String) : ((g.node? id).map (·.fullName)).getD id = g.nameOf id := by
    unfold nameOf
    cases g.node? id <;> rfl
  have hrows : g.couplingRows entries =
      (entries.filter fun entry => entry.2.afferent + entry.2.efferent != 0).map fun entry =>
        ⟨entry.1, ((g.node? entry.1).map (·.fullName)).getD entry.1, entry.2⟩ := by
    simp only [couplingRows_eq, hname, Coupling.total]
  rw [hrows]
  exact CouplingRow.ranks_mergeSort (fun a b => CouplingRow.isLE_order_iff) _

/-- What a report may show: the rows ranked, and cut if there is a number to cut to and more rows than that. -/
def Reports (g : SymbolGraph) (entries : List (String × Coupling)) (top : Int) (rows : List CouplingRow) : Prop :=
  ∃ ranked, CouplingRow.Ranks (g.couplingRows entries) ranked ∧
    rows = if 0 < top ∧ top < ranked.length then ranked.take top.toNat else ranked

/-- What a server may answer: the rows ranked, and cut if there are more than asked for. -/
def Answers (g : SymbolGraph) (entries : List (String × Coupling)) (top : Int) (rows : List CouplingRow) : Prop :=
  ∃ ranked, CouplingRow.Ranks (g.couplingRows entries) ranked ∧
    rows = if top < ranked.length then ranked.take top.toNat else ranked

/-- A list is cut only if it is longer than the cut. -/
theorem take_eq_ite {top : Int} (htop : 1 ≤ top) (rows : List CouplingRow) :
    (if top < rows.length then rows.take top.toNat else rows) = rows.take top.toNat := by
  split_ifs with hlong
  · rfl
  · rw [List.take_of_length_le (by omega)]

/-- All symbols with any coupling have one ranking, in the order of their coupling, then of their names and
then of their identifiers. However a table lists them, and however rows that do not differ are sorted, both the
report and the server show the first `top` of this ranking. -/
theorem rankings_agree (g : SymbolGraph) {coupling : List (String × Coupling)} {top : Int}
    (hkeys : (coupling.map (·.1)).Nodup) (htop : 1 ≤ top) :
    ∃ ranking : List CouplingRow,
      (∀ row, row ∈ ranking ↔ (row.symbolId, row.coupling) ∈ coupling ∧ row.coupling.total ≠ 0 ∧
        row.name = g.nameOf row.symbolId) ∧
      ranking.Pairwise CouplingRow.Above ∧
      ∀ entries : List (String × Coupling), entries.Perm coupling →
        g.rankCoupling entries top = ranking.take top.toNat ∧
        g.mostCoupled entries top = ranking.take top.toNat ∧
        (∀ rows, g.Reports entries top rows ↔ rows = ranking.take top.toNat) ∧
        ∀ rows, g.Answers entries top rows ↔ rows = ranking.take top.toNat := by
  have honce : ((g.couplingRows coupling).map (·.symbolId)).Nodup := nodup_couplingRows hkeys
  have hranks := g.ranks_reportedRows coupling
  refine ⟨g.reportedRows coupling, fun row => ?_, hranks.pairwise_above honce, fun entries hperm => ?_⟩
  · rw [hranks.1.mem_iff, mem_couplingRows]
  · have hentries {ranked : List CouplingRow} :
        CouplingRow.Ranks (g.couplingRows entries) ranked ↔ ranked = g.reportedRows coupling := by
      refine ⟨fun h => CouplingRow.Ranks.unique honce ⟨h.1.trans (couplingRows_perm hperm), h.2⟩ hranks, ?_⟩
      rintro rfl
      exact ⟨hranks.1.trans (couplingRows_perm hperm).symm, hranks.2⟩
    have hreported : g.reportedRows entries = g.reportedRows coupling := hentries.mp (g.ranks_reportedRows entries)
    have hanswered : g.answeredRows entries = g.reportedRows coupling := hentries.mp (g.ranks_answeredRows entries)
    have hpos : 0 < top := by omega
    refine ⟨?_, ?_, fun rows => ?_, fun rows => ?_⟩
    · simp only [rankCoupling, hreported, hpos, decide_true, Bool.true_and, decide_eq_true_eq, gt_iff_lt,
        take_eq_ite htop]
    · simp only [mostCoupled, hanswered, gt_iff_lt, take_eq_ite htop]
    · simp only [Reports, hentries, exists_eq_left, hpos, true_and, take_eq_ite htop]
    · simp only [Answers, hentries, exists_eq_left, take_eq_ite htop]

/-- Two symbols coupled alike, and one that is not coupled. -/
def tied : List (String × Coupling) := [("b", ⟨1, 1⟩), ("c", ⟨0, 0⟩), ("a", ⟨2, 0⟩)]

theorem tied_ranked_alike : ((tied.map (·.1)).Nodup ∧ (1 : Int) ≤ 1) ∧
    ∀ entries : List (String × Coupling), entries.Perm tied → ∀ rows,
      (empty.Reports entries 1 rows ↔ rows = [⟨"a", "a", ⟨2, 0⟩⟩]) ∧
        (empty.Answers entries 1 rows ↔ rows = [⟨"a", "a", ⟨2, 0⟩⟩]) := by
  have hkeys : (tied.map (·.1)).Nodup := by decide
  have htop : (1 : Int) ≤ 1 := by decide
  obtain ⟨ranking, -, -, hsame⟩ := empty.rankings_agree hkeys htop
  have hanswer : empty.Answers tied 1 [⟨"a", "a", ⟨2, 0⟩⟩] :=
    ⟨[⟨"a", "a", ⟨2, 0⟩⟩, ⟨"b", "b", ⟨1, 1⟩⟩], ⟨by decide, by decide⟩, rfl⟩
  have hfirst := ((hsame tied (.refl tied)).2.2.2 _).mp hanswer
  refine ⟨⟨hkeys, htop⟩, fun entries hperm rows => ?_⟩
  obtain ⟨-, -, hreports, hanswers⟩ := hsame entries hperm
  rw [hreports, hanswers, ← hfirst]
  exact ⟨.rfl, .rfl⟩

end SymbolGraph

end CodeAtlas
