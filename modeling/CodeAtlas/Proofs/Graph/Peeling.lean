import CodeAtlas.Graph.Analysis
import CodeAtlas.Proofs.Graph.Walks
import CodeAtlas.Proofs.List.Basic

/-!
# Peeling round by round

A round looks at the remaining nodes alone: those that no remaining node points at are the next layer.
The numbers of pointers that are kept from round to round say just that, since an edge out of a
remaining node is counted until its node is taken away. A round takes a node away or is the last one,
so the peeling comes to its end with one outcome.
-/

namespace CodeAtlas.SymbolGraph

variable {g : SymbolGraph} {remaining free rest : List String} {layers : List (List String)}
  {pointers : Std.HashMap String Nat} {id : String}

def pointed (g : SymbolGraph) (remaining : List String) (id : String) : Bool :=
  g.edges.any fun e => remaining.contains e.source && e.target == id

/-- The layers of what remains, found by looking at all edges again in each round. -/
inductive Peels (g : SymbolGraph) : (remaining : List String) → (layers : List (List String)) → Prop where
  | done : Peels g [] []
  | last {remaining : List String} (hsome : remaining ≠ [])
      (hall : ∀ id ∈ remaining, g.pointed remaining id = true) : Peels g remaining [remaining]
  | round {remaining : List String} {layers : List (List String)}
      (hfree : remaining.filter (fun id => !g.pointed remaining id) ≠ [])
      (hrest : Peels g (remaining.filter (g.pointed remaining)) layers) :
      Peels g remaining (remaining.filter (fun id => !g.pointed remaining id) :: layers)

theorem pointed_iff : g.pointed remaining id = true ↔ ∃ a ∈ remaining, g.Points a id := by
  simp only [pointed, Points, List.any_eq_true, Bool.and_eq_true, List.contains_iff_mem, beq_iff_eq]
  constructor
  · rintro ⟨e, he, hsource, htarget⟩
    exact ⟨e.source, hsource, e, he, rfl, htarget⟩
  · rintro ⟨a, ha, e, he, rfl, htarget⟩
    exact ⟨e, he, ha, htarget⟩

theorem Peels.unique {layers' : List (List String)} (h : Peels g remaining layers)
    (h' : Peels g remaining layers') : layers' = layers := by
  induction h generalizing layers' with
  | done =>
      cases h' with
      | done => rfl
      | last hsome _ => exact absurd rfl hsome
      | round hfree _ => exact absurd rfl hfree
  | last hsome hall =>
      cases h' with
      | done => exact absurd rfl hsome
      | last => rfl
      | round hfree _ =>
          exact absurd (List.filter_eq_nil_iff.mpr fun id hid => by simp [hall id hid]) hfree
  | round hfree _ ih =>
      cases h' with
      | done => exact absurd rfl hfree
      | last _ hall =>
          exact absurd (List.filter_eq_nil_iff.mpr fun id hid => by simp [hall id hid]) hfree
      | round _ hrest => rw [ih hrest]

/-! ## Numbers of pointers -/

/-- The number of edges that lead from some nodes to a node. -/
def pointersFrom (g : SymbolGraph) (sources : List String) (id : String) : Nat :=
  g.edges.countP fun e => sources.contains e.source && e.target == id

theorem pointersFrom_eq_zero_iff : g.pointersFrom remaining id = 0 ↔ g.pointed remaining id = false := by
  rw [pointersFrom, List.countP_eq_zero, pointed, List.any_eq_false]

theorem countP_or_of_disjoint {α : Type} {xs : List α} {p q : α → Bool}
    (h : ∀ x, p x = true → q x = false) :
    xs.countP (fun x => p x || q x) = xs.countP p + xs.countP q := by
  induction xs with
  | nil => rfl
  | cons x rest ih =>
      rw [List.countP_cons, List.countP_cons, List.countP_cons, ih]
      cases hp : p x with
      | true => simp [h x hp, Nat.add_right_comm]
      | false => simp [Nat.add_assoc]

/-- Pointers from some nodes are pointers from the ones and pointers from the others. -/
theorem pointersFrom_eq_add {all ones others : List String}
    (hall : ∀ a, a ∈ all ↔ a ∈ ones ∨ a ∈ others) (hdisjoint : ∀ a ∈ ones, a ∉ others) :
    g.pointersFrom all id = g.pointersFrom ones id + g.pointersFrom others id := by
  unfold pointersFrom
  rw [← countP_or_of_disjoint]
  · refine List.countP_congr fun e _ => ?_
    simp only [Bool.or_eq_true, Bool.and_eq_true, List.contains_iff_mem, hall, or_and_right]
  · intro e he
    simp only [Bool.and_eq_true, List.contains_iff_mem] at he
    simp [hdisjoint e.source he.1]

theorem pointersFrom_singleton (g : SymbolGraph) (source id : String) :
    g.pointersFrom [source] id = ((g.dependencies source).map (·.target)).count id := by
  rw [pointersFrom, dependencies, List.count, List.countP_map, List.countP_filter]
  refine List.countP_congr fun e _ => ?_
  simp [and_comm]

theorem sum_targets_eq_pointersFrom (hfree : free.Nodup) :
    (free.map fun source => (g.targets.getD source []).count id).sum = g.pointersFrom free id := by
  induction free with
  | nil => simp [pointersFrom]
  | cons source rest ih =>
      obtain ⟨hnew, hrest⟩ := List.nodup_cons.mp hfree
      rw [List.map_cons, List.sum_cons, ih hrest, getD_targets, ← pointersFrom_singleton]
      exact (pointersFrom_eq_add (by simp) (by simpa using hnew)).symm

theorem getD_countPointers (edges : List (String × String)) (id : String) :
    (countPointers edges).getD id 0 = edges.countP (·.2 == id) := by
  rw [countPointers, getD_foldl_count, Std.HashMap.getD_empty, Nat.zero_add]

theorem getD_withoutPointers (pointers : Std.HashMap String Nat) (targets : List String) (id : String) :
    (withoutPointers pointers targets).getD id 0 = pointers.getD id 0 - targets.count id := by
  unfold withoutPointers
  induction targets generalizing pointers with
  | nil => rfl
  | cons target rest ih =>
      rw [List.foldl_cons, ih, Std.HashMap.getD_insert, List.count_cons]
      by_cases htarget : target = id
      · subst htarget
        simp [Nat.sub_sub, Nat.add_comm]
      · simp [htarget]

theorem getD_foldl_withoutPointers (targets : String → List String) (pointers : Std.HashMap String Nat)
    (free : List String) (id : String) :
    (free.foldl (fun pointers source => withoutPointers pointers (targets source)) pointers).getD id 0 =
      pointers.getD id 0 - (free.map fun source => (targets source).count id).sum := by
  induction free generalizing pointers with
  | nil => rfl
  | cons source rest ih =>
      rw [List.foldl_cons, ih, getD_withoutPointers, List.map_cons, List.sum_cons, Nat.sub_sub]

/-! ## An end -/

/-- The numbers are those of the pointers from what remains. -/
def Counts (g : SymbolGraph) (remaining : List String) (pointers : Std.HashMap String Nat) : Prop :=
  ∀ id, pointers.getD id 0 = g.pointersFrom remaining id

theorem WellFormed.counts (h : g.WellFormed) :
    g.Counts g.nodeIds (countPointers (g.edges.map fun e => (e.source, e.target))) := by
  intro id
  rw [getD_countPointers, List.countP_map, pointersFrom]
  refine List.countP_congr fun e he => ?_
  have hsource : e.source ∈ g.nodeIds := mem_nodeIds.mpr (h.ends e he).1
  simp [hsource]

theorem Counts.unpointed (h : g.Counts remaining pointers) (id : String) :
    (pointers.getD id 0 == 0) = !g.pointed remaining id := by
  rw [Bool.eq_iff_iff, beq_iff_eq, h, pointersFrom_eq_zero_iff, Bool.not_eq_true']

theorem Counts.without (h : g.Counts remaining pointers) (hfree : free.Nodup)
    (hall : ∀ a, a ∈ remaining ↔ a ∈ free ∨ a ∈ rest) (hdisjoint : ∀ a ∈ free, a ∉ rest) :
    g.Counts rest (free.foldl
      (fun pointers id => withoutPointers pointers (g.targets.getD id [])) pointers) := by
  intro id
  rw [getD_foldl_withoutPointers, h, sum_targets_eq_pointersFrom hfree,
    pointersFrom_eq_add hall hdisjoint, Nat.add_sub_cancel_left]

theorem Counts.partition (h : g.Counts remaining pointers) :
    remaining.partition (fun id => pointers.getD id 0 == 0) =
      (remaining.filter (fun id => !g.pointed remaining id), remaining.filter (g.pointed remaining)) := by
  rw [List.partition_eq_filter_filter]
  simp [funext h.unpointed, Function.comp_def]

theorem length_filter_pointed_lt
    (hfree : remaining.filter (fun id => !g.pointed remaining id) ≠ []) :
    (remaining.filter (g.pointed remaining)).length < remaining.length := by
  obtain ⟨id, hid⟩ := List.exists_mem_of_ne_nil _ hfree
  obtain ⟨hmem, hpointed⟩ := List.mem_filter.mp hid
  exact List.length_filter_lt_length_iff_exists.mpr ⟨id, hmem, by simpa using hpointed⟩

/-- There is room for every round that the peeling needs. -/
theorem peels_peel {room : Nat} (hcounts : g.Counts remaining pointers) (honce : remaining.Nodup)
    (hroom : remaining.length ≤ room) :
    Peels g remaining (peel g.targets room remaining pointers) := by
  induction room generalizing remaining pointers with
  | zero =>
      obtain rfl := List.length_eq_zero_iff.mp (Nat.le_zero.mp hroom)
      exact .done
  | succ room ih =>
      unfold peel
      split
      · rename_i hnone
        obtain rfl := List.isEmpty_iff.mp hnone
        exact .done
      · rename_i hsome
        simp only [hcounts.partition]
        split
        · rename_i hnone
          refine .last (fun h => hsome (by simp [h])) fun id hid => ?_
          simpa using List.filter_eq_nil_iff.mp (List.isEmpty_iff.mp hnone) id hid
        · rename_i hfree
          have hfree := mt List.isEmpty_iff.mpr hfree
          refine .round hfree (ih (hcounts.without (honce.filter _) (fun a => ?_) (fun a ha => ?_))
            (honce.filter _) ?_)
          · rw [List.mem_filter, List.mem_filter, ← and_or_left]
            simp
          · rw [List.mem_filter, Bool.not_eq_true'] at ha
            simp [ha.2]
          · have hless := length_filter_pointed_lt hfree
            omega

/-- The peeling comes to its end by itself, and the layers are its only outcome. -/
theorem WellFormed.peels_iff (h : g.WellFormed) : Peels g g.nodeIds layers ↔ layers = g.layers := by
  have hends : Peels g g.nodeIds g.layers :=
    peels_peel h.counts h.nodup_nodeIds (by simp [nodeIds, sorted])
  exact ⟨hends.unique, fun heq => heq ▸ hends⟩

end CodeAtlas.SymbolGraph
