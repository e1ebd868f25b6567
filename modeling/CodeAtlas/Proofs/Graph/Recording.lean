import CodeAtlas.Proofs.Graph.Calls
import Mathlib.Algebra.BigOperators.Group.List.Lemmas
import Mathlib.Data.Finset.Card

/-!
# Recording observations

A graph with its nodes takes up one observation after the other. Whether an observation is recorded,
passed over or dropped depends on its ends alone. So the edges can be told from the list of observations,
without following the graph: there is one edge for each relation between different nodes that was observed,
and it sums up the observations of its relation, whatever came in between. In another order the same
observations make the same edges, except for the order of edges and places and for the access.
-/

namespace CodeAtlas

namespace Link

/-- The number of calls as an edge keeps it: a single observation as it is, more of them in 64 bits. -/
def keptCalls (links : List Link) : Int :=
  if links.length = 1 then calls links else wrap64 (calls links)

theorem fits_congr {l : Link} {e e' : Edge} (h : e.relation = e'.relation) : l.fits e = l.fits e' := by
  rw [Bool.eq_iff_iff, fits_iff, fits_iff, h]

theorem keptCalls_append {links : List Link} (h : links ≠ []) (l : Link) :
    keptCalls (links ++ [l]) = wrap64 (calls links + l.count) := by
  have hlength : (links ++ [l]).length ≠ 1 := by simpa using h
  rw [keptCalls, if_neg hlength, calls_append]

theorem wrap64_keptCalls (links : List Link) : wrap64 (keptCalls links) = wrap64 (calls links) := by
  unfold keptCalls
  split
  · rfl
  · simpa using wrap64_wrap64_add (calls links) 0

theorem wrap64_keptCalls_add (links : List Link) (n : Int) :
    wrap64 (keptCalls links + n) = wrap64 (calls links + n) := by
  rw [← wrap64_wrap64_add, wrap64_keptCalls, wrap64_wrap64_add]

theorem keptCalls_perm {links others : List Link} (h : links.Perm others) :
    keptCalls links = keptCalls others := by
  have hcalls : calls links = calls others := (h.map count).sum_eq
  rw [keptCalls, keptCalls, hcalls, h.length_eq]

end Link

namespace Edge

def IsStrongest (l : Link) (links : List Link) : Prop :=
  l ∈ links ∧ ∀ k ∈ links, k.strength ≤ l.strength

/-- What an edge tells of the observations of its relation, apart from its access. -/
structure SumsUp (e : Edge) (links : List Link) : Prop extends e.Sums links where
  named : e.id = edgeId e.source e.target e.kind
  kept : e.context.callCount = Link.keptCalls links
  strongest : ∃ l, IsStrongest l links ∧ e.strength = clampUnit l.strength

theorem clampUnit_eq (q : Rat) : clampUnit q = min (max q 0) 1 := by
  unfold clampUnit
  split_ifs with hneg hbig
  · rw [max_eq_right hneg.le, min_eq_left zero_le_one]
  · rw [max_eq_left (not_lt.mp hneg), min_eq_right hbig.le]
  · rw [max_eq_left (not_lt.mp hneg), min_eq_left (not_lt.mp hbig)]

theorem atMostOne_eq (q : Rat) : atMostOne q = min q 1 := by
  unfold atMostOne
  split_ifs with hbig
  · rw [min_eq_right hbig.le]
  · rw [min_eq_left (not_lt.mp hbig)]

theorem greater_eq (p q : Rat) : (if p < q then q else p) = max p q := by
  split_ifs with hless
  · rw [max_eq_right hless.le]
  · rw [max_eq_left (not_lt.mp hless)]

/-- The first observation is clamped on both sides and the others only from above, which comes to the same. -/
theorem atMostOne_clampUnit (p q : Rat) :
    atMostOne (if clampUnit p < q then q else clampUnit p) = clampUnit (if p < q then q else p) := by
  rw [greater_eq, greater_eq, atMostOne_eq, clampUnit_eq, clampUnit_eq]
  calc
    min (max (min (max p 0) 1) q) 1 = min (min (max (max p 0) q) (max 1 q)) 1 := by
      rw [max_min_distrib_right]
    _ = min (max (max p 0) q) 1 := by
      rw [min_assoc, min_eq_right (le_max_left 1 q)]
    _ = min (max (max p q) 0) 1 := by
      rw [max_right_comm]

theorem sumsUp_ofLink (l : Link) : (ofLink l).SumsUp [l] where
  toSums := sums_ofLink l
  named := rfl
  kept := by simp [ofLink, Link.keptCalls, Link.calls]
  strongest := ⟨l, by simp [IsStrongest], rfl⟩

theorem SumsUp.absorb {e : Edge} {links : List Link} (h : e.SumsUp links) (l : Link) :
    (e.absorb l).SumsUp (links ++ [l]) where
  toSums := h.toSums.absorb l
  named := h.named
  kept := by
    rw [Link.keptCalls_append h.observed, ← Link.wrap64_keptCalls_add, ← h.kept]
    rfl
  strongest := by
    obtain ⟨m, ⟨hm, hgreatest⟩, hstrength⟩ := h.strongest
    have habsorb : (e.absorb l).strength =
        clampUnit (if m.strength < l.strength then l.strength else m.strength) := by
      rw [← atMostOne_clampUnit, ← hstrength]
      rfl
    by_cases hless : m.strength < l.strength
    · refine ⟨l, ⟨by simp, ?_⟩, by rw [habsorb, if_pos hless]⟩
      intro k hk
      rcases List.mem_append.mp hk with hk | hk
      · exact (hgreatest k hk).trans hless.le
      · rw [List.mem_singleton.mp hk]
    · refine ⟨m, ⟨List.mem_append_left _ hm, ?_⟩, by rw [habsorb, if_neg hless]⟩
      intro k hk
      rcases List.mem_append.mp hk with hk | hk
      · exact hgreatest k hk
      · rw [List.mem_singleton.mp hk]
        exact not_lt.mp hless

/-- Edges that tell the same, apart from the order of their places and from their accesses. -/
structure Alike (e e' : Edge) : Prop where
  relation : e.relation = e'.relation
  id : e.id = e'.id
  strength : e.strength = e'.strength
  places : e.locations.Perm e'.locations
  callCount : e.context.callCount = e'.context.callCount
  conditional : e.context.conditional = e'.context.conditional
  inLoop : e.context.inLoop = e'.context.inLoop

theorem SumsUp.alike {e e' : Edge} {links others : List Link} (h : e.SumsUp links)
    (h' : e'.SumsUp others) (hperm : links.Perm others) (hrelation : e.relation = e'.relation) :
    e.Alike e' where
  relation := hrelation
  id := by
    obtain ⟨hsource, htarget, hkind⟩ : e.source = e'.source ∧ e.target = e'.target ∧ e.kind = e'.kind := by
      simpa [Edge.relation] using hrelation
    rw [h.named, h'.named, hsource, htarget, hkind]
  strength := by
    obtain ⟨l, ⟨hl, hgreatest⟩, hstrength⟩ := h.strongest
    obtain ⟨l', ⟨hl', hgreatest'⟩, hstrength'⟩ := h'.strongest
    have heq : l.strength = l'.strength :=
      le_antisymm (hgreatest' l (hperm.mem_iff.mp hl)) (hgreatest l' (hperm.mem_iff.mpr hl'))
    rw [hstrength, hstrength', heq]
  places := by
    rw [h.places, h'.places]
    exact hperm.flatMap_right _
  callCount := by rw [h.kept, h'.kept, Link.keptCalls_perm hperm]
  conditional := by rw [h.conditional, h'.conditional, hperm.any_eq]
  inLoop := by rw [h.inLoop, h'.inLoop, hperm.any_eq]

end Edge

namespace SymbolGraph

open Build

/-- Whether an observation is between two different nodes. -/
def joins (g : SymbolGraph) (l : Link) : Bool :=
  l.source != l.target && g.hasNode l.source && g.hasNode l.target

/-- Whether an observation between two different symbols misses one of them. -/
def misses (g : SymbolGraph) (l : Link) : Bool :=
  l.source != l.target && !(g.hasNode l.source && g.hasNode l.target)

def answers : SymbolGraph → List Link → List Bool
  | _, [] => []
  | g, l :: rest => (g.addLink l).2 :: answers (g.addLink l).1 rest

variable {g : SymbolGraph} {l : Link} {links others : List Link}

theorem addLink_eq (g : SymbolGraph) (l : Link) : g.addLink l =
    (⟨g.nodes, if g.joins l then absorbLink l g.edges else g.edges,
      g.dropped + if g.misses l then 1 else 0⟩, g.joins l) := by
  unfold addLink joins misses
  by_cases hends : l.source = l.target
  · simp [hends]
  · by_cases hnodes : (g.hasNode l.source && g.hasNode l.target) = true
    · simp [hends, Bool.and_eq_true_iff.mp hnodes]
    · simp [hends, hnodes, Bool.and_assoc]

/-- Nodes stay as they are, and with them what is recorded and what is dropped. -/
theorem joins_addLink (g : SymbolGraph) (l : Link) : (g.addLink l).1.joins = g.joins := by
  rw [addLink_eq]
  rfl

theorem misses_addLink (g : SymbolGraph) (l : Link) : (g.addLink l).1.misses = g.misses := by
  rw [addLink_eq]
  rfl

theorem answers_eq (g : SymbolGraph) (links : List Link) : g.answers links = links.map g.joins := by
  induction links generalizing g with
  | nil => rfl
  | cons l rest ih => rw [answers, ih, joins_addLink, addLink_eq, List.map_cons]

theorem addLinks_eq (g : SymbolGraph) (links : List Link) : addLinks g links =
    ⟨g.nodes, (links.filter g.joins).foldl (fun edges l => absorbLink l edges) g.edges,
      g.dropped + links.countP g.misses⟩ := by
  induction links generalizing g with
  | nil => rfl
  | cons l rest ih =>
      have hstep : addLinks g (l :: rest) = addLinks (g.addLink l).1 rest := rfl
      rw [hstep, ih, joins_addLink, misses_addLink, addLink_eq]
      have hdropped : g.dropped + (if g.misses l then 1 else 0) + rest.countP g.misses =
          g.dropped + (l :: rest).countP g.misses := by
        rw [List.countP_cons]
        omega
      by_cases hjoins : g.joins l = true <;> simp only [hdropped, hjoins, List.filter_cons] <;> rfl

theorem joins_of_relation_eq {k : Link} (h : k.relation = l.relation) : g.joins k = g.joins l := by
  obtain ⟨hsource, htarget, -⟩ : k.source = l.source ∧ k.target = l.target ∧ k.kind = l.kind := by
    simpa [Link.relation] using h
  rw [joins, joins, hsource, htarget]

section Start

variable (nodes : List Node) (dropped : Nat)

/-- A graph that has nodes, and no edges yet. -/
def start : SymbolGraph := ⟨nodes, [], dropped⟩

variable {nodes dropped}

theorem edges_addLinks_start (links : List Link) :
    (addLinks (start nodes dropped) links).edges = merged (links.filter (start nodes dropped).joins) := by
  rw [addLinks_eq]
  rfl

/-- An edge has all observations of its relation, for they are all recorded. -/
theorem holds_of_mem_addLinks {holds : Edge → List Link → Prop} (first : ∀ l, holds (.ofLink l) [l])
    (next : ∀ e links l, holds e links → holds (e.absorb l) (links ++ [l])) {e : Edge}
    (he : e ∈ (addLinks (start nodes dropped) links).edges) : holds e (links.filter (·.fits e)) := by
  rw [edges_addLinks_start] at he
  obtain ⟨l, hl, hrelation⟩ := List.mem_map.mp (mem_relations_merged.mp (List.mem_map_of_mem he))
  have hholds := of_mem_merged first next he
  rw [List.filter_filter] at hholds
  -- The ends of the edge are nodes, and so none of its observations was passed over.
  have hall (k : Link) : (k.fits e && (start nodes dropped).joins k) = k.fits e := by
    rw [Bool.and_eq_left_iff_imp]
    intro hfits
    rw [joins_of_relation_eq ((Link.fits_iff.mp hfits).symm.trans hrelation.symm)]
    exact (List.mem_filter.mp hl).2
  simpa only [hall] using hholds

theorem sumsUp_of_mem {e : Edge} (he : e ∈ (addLinks (start nodes dropped) links).edges) :
    e.SumsUp (links.filter (·.fits e)) :=
  holds_of_mem_addLinks Edge.sumsUp_ofLink (fun _ _ l h => h.absorb l) he

theorem mem_relations_addLinks {r : String × String × EdgeKind} :
    r ∈ (addLinks (start nodes dropped) links).edges.map Edge.relation ↔
      r ∈ (links.filter (start nodes dropped).joins).map Link.relation := by
  rw [edges_addLinks_start]
  exact mem_relations_merged

theorem nodup_relations_addLinks :
    ((addLinks (start nodes dropped) links).edges.map Edge.relation).Nodup := by
  rw [edges_addLinks_start]
  exact nodup_relations_merged _

theorem exists_edge_addLinks_iff {r : String × String × EdgeKind} :
    (∃ e ∈ (addLinks (start nodes dropped) links).edges, e.relation = r) ↔
      (∃ l ∈ links, l.relation = r) ∧ r.1 ≠ r.2.1 ∧
        (start nodes dropped).hasNode r.1 = true ∧ (start nodes dropped).hasNode r.2.1 = true := by
  rw [← List.mem_map, mem_relations_addLinks, List.mem_map]
  constructor
  · rintro ⟨l, hl, rfl⟩
    obtain ⟨hmem, hjoins⟩ := List.mem_filter.mp hl
    obtain ⟨⟨hne, hsource⟩, htarget⟩ := by simpa [joins] using hjoins
    exact ⟨⟨l, hmem, rfl⟩, hne, hsource, htarget⟩
  · rintro ⟨⟨l, hl, rfl⟩, hne, hsource, htarget⟩
    refine ⟨l, List.mem_filter.mpr ⟨hl, ?_⟩, rfl⟩
    simpa [joins] using ⟨⟨hne, hsource⟩, htarget⟩

theorem alike_of_perm (hperm : links.Perm others) :
    ∃ edges, edges.Perm (addLinks (start nodes dropped) others).edges ∧
      List.Forall₂ Edge.Alike (addLinks (start nodes dropped) links).edges edges := by
  have hrelations : ((addLinks (start nodes dropped) links).edges.map Edge.relation).Perm
      ((addLinks (start nodes dropped) others).edges.map Edge.relation) := by
    rw [List.perm_ext_iff_of_nodup nodup_relations_addLinks nodup_relations_addLinks]
    intro r
    rw [mem_relations_addLinks, mem_relations_addLinks]
    exact ((hperm.filter _).map _).mem_iff
  have hsame : List.Forall₂ (fun r e => r = Edge.relation e)
      ((addLinks (start nodes dropped) others).edges.map Edge.relation)
      (addLinks (start nodes dropped) others).edges := by
    rw [List.forall₂_map_left_iff]
    exact List.forall₂_same.mpr fun _ _ => rfl
  obtain ⟨edges, hedges, hothers⟩ := List.perm_comp_forall₂ hrelations hsame
  refine ⟨edges, hothers, ?_⟩
  rw [List.forall₂_map_left_iff] at hedges
  -- Now both lists have the same relations place by place, and a relation's observations are permuted.
  refine List.forall₂_iff_get.mpr ⟨hedges.length_eq, fun i hi hi' => ?_⟩
  have hrelation := (List.forall₂_iff_get.mp hedges).2 i hi hi'
  have hsums := sumsUp_of_mem (List.get_mem (addLinks (start nodes dropped) links).edges ⟨i, hi⟩)
  have hsums' := sumsUp_of_mem (hothers.mem_iff.mp (List.get_mem edges ⟨i, hi'⟩))
  refine hsums.alike hsums' ?_ hrelation
  simp only [Link.fits_congr hrelation]
  exact hperm.filter _

end Start

/-- Taking up observations adds up. There is one edge for each relation between different nodes that was
observed, and it has the calls, the circumstances, the greatest strength and the places of the observations
of its relation; the calls are counted without a bound, and the edge has their number as long as it fits
into 64 bits. Exactly the observations between different nodes are recorded, those that miss a node are
counted as dropped, and the order of the observations decides nothing but the order of edges and places
and the access. -/
theorem edges_sum_up_observations (nodes : List Node) (dropped : Nat) (links : List Link) :
    let bare := start nodes dropped
    let g := addLinks bare links
    (∀ r : String × String × EdgeKind, (∃ e ∈ g.edges, e.relation = r) ↔
      (∃ l ∈ links, l.relation = r) ∧ r.1 ≠ r.2.1 ∧ bare.hasNode r.1 = true ∧ bare.hasNode r.2.1 = true) ∧
    (g.edges.map Edge.relation).Nodup ∧
    (∀ e ∈ g.edges,
      let seen := links.filter (·.fits e)
      (Link.calls seen < signedLimit → e.context.callCount = Link.calls seen) ∧
        wrap64 e.context.callCount = wrap64 (Link.calls seen) ∧
        (e.context.conditional = true ↔ ∃ l ∈ seen, l.context.conditional = true) ∧
        (e.context.inLoop = true ↔ ∃ l ∈ seen, l.context.inLoop = true) ∧
        (∃ l ∈ seen, (∀ k ∈ seen, k.strength ≤ l.strength) ∧ e.strength = clampUnit l.strength) ∧
        e.locations = seen.filterMap (·.location)) ∧
    bare.answers links = links.map bare.joins ∧
    g.dropped = dropped + links.countP bare.misses ∧
    g.edgeCount = ((links.filter bare.joins).map Link.relation).toFinset.card ∧
    g.nodes = nodes ∧
    ∀ others, links.Perm others → ∃ edges, edges.Perm (addLinks bare others).edges ∧
      List.Forall₂ Edge.Alike g.edges edges := by
  intro bare g
  refine ⟨fun r => exists_edge_addLinks_iff, nodup_relations_addLinks, fun e he => ?_, answers_eq bare links,
    ?_, ?_, ?_, fun others => alike_of_perm⟩
  · have hsums := sumsUp_of_mem he
    obtain ⟨l, ⟨hl, hgreatest⟩, hstrength⟩ := hsums.strongest
    refine ⟨hsums.calls, ?_, ?_, ?_, ⟨l, hl, hgreatest, hstrength⟩, ?_⟩
    · rw [hsums.kept, Link.wrap64_keptCalls]
    · rw [hsums.conditional, List.any_eq_true]
    · rw [hsums.inLoop, List.any_eq_true]
    · rw [hsums.places, List.filterMap_eq_flatMap_toList]
  · exact congrArg SymbolGraph.dropped (addLinks_eq bare links)
  · have hlength : g.edgeCount = (g.edges.map Edge.relation).length := (List.length_map _).symm
    rw [hlength, ← List.toFinset_card_of_nodup nodup_relations_addLinks]
    congr 1
    ext r
    rw [List.mem_toFinset, List.mem_toFinset]
    exact mem_relations_addLinks
  · exact congrArg SymbolGraph.nodes (addLinks_eq bare links)

end SymbolGraph

/-! ## The access

An edge keeps the access of its first observation and merges the others into it, one by one. Reading and
writing become both. A later observation that has both adds nothing, though: an edge that was read first is
still read only after it, and so the access depends on the order. It is the union of all accesses exactly
when the first observation has both, when no later one has, or when the two kinds of access came up one by
one.
-/

namespace Access

def touches (a : Access) : Bool := a == read || a == write || a == readWrite

/-- All that some accesses do: nothing but reading, nothing but writing, or both. -/
def union (accesses : List Access) : Access :=
  if accesses.all (· == read) then read
  else if accesses.all (· == write) then write
  else readWrite

theorem touches_iff {a : Access} : a.touches = true ↔ a = read ∨ a = write ∨ a = readWrite := by
  simp [touches, or_assoc]

theorem union_readWrite (later : List Access) : union (readWrite :: later) = readWrite := rfl

theorem union_cons {first : Access} (hfirst : first = read ∨ first = write) (later : List Access) :
    union (first :: later) = if later.all (· == first) then first else readWrite := by
  rcases hfirst with rfl | rfl <;> simp [union]

/-- Merged one by one, later accesses count as far as they are only reading or only writing. -/
theorem foldl_merge {first : Access} {later : List Access} (hfirst : first.touches = true)
    (hlater : ∀ a ∈ later, a.touches = true) :
    later.foldl merge first = union (first :: later.filter (· != readWrite)) := by
  induction later generalizing first with
  | nil => rcases touches_iff.mp hfirst with rfl | rfl | rfl <;> rfl
  | cons a rest ih =>
      obtain ⟨ha, hrest⟩ := List.forall_mem_cons.mp hlater
      have hmerge : (merge first a).touches = true := by
        rcases touches_iff.mp hfirst with rfl | rfl | rfl <;>
          rcases touches_iff.mp ha with rfl | rfl | rfl <;> rfl
      rw [List.foldl_cons, ih hmerge hrest]
      rcases touches_iff.mp hfirst with rfl | rfl | rfl <;>
        rcases touches_iff.mp ha with rfl | rfl | rfl <;> simp [merge, union]

/-- The later accesses that do both change the union exactly when the first access does one thing and
the others do no other thing. -/
theorem union_filter_eq_iff {first : Access} {later : List Access} (hfirst : first.touches = true) :
    union (first :: later.filter (· != readWrite)) = union (first :: later) ↔
      first = readWrite ∨ readWrite ∉ later ∨ ∃ a ∈ later, a ≠ readWrite ∧ a ≠ first := by
  by_cases hboth : first = readWrite
  · subst hboth
    rw [union_readWrite, union_readWrite]
    simp
  have hone : first = read ∨ first = write := by
    rcases touches_iff.mp hfirst with h | h | h
    · exact .inl h
    · exact .inr h
    · exact absurd h hboth
  by_cases hlater : readWrite ∈ later
  · have hnotAll : later.all (· == first) = false := by
      rw [List.all_eq_false]
      exact ⟨readWrite, hlater, by simpa using Ne.symm hboth⟩
    rw [union_cons hone, union_cons hone, hnotAll]
    simp [hboth, hlater]
  · have hfilter : later.filter (· != readWrite) = later := by
      rw [List.filter_eq_self]
      intro a ha
      simpa using fun h : a = readWrite => hlater (h ▸ ha)
    rw [hfilter]
    simp [hlater]

end Access

def Edge.MergesAccess (e : Edge) (links : List Link) : Prop :=
  ∃ first later, links.map (·.context.access) = first :: later ∧
    e.context.access = later.foldl Access.merge first

namespace Edge

theorem mergesAccess_ofLink (l : Link) : (ofLink l).MergesAccess [l] :=
  ⟨l.context.access, [], rfl, rfl⟩

theorem MergesAccess.absorb {e : Edge} {links : List Link} (h : e.MergesAccess links) (l : Link) :
    (e.absorb l).MergesAccess (links ++ [l]) := by
  obtain ⟨first, later, hlinks, haccess⟩ := h
  refine ⟨first, later ++ [l.context.access], by simp [hlinks], ?_⟩
  rw [List.foldl_append, ← haccess]
  rfl

end Edge

namespace SymbolGraph

open Build

/-- When the observations of a relation read, write or do both, its edge has the union of the first
access and of the later ones that do one thing. That is the union of all of them if and only if the first
one does both, none of the later ones does, or one of these does only what the first one does not. -/
theorem access_of_first_and_single (nodes : List Node) (dropped : Nat) (links : List Link) (l : Link)
    (hl : l ∈ links) (hjoins : (start nodes dropped).joins l = true)
    (htouches : ∀ k ∈ links, k.relation = l.relation → k.context.access.touches = true) :
    ∃ e ∈ (addLinks (start nodes dropped) links).edges, e.relation = l.relation ∧
      ∃ first later, (links.filter (·.relation == l.relation)).map (·.context.access) = first :: later ∧
        e.context.access = Access.union (first :: later.filter (· != .readWrite)) ∧
        (e.context.access = Access.union (first :: later) ↔
          first = .readWrite ∨ .readWrite ∉ later ∨ ∃ a ∈ later, a ≠ .readWrite ∧ a ≠ first) := by
  obtain ⟨⟨hne, hsource⟩, htarget⟩ := by simpa [joins] using hjoins
  obtain ⟨e, he, hrelation⟩ :=
    exists_edge_addLinks_iff.mpr ⟨⟨l, hl, rfl⟩, hne, hsource, htarget⟩
  have hfits : (fun k : Link => k.fits e) = fun k => k.relation == l.relation := by
    funext k
    rw [Bool.eq_iff_iff, Link.fits_iff, hrelation, beq_iff_eq, eq_comm]
  obtain ⟨first, later, hmap, haccess⟩ :=
    holds_of_mem_addLinks Edge.mergesAccess_ofLink (fun _ _ k h => h.absorb k) he
  rw [hfits] at hmap
  have hall : ∀ a ∈ first :: later, a.touches = true := by
    rw [← hmap]
    intro a ha
    obtain ⟨k, hk, rfl⟩ := List.mem_map.mp ha
    obtain ⟨hmem, hsame⟩ := List.mem_filter.mp hk
    exact htouches k hmem (beq_iff_eq.mp hsame)
  obtain ⟨hfirst, hlater⟩ := List.forall_mem_cons.mp hall
  rw [Access.foldl_merge hfirst hlater] at haccess
  refine ⟨e, he, hrelation, first, later, hmap, haccess, ?_⟩
  rw [haccess]
  exact Access.union_filter_eq_iff hfirst

def readerAndCell : List Node :=
  [⟨"reader", "f", "p", "reader", .function, "reader", [], ⟨"f", ⟨1, 0⟩, ⟨2, 1⟩⟩, default⟩,
    ⟨"cell", "f", "p", "cell", .var, "cell", [], ⟨"f", ⟨3, 0⟩, ⟨3, 8⟩⟩, default⟩]

def accessesCell (access : Access) : Link :=
  ⟨"reader", "cell", .accesses, 1, none, ⟨1, false, false, access⟩⟩

def readBothWrite : List Link := [accessesCell .read, accessesCell .readWrite, accessesCell .write]

theorem access_of_read_both_write :
    (accessesCell .read ∈ readBothWrite ∧ (start readerAndCell 0).joins (accessesCell .read) = true ∧
      ∀ k ∈ readBothWrite, k.relation = (accessesCell .read).relation → k.context.access.touches = true) ∧
    ∃ e ∈ (addLinks (start readerAndCell 0) readBothWrite).edges, e.context.access = .readWrite := by
  have hmem : accessesCell .read ∈ readBothWrite := by simp [readBothWrite]
  have hjoins : (start readerAndCell 0).joins (accessesCell .read) = true := by decide +kernel
  have htouches : ∀ k ∈ readBothWrite, k.relation = (accessesCell .read).relation →
      k.context.access.touches = true := by decide +kernel
  obtain ⟨e, he, -, first, later, hmap, haccess, -⟩ :=
    access_of_first_and_single readerAndCell 0 readBothWrite _ hmem hjoins htouches
  have hseen : (readBothWrite.filter (·.relation == (accessesCell .read).relation)).map
      (·.context.access) = [.read, .readWrite, .write] := by decide +kernel
  obtain ⟨rfl, rfl⟩ := List.cons.inj (hseen.symm.trans hmap)
  exact ⟨⟨hmem, hjoins, htouches⟩, e, he, haccess⟩

/-- Of reading first and doing both later only the reading is left, although the union is both, and although
the edge has both when the two come in the other order. -/
theorem later_both_is_lost :
    (∀ access ∈ [Access.read, Access.readWrite], access.touches = true ∧
      (start readerAndCell 0).joins (accessesCell access) = true) ∧
    Access.union [.read, .readWrite] = .readWrite ∧
    (addLinks (start readerAndCell 0) [accessesCell .read, accessesCell .readWrite]).edges.map
      (·.context.access) = [.read] ∧
    (addLinks (start readerAndCell 0) [accessesCell .readWrite, accessesCell .read]).edges.map
      (·.context.access) = [.readWrite] := by
  decide +kernel

end SymbolGraph

end CodeAtlas
