import CodeAtlas.Proofs.Graph.DepthFirst

/-!
# The cycles that are found

A search that is ended by a cycle leaves nodes behind that were seen while some of their neighbours
were not. All of these lie before the cycle on the path, so they lead to it. A node that was left for
good otherwise has only such neighbours as were left for good before it. So whatever was seen leads to
a cycle that was found, or to no cycle at all.
-/

namespace CodeAtlas.SymbolGraph

open Relation (TransGen ReflTransGen)

variable {g : SymbolGraph} {path ids cycle : List String} {earlier cycles : List (List String)}
  {seen seen' : Std.HashSet String} {found : Option (List String)} {id next : String}

/-- A walk, given back to front, that meets no node twice. -/
structure Trail (g : SymbolGraph) (path : List String) : Prop where
  points : path.IsChain fun a b => g.Points b a
  once : path.Nodup

/-- Whether a cycle out of a list can be reached. -/
def LeadsTo (g : SymbolGraph) (cycles : List (List String)) (id : String) : Prop :=
  ∃ cycle ∈ cycles, ∃ c ∈ cycle, ReflTransGen g.Points id c

/-- A node from which a cycle out of a list can be reached, or no cycle at all. -/
def Settled (g : SymbolGraph) (cycles : List (List String)) (id : String) : Prop :=
  g.LeadsTo cycles id ∨ ∀ k, ReflTransGen g.Points id k → ¬TransGen g.Points k k

/-- What was seen is on the path, or settled. -/
def Accounted (g : SymbolGraph) (cycles : List (List String)) (path : List String)
    (seen : Std.HashSet String) : Prop :=
  ∀ k ∈ seen, k ∈ path ∨ g.Settled cycles k

/-! ## The cycle at the end of a path -/

theorem Trail.reflTransGen (h : g.Trail path) {last : String} (hlast : last ∈ path.head?)
    (hid : id ∈ path) : ReflTransGen g.Points id last := by
  have hpoints := h.points
  clear h
  induction path generalizing last with
  | nil => cases hid
  | cons a rest ih =>
      obtain rfl : a = last := by simpa using hlast
      obtain ⟨hnext, hrest⟩ := List.isChain_cons.mp hpoints
      rcases List.mem_cons.mp hid with rfl | hmem
      · exact .refl
      · obtain ⟨b, before, rfl⟩ := List.exists_cons_of_ne_nil (List.ne_nil_of_mem hmem)
        have hreach : ReflTransGen g.Points id b := ih rfl hmem hrest
        exact hreach.tail (hnext b rfl)

theorem Trail.cons (h : g.Trail path) (hnext : ∀ last ∈ path.head?, g.Points last next)
    (hnew : next ∉ path) : g.Trail (next :: path) where
  points := List.isChain_cons.mpr ⟨hnext, h.points⟩
  once := List.nodup_cons.mpr ⟨hnew, h.once⟩

theorem takeWhile_append_isPrefix (h : id ∈ path) : path.takeWhile (· != id) ++ [id] <+: path := by
  induction path with
  | nil => cases h
  | cons a rest ih =>
      by_cases ha : a = id
      · subst ha
        simp
      · rw [List.takeWhile_cons_of_pos (by simpa using ha), List.cons_append]
        exact List.cons_prefix_cons.mpr ⟨rfl, ih ((List.mem_cons.mp h).resolve_left (Ne.symm ha))⟩

theorem mem_of_mem_cycleFrom {k : String} (hid : id ∈ path) (h : k ∈ cycleFrom id path) : k ∈ path :=
  (takeWhile_append_isPrefix hid).subset (List.mem_reverse.mp h)

theorem Trail.nodup_cycleFrom (h : g.Trail path) (hid : id ∈ path) : (cycleFrom id path).Nodup :=
  List.nodup_reverse.mpr (h.once.sublist (takeWhile_append_isPrefix hid).sublist)

theorem Trail.isCycle_cycleFrom (h : g.Trail path) (hid : id ∈ path)
    (hlast : ∀ last ∈ path.head?, g.Points last id) : g.IsCycle (cycleFrom id path) := by
  have hprefix := takeWhile_append_isPrefix hid
  have hcycle : cycleFrom id path = id :: (path.takeWhile (· != id)).reverse := by simp [cycleFrom]
  have hwhole : id :: ((path.takeWhile (· != id)).reverse ++ [id]) =
      (id :: (path.takeWhile (· != id) ++ [id])).reverse := by simp
  rw [hcycle, IsCycle, hwhole, List.isChain_reverse]
  refine List.isChain_cons.mpr ⟨fun last hfirst => hlast last ?_, h.points.prefix hprefix⟩
  obtain ⟨rest, hpath⟩ := hprefix
  rw [← hpath, List.head?_append_of_ne_nil _ (by simp)]
  exact hfirst

/-! ## What a scan leaves -/

theorem LeadsTo.mono {cycles' : List (List String)} (h : g.LeadsTo cycles id)
    (hsub : ∀ cycle ∈ cycles, cycle ∈ cycles') : g.LeadsTo cycles' id := by
  obtain ⟨cycle, hcycle, hreach⟩ := h
  exact ⟨cycle, hsub cycle hcycle, hreach⟩

theorem Settled.mono {cycles' : List (List String)} (h : g.Settled cycles id)
    (hsub : ∀ cycle ∈ cycles, cycle ∈ cycles') : g.Settled cycles' id :=
  h.imp_left fun hleads => hleads.mono hsub

/-- A node is settled once all that it points at is. -/
theorem settled_of_points (h : ∀ b, g.Points id b → g.Settled cycles b) : g.Settled cycles id := by
  by_cases hleads : ∃ b, g.Points id b ∧ g.LeadsTo cycles b
  · obtain ⟨b, hb, cycle, hcycle, c, hc, hreach⟩ := hleads
    exact .inl ⟨cycle, hcycle, c, hc, hreach.head hb⟩
  · have hclear : ∀ b, g.Points id b → ∀ k, ReflTransGen g.Points b k → ¬TransGen g.Points k k :=
      fun b hb => (h b hb).resolve_left fun hb' => hleads ⟨b, hb, hb'⟩
    refine .inr fun k hk hround => ?_
    rcases hk.cases_head with rfl | ⟨b, hb, hbk⟩
    · obtain ⟨b, hb, hback⟩ := Relation.TransGen.head'_iff.mp hround
      exact hclear b hb id hback hround
    · exact hclear b hb k hbk hround

theorem Accounted.enter (h : g.Accounted cycles path seen) (next : String) :
    g.Accounted cycles (next :: path) (seen.insert next) := by
  intro k hk
  rcases Std.HashSet.mem_insert.mp hk with hself | hold
  · exact .inl (by simp [beq_iff_eq.mp hself])
  · exact (h k hold).imp_left (List.mem_cons_of_mem next)

theorem Accounted.leave (h : g.Accounted cycles (next :: path) seen) (hnext : g.Settled cycles next) :
    g.Accounted cycles path seen := by
  intro k hk
  rcases h k hk with hpath | hsettled
  · rcases List.mem_cons.mp hpath with rfl | hpath
    · exact .inr hnext
    · exact .inl hpath
  · exact .inr hsettled

/-- A scan that no cycle ends leaves all settled but the path. -/
theorem Scans.settled (h : Scans g.targets path seen ids seen' found) (hnone : found = none)
    (hseen : g.Accounted earlier path seen) :
    g.Accounted earlier path seen' ∧ ∀ b ∈ ids, g.Settled earlier b := by
  induction h with
  | done => exact ⟨hseen, by simp⟩
  | closed => cases hnone
  | passed hnext hpath _ ih =>
      -- what was seen and is not on the path is settled already
      obtain ⟨hleft, hrest⟩ := ih hnone hseen
      exact ⟨hleft, List.forall_mem_cons.mpr ⟨(hseen _ hnext).resolve_left hpath, hrest⟩⟩
  | caught => cases hnone
  | @explored path rest seen between seen' next found hnew _ _ ihvisit ihrest =>
      -- `next` goes on the path for its own neighbours, and comes off it settled
      obtain ⟨hbetween, hsuccessors⟩ := ihvisit rfl (hseen.enter next)
      have hnext : g.Settled earlier next :=
        settled_of_points fun b hb => hsuccessors b (mem_successors.mpr hb)
      obtain ⟨hleft, hrest⟩ := ihrest hnone (hbetween.leave hnext)
      exact ⟨hleft, List.forall_mem_cons.mpr ⟨hnext, hrest⟩⟩

/-- What is known when a cycle ends a scan. -/
structure Catches (g : SymbolGraph) (earlier : List (List String)) (path : List String)
    (seen seen' : Std.HashSet String) (cycle : List String) : Prop where
  isCycle : g.IsCycle cycle
  once : cycle.Nodup
  fresh : ∀ k ∈ cycle, k ∈ path ∨ k ∉ seen
  marked : ∀ k ∈ cycle, k ∈ seen'
  reached : ∀ k ∈ path, ∃ c ∈ cycle, ReflTransGen g.Points k c
  accounted : g.Accounted (earlier ++ [cycle]) path seen'

/-- A cycle that is found from a new neighbour is as good for the path before it. -/
theorem Catches.leave (h : g.Catches earlier (next :: path) (seen.insert next) seen' cycle)
    (hnew : next ∉ seen) : g.Catches earlier path seen seen' cycle where
  isCycle := h.isCycle
  once := h.once
  fresh k hk := by
    rcases h.fresh k hk with hpath | hfresh
    · rcases List.mem_cons.mp hpath with rfl | hpath
      · exact .inr hnew
      · exact .inl hpath
    · exact .inr fun hold => hfresh (Std.HashSet.mem_insert.mpr (.inr hold))
  marked := h.marked
  reached k hk := h.reached k (List.mem_cons_of_mem next hk)
  accounted := by
    obtain ⟨c, hc, hreach⟩ := h.reached next (by simp)
    exact h.accounted.leave (.inl ⟨cycle, by simp, c, hc, hreach⟩)

theorem Trail.catches (h : g.Trail path) (hsome : path ≠ []) (hmarked : ∀ k ∈ path, k ∈ seen)
    (hseen : g.Accounted earlier path seen) (hid : id ∈ path)
    (hlast : ∀ last ∈ path.head?, g.Points last id) :
    g.Catches earlier path seen seen (cycleFrom id path) where
  isCycle := h.isCycle_cycleFrom hid hlast
  once := h.nodup_cycleFrom hid
  fresh k hk := .inl (mem_of_mem_cycleFrom hid hk)
  marked k hk := hmarked k (mem_of_mem_cycleFrom hid hk)
  reached k hk := by
    obtain ⟨last, before, rfl⟩ := List.exists_cons_of_ne_nil hsome
    exact ⟨id, by simp [cycleFrom], (h.reflTransGen rfl hk).tail (hlast last rfl)⟩
  accounted k hk := (hseen k hk).imp_right fun hsettled => hsettled.mono fun c hc => by simp [hc]

theorem Scans.catches (h : Scans g.targets path seen ids seen' found) (hfound : found = some cycle)
    (htrail : g.Trail path) (hsome : path ≠ [])
    (hids : ∀ last ∈ path.head?, ∀ b ∈ ids, g.Points last b) (hmarked : ∀ k ∈ path, k ∈ seen)
    (hseen : g.Accounted earlier path seen) : g.Catches earlier path seen seen' cycle := by
  induction h with
  | done => cases hfound
  | closed _ hpath =>
      obtain rfl := Option.some.inj hfound
      exact htrail.catches hsome hmarked hseen hpath fun last hlast => hids last hlast _ (by simp)
  | passed _ _ _ ih =>
      exact ih hfound htrail hsome (fun last hlast b hb => hids last hlast b (by simp [hb]))
        hmarked hseen
  | @caught path rest _ seen _ next hnew _ ih =>
      have hlonger : g.Trail (next :: path) :=
        htrail.cons (fun last hlast => hids last hlast next (by simp))
          fun hpath => hnew (hmarked next hpath)
      refine (ih hfound hlonger (by simp) (fun last hlast b hb => ?_) (marked_cons hmarked)
        (hseen.enter next)).leave hnew
      obtain rfl : next = last := by simpa using hlast
      exact mem_successors.mp hb
  | @explored path rest seen between _ next _ hnew hvisit _ _ ih =>
      -- what the visit of `next` saw is settled, so the old path accounts for it
      obtain ⟨hbetween, hsuccessors⟩ := hvisit.settled rfl (hseen.enter next)
      have hstill : ∀ k ∈ seen, k ∈ between := fun k hk =>
        hvisit.subset (Std.HashSet.mem_insert.mpr (.inr hk))
      have hnext : g.Settled earlier next :=
        settled_of_points fun b hb => hsuccessors b (mem_successors.mpr hb)
      have hcaught := ih hfound htrail hsome (fun last hlast b hb => hids last hlast b (by simp [hb]))
        (fun k hk => hstill k (hmarked k hk)) (hbetween.leave hnext)
      exact { hcaught with
        fresh := fun k hk => (hcaught.fresh k hk).imp_right fun h hold => h (hstill k hold) }

/-! ## What the searches from all nodes leave -/

/-- A search from a new node begins with the path that has just that node. -/
theorem Scans.catches_of_start (h : Scans g.targets [id] (seen.insert id) (successors g.targets id) seen'
    (some cycle)) (hnew : id ∉ seen) (hseen : g.Accounted earlier [] seen) :
    g.Catches earlier [] seen seen' cycle := by
  refine (h.catches rfl ⟨.singleton id, List.nodup_singleton id⟩ (by simp) (fun last hlast b hb => ?_)
    (marked_cons (by simp)) (hseen.enter id)).leave hnew
  obtain rfl : id = last := by simpa using hlast
  exact mem_successors.mp hb

theorem Scans.settled_of_start (h : Scans g.targets [id] (seen.insert id) (successors g.targets id) seen'
    none) (hseen : g.Accounted earlier [] seen) : g.Accounted earlier [] seen' := by
  obtain ⟨hleft, hsuccessors⟩ := h.settled rfl (hseen.enter id)
  exact hleft.leave (settled_of_points fun b hb => hsuccessors b (mem_successors.mpr hb))

/-- What is known of the cycles of a list that searches from the nodes of another one find. -/
structure Finds (g : SymbolGraph) (earlier : List (List String)) (seen : Std.HashSet String)
    (ids : List String) (cycles : List (List String)) : Prop where
  isCycle : ∀ cycle ∈ cycles, g.IsCycle cycle
  once : ∀ cycle ∈ cycles, cycle.Nodup
  fresh : ∀ cycle ∈ cycles, ∀ k ∈ cycle, k ∉ seen
  disjoint : cycles.Pairwise List.Disjoint
  settled : ∀ k, k ∈ seen ∨ k ∈ ids → g.Settled (earlier ++ cycles) k

theorem seen_or_later {rest : List String} {k : String} (hstill : ∀ k ∈ seen, k ∈ seen')
    (hid : id ∈ seen') (hk : k ∈ seen ∨ k ∈ id :: rest) : k ∈ seen' ∨ k ∈ rest := by
  rcases hk with hk | hk
  · exact .inl (hstill k hk)
  · rcases List.mem_cons.mp hk with rfl | hk
    · exact .inl hid
    · exact .inr hk

theorem Searches.finds (h : Searches g.targets seen ids cycles) (hseen : g.Accounted earlier [] seen) :
    g.Finds earlier seen ids cycles := by
  induction h generalizing earlier with
  | done => exact ⟨by simp, by simp, by simp, .nil, by simpa [Accounted] using hseen⟩
  | passed hid _ ih =>
      have hfinds := ih hseen
      exact { hfinds with
        settled := fun k hk => hfinds.settled k (seen_or_later (fun _ h => h) hid hk) }
  | @caught seen seen' id rest cycle cycles hnew hvisit _ ih =>
      have hcaught := hvisit.catches_of_start hnew hseen
      have hfinds := ih hcaught.accounted
      have hstill : ∀ k ∈ seen, k ∈ seen' := fun k hk =>
        hvisit.subset (Std.HashSet.mem_insert.mpr (.inr hk))
      have hid : id ∈ seen' := hvisit.subset Std.HashSet.mem_insert_self
      refine ⟨List.forall_mem_cons.mpr ⟨hcaught.isCycle, hfinds.isCycle⟩,
        List.forall_mem_cons.mpr ⟨hcaught.once, hfinds.once⟩,
        List.forall_mem_cons.mpr ⟨fun k hk => (hcaught.fresh k hk).resolve_left (by simp),
          fun later hlater k hk hold => hfinds.fresh later hlater k hk (hstill k hold)⟩,
        List.pairwise_cons.mpr ⟨fun later hlater k hk hk' =>
          hfinds.fresh later hlater k hk' (hcaught.marked k hk), hfinds.disjoint⟩, fun k hk => ?_⟩
      rw [List.append_cons]
      exact hfinds.settled k (seen_or_later hstill hid hk)
  | @explored seen seen' id rest cycles hnew hvisit _ ih =>
      have hfinds := ih (hvisit.settled_of_start hseen)
      have hstill : ∀ k ∈ seen, k ∈ seen' := fun k hk =>
        hvisit.subset (Std.HashSet.mem_insert.mpr (.inr hk))
      have hid : id ∈ seen' := hvisit.subset Std.HashSet.mem_insert_self
      exact { hfinds with
        fresh := fun later hlater k hk hold => hfinds.fresh later hlater k hk (hstill k hold)
        settled := fun k hk => hfinds.settled k (seen_or_later hstill hid hk) }

theorem WellFormed.finds_cycles (h : g.WellFormed) : g.Finds [] ∅ g.nodeIds g.cycles :=
  (h.searches_iff.mpr rfl).finds (by simp [Accounted])

/-- A node of a cycle leads to a cycle that is found. -/
theorem WellFormed.leadsTo_cycles (h : g.WellFormed) (hcycle : g.IsCycle cycle) (hid : id ∈ cycle) :
    g.LeadsTo g.cycles id := by
  have hround := hcycle.transGen hid hid
  obtain ⟨next, hnext, -⟩ := Relation.TransGen.head'_iff.mp hround
  have hsettled := h.finds_cycles.settled id (.inr (h.mem_of_points hnext).1)
  exact hsettled.resolve_right fun hclear => hclear id .refl hround

theorem WellFormed.two_le_length (h : g.WellFormed) (hcycle : g.IsCycle cycle) : 2 ≤ cycle.length := by
  match cycle, hcycle with
  | [a], hcycle =>
      obtain ⟨e, he, hsource, htarget⟩ : g.Points a a := by simpa [IsCycle] using hcycle
      exact absurd (hsource.trans htarget.symm) (h.distinctEnds e he)
  | _ :: _ :: _, _ => simp

/-- The search for cycles comes to its end by itself with one outcome. What is found are cycles of at
least two nodes without a repetition, no two of them share a node, and one is found unless there is
none. -/
theorem cycles_found (calls : List GraphCall) :
    (∀ found, Searches (after calls).targets ∅ (after calls).nodeIds found ↔
      found = (after calls).cycles) ∧
    (∀ cycle ∈ (after calls).cycles, (after calls).IsCycle cycle ∧ cycle.Nodup ∧ 2 ≤ cycle.length) ∧
    (after calls).cycles.Pairwise List.Disjoint ∧
    ((after calls).cycles = [] ↔ (after calls).Acyclic) := by
  have hformed := (records_after calls).wellFormed
  have hfinds := hformed.finds_cycles
  refine ⟨fun found => hformed.searches_iff, fun cycle hcycle => ?_, hfinds.disjoint, ?_⟩
  · exact ⟨hfinds.isCycle cycle hcycle, hfinds.once cycle hcycle,
      hformed.two_le_length (hfinds.isCycle cycle hcycle)⟩
  · constructor
    · intro hnone cycle hcycle
      obtain ⟨id, hid⟩ := List.exists_mem_of_ne_nil cycle fun hnil => by simp [hnil, IsCycle] at hcycle
      obtain ⟨other, hother, -⟩ := hformed.leadsTo_cycles hcycle hid
      simp [hnone] at hother
    · intro hacyclic
      exact List.eq_nil_iff_forall_not_mem.mpr fun cycle hcycle =>
        hacyclic cycle (hfinds.isCycle cycle hcycle)

/-- Every cycle shares a node with one that is found, or all of it leads to one that is found. So a
cycle is not missed if each cycle that it leads to shares a node with it. -/
theorem cycle_found_or_leads_to_found (calls : List GraphCall) {cycle : List String}
    (h : (after calls).IsCycle cycle) :
    (∃ found ∈ (after calls).cycles, (∃ id ∈ cycle, id ∈ found) ∨
      ∀ a ∈ cycle, ∀ b ∈ found, TransGen (after calls).Points a b) ∧
    ((∀ other, (after calls).IsCycle other →
        (∀ a ∈ cycle, ∀ b ∈ other, TransGen (after calls).Points a b) → ∃ id ∈ cycle, id ∈ other) →
      ∃ found ∈ (after calls).cycles, ∃ id ∈ cycle, id ∈ found) := by
  have hformed := (records_after calls).wellFormed
  obtain ⟨id, hid⟩ := List.exists_mem_of_ne_nil cycle fun hnil => by simp [hnil, IsCycle] at h
  obtain ⟨found, hfound, c, hc, hreach⟩ := hformed.leadsTo_cycles h hid
  have hcycle := hformed.finds_cycles.isCycle found hfound
  have hleads : ∀ a ∈ cycle, ∀ b ∈ found, TransGen (after calls).Points a b := fun a ha b hb =>
    ((h.transGen ha hid).trans_left hreach).trans (hcycle.transGen hc hb)
  exact ⟨⟨found, hfound, .inr hleads⟩, fun hshares => ⟨found, hfound, hshares found hcycle hleads⟩⟩

/-- Calls that make a graph with the given nodes and edges. -/
def drawn (ids : List String) (arrows : List (String × String)) : List GraphCall :=
  ids.map (fun id => .addNode { (default : Node) with symbolId := id }) ++
    arrows.map fun a => .addLink ⟨a.1, a.2, .calls, 1, none, ⟨0, false, false, .unknown⟩⟩

/-- Two cycles that share no node, the second of which leads to the first. -/
def eclipse : List GraphCall :=
  drawn ["a", "b", "c", "z"] [("a", "b"), ("a", "z"), ("b", "c"), ("c", "b"), ("z", "a")]

theorem successors_eclipse {id : String} {ids : List String}
    (h : (((after eclipse).dependencies id).map (·.target)).eraseDups = ids)
    (hsorted : ids.Pairwise (· ≤ ·)) : successors (after eclipse).targets id = ids := by
  rw [successors_eq, h, sorted_eq_self hsorted]

/-- The search from `a` is ended by the cycle of `b` and `c` before it gets to `z`, and the search from
`z` passes `a` over, which has been seen. -/
theorem cycles_eclipse : (after eclipse).cycles = [["b", "c"]] := by
  have ha : successors (after eclipse).targets "a" = ["b", "z"] :=
    successors_eclipse (by decide +kernel) (by decide)
  have hb : successors (after eclipse).targets "b" = ["c"] :=
    successors_eclipse (by decide +kernel) (by decide)
  have hc : successors (after eclipse).targets "c" = ["b"] :=
    successors_eclipse (by decide +kernel) (by decide)
  have hz : successors (after eclipse).targets "z" = ["a"] :=
    successors_eclipse (by decide +kernel) (by decide)
  have hids : (after eclipse).nodeIds = ["a", "b", "c", "z"] := sorted_eq_self (by decide +kernel)
  have hfirst : Scans (after eclipse).targets ["a"] (Std.HashSet.insert ∅ "a")
      (successors (after eclipse).targets "a")
      (((Std.HashSet.insert ∅ "a").insert "b").insert "c") (some ["b", "c"]) := by
    rw [ha]
    refine .caught (by simp) ?_
    rw [hb]
    refine .caught (by simp) ?_
    rw [hc]
    exact .closed (by simp) (by simp)
  have hlast : Scans (after eclipse).targets ["z"]
      ((((Std.HashSet.insert ∅ "a").insert "b").insert "c").insert "z")
      (successors (after eclipse).targets "z")
      ((((Std.HashSet.insert ∅ "a").insert "b").insert "c").insert "z") none := by
    rw [hz]
    exact .passed (by simp) (by simp) .done
  refine ((records_after eclipse).wellFormed.searches_iff.mp ?_).symm
  rw [hids]
  exact .caught (by simp) hfirst
    (.passed (by simp) (.passed (by simp) (.explored (by simp) hlast .done)))

theorem eclipse_misses_cycle : (after eclipse).IsCycle ["a", "z"] ∧
    ¬∃ found ∈ (after eclipse).cycles, ∃ id ∈ ["a", "z"], id ∈ found := by
  refine ⟨by decide +kernel, ?_⟩
  rw [cycles_eclipse]
  decide

/-- The cycle that is missed leads to the one that is found. -/
theorem eclipse_leads_to_found : (after eclipse).IsCycle ["a", "z"] ∧
    (∃ found ∈ (after eclipse).cycles, (∃ id ∈ ["a", "z"], id ∈ found) ∨
      ∀ a ∈ ["a", "z"], ∀ b ∈ found, TransGen (after eclipse).Points a b) :=
  have hcycle : (after eclipse).IsCycle ["a", "z"] := by decide +kernel
  ⟨hcycle, (cycle_found_or_leads_to_found eclipse hcycle).1⟩

end CodeAtlas.SymbolGraph
