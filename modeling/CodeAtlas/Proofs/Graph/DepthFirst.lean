import CodeAtlas.Proofs.Graph.Walks
import Mathlib.Data.List.Perm.Subperm

/-!
# The search in depth

The search as it goes on by itself, with nothing to stop it but its own end: one rule for each turn that
it can take. Every path that it follows has each node once, so a path never grows longer than the list
of the nodes, and the search comes to its end, with one outcome.
-/

namespace CodeAtlas.SymbolGraph

variable {targets : Std.HashMap String (List String)} {path ids nodes : List String}
  {seen seen' : Std.HashSet String} {found found' : Option (List String)} {id next : String}

/-- Going through neighbours of the last node of a path, which is given back to front. Of the two sets
the first has the nodes that were seen before, the second those that are seen afterwards. -/
inductive Scans (targets : Std.HashMap String (List String)) : (path : List String) →
    Std.HashSet String → (ids : List String) → Std.HashSet String → Option (List String) → Prop where
  | done {path : List String} {seen : Std.HashSet String} : Scans targets path seen [] seen none
  | closed {path rest : List String} {seen : Std.HashSet String} {next : String}
      (hseen : next ∈ seen) (hpath : next ∈ path) :
      Scans targets path seen (next :: rest) seen (some (cycleFrom next path))
  | passed {path rest : List String} {seen seen' : Std.HashSet String} {next : String}
      {found : Option (List String)} (hseen : next ∈ seen) (hpath : next ∉ path)
      (hrest : Scans targets path seen rest seen' found) :
      Scans targets path seen (next :: rest) seen' found
  | caught {path rest cycle : List String} {seen seen' : Std.HashSet String} {next : String}
      (hnew : next ∉ seen) (hvisit : Scans targets (next :: path) (seen.insert next)
        (successors targets next) seen' (some cycle)) :
      Scans targets path seen (next :: rest) seen' (some cycle)
  | explored {path rest : List String} {seen between seen' : Std.HashSet String} {next : String}
      {found : Option (List String)} (hnew : next ∉ seen)
      (hvisit : Scans targets (next :: path) (seen.insert next) (successors targets next) between none)
      (hrest : Scans targets path between rest seen' found) :
      Scans targets path seen (next :: rest) seen' found

/-- Beginning a search from every node of a list that has not been seen. -/
inductive Searches (targets : Std.HashMap String (List String)) :
    Std.HashSet String → (ids : List String) → (cycles : List (List String)) → Prop where
  | done {seen : Std.HashSet String} : Searches targets seen [] []
  | passed {seen : Std.HashSet String} {id : String} {rest : List String} {cycles : List (List String)}
      (hseen : id ∈ seen) (hrest : Searches targets seen rest cycles) :
      Searches targets seen (id :: rest) cycles
  | caught {seen seen' : Std.HashSet String} {id : String} {rest cycle : List String}
      {cycles : List (List String)} (hnew : id ∉ seen)
      (hvisit : Scans targets [id] (seen.insert id) (successors targets id) seen' (some cycle))
      (hrest : Searches targets seen' rest cycles) :
      Searches targets seen (id :: rest) (cycle :: cycles)
  | explored {seen seen' : Std.HashSet String} {id : String} {rest : List String}
      {cycles : List (List String)} (hnew : id ∉ seen)
      (hvisit : Scans targets [id] (seen.insert id) (successors targets id) seen' none)
      (hrest : Searches targets seen' rest cycles) :
      Searches targets seen (id :: rest) cycles

theorem Scans.subset (h : Scans targets path seen ids seen' found) (hid : id ∈ seen) : id ∈ seen' := by
  induction h with
  | done => exact hid
  | closed => exact hid
  | passed _ _ _ ih => exact ih hid
  | caught _ _ ih => exact ih (Std.HashSet.mem_insert.mpr (.inr hid))
  | explored _ _ _ ihvisit ihrest => exact ihrest (ihvisit (Std.HashSet.mem_insert.mpr (.inr hid)))

theorem marked_cons (hmarked : ∀ k ∈ path, k ∈ seen) : ∀ k ∈ next :: path, k ∈ seen.insert next := by
  intro k hk
  rcases List.mem_cons.mp hk with rfl | hold
  · exact Std.HashSet.mem_insert_self
  · exact Std.HashSet.mem_insert.mpr (.inr (hmarked k hold))

/-! ## One outcome -/

theorem Scans.unique {other : Std.HashSet String} (h : Scans targets path seen ids seen' found)
    (h' : Scans targets path seen ids other found') : other = seen' ∧ found' = found := by
  induction h generalizing other found' with
  | done =>
      cases h'
      exact ⟨rfl, rfl⟩
  | closed hseen hpath =>
      cases h' with
      | closed => exact ⟨rfl, rfl⟩
      | passed _ hoff _ => exact absurd hpath hoff
      | caught hnew _ => exact absurd hseen hnew
      | explored hnew _ _ => exact absurd hseen hnew
  | passed hseen hpath _ ih =>
      cases h' with
      | closed _ hon => exact absurd hon hpath
      | passed _ _ hrest => exact ih hrest
      | caught hnew _ => exact absurd hseen hnew
      | explored hnew _ _ => exact absurd hseen hnew
  | caught hnew _ ih =>
      cases h' with
      | closed hseen _ => exact absurd hseen hnew
      | passed hseen _ _ => exact absurd hseen hnew
      | caught _ hvisit => exact ih hvisit
      | explored _ hvisit _ => exact absurd (ih hvisit).2 (by simp)
  | explored hnew _ _ ihvisit ihrest =>
      cases h' with
      | closed hseen _ => exact absurd hseen hnew
      | passed hseen _ _ => exact absurd hseen hnew
      | caught _ hvisit => exact absurd (ihvisit hvisit).2 (by simp)
      | explored _ hvisit hrest =>
          obtain ⟨rfl, -⟩ := ihvisit hvisit
          exact ihrest hrest

theorem Searches.unique {cycles cycles' : List (List String)} (h : Searches targets seen ids cycles)
    (h' : Searches targets seen ids cycles') : cycles' = cycles := by
  induction h generalizing cycles' with
  | done =>
      cases h'
      rfl
  | passed hseen _ ih =>
      cases h' with
      | passed _ hrest => exact ih hrest
      | caught hnew _ _ => exact absurd hseen hnew
      | explored hnew _ _ => exact absurd hseen hnew
  | caught hnew hvisit _ ih =>
      cases h' with
      | passed hseen _ => exact absurd hseen hnew
      | caught _ hvisit' hrest =>
          obtain ⟨rfl, hcycle⟩ := hvisit.unique hvisit'
          rw [ih hrest, Option.some.inj hcycle]
      | explored _ hvisit' _ => exact absurd (hvisit.unique hvisit').2 (by simp)
  | explored hnew hvisit _ ih =>
      cases h' with
      | passed hseen _ => exact absurd hseen hnew
      | caught _ hvisit' _ => exact absurd (hvisit.unique hvisit').2 (by simp)
      | explored _ hvisit' hrest =>
          obtain ⟨rfl, -⟩ := hvisit.unique hvisit'
          exact ih hrest

/-! ## An end -/

/-- If the visits of new neighbours come to an end, going through the neighbours does. -/
theorem scans_scan_of_visit {visit : Std.HashSet String → String → Std.HashSet String × Option (List String)}
    (hvisit : ∀ seen next, (∀ id ∈ path, id ∈ seen) → next ∉ seen → next ∈ nodes →
      Scans targets (next :: path) (seen.insert next) (successors targets next)
        (visit seen next).1 (visit seen next).2)
    (hmarked : ∀ id ∈ path, id ∈ seen) (hids : ∀ id ∈ ids, id ∈ nodes) :
    Scans targets path seen ids (scan visit path seen ids).1 (scan visit path seen ids).2 := by
  induction ids generalizing seen with
  | nil => exact .done
  | cons next rest ih =>
      have hrest : ∀ id ∈ rest, id ∈ nodes := fun id hid => hids id (List.mem_cons_of_mem next hid)
      unfold scan
      by_cases hseen : next ∈ seen
      · rw [if_pos (Std.HashSet.contains_iff_mem.mpr hseen)]
        by_cases hpath : next ∈ path
        · rw [if_pos (by simpa using hpath)]
          exact .closed hseen hpath
        · rw [if_neg (by simpa using hpath)]
          exact .passed hseen hpath (ih hmarked hrest)
      · rw [if_neg (mt Std.HashSet.contains_iff_mem.mp hseen)]
        have hnext := hvisit seen next hmarked hseen (hids next (by simp))
        match hresult : visit seen next with
        | (between, some cycle) =>
            rw [hresult] at hnext
            exact .caught hseen hnext
        | (between, none) =>
            rw [hresult] at hnext
            have hstill : ∀ id ∈ path, id ∈ between := fun id hid =>
              hnext.subset (Std.HashSet.mem_insert.mpr (.inr (hmarked id hid)))
            exact .explored hseen hnext (ih hstill hrest)

/-- A path over nodes can grow as long as it has less of them than there are. -/
theorem scans_visit (hinside : ∀ a, ∀ b ∈ successors targets a, b ∈ nodes) {room : Nat}
    (honce : path.Nodup) (hpath : path ⊆ nodes) (hroom : nodes.length ≤ room + path.length)
    (hmarked : ∀ id ∈ path, id ∈ seen) (hnew : next ∉ seen) (hnext : next ∈ nodes) :
    Scans targets (next :: path) (seen.insert next) (successors targets next)
      (visit targets room path seen next).1 (visit targets room path seen next).2 := by
  induction room generalizing path seen next with
  | zero =>
      have hlonger : (next :: path).Nodup := List.nodup_cons.mpr ⟨fun h => hnew (hmarked next h), honce⟩
      have hshort := (hlonger.subperm (List.cons_subset.mpr ⟨hnext, hpath⟩)).length_le
      rw [List.length_cons] at hshort
      omega
  | succ room ih =>
      refine scans_scan_of_visit (fun seen' k hmarked' hnew' hk => ?_) (marked_cons hmarked)
        (hinside next)
      refine ih (List.nodup_cons.mpr ⟨fun h => hnew (hmarked next h), honce⟩)
        (List.cons_subset.mpr ⟨hnext, hpath⟩) ?_ hmarked' hnew' hk
      rw [List.length_cons]
      omega

theorem searches_searchAll (hinside : ∀ a, ∀ b ∈ successors targets a, b ∈ nodes) {room : Nat}
    (hroom : nodes.length ≤ room) (hids : ∀ id ∈ ids, id ∈ nodes) :
    Searches targets seen ids (searchAll targets room seen ids) := by
  induction ids generalizing seen with
  | nil => exact .done
  | cons id rest ih =>
      have hrest : ∀ k ∈ rest, k ∈ nodes := fun k hk => hids k (List.mem_cons_of_mem id hk)
      unfold searchAll
      by_cases hseen : id ∈ seen
      · rw [if_pos (Std.HashSet.contains_iff_mem.mpr hseen)]
        exact .passed hseen (ih hrest)
      · rw [if_neg (mt Std.HashSet.contains_iff_mem.mp hseen)]
        have hvisit := scans_visit hinside List.nodup_nil (List.nil_subset nodes) hroom
          (by simp) hseen (hids id (by simp))
        match hresult : visit targets room [] seen id with
        | (seen', some cycle) =>
            rw [hresult] at hvisit
            exact .caught hseen hvisit (ih hrest)
        | (seen', none) =>
            rw [hresult] at hvisit
            exact .explored hseen hvisit (ih hrest)

/-- The search comes to its end by itself, and the cycles are its only outcome. -/
theorem WellFormed.searches_iff {g : SymbolGraph} (h : g.WellFormed) {cycles : List (List String)} :
    Searches g.targets ∅ g.nodeIds cycles ↔ cycles = g.cycles := by
  have hends : Searches g.targets ∅ g.nodeIds g.cycles := by
    have hinside : ∀ a, ∀ b ∈ successors g.targets a, b ∈ g.nodeIds := fun a b hb =>
      (h.mem_of_points (mem_successors.mp hb)).2
    exact searches_searchAll hinside (by simp [nodeIds, sorted]) fun id hid => hid
  exact ⟨hends.unique, fun heq => heq ▸ hends⟩

end CodeAtlas.SymbolGraph
