import CodeAtlas.Graph.Basic
import CodeAtlas.Proofs.Number
import Mathlib.Algebra.BigOperators.Group.List.Basic
import Mathlib.Algebra.Order.Ring.Int
import Mathlib.Algebra.Order.Ring.Rat
import Mathlib.Data.List.Induction
import Mathlib.Data.List.Nodup
import Mathlib.Tactic.SplitIfs

/-!
# Merging observations into edges

The edges of a graph depend on nothing but the observations that it has recorded, in their order.
There is one edge for each relation that was observed, and what the edge tells is what the
observations of its relation say together.
-/

namespace CodeAtlas

def Link.relation (l : Link) : String × String × EdgeKind := (l.source, l.target, l.kind)

def Edge.relation (e : Edge) : String × String × EdgeKind := (e.source, e.target, e.kind)

/-- The number of calls that observations stand for, however large it is. -/
def Link.calls (links : List Link) : Int := (links.map Link.count).sum

namespace Link

theorem one_le_count (l : Link) : 1 ≤ l.count := by
  unfold count
  split <;> omega

theorem fits_iff {l : Link} {e : Edge} : l.fits e = true ↔ e.relation = l.relation := by
  simp [fits, relation, Edge.relation, and_assoc]

theorem calls_append (links : List Link) (l : Link) : calls (links ++ [l]) = calls links + l.count := by
  simp [calls]

/-- An observation has at most one place and stands for at least one call. -/
theorem length_places_le_calls (links : List Link) :
    ((links.flatMap (·.location.toList)).length : Int) ≤ calls links := by
  induction links with
  | nil => simp [calls]
  | cons l rest ih =>
      have hplace : (l.location.toList.length : Int) ≤ 1 := by cases l.location <;> simp
      have hcount := l.one_le_count
      simp only [calls, List.map_cons, List.sum_cons, List.flatMap_cons, List.length_append] at ih ⊢
      omega

theorem one_le_calls {links : List Link} (h : links ≠ []) : 1 ≤ calls links := by
  obtain ⟨l, rest, rfl⟩ := List.exists_cons_of_ne_nil h
  have hcount := l.one_le_count
  have hrest := length_places_le_calls rest
  simp only [calls, List.map_cons, List.sum_cons] at hrest ⊢
  omega

end Link

namespace Edge

/-- What an edge tells of the observations that were merged into it. -/
structure Merges (e : Edge) (links : List Link) : Prop where
  observed : links ≠ []
  places : e.locations = links.flatMap (·.location.toList)
  strength : 0 ≤ e.strength ∧ e.strength ≤ 1
  calls : Link.calls links < signedLimit → e.context.callCount = Link.calls links

theorem merges_ofLink (l : Link) : (ofLink l).Merges [l] where
  observed := by simp
  places := by simp [ofLink]
  strength := by
    unfold ofLink clampUnit
    dsimp only
    split_ifs with hneg hbig
    · exact ⟨le_rfl, zero_le_one⟩
    · exact ⟨zero_le_one, le_rfl⟩
    · exact ⟨not_lt.mp hneg, not_lt.mp hbig⟩
  calls _ := by simp [ofLink, Link.calls]

theorem Merges.absorb {e : Edge} {links : List Link} (h : e.Merges links) (l : Link) :
    (e.absorb l).Merges (links ++ [l]) where
  observed := by simp
  places := by simp [Edge.absorb, h.places]
  strength := by
    obtain ⟨hpos, hone⟩ := h.strength
    unfold Edge.absorb atMostOne
    dsimp only
    split_ifs with hless hbig hbig
    · exact ⟨zero_le_one, le_rfl⟩
    · exact ⟨hpos.trans hless.le, not_lt.mp hbig⟩
    · exact ⟨zero_le_one, le_rfl⟩
    · exact ⟨hpos, hone⟩
  calls hsmall := by
    rw [Link.calls_append] at hsmall ⊢
    have hcount := l.one_le_count
    have hbefore := Link.one_le_calls h.observed
    unfold Edge.absorb
    dsimp only
    rw [h.calls (by omega), wrap64_eq_self (by omega) hsmall]

@[simp]
theorem relation_ofLink (l : Link) : (ofLink l).relation = l.relation := rfl

@[simp]
theorem relation_absorb (e : Edge) (l : Link) : (e.absorb l).relation = e.relation := rfl

end Edge

namespace SymbolGraph

/-- The edges that observations make, one after the other. -/
def merged (links : List Link) : List Edge := links.foldl (fun edges l => absorbLink l edges) []

theorem merged_append (links : List Link) (l : Link) :
    merged (links ++ [l]) = absorbLink l (merged links) := by
  simp [merged]

theorem relations_absorbLink (l : Link) (edges : List Edge) :
    (absorbLink l edges).map Edge.relation =
      if l.relation ∈ edges.map Edge.relation then edges.map Edge.relation
      else edges.map Edge.relation ++ [l.relation] := by
  induction edges with
  | nil => simp [absorbLink]
  | cons e rest ih =>
      unfold absorbLink
      by_cases hfits : l.fits e
      · simp [hfits, Link.fits_iff.mp hfits]
      · have hne : l.relation ≠ e.relation := fun heq => hfits (Link.fits_iff.mpr heq.symm)
        simp only [if_neg hfits, List.map_cons, ih, List.mem_cons, hne, false_or]
        split <;> rfl

/-- An edge after an observation: the edge of its relation, or another one as it was. -/
theorem mem_absorbLink {l : Link} {edges : List Edge} {e : Edge}
    (honce : (edges.map Edge.relation).Nodup) (h : e ∈ absorbLink l edges) :
    (e ∈ edges ∧ l.fits e = false) ∨ (∃ e' ∈ edges, l.fits e' = true ∧ e = e'.absorb l) ∨
      ((∀ e' ∈ edges, l.fits e' = false) ∧ e = .ofLink l) := by
  induction edges with
  | nil => exact .inr (.inr ⟨by simp, by simpa [absorbLink] using h⟩)
  | cons first rest ih =>
      rw [List.map_cons, List.nodup_cons] at honce
      unfold absorbLink at h
      split at h
      · rename_i hfits
        rcases List.mem_cons.mp h with rfl | hrest
        · exact .inr (.inl ⟨first, by simp, hfits, rfl⟩)
        · refine .inl ⟨List.mem_cons_of_mem first hrest, ?_⟩
          rw [Bool.eq_false_iff, ne_eq, Link.fits_iff, ← Link.fits_iff.mp hfits]
          exact fun heq => honce.1 (heq ▸ List.mem_map_of_mem hrest)
      · rename_i hfits
        rcases List.mem_cons.mp h with rfl | hrest
        · exact .inl ⟨by simp, by simpa using hfits⟩
        · rcases ih honce.2 hrest with ⟨hmem, hother⟩ | ⟨e', hmem, heq⟩ | ⟨hnone, heq⟩
          · exact .inl ⟨List.mem_cons_of_mem first hmem, hother⟩
          · exact .inr (.inl ⟨e', List.mem_cons_of_mem first hmem, heq⟩)
          · exact .inr (.inr ⟨by simpa [hfits] using hnone, heq⟩)

/-- A relation has one edge. -/
theorem nodup_relations_merged (links : List Link) :
    ((merged links).map Edge.relation).Nodup := by
  induction links using List.reverseRecOn with
  | nil => simp [merged]
  | append_singleton links l ih =>
      rw [merged_append, relations_absorbLink]
      split
      · exact ih
      · rename_i hnew
        rw [← List.concat_eq_append]
        exact ih.concat hnew

theorem mem_relations_merged {links : List Link} {r : String × String × EdgeKind} :
    r ∈ (merged links).map Edge.relation ↔ r ∈ links.map Link.relation := by
  induction links using List.reverseRecOn with
  | nil => simp [merged]
  | append_singleton links l ih =>
      rw [merged_append, relations_absorbLink, List.map_append, List.mem_append, ← ih]
      split
      · rename_i hold
        rw [List.map_singleton, List.mem_singleton]
        exact ⟨.inl, fun h => h.elim id fun heq => heq ▸ hold⟩
      · rw [List.mem_append, List.map_singleton]

/-- What holds of the edge of one observation, and goes on to hold when the edge absorbs another one, holds
of every edge and the observations of its relation. -/
theorem of_mem_merged {holds : Edge → List Link → Prop} (first : ∀ l, holds (.ofLink l) [l])
    (next : ∀ e links l, holds e links → holds (e.absorb l) (links ++ [l])) {links : List Link} {e : Edge}
    (h : e ∈ merged links) : holds e (links.filter (·.fits e)) := by
  induction links using List.reverseRecOn generalizing e with
  | nil => simp [merged] at h
  | append_singleton links l ih =>
      rw [merged_append] at h
      rw [List.filter_append]
      rcases mem_absorbLink (nodup_relations_merged links) h with
        ⟨hmem, hother⟩ | ⟨e', hmem, hfits, rfl⟩ | ⟨hnone, rfl⟩
      · simpa [hother] using ih hmem
      · have hsame (k : Link) : k.fits (e'.absorb l) = k.fits e' := rfl
        simp only [hsame]
        simpa [hfits] using next _ _ l (ih hmem)
      · have hbefore : links.filter (·.fits (.ofLink l)) = [] := by
          rw [List.filter_eq_nil_iff]
          intro k hk hfits
          obtain ⟨e', hmem, hrel⟩ := List.mem_map.mp
            (mem_relations_merged.mpr (List.mem_map_of_mem hk))
          have hl : l.fits e' = true :=
            Link.fits_iff.mpr (hrel.trans (Link.fits_iff.mp hfits).symm)
          exact absurd hl (by simp [hnone e' hmem])
        have hself : l.fits (.ofLink l) = true := Link.fits_iff.mpr rfl
        simpa [hbefore, hself] using first l

/-- An edge tells what the observations of its relation say. -/
theorem merges_of_mem_merged {links : List Link} {e : Edge} (h : e ∈ merged links) :
    e.Merges (links.filter (·.fits e)) :=
  of_mem_merged Edge.merges_ofLink (fun _ _ l hmerges => hmerges.absorb l) h

/-! ## Edges kept under their sources -/

/-- Changes the first edge with the same target and kind, or adds a new one at the end. -/
def absorbUnder (l : Link) : List Edge → List Edge
  | [] => [.ofLink l]
  | e :: rest =>
      if e.target == l.target && e.kind == l.kind then e.absorb l :: rest else e :: absorbUnder l rest

/-- The edges that observations make when they are kept in a table, each list of edges under its
source: an observation is compared with nothing but what is kept under the key of its own source. -/
def keyed (links : List Link) : String → List Edge :=
  links.foldl (fun table l => Function.update table l.source (absorbUnder l (table l.source))) fun _ => []

theorem keyed_append (links : List Link) (l : Link) : keyed (links ++ [l]) =
    Function.update (keyed links) l.source (absorbUnder l (keyed links l.source)) := by
  simp [keyed]

theorem source_of_mem_absorbUnder {l : Link} {edges : List Edge} {e : Edge}
    (h : e ∈ absorbUnder l edges) (hold : ∀ e ∈ edges, e.source = l.source) : e.source = l.source := by
  induction edges with
  | nil =>
      obtain rfl : e = .ofLink l := by simpa [absorbUnder] using h
      rfl
  | cons first rest ih =>
      obtain ⟨hfirst, hrest⟩ := List.forall_mem_cons.mp hold
      unfold absorbUnder at h
      split at h
      · rcases List.mem_cons.mp h with rfl | hmem
        · exact hfirst
        · exact hrest e hmem
      · rcases List.mem_cons.mp h with rfl | hmem
        · exact hfirst
        · exact ih hmem hrest

/-- An edge that is kept under a key has the key as its source. -/
theorem source_of_mem_keyed {links : List Link} {key : String} {e : Edge} (h : e ∈ keyed links key) :
    e.source = key := by
  induction links using List.reverseRecOn generalizing key e with
  | nil => simp [keyed] at h
  | append_singleton links l ih =>
      rw [keyed_append] at h
      by_cases hkey : key = l.source
      · subst hkey
        rw [Function.update_self] at h
        exact source_of_mem_absorbUnder h fun _ => ih
      · rw [Function.update_of_ne hkey] at h
        exact ih h

theorem filter_absorbLink_of_ne {l : Link} {key : String} (h : key ≠ l.source) (edges : List Edge) :
    (absorbLink l edges).filter (·.source == key) = edges.filter (·.source == key) := by
  induction edges with
  | nil => simp [absorbLink, Edge.ofLink, h.symm]
  | cons e rest ih =>
      unfold absorbLink
      split
      · rename_i hfits
        have hsource : e.source = l.source := congrArg Prod.fst (Link.fits_iff.mp hfits)
        have hother : (e.absorb l).source ≠ key := fun heq => h (heq.symm.trans hsource)
        have hother' : e.source ≠ key := hother
        simp [hother, hother']
      · rw [List.filter_cons, List.filter_cons, ih]

theorem filter_absorbLink_self (l : Link) (edges : List Edge) :
    (absorbLink l edges).filter (·.source == l.source) =
      absorbUnder l (edges.filter (·.source == l.source)) := by
  induction edges with
  | nil => simp [absorbLink, absorbUnder, Edge.ofLink]
  | cons e rest ih =>
      unfold absorbLink
      by_cases hsource : e.source = l.source
      · have hfits : l.fits e = (e.target == l.target && e.kind == l.kind) := by
          simp [Link.fits, hsource]
        have hsource' : (e.absorb l).source = l.source := hsource
        rw [List.filter_cons_of_pos (by simpa using hsource), absorbUnder, hfits]
        split
        · exact List.filter_cons_of_pos (by simpa using hsource')
        · rw [List.filter_cons_of_pos (by simpa using hsource), ih]
      · have hfits : ¬l.fits e = true := by simp [Link.fits, hsource]
        rw [if_neg hfits, List.filter_cons_of_neg (by simpa using hsource),
          List.filter_cons_of_neg (by simpa using hsource), ih]

/-- The table holds the edges of the graph, each under its source. -/
theorem keyed_eq_filter (links : List Link) (key : String) :
    keyed links key = (merged links).filter (·.source == key) := by
  induction links using List.reverseRecOn with
  | nil => rfl
  | append_singleton links l ih =>
      rw [keyed_append, merged_append]
      by_cases hkey : key = l.source
      · subst hkey
        rw [Function.update_self, filter_absorbLink_self, ih]
      · rw [Function.update_of_ne hkey, filter_absorbLink_of_ne hkey, ih]

end SymbolGraph

end CodeAtlas
