import CodeAtlas.Proofs.Graph.Building

/-!
# What the passes observe

A pass over a file takes up the usages of the file and then its declarations, each by itself. Only the bases
that headers mention depend on what has been recorded before. So for edges of any other kinds the
observations of a built graph can be listed beforehand: they are those of the files, in the order of the
files, and an edge tells what the observations of its relation in that list say.
-/

namespace CodeAtlas

namespace Build

open SymbolGraph

/-- What the declaration of a symbol tells, apart from bases. -/
def declared (files : List FileRecord) (f : FileRecord) (s : Symbol) : List Link :=
  (if isData s.kind then typeUses files f s else []) ++ (containment? files f s).toList

/-- What the usages and the declarations of a file tell, apart from bases. -/
def observed (files : List FileRecord) (f : FileRecord) : List Link :=
  f.usages.filterMap (ofUsage? files f) ++ f.symbols.flatMap (declared files f)

/-- An observation between two symbols, of a wanted kind. -/
def isNoted (wanted : EdgeKind → Bool) (l : Link) : Bool := wanted l.kind && l.source != l.target

/-- The kinds are not those of bases. -/
structure BesidesBases (wanted : EdgeKind → Bool) : Prop where
  inherits : wanted .inherits = false
  implements : wanted .implements = false

/-- A graph under construction, with the observations of the wanted kinds that it has recorded. -/
structure Notes (files : List FileRecord) (wanted : EdgeKind → Bool) (noted : List Link)
    (g : SymbolGraph) : Prop where
  records : ∃ links, g.Records links ∧ links.filter (wanted ·.kind) = noted
  nodes : ∀ id, g.hasNode id = isSymbol files id

variable {files : List FileRecord} {f : FileRecord} {wanted : EdgeKind → Bool} {noted : List Link}
  {g : SymbolGraph} {s t : Symbol}

theorem BesidesBases.not_noted (h : BesidesBases wanted) :
    isNoted wanted (inheritanceLink f s t) = false := by
  unfold isNoted inheritanceLink
  dsimp only
  split
  · rw [h.implements, Bool.false_and]
  · rw [h.inherits, Bool.false_and]

/-- The kinds of the edges that each kind of usage makes. -/
theorem kinds_of_ofUsage? {u : Usage} {l : Link} (h : ofUsage? files f u = some l) :
    (u.kind = .call ∧ (l.kind = .instantiates ∨ l.kind = .calls)) ∨
    (u.kind = .reference ∧ (l.kind = .references ∨ l.kind = .uses)) ∨
    (u.kind = .assignment ∧ l.kind = .modifies) := by
  unfold ofUsage? at h
  obtain ⟨source, -, h⟩ := Option.bind_eq_some_iff.mp h
  obtain ⟨⟨kind, access, target⟩, htarget, h⟩ := Option.bind_eq_some_iff.mp h
  obtain rfl := Option.some.inj h
  unfold usageLink? at htarget
  split at htarget
  case h_1 huse =>
      obtain ⟨resolved, -, heq⟩ := Option.bind_eq_some_iff.mp htarget
      obtain ⟨rfl, -, -⟩ := by simpa using heq
      exact .inl ⟨huse, ite_eq_or_eq _ _ _⟩
  case h_2 huse =>
      obtain ⟨resolved, -, heq⟩ := Option.bind_eq_some_iff.mp htarget
      obtain ⟨rfl, -, -⟩ := by simpa using heq
      exact .inr (.inl ⟨huse, ite_eq_or_eq _ _ _⟩)
  case h_3 huse =>
      obtain ⟨resolved, -, heq⟩ := Option.bind_eq_some_iff.mp htarget
      obtain ⟨rfl, -, -⟩ := by simpa using heq
      exact .inr (.inr ⟨huse, rfl⟩)
  case h_4 => cases htarget

/-! ## What the passes note -/

namespace Notes

theorem of_same (h : Notes files wanted noted g) (g' : SymbolGraph)
    (hnodes : g'.nodes.map (·.symbolId) = g.nodes.map (·.symbolId)) (hedges : g'.edges = g.edges) :
    Notes files wanted noted g' where
  records := by
    obtain ⟨links, hrecords, hnoted⟩ := h.records
    exact ⟨links, hrecords.of_same g' hnodes hedges, hnoted⟩
  nodes id := by
    rw [← h.nodes id, Bool.eq_iff_iff, hasNode_iff, hasNode_iff, hnodes]

theorem addLink (h : Notes files wanted noted g) {l : Link} (hl : Finds files l) :
    Notes files wanted (noted ++ [l].filter (isNoted wanted)) (g.addLink l).1 := by
  obtain ⟨links, hrecords, rfl⟩ := h.records
  rcases addLink_cases g l with ⟨hne, hsource, htarget, heq⟩ | ⟨hsame, heq⟩ | ⟨hmissing, -⟩
  · rw [heq]
    refine ⟨⟨links ++ [l], hrecords.record hne hsource htarget, ?_⟩, h.nodes⟩
    have hjoins : isNoted wanted l = wanted l.kind := by simp [isNoted, hne]
    simp only [List.filter_append, List.filter_singleton, hjoins]
  · have hself : isNoted wanted l = false := by simp [isNoted, hsame]
    rw [heq, List.filter_singleton, hself, cond_false, List.append_nil]
    exact h
  · rw [h.nodes, h.nodes, hl.source, hl.target] at hmissing
    cases hmissing

theorem addLinks {links : List Link} (h : Notes files wanted noted g)
    (hlinks : ∀ l ∈ links, Finds files l) :
    Notes files wanted (noted ++ links.filter (isNoted wanted)) (addLinks g links) := by
  induction links generalizing g noted with
  | nil => simpa [Build.addLinks] using h
  | cons l rest ih =>
      have hrest := ih (h.addLink (hlinks l (by simp))) fun k hk => hlinks k (List.mem_cons_of_mem l hk)
      rwa [List.append_assoc, ← List.filter_append, List.singleton_append] at hrest

theorem addMentionedBases (h : Notes files wanted noted g) (hbases : BesidesBases wanted)
    (hf : f ∈ files) (hs : isSymbol files s.id = true) :
    Notes files wanted noted (addMentionedBases f s g) := by
  unfold Build.addMentionedBases
  split
  · exact h
  · refine List.foldlRecOn f.symbols _ h fun g' hg' t ht => ?_
    split
    · exact hg'
    · split
      · have hlink := hg'.addLink (finds_inheritanceLink (f := f) hs (isSymbol_of_mem hf ht))
        rwa [List.filter_singleton, hbases.not_noted, cond_false, List.append_nil] at hlink
      · exact hg'

theorem addDeclaration (h : Notes files wanted noted g) (hbases : BesidesBases wanted)
    (hf : f ∈ files) (hs : s ∈ f.symbols) :
    Notes files wanted (noted ++ (declared files f s).filter (isNoted wanted))
      (addDeclaration files f g s) := by
  have hsymbol := isSymbol_of_mem hf hs
  have hnamed : Notes files wanted noted (Build.addLinks g (namedBases files f s)) := by
    have hlinks := h.addLinks fun _ => finds_namedBases (f := f) hsymbol
    have hnone : (namedBases files f s).filter (isNoted wanted) = [] := by
      refine List.filter_eq_nil_iff.mpr fun l hl => ?_
      obtain ⟨base, -, rfl⟩ := List.mem_map.mp hl
      rw [hbases.not_noted]
      exact Bool.false_ne_true
    rwa [hnone, List.append_nil] at hlinks
  have huses := h.addLinks fun _ => finds_typeUses (f := f) hsymbol
  have howner {noted' : List Link} {g' : SymbolGraph} (h' : Notes files wanted noted' g') :=
    h'.addLinks fun _ hl => finds_containment? (f := f) hsymbol (Option.mem_toList.mp hl)
  unfold Build.addDeclaration declared
  rw [List.filter_append, ← List.append_assoc]
  cases s.kind
  case classDecl => simpa [isData] using howner (hnamed.addMentionedBases hbases hf hsymbol)
  case interface => simpa [isData] using howner (h.addMentionedBases hbases hf hsymbol)
  case struct => simpa [isData] using howner hnamed
  case var => exact howner huses
  case field => exact howner huses
  case const => exact howner huses
  all_goals simpa [isData] using howner h

theorem addDeclarations {symbols : List Symbol} (h : Notes files wanted noted g)
    (hbases : BesidesBases wanted) (hf : f ∈ files) (hsymbols : ∀ s ∈ symbols, s ∈ f.symbols) :
    Notes files wanted (noted ++ (symbols.flatMap (declared files f)).filter (isNoted wanted))
      (symbols.foldl (Build.addDeclaration files f) g) := by
  induction symbols generalizing g noted with
  | nil => simpa using h
  | cons s rest ih =>
      rw [List.foldl_cons, List.flatMap_cons, List.filter_append, ← List.append_assoc]
      exact ih (h.addDeclaration hbases hf (hsymbols s (by simp)))
        fun t ht => hsymbols t (List.mem_cons_of_mem s ht)

theorem addFile (h : Notes files wanted noted g) (hbases : BesidesBases wanted) (hf : f ∈ files) :
    Notes files wanted (noted ++ (observed files f).filter (isNoted wanted)) (addFile files g f) := by
  have hfinds : ∀ l ∈ f.usages.filterMap (ofUsage? files f), Finds files l := fun l hl => by
    obtain ⟨u, -, hu⟩ := List.mem_filterMap.mp hl
    exact finds_ofUsage? hf hu
  have hlinks := h.addLinks hfinds
  have hbranches := hlinks.of_same _ (ids_addBranches _ (branches f)) rfl
  have hdeclared := hbranches.addDeclarations hbases hf fun _ hs => hs
  unfold observed
  rw [List.filter_append, ← List.append_assoc]
  exact hdeclared.of_same (countDangling _ f.references) rfl rfl

theorem addFiles {added : List FileRecord} (h : Notes files wanted noted g)
    (hbases : BesidesBases wanted) (hadded : ∀ f ∈ added, f ∈ files) :
    Notes files wanted (noted ++ (added.flatMap (observed files)).filter (isNoted wanted))
      (added.foldl (Build.addFile files) g) := by
  induction added generalizing g noted with
  | nil => simpa using h
  | cons f rest ih =>
      rw [List.foldl_cons, List.flatMap_cons, List.filter_append, ← List.append_assoc]
      exact ih (h.addFile hbases (hadded f (by simp))) fun k hk => hadded k (List.mem_cons_of_mem f hk)

theorem computeFigures (h : Notes files wanted noted g) :
    Notes files wanted noted g.computeFigures :=
  h.of_same g.computeFigures (by simp [SymbolGraph.computeFigures, Function.comp_def]) rfl

/-! ## What is told by what was noted -/

/-- There is an edge for each relation of a wanted kind that was noted, and for no other. -/
theorem exists_edge_iff (h : Notes files wanted noted g) {r : String × String × EdgeKind}
    (hkind : wanted r.2.2 = true) :
    (∃ e ∈ g.edges, e.relation = r) ↔ ∃ l ∈ noted, l.relation = r := by
  obtain ⟨links, hrecords, rfl⟩ := h.records
  have hrelations : r ∈ (merged links).map Edge.relation ↔ r ∈ links.map Link.relation :=
    mem_relations_merged
  rw [← hrecords.edges, List.mem_map, List.mem_map] at hrelations
  rw [hrelations]
  constructor
  · rintro ⟨l, hl, rfl⟩
    exact ⟨l, List.mem_filter.mpr ⟨hl, hkind⟩, rfl⟩
  · rintro ⟨l, hl, rfl⟩
    exact ⟨l, List.mem_of_mem_filter hl, rfl⟩

/-- An edge of a wanted kind is what the noted observations of its relation merge to. -/
theorem holds_of_mem (h : Notes files wanted noted g) {holds : Edge → List Link → Prop}
    (first : ∀ l, holds (.ofLink l) [l])
    (next : ∀ e links l, holds e links → holds (e.absorb l) (links ++ [l])) {e : Edge}
    (he : e ∈ g.edges) (hkind : wanted e.kind = true) : holds e (noted.filter (·.fits e)) := by
  obtain ⟨links, hrecords, rfl⟩ := h.records
  have hall := of_mem_merged first next (hrecords.edges ▸ he)
  have hfits : (links.filter (wanted ·.kind)).filter (·.fits e) = links.filter (·.fits e) := by
    rw [List.filter_filter]
    refine List.filter_congr fun l _ => ?_
    by_cases hfit : l.fits e = true
    · have hsame : e.kind = l.kind := congrArg (·.2.2) (Link.fits_iff.mp hfit)
      rw [← hsame, hkind, Bool.and_true]
    · simp [hfit]
  rwa [hfits]

end Notes

end Build

namespace SymbolGraph

open Build

/-- Of kinds that are not those of bases, a built graph has recorded what its files tell, file by file. -/
theorem notes_build (files : List FileRecord) {wanted : EdgeKind → Bool} (hbases : BesidesBases wanted) :
    Notes files wanted ((files.flatMap (observed files)).filter (isNoted wanted)) (build files) := by
  have hstart : Notes files wanted [] (addNodes files .empty) :=
    ⟨⟨[], records_addNodes files, rfl⟩, (grown_addNodes files).nodes⟩
  have hfiles := hstart.addFiles hbases fun f hf => hf
  rw [List.nil_append] at hfiles
  exact hfiles.computeFigures

end SymbolGraph

end CodeAtlas
