import CodeAtlas.Extract.Basic
import Mathlib.Data.List.Forall2

/-!
# Resolving usages

Once a strategy has found symbols and usages, the symbols get their identifiers and each usage that
names one of them becomes a reference to the first of that name. The identifiers and the file are all
that the symbols and usages themselves get.
-/

namespace CodeAtlas

/-- The answers of a partial function, beside the arguments that have one. -/
theorem forall₂_filterMap {α β : Type} (f : α → Option β) (xs : List α) :
    List.Forall₂ (fun x y => f x = some y) (xs.filter fun x => (f x).isSome) (xs.filterMap f) := by
  induction xs with
  | nil => exact List.Forall₂.nil
  | cons x rest ih =>
      cases hx : f x with
      | none => simpa [List.filter_cons, List.filterMap_cons, hx] using ih
      | some y =>
          rw [List.filter_cons_of_pos (by simp [hx]), List.filterMap_cons_some hx]
          exact List.Forall₂.cons hx ih

/-- The index has the place of the first symbol with a name. -/
theorem lookup_nameIndex (symbols : List Symbol) (name : String) :
    (nameIndex symbols).lookup name = symbols.findIdx? (·.name == name) := by
  -- what the index has stays, and the places of the symbols that are left are counted on
  have hfold (start : Nat) (index : List (String × Nat)) :
      ((symbols.zipIdx start).foldl indexName index).lookup name =
        (index.lookup name).or ((symbols.findIdx? (·.name == name)).map (· + start)) := by
    induction symbols generalizing start index with
    | nil => simp
    | cons s rest ih =>
        rw [List.zipIdx_cons, List.foldl_cons, ih, List.findIdx?_cons]
        have hnext : (fun i : Nat => i + (start + 1)) = fun i => i + 1 + start := by
          funext i
          omega
        by_cases hname : s.name = name
        · subst hname
          cases hold : index.lookup s.name <;> simp [indexName, hold]
        · have hother : (name == s.name) = false := beq_false_of_ne (Ne.symm hname)
          cases hold : index.lookup s.name <;>
            simp [indexName, hold, hname, hother, List.lookup_cons, hnext, Function.comp_def]
  simpa [nameIndex] using hfold 0 []

theorem resolveUsage?_nameIndex (space : Uuid) (fileId : String) (symbols : List Symbol) (u : Usage) :
    resolveUsage? space fileId symbols (nameIndex symbols) u =
      (symbols.find? (·.name == u.name)).map (referenceTo space fileId u) := by
  rw [resolveUsage?, lookup_nameIndex, ← List.find?_eq_bind_findIdx?_getElem?]

/-- A reference to the symbol that the result gives for the name of the usage, at the place of the
usage. -/
structure Reference.Resolves (found : FileSymbols) (file : String) (u : Usage) (r : Reference) :
    Prop where
  target : ∃ s ∈ found.symbols, found.symbolNamed? u.name = some s ∧ r.symbolId = s.id
  fileId : r.fileId = file
  location : r.location = { u.location with fileId := file }
  kind : r.kind = .usage
  context : r.context = u.context

/-- What of a symbol stays as the strategy found it. -/
def Symbol.heading (s : Symbol) : String × SymbolKind × Position × Position :=
  (s.name, s.kind, s.first, s.last)

def Usage.heading (u : Usage) : String × UsageKind × String × Position × Position :=
  (u.name, u.kind, u.context, u.location.first, u.location.last)

@[simp]
theorem heading_finishSymbol (space : Uuid) (fileId : String) (s : Symbol) :
    (finishSymbol space fileId s).heading = s.heading := by
  simp only [Symbol.heading, finishSymbol]

@[simp]
theorem heading_finishUsage (fileId : String) (u : Usage) :
    (finishUsage fileId u).heading = u.heading := by
  simp only [Usage.heading, finishUsage]

namespace Extraction

variable (e : Extraction) (fileId : String)

theorem finish_symbols :
    (e.finish fileId).symbols = e.symbols.map (finishSymbol (fileSpace fileId) fileId) := rfl

theorem finish_usages : (e.finish fileId).usages = e.usages.map (finishUsage fileId) := rfl

theorem finish_references : (e.finish fileId).references = e.usages.filterMap fun u =>
    ((e.finish fileId).symbolNamed? u.name).map (referenceTo (fileSpace fileId) fileId u) := by
  simp only [finish, resolveUsage?_nameIndex, FileSymbols.symbolNamed?]

theorem map_heading_finish :
    (e.finish fileId).symbols.map Symbol.heading = e.symbols.map Symbol.heading := by
  rw [finish_symbols, List.map_map]
  exact List.map_congr_left fun s _ => heading_finishSymbol _ fileId s

theorem map_heading_finish_usages :
    (e.finish fileId).usages.map Usage.heading = e.usages.map Usage.heading := by
  rw [finish_usages, List.map_map]
  exact List.map_congr_left fun u _ => heading_finishUsage fileId u

theorem fileId_of_mem_symbols {s : Symbol} (h : s ∈ (e.finish fileId).symbols) :
    s.fileId = fileId := by
  rw [finish_symbols] at h
  obtain ⟨s', -, rfl⟩ := List.mem_map.mp h
  rfl

theorem fileId_of_mem_usages {u : Usage} (h : u ∈ (e.finish fileId).usages) :
    u.location.fileId = fileId := by
  rw [finish_usages] at h
  obtain ⟨u', -, rfl⟩ := List.mem_map.mp h
  rfl

end Extraction

section Resolves

variable {space : Uuid} {fileId : String} {found : FileSymbols} {u : Usage} {r : Reference}

theorem isSome_symbolNamed? (found : FileSymbols) (name : String) :
    (found.symbolNamed? name).isSome = decide (∃ s ∈ found.symbols, s.name = name) := by
  rw [Bool.eq_iff_iff, FileSymbols.symbolNamed?, List.find?_isSome, decide_eq_true_iff]
  simp only [beq_iff_eq]

theorem resolves_of_symbolNamed? (h : (found.symbolNamed? u.name).map (referenceTo space fileId u) = some r) :
    r.Resolves found fileId u := by
  obtain ⟨target, hfind, rfl⟩ := Option.map_eq_some_iff.mp h
  exact
    { target := ⟨target, List.mem_of_find?_eq_some hfind, hfind, rfl⟩
      fileId := rfl
      location := rfl
      kind := rfl
      context := rfl }

theorem Reference.Resolves.location_fileId (h : r.Resolves found fileId u) :
    r.location.fileId = fileId := by
  rw [h.location]

end Resolves

namespace Extraction

variable (e : Extraction) (fileId : String)

theorem forall₂_resolves :
    List.Forall₂ (fun u r => r.Resolves (e.finish fileId) fileId u)
      (e.usages.filter fun u => decide (∃ s ∈ (e.finish fileId).symbols, s.name = u.name))
      (e.finish fileId).references := by
  have hanswers := forall₂_filterMap (fun u =>
    ((e.finish fileId).symbolNamed? u.name).map (referenceTo (fileSpace fileId) fileId u)) e.usages
  simp only [Option.isSome_map, isSome_symbolNamed?] at hanswers
  rw [← finish_references] at hanswers
  exact hanswers.imp fun u r hr => resolves_of_symbolNamed? hr

theorem exists_resolves_of_mem {r : Reference} (h : r ∈ (e.finish fileId).references) :
    ∃ u ∈ e.usages, r.Resolves (e.finish fileId) fileId u := by
  rw [finish_references] at h
  obtain ⟨u, hu, hr⟩ := List.mem_filterMap.mp h
  exact ⟨u, hu, resolves_of_symbolNamed? hr⟩

/-- The references are the usages that name a symbol of the file, one each and in their order, and
everything carries the file; symbols and usages stay what they were found to be. -/
theorem finish_resolves_usages :
    let found := e.finish fileId
    List.Forall₂ (fun u r => r.Resolves found fileId u)
        (e.usages.filter fun u => decide (∃ s ∈ found.symbols, s.name = u.name)) found.references ∧
      (∀ s ∈ found.symbols, s.fileId = fileId) ∧
      (∀ u ∈ found.usages, u.location.fileId = fileId) ∧
      (∀ r ∈ found.references, r.fileId = fileId ∧ r.location.fileId = fileId) ∧
      found.symbols.map Symbol.heading = e.symbols.map Symbol.heading ∧
      found.usages.map Usage.heading = e.usages.map Usage.heading := by
  intro found
  have hreferences : ∀ r ∈ found.references, r.fileId = fileId ∧ r.location.fileId = fileId := by
    intro r hr
    obtain ⟨u, -, hresolves⟩ := e.exists_resolves_of_mem fileId hr
    exact ⟨hresolves.fileId, hresolves.location_fileId⟩
  refine ⟨e.forall₂_resolves fileId, ?_, ?_, hreferences, e.map_heading_finish fileId,
    e.map_heading_finish_usages fileId⟩
  · intro s hs
    exact e.fileId_of_mem_symbols fileId hs
  · intro u hu
    exact e.fileId_of_mem_usages fileId hu

end Extraction

end CodeAtlas
