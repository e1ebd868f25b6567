import CodeAtlas.Proofs.Index.Keeps
import Mathlib.Algebra.GroupWithZero.Nat
import Mathlib.Algebra.Ring.Int.Defs
import Mathlib.Data.List.ProdSigma

/-!
# What is read from an index

An open index in order answers from the documents that it keeps. A listed document has no content,
its times are without readings of a clock, and its symbols and references lie in its file. A hit of a
search for references is a use: a symbol and a reference to it in one document.
-/

namespace CodeAtlas

theorem forM_eq_ok {ε α : Type} {step : α → Except ε Unit} {l : List α}
    (h : ∀ a ∈ l, step a = .ok ()) : l.forM step = .ok () := by
  induction l with
  | nil => rfl
  | cons a l ih =>
      change (step a >>= fun _ => l.forM step) = _
      rw [h a List.mem_cons_self]
      exact ih fun b hb => h b (List.mem_cons_of_mem a hb)

theorem forall₂_map_eq {α β γ : Type} {R : α → β → Prop} {f : α → γ} {g : β → γ} {l : List α}
    {l' : List β} (h : List.Forall₂ R l l') (hfg : ∀ a b, R a b → f a = g b) :
    l.map f = l'.map g := by
  induction h with
  | nil => rfl
  | cons hab _ ih => rw [List.map_cons, List.map_cons, hfg _ _ hab, ih]

def IndexedFile.listed (f : IndexedFile) : IndexedFile :=
  { f with lastModified := f.lastModified.plain, lastIndexed := f.lastIndexed.plain }

def Symbol.listed (fileId : String) (s : Symbol) : Symbol := { s.stored with fileId }

def Reference.listed (fileId : String) (r : Reference) : Reference :=
  { r with fileId, location := { r.location with fileId } }

def Document.listed (d : Document) : Document where
  file := d.file.listed
  content := ""
  symbols := d.symbols.map (Symbol.listed d.file.id)
  references := d.references.map (Reference.listed d.file.id)

def Document.byPath (d e : Document) : Bool := d.file.relativePath ≤ e.file.relativePath

def listing (docs : List Document) (projectId : String) : List Document :=
  ((docs.filter (·.file.projectId == projectId)).map Document.listed).mergeSort Document.byPath

theorem listing_perm (docs : List Document) (projectId : String) : (listing docs projectId).Perm
    ((docs.filter (·.file.projectId == projectId)).map Document.listed) :=
  List.mergeSort_perm _ _

namespace DocumentRow

variable {row : DocumentRow} {d : Document}

theorem Keeps.symbols_listed (h : row.Keeps d) :
    row.symbols.map (Database.symbolOf row) = d.symbols.map (Symbol.listed d.file.id) := by
  have hrows := congrArg (List.map fun s : Symbol => { s with fileId := d.file.id }) h.symbols
  rw [List.map_map, List.map_map, ← h.file] at hrows
  rw [← h.file]
  exact hrows

theorem Keeps.references_listed (h : row.Keeps d) :
    row.references.map (fun r => r.reference.listed row.file.id) =
      d.references.map (Reference.listed d.file.id) := by
  rw [h.references, List.map_map, h.file]
  rfl

theorem Keeps.soundReferences (h : row.Keeps d) : ∀ r ∈ row.references, r.spoiled = [] := by
  intro r hr
  rw [h.references] at hr
  obtain ⟨reference, -, rfl⟩ := List.mem_map.mp hr
  rfl

theorem Keeps.length_symbols (h : row.Keeps d) : row.symbols.length = d.symbols.length := by
  simpa using congrArg List.length h.symbols

theorem Keeps.length_references (h : row.Keeps d) :
    row.references.length = d.references.length := by
  simpa using congrArg List.length h.references

def listed (row : DocumentRow) : Document where
  file := row.file.listed
  content := ""
  symbols := row.symbols.map (Database.symbolOf row)
  references := row.references.map fun r => r.reference.listed row.file.id

theorem Keeps.listed_eq (h : row.Keeps d) : row.listed = d.listed := by
  unfold DocumentRow.listed Document.listed
  rw [h.symbols_listed, h.references_listed, h.file]

end DocumentRow

theorem Schema.newest_require {table : String} (h : (table, true) ∈ newest.tables) :
    newest.require table = .ok () := by
  simp [require, has, h]

theorem Schema.newest_requireName {table : String} (h : newest.hasName table = true) :
    newest.requireName table = .ok () := by
  simp [requireName, h]

namespace Database

theorem Keeps.filter {db : Database} {docs : List Document} (h : db.Keeps docs)
    {p : DocumentRow → Bool} {q : Document → Bool} (hpq : ∀ row d, row.Keeps d → p row = q d) :
    List.Forall₂ DocumentRow.Keeps (db.documents.filter p) (docs.filter q) :=
  List.rel_filter (fun row d hrow => by simp [hpq row d hrow]) h.rows

theorem Keeps.exists_of_mem {db : Database} {docs : List Document} (h : db.Keeps docs)
    {row : DocumentRow} (hrow : row ∈ db.documents) : ∃ d, row.Keeps d := by
  obtain ⟨i, hi, rfl⟩ := List.getElem_of_mem hrow
  exact ⟨_, h.rows.get hi (by rwa [← h.rows.length_eq])⟩

theorem Keeps.length_documents {db : Database} {docs : List Document} (h : db.Keeps docs) :
    db.tables.documents.length = docs.length := by
  rw [← h.rows.length_eq, documents, DocumentTables.joined, List.length_map]

/-- There are as many rows of symbols as the documents have symbols: none is left without its document. -/
theorem Keeps.length_symbols {db : Database} {docs : List Document} (h : db.Keeps docs) :
    db.tables.symbols.length = (docs.map (·.symbols.length)).sum :=
  calc db.tables.symbols.length
      = (db.documents.flatMap (·.symbols)).length := by
        rw [documents, h.tables.perm_symbols.length_eq, List.length_map]
    _ = (db.documents.map (·.symbols.length)).sum := List.length_flatMap
    _ = (docs.map (·.symbols.length)).sum := by
        rw [forall₂_map_eq h.rows fun row d hrow => hrow.length_symbols]

theorem Keeps.length_references {db : Database} {docs : List Document} (h : db.Keeps docs) :
    db.tables.references.length = (docs.map (·.references.length)).sum :=
  calc db.tables.references.length
      = (db.documents.flatMap (·.references)).length := by
        rw [documents, h.tables.perm_references.length_eq, List.length_map]
    _ = (db.documents.map (·.references.length)).sum := List.length_flatMap
    _ = (docs.map (·.references.length)).sum := by
        rw [forall₂_map_eq h.rows fun row d hrow => hrow.length_references]

theorem readable_of_sound {spoiled : List String} (h : spoiled = []) :
    readable spoiled = .ok () := by
  rw [h]
  rfl

end Database

namespace Index

variable {ix : Index} {docs : List Document}

theorem reach_eq_ok (hopen : ix.isClosed = false) : ix.reach true = .ok () := by
  simp [reach, hopen]

/-- The documents of a project are those kept for it, in the order of their paths. -/
theorem documents_eq (hopen : ix.isClosed = false) (hkeeps : ix.database.Keeps docs)
    (projectId : String) : ix.documents true projectId = .ok (listing docs projectId) := by
  have hrows := hkeeps.filter (p := (·.file.projectId == projectId))
    (q := (·.file.projectId == projectId)) fun row d hrow => by rw [hrow.file]
  have hkept (row : DocumentRow) (hrow : row ∈ (ix.database.documents.filter
      (·.file.projectId == projectId)).mergeSort fun a b =>
        a.file.relativePath ≤ b.file.relativePath) : ∃ d, row.Keeps d :=
    hkeeps.exists_of_mem (List.mem_of_mem_filter (List.mem_mergeSort.mp hrow))
  unfold documents
  rw [reach_eq_ok hopen, hkeeps.layout]
  simp only
  rw [forM_eq_ok fun row hrow => ?_, forM_eq_ok fun row hrow => ?_, forM_eq_ok fun row hrow => ?_,
    Schema.newest_require (by decide), Schema.newest_require (by decide),
    Schema.newest_require (by decide)]
  · unfold listing
    rw [← forall₂_map_eq hrows fun row d hrow => hrow.listed_eq]
    refine congrArg Except.ok (List.map_mergeSort fun row _ row' _ => rfl)
  · obtain ⟨d, hd⟩ := hkept row hrow
    exact forM_eq_ok fun r hr => Database.readable_of_sound (hd.soundReferences r hr)
  · obtain ⟨d, hd⟩ := hkept row hrow
    exact forM_eq_ok fun s hs => Database.readable_of_sound (hd.soundSymbols s hs)
  · obtain ⟨d, hd⟩ := hkept row hrow
    exact Database.readable_of_sound hd.sound

theorem documents_perm (hopen : ix.isClosed = false) (hkeeps : ix.database.Keeps docs)
    (projectId : String) : ∃ listed, ix.documents true projectId = .ok listed ∧
      listed.Perm ((docs.filter (·.file.projectId == projectId)).map Document.listed) ∧
      listed.Pairwise fun d e => d.file.relativePath ≤ e.file.relativePath := by
  refine ⟨_, documents_eq hopen hkeeps projectId, listing_perm _ _, ?_⟩
  have hsorted : (listing docs projectId).Pairwise fun d e => Document.byPath d e = true :=
    List.pairwise_mergeSort (fun a b c hab hbc => by
      simp only [Document.byPath, decide_eq_true_eq] at hab hbc ⊢
      exact String.le_trans hab hbc)
    (fun a b => by
      simp only [Document.byPath, Bool.or_eq_true, decide_eq_true_eq]
      exact String.le_total a.file.relativePath b.file.relativePath) _
  exact hsorted.imp fun h => by simpa [Document.byPath] using h

/-- Summing up succeeds if no sum on the way leaves the signed 64-bit numbers. -/
theorem lineTotal_eq_ok {start : Int} {counts : List Int}
    (hfits : ∀ n < counts.length, isSigned64 (start + (counts.take (n + 1)).sum) = true) :
    (counts.foldlM (fun sum n => if isSigned64 (sum + n) then .ok (sum + n)
      else .error .overflow) start : Except Cause Int) = .ok (start + counts.sum) := by
  induction counts generalizing start with
  | nil => simp [pure, Except.pure]
  | cons n rest ih =>
      have hfirst := hfits 0 (by simp)
      simp only [Nat.zero_add, List.take_succ_cons, List.take_zero, List.sum_cons, List.sum_nil,
        Int.add_zero] at hfirst
      rw [List.foldlM_cons, if_pos hfirst]
      change List.foldlM _ (start + n) rest = _
      rw [ih, List.sum_cons, Int.add_assoc]
      intro k hk
      have hnext := hfits (k + 1) (by simpa using hk)
      rwa [List.take_succ_cons, List.sum_cons, ← Int.add_assoc] at hnext

theorem lineTotal_eq_error {start : Int} {counts : List Int}
    (hleaves : ∃ n < counts.length, isSigned64 (start + (counts.take (n + 1)).sum) = false) :
    (counts.foldlM (fun sum n => if isSigned64 (sum + n) then .ok (sum + n)
      else .error .overflow) start : Except Cause Int) = .error .overflow := by
  induction counts generalizing start with
  | nil => simp at hleaves
  | cons n rest ih =>
      rw [List.foldlM_cons]
      split
      · rename_i hfirst
        obtain ⟨k, hk, hout⟩ := hleaves
        refine ih ?_
        cases k with
        | zero => simp [hfirst] at hout
        | succ k =>
            refine ⟨k, by simpa using hk, ?_⟩
            rwa [List.take_succ_cons, List.sum_cons, ← Int.add_assoc] at hout
      · rfl

/-- The figures of the documents that are kept, where the lines can be summed up. -/
def figuresOf (docs : List Document) (db : Database) : IndexFigures where
  projects := db.projects.length
  documents := docs.length
  symbols := (docs.map (·.symbols.length)).sum
  references := (docs.map (·.references.length)).sum
  lines := (docs.map (·.file.lineCount)).sum
  lastUpdate := lastUpdate db

theorem figures_eq (hopen : ix.isClosed = false) (hkeeps : ix.database.Keeps docs) :
    ix.figures true =
      if ∀ n < docs.length, isSigned64 ((docs.take (n + 1)).map (·.file.lineCount)).sum = true then
        .ok (figuresOf docs ix.database)
      else .error ⟨["failed to read stats"], .overflow⟩ := by
  have hlines : lineTotal ix.database = (docs.map (·.file.lineCount)).foldlM (fun sum n =>
      if isSigned64 (sum + n) then .ok (sum + n) else .error .overflow) 0 := by
    have hsound : (ix.database.documents.any (·.spoiled.contains "line_count")) = false := by
      rw [List.any_eq_false]
      intro row hrow
      obtain ⟨d, hd⟩ := hkeeps.exists_of_mem hrow
      simp [hd.sound]
    have hcounts : (ix.database.documents.map fun d =>
        if d.spoiled.contains "line_count" then 0 else d.file.lineCount) =
          docs.map (·.file.lineCount) :=
      forall₂_map_eq hkeeps.rows fun row d hrow => by simp [hrow.sound, hrow.file]
    unfold lineTotal
    simp only [hcounts, hsound, Bool.false_eq_true, if_false]
  unfold figures
  simp only
  rw [reach_eq_ok hopen, hkeeps.layout, Schema.newest_requireName (by decide +kernel),
    Schema.newest_requireName (by decide +kernel), Schema.newest_requireName (by decide +kernel),
    Schema.newest_require (by decide), hlines]
  split
  · rename_i hfits
    rw [lineTotal_eq_ok fun n hn => ?_, hkeeps.length_documents, hkeeps.length_symbols,
      hkeeps.length_references, Int.zero_add]
    · rfl
    · rw [← List.map_take, Int.zero_add]
      exact hfits n (by simpa using hn)
  · rename_i hleaves
    push Not at hleaves
    obtain ⟨n, hn, hout⟩ := hleaves
    rw [lineTotal_eq_error]
    · rfl
    · refine ⟨n, by simpa using hn, ?_⟩
      rw [← List.map_take, Int.zero_add]
      simpa using hout

end Index

/-- A use of a symbol: the project and the path of a document, a reference in it, and the symbol of
the document that it refers to. -/
structure Use where
  projectId : String
  path : String
  reference : Reference
  symbol : Symbol
  deriving DecidableEq, Repr

def ReferenceHit.use (h : ReferenceHit) : Use := ⟨h.projectId, h.path, h.reference, h.symbol⟩

/-- The uses in a document of symbols with a name: all pairs of a reference of the wanted kind and a
symbol of that name to which it refers. -/
def Document.uses (d : Document) (name kind : String) : List Use :=
  ((d.references ×ˢ d.symbols).filter fun pair => passes kind pair.1.kind.name &&
    (pair.2.name == name && pair.2.id == pair.1.symbolId)).map fun pair =>
      ⟨d.file.projectId, d.file.relativePath, pair.1.listed d.file.id, pair.2.listed d.file.id⟩

def usesIn (docs : List Document) (q : ReferenceQuery) : List Use :=
  (docs.filter fun d => passes q.projectId d.file.projectId).flatMap (·.uses (trim q.name) q.kind)

namespace DocumentRow

variable {row : DocumentRow} {d : Document}

theorem Keeps.symbols_named (h : row.Keeps d) (name id : String) :
    (row.symbols.filter fun s => s.symbol.name == name && s.symbol.id == id).map
        (Database.symbolOf row) =
      (d.symbols.filter fun s => s.name == name && s.id == id).map (Symbol.listed d.file.id) := by
  have hlisted := congrArg (List.filter fun s : Symbol => s.name == name && s.id == id)
    h.symbols_listed
  rw [List.filter_map, List.filter_map] at hlisted
  exact hlisted

def uses (row : DocumentRow) (name kind : String) : List (DocumentRow × ReferenceRow × SymbolRow) :=
  (row.references.filter fun r => passes kind r.reference.kind.name).flatMap fun r =>
    (row.symbols.filter fun s => s.symbol.name == name && s.symbol.id == r.reference.symbolId).map
      fun s => (row, r, s)

def useOf : DocumentRow × ReferenceRow × SymbolRow → Use
  | (d, r, s) => ⟨d.file.projectId, d.file.relativePath, r.reference.listed d.file.id,
      Database.symbolOf d s⟩

def hitOf (i : Nat) : DocumentRow × ReferenceRow × SymbolRow → ReferenceHit
  | (d, r, s) => ⟨i + 1, d.file.projectId, d.file.relativePath, r.reference.listed d.file.id,
      Database.symbolOf d s⟩

theorem Keeps.uses_eq (h : row.Keeps d) (name kind : String) :
    (row.uses name kind).map useOf = d.uses name kind := by
  unfold DocumentRow.uses Document.uses
  rw [h.references]
  induction d.references with
  | nil => rfl
  | cons r rest ih =>
      have hnamed := congrArg (List.map fun s : Symbol =>
        (⟨d.file.projectId, d.file.relativePath, r.listed d.file.id, s⟩ : Use))
        (h.symbols_named name r.symbolId)
      rw [List.map_map, List.map_map, ← h.file] at hnamed
      rw [List.product_cons, List.filter_append, List.map_append, ← ih, List.map_cons,
        List.filter_map]
      by_cases hkind : passes kind r.kind.name = true
      · rw [List.filter_cons_of_pos (by exact hkind), List.flatMap_cons, List.map_append,
          List.map_map]
        congr 1
        rw [List.map_map, ← h.file]
        simp only [Function.comp_def, hkind, Bool.true_and]
        exact hnamed
      · rw [List.filter_cons_of_neg (by exact hkind)]
        simp [Function.comp_def, hkind]

end DocumentRow

namespace Database

variable {db : Database} {docs : List Document}

def uses (db : Database) (q : ReferenceQuery) : List (DocumentRow × ReferenceRow × SymbolRow) :=
  (db.documents.filter fun d => passes q.projectId d.file.projectId).flatMap
    (·.uses (trim q.name) q.kind)

theorem Keeps.uses_eq (h : db.Keeps docs) (q : ReferenceQuery) :
    (db.uses q).map DocumentRow.useOf = usesIn docs q := by
  have hrows := h.filter (p := fun d => passes q.projectId d.file.projectId)
    (q := fun d => passes q.projectId d.file.projectId) fun row d hrow => by rw [hrow.file]
  unfold uses usesIn
  rw [List.map_flatMap, List.flatMap_def, List.flatMap_def]
  exact congrArg List.flatten (forall₂_map_eq hrows fun row d hrow => hrow.uses_eq _ _)

theorem Keeps.sound_of_mem_uses (h : db.Keeps docs) {q : ReferenceQuery}
    {use : DocumentRow × ReferenceRow × SymbolRow} (huse : use ∈ db.uses q) :
    use.2.1.spoiled = [] ∧ use.2.2.spoiled = [] := by
  obtain ⟨row, hrow, huse⟩ := List.mem_flatMap.mp huse
  obtain ⟨r, hr, huse⟩ := List.mem_flatMap.mp huse
  obtain ⟨s, hs, rfl⟩ := List.mem_map.mp huse
  obtain ⟨d, hd⟩ := h.exists_of_mem (List.mem_of_mem_filter hrow)
  exact ⟨hd.soundReferences r (List.mem_of_mem_filter hr),
    hd.soundSymbols s (List.mem_of_mem_filter hs)⟩

/-- A search that may return all uses returns them in some order. -/
theorem Keeps.searchReferences (h : db.Keeps docs) {q : ReferenceQuery} (hname : trim q.name ≠ "")
    (hlimit : (db.uses q).length ≤ limitOrDefault q.limit) :
    ∃ sorted, List.Perm sorted (db.uses q) ∧ db.searchReferences q =
      .ok (sorted.mapIdx DocumentRow.hitOf) := by
  have hrequired : (do
      db.schema.require "doc_references"
      db.schema.require "documents"
      db.schema.require "doc_symbols") = .ok () := by
    rw [h.layout, Schema.newest_require (by decide), Schema.newest_require (by decide),
      Schema.newest_require (by decide)]
    rfl
  refine ⟨?sorted, ?perm, ?eq⟩
  case eq =>
    unfold Database.searchReferences
    simp only
    rw [if_neg (by simpa using hname), hrequired]
    rw [List.take_of_length_le ?_, forM_eq_ok fun use huse => ?_]
    · rfl
    · have hmem : use ∈ db.uses q := List.mem_mergeSort.mp huse
      obtain ⟨href, hsym⟩ := h.sound_of_mem_uses hmem
      change (readable use.2.1.spoiled >>= fun _ => readable use.2.2.spoiled) = _
      rw [href, hsym]
      rfl
    · rw [List.length_mergeSort]
      exact hlimit
  case perm => exact List.mergeSort_perm _ _

end Database

namespace Index

variable {ix : Index} {docs : List Document}

/-- A search for the references to symbols of a name finds each use once, ranked from one on, as long
as its limit allows as many hits. -/
theorem searchReferences_perm (hopen : ix.isClosed = false) (hkeeps : ix.database.Keeps docs)
    {q : ReferenceQuery} (hname : trim q.name ≠ "")
    (hlimit : (usesIn docs q).length ≤ limitOrDefault q.limit) :
    ∃ hits, ix.searchReferences true q = .ok hits ∧
      (hits.map (·.use)).Perm (usesIn docs q) ∧
      ∀ i (hi : i < hits.length), (hits.get ⟨i, hi⟩).rank = i + 1 := by
  have hfew : (ix.database.uses q).length ≤ limitOrDefault q.limit := by
    rwa [← hkeeps.uses_eq q, List.length_map] at hlimit
  obtain ⟨sorted, hperm, hfound⟩ := hkeeps.searchReferences hname hfew
  refine ⟨sorted.mapIdx DocumentRow.hitOf, ?_, ?_, ?_⟩
  · unfold searchReferences search
    simp only [hfound, reach_eq_ok hopen]
    rfl
  · have huses : (sorted.mapIdx DocumentRow.hitOf).map (·.use) = sorted.map DocumentRow.useOf := by
      apply List.ext_getElem <;> simp [DocumentRow.hitOf, ReferenceHit.use, DocumentRow.useOf]
    rw [huses, ← hkeeps.uses_eq q]
    exact hperm.map _
  · simp [DocumentRow.hitOf]

end Index

end CodeAtlas
