import CodeAtlas.Index.Store
import CodeAtlas.Proofs.Text.Words
import Mathlib.Data.List.Forall2
import Mathlib.Data.List.Perm.Basic

/-!
# What the rows keep

Symbols and references are found again by the number of their document. A new document gets a number that
no row names, and a document that goes takes all rows along that name it, so to the joined rows insertions
and deletions are those of a plain list, and no row is ever left without its document.

A database in order keeps documents: one joined row for each, in the order in which they were put. A row
adds to its document only what the text indexes note and the form in which tags are kept. The text indexes
can refuse a deletion; they never change what is kept.
-/

namespace CodeAtlas

theorem bind_eq_ok_iff {ε α β : Type} {x : Except ε α} {next : α → Except ε β} {b : β} :
    (x >>= next) = .ok b ↔ ∃ a, x = .ok a ∧ next a = .ok b := by
  cases x with
  | error fault => simp [bind, Except.bind]
  | ok a => simp [bind, Except.bind]

theorem total_cons (n : Nat) (counts : List Nat) : total (n :: counts) = n + total counts := by
  have hfold : counts.foldl (· + ·) (n + 0) = n + counts.foldl (· + ·) 0 := List.foldl_assoc
  unfold total
  rw [List.foldl_cons, Nat.zero_add, ← hfold, Nat.add_zero]

theorem total_perm {counts counts' : List Nat} (h : counts.Perm counts') :
    total counts = total counts' :=
  h.foldl_op_eq

theorem exists_ok_of_map {ε α β : Type} {x : Except ε α} {f : α → β} {b : β}
    (h : x.toOption.map f = some b) : ∃ a, x = .ok a ∧ f a = b := by
  cases x with
  | error fault => simp [Except.toOption] at h
  | ok a => exact ⟨a, rfl, Option.some.inj h⟩

theorem exists_ok_of_isOk {ε α : Type} {x : Except ε α} (h : x.isOk = true) : ∃ a, x = .ok a := by
  cases x with
  | error fault => simp [Except.isOk, Except.toBool] at h
  | ok a => exact ⟨a, rfl⟩

theorem exists_error_of_isOk {ε α : Type} {x : Except ε α} (h : x.isOk = false) :
    ∃ fault, x = .error fault := by
  cases x with
  | error fault => exact ⟨fault, rfl⟩
  | ok a => simp [Except.isOk, Except.toBool] at h

theorem exists_eq_error {σ ε α : Type} {x : σ × Except ε α} (h : x.2.isOk = false) :
    ∃ fault, x = (x.1, .error fault) := by
  obtain ⟨fault, hfault⟩ := exists_error_of_isOk h
  exact ⟨fault, Prod.ext rfl hfault⟩

/-- Tags come back from their row unless one has a comma or the only one is empty. -/
theorem SymbolRow.storedTags_eq {tags : List String} (hfree : ∀ tag ∈ tags, ',' ∉ tag.toList)
    (hlone : tags ≠ [""]) : storedTags tags = tags := by
  by_cases hsome : tags = []
  · subst hsome
    rfl
  · have hsplit : splitText ',' (",".intercalate tags) = tags := splitText_intercalate hsome hfree
    unfold storedTags
    simp only
    split
    · rename_i htext
      rw [beq_iff_eq.mp htext] at hsplit
      exact absurd hsplit.symm hlone
    · exact hsplit

def Symbol.stored (s : Symbol) : Symbol := { s with tags := SymbolRow.storedTags s.tags }

/-- A row that no one has damaged keeps a document. -/
structure DocumentRow.Keeps (row : DocumentRow) (d : Document) : Prop where
  file : row.file = d.file
  content : row.content = d.content
  symbols : row.symbols.map (·.symbol) = d.symbols.map Symbol.stored
  references : row.references = d.references.map (⟨·, []⟩)
  sound : row.spoiled = []
  soundSymbols : ∀ s ∈ row.symbols, s.spoiled = []

theorem DocumentRow.keeps_ofDocument (d : Document) : (DocumentRow.ofDocument d).Keeps d where
  file := rfl
  content := rfl
  symbols := by
    simp only [ofDocument, List.map_map]
    rfl
  references := rfl
  sound := rfl
  soundSymbols := by
    intro s hs
    obtain ⟨t, -, rfl⟩ := List.mem_map.mp hs
    rfl

/-! ## Joined rows -/

namespace Keyed

variable {α : Type} {rows added : List (Keyed α)} {number : Nat}

theorem rowsOf_append (rows added : List (Keyed α)) (number : Nat) :
    rowsOf (rows ++ added) number = rowsOf rows number ++ rowsOf added number := by
  unfold rowsOf
  rw [List.filter_append, List.map_append]

theorem rowsOf_eq_nil (h : ∀ r ∈ rows, r.document ≠ number) : rowsOf rows number = [] := by
  unfold rowsOf
  rw [List.filter_eq_nil_iff.mpr fun r hr => by simpa using h r hr, List.map_nil]

theorem rowsOf_mk (added : List α) (number : Nat) : rowsOf (added.map (mk number)) number = added := by
  unfold rowsOf
  rw [List.filter_eq_self.mpr fun r hr => ?_, List.map_map]
  · exact List.map_id added
  · obtain ⟨a, -, rfl⟩ := List.mem_map.mp hr
    exact beq_self_eq_true number

theorem rowsOf_mk_of_ne (added : List α) {other : Nat} (hne : other ≠ number) :
    rowsOf (added.map (mk other)) number = [] := by
  refine rowsOf_eq_nil fun r hr => ?_
  obtain ⟨a, -, rfl⟩ := List.mem_map.mp hr
  exact hne

theorem rowsOf_cascade {gone : List Nat} (hstays : number ∉ gone) :
    rowsOf (cascade rows gone) number = rowsOf rows number := by
  unfold rowsOf cascade
  rw [List.filter_filter]
  refine congrArg (List.map _) (List.filter_congr fun r _ => ?_)
  by_cases hnumber : r.document = number
  · simp [hnumber, hstays]
  · simp [hnumber]

theorem rowsOf_map (f : α → α) (rows : List (Keyed α)) (number : Nat) :
    rowsOf (rows.map (map f)) number = (rowsOf rows number).map f := by
  unfold rowsOf
  rw [List.filter_map, List.map_map, List.map_map]
  rfl

open scoped List in
/-- Going from document to document one comes to each row that names one of them, once. -/
theorem perm_flatMap_rowsOf (rows : List (Keyed α)) {numbers : List Nat} (h : numbers.Nodup) :
    (numbers.flatMap (rowsOf rows)).Perm
      ((rows.filter fun r => numbers.contains r.document).map (·.row)) := by
  induction numbers with
  | nil => simp
  | cons number rest ih =>
      obtain ⟨hnew, hrest⟩ := List.nodup_cons.mp h
      let named := rows.filter fun r => (number :: rest).contains r.document
      have hfirst : named.filter (·.document == number) = rows.filter (·.document == number) := by
        rw [List.filter_filter]
        refine List.filter_congr fun r _ => ?_
        by_cases hnumber : r.document = number
        · simp [hnumber]
        · simp [hnumber]
      have hothers : (named.filter fun r => !(r.document == number)) =
          rows.filter fun r => rest.contains r.document := by
        rw [List.filter_filter]
        refine List.filter_congr fun r _ => ?_
        by_cases hnumber : r.document = number
        · simp [hnumber, hnew]
        · simp [hnumber]
      have hsplit := List.filter_append_perm (fun r : Keyed α => r.document == number) named
      rw [hfirst, hothers] at hsplit
      calc (number :: rest).flatMap (rowsOf rows)
          = rowsOf rows number ++ rest.flatMap (rowsOf rows) := List.flatMap_cons
        _ ~ rowsOf rows number ++ (rows.filter fun r => rest.contains r.document).map (·.row) :=
            (ih hrest).append_left _
        _ = ((rows.filter (·.document == number)) ++
              rows.filter fun r => rest.contains r.document).map (·.row) := List.map_append.symm
        _ ~ named.map (·.row) := hsplit.map _

end Keyed

namespace DocumentTables

variable {t : DocumentTables}

/-- A new document stands at the end with its own rows alone, for no row names the next number. -/
theorem joined_insert (t : DocumentTables) (row : DocumentRow) :
    (t.insert row).joined = t.joined ++ [row] := by
  have hrows {α : Type} {rows : List (Keyed α)} (added : List α)
      (hgiven : ∀ r ∈ rows, r.document < t.next) :
      Keyed.rowsOf (rows ++ added.map (Keyed.mk t.next)) t.next = added := by
    rw [Keyed.rowsOf_append, Keyed.rowsOf_mk, Keyed.rowsOf_eq_nil fun r hr => Nat.ne_of_lt (hgiven r hr),
      List.nil_append]
  have hothers {α : Type} (rows : List (Keyed α)) (added : List α) {number : Nat}
      (hlt : number < t.next) :
      Keyed.rowsOf (rows ++ added.map (Keyed.mk t.next)) number = Keyed.rowsOf rows number := by
    rw [Keyed.rowsOf_append, Keyed.rowsOf_mk_of_ne _ (Nat.ne_of_gt hlt), List.append_nil]
  unfold joined insert
  dsimp only
  rw [List.map_append, List.map_singleton, hrows _ t.numbering.symbols_lt,
    hrows _ t.numbering.references_lt]
  refine congrArg (· ++ [row]) (List.map_congr_left fun d hd => ?_)
  have hlt := t.numbering.documents_lt d hd
  rw [hothers t.symbols _ hlt, hothers t.references _ hlt]

theorem not_mem_gone {goes : IndexedFile → Bool} {d : Keyed DocumentCells} (hd : d ∈ t.documents)
    (hstays : goes d.row.file = false) :
    d.document ∉ (t.documents.filter (goes ·.row.file)).map (·.document) := by
  intro hgone
  obtain ⟨other, hother, hnumber⟩ := List.mem_map.mp hgone
  obtain ⟨hmem, hgoes⟩ := List.mem_filter.mp hother
  obtain rfl := List.inj_on_of_nodup_map t.numbering.distinct hmem hd hnumber
  rw [hstays] at hgoes
  cases hgoes

/-- The documents that stay keep their rows, for numbers tell documents apart. -/
theorem joined_delete (t : DocumentTables) (goes : IndexedFile → Bool) :
    (t.delete goes).joined = t.joined.filter fun d => !goes d.file := by
  unfold joined delete
  dsimp only
  rw [List.filter_map]
  refine List.map_congr_left fun d hd => ?_
  obtain ⟨hmem, hstays⟩ := List.mem_filter.mp hd
  have hstays : goes d.row.file = false := by simpa using hstays
  rw [Keyed.rowsOf_cascade (not_mem_gone hmem hstays), Keyed.rowsOf_cascade (not_mem_gone hmem hstays)]

theorem joined_mapSymbols (t : DocumentTables) (f : SymbolRow → SymbolRow) :
    (t.mapSymbols f).joined = t.joined.map fun d => { d with symbols := d.symbols.map f } := by
  unfold joined mapSymbols
  dsimp only
  rw [List.map_map]
  exact List.map_congr_left fun d _ => by rw [Keyed.rowsOf_map]; rfl

/-- Where no document goes, no row goes. -/
theorem delete_eq_self {goes : IndexedFile → Bool} (h : ∀ d ∈ t.joined, goes d.file = false) :
    t.delete goes = t := by
  have hstays : ∀ d ∈ t.documents, goes d.row.file = false :=
    fun d hd => h _ (List.mem_map_of_mem hd)
  have hnone : t.documents.filter (goes ·.row.file) = [] :=
    List.filter_eq_nil_iff.mpr fun d hd => by simp [hstays d hd]
  have hrows {α : Type} (rows : List (Keyed α)) :
      Keyed.cascade rows ((t.documents.filter (goes ·.row.file)).map (·.document)) = rows := by
    rw [hnone]
    exact List.filter_eq_self.mpr fun _ _ => rfl
  exact DocumentTables.ext (List.filter_eq_self.mpr fun d hd => by simp [hstays d hd])
    (hrows t.symbols) (hrows t.references) rfl

theorem mapSymbols_mapSymbols (t : DocumentTables) (f g : SymbolRow → SymbolRow) :
    (t.mapSymbols f).mapSymbols g = t.mapSymbols (g ∘ f) := by
  refine DocumentTables.ext rfl ?_ rfl rfl
  unfold mapSymbols
  dsimp only
  rw [List.map_map]
  rfl

theorem mapSymbols_eq_self {f : SymbolRow → SymbolRow} (h : ∀ s ∈ t.symbols, f s.row = s.row) :
    t.mapSymbols f = t := by
  refine DocumentTables.ext rfl ?_ rfl rfl
  refine (List.map_congr_left fun s hs => ?_).trans (List.map_id t.symbols)
  rw [Keyed.map, h s hs]
  rfl

/-- Which rows go does not depend on what they hold. -/
theorem delete_mapSymbols (t : DocumentTables) (f : SymbolRow → SymbolRow) (goes : IndexedFile → Bool) :
    (t.mapSymbols f).delete goes = (t.delete goes).mapSymbols f := by
  refine DocumentTables.ext rfl ?_ rfl rfl
  unfold delete mapSymbols Keyed.cascade
  dsimp only
  rw [List.filter_map]
  rfl

theorem insert_mapSymbols (t : DocumentTables) (f : SymbolRow → SymbolRow) (row : DocumentRow) :
    (t.mapSymbols f).insert { row with symbols := row.symbols.map f } = (t.insert row).mapSymbols f := by
  refine DocumentTables.ext rfl ?_ rfl rfl
  unfold insert mapSymbols
  dsimp only
  rw [List.map_append, List.map_map, List.map_map]
  rfl

open scoped List in
/-- Going through the documents that go, one comes to each symbol that goes with them. -/
theorem perm_delete_symbols (t : DocumentTables) (goes : IndexedFile → Bool) :
    ((t.joined.filter (goes ·.file)).flatMap (·.symbols) ++ (t.delete goes).symbols.map (·.row)).Perm
      (t.symbols.map (·.row)) := by
  let gone := (t.documents.filter (goes ·.row.file)).map (·.document)
  have hgone : gone.Nodup := t.numbering.distinct.sublist (List.filter_sublist.map _)
  have hrows : (t.joined.filter (goes ·.file)).flatMap (·.symbols) =
      gone.flatMap (Keyed.rowsOf t.symbols) := by
    unfold joined
    rw [List.filter_map, List.flatMap_map, List.flatMap_map]
    rfl
  calc (t.joined.filter (goes ·.file)).flatMap (·.symbols) ++ (t.delete goes).symbols.map (·.row)
      ~ (t.symbols.filter fun s => gone.contains s.document).map (·.row) ++
          (t.delete goes).symbols.map (·.row) := by
        rw [hrows]
        exact (Keyed.perm_flatMap_rowsOf t.symbols hgone).append_right _
    _ = ((t.symbols.filter fun s => gone.contains s.document) ++
          t.symbols.filter fun s => !gone.contains s.document).map (·.row) := List.map_append.symm
    _ ~ t.symbols.map (·.row) := (List.filter_append_perm _ t.symbols).map _

/-- No symbol and no reference is left without its document. -/
structure Owned (t : DocumentTables) : Prop where
  symbols : ∀ s ∈ t.symbols, s.document ∈ t.documents.map (·.document)
  references : ∀ r ∈ t.references, r.document ∈ t.documents.map (·.document)

theorem owned_empty : empty.Owned where
  symbols _ hs := absurd hs List.not_mem_nil
  references _ hr := absurd hr List.not_mem_nil

theorem Owned.insert (h : t.Owned) (row : DocumentRow) : (t.insert row).Owned := by
  have hrows {α : Type} {rows : List (Keyed α)} (added : List α)
      (howned : ∀ r ∈ rows, r.document ∈ t.documents.map (·.document)) :
      ∀ r ∈ rows ++ added.map (Keyed.mk t.next),
        r.document ∈ (t.insert row).documents.map (·.document) := by
    intro r hr
    rw [DocumentTables.insert, List.map_append]
    rcases List.mem_append.mp hr with hr | hr
    · exact List.mem_append_left _ (howned r hr)
    · obtain ⟨a, -, rfl⟩ := List.mem_map.mp hr
      exact List.mem_append_right _ (List.mem_singleton.mpr rfl)
  exact ⟨hrows _ h.symbols, hrows _ h.references⟩

/-- The rule between the tables leaves no row behind of a document that goes. -/
theorem Owned.delete (h : t.Owned) (goes : IndexedFile → Bool) : (t.delete goes).Owned := by
  have hrows {α : Type} {rows : List (Keyed α)}
      (howned : ∀ r ∈ rows, r.document ∈ t.documents.map (·.document)) :
      ∀ r ∈ Keyed.cascade rows ((t.documents.filter (goes ·.row.file)).map (·.document)),
        r.document ∈ (t.delete goes).documents.map (·.document) := by
    intro r hr
    obtain ⟨hmem, hleft⟩ := List.mem_filter.mp hr
    obtain ⟨d, hd, hnumber⟩ := List.mem_map.mp (howned r hmem)
    refine List.mem_map.mpr ⟨d, List.mem_filter.mpr ⟨hd, ?_⟩, hnumber⟩
    by_contra hgoes
    have hgone : r.document ∈ (t.documents.filter (goes ·.row.file)).map (·.document) :=
      List.mem_map.mpr ⟨d, List.mem_filter.mpr ⟨hd, by simpa using hgoes⟩, hnumber⟩
    rw [List.contains_iff_mem.mpr hgone] at hleft
    cases hleft
  exact ⟨hrows h.symbols, hrows h.references⟩

theorem Owned.perm_symbols (h : t.Owned) :
    (t.joined.flatMap (·.symbols)).Perm (t.symbols.map (·.row)) := by
  have hperm := Keyed.perm_flatMap_rowsOf t.symbols t.numbering.distinct
  rw [List.filter_eq_self.mpr fun s hs => List.contains_iff_mem.mpr (h.symbols s hs),
    List.flatMap_map] at hperm
  rw [joined, List.flatMap_map]
  exact hperm

theorem Owned.perm_references (h : t.Owned) :
    (t.joined.flatMap (·.references)).Perm (t.references.map (·.row)) := by
  have hperm := Keyed.perm_flatMap_rowsOf t.references t.numbering.distinct
  rw [List.filter_eq_self.mpr fun r hr => List.contains_iff_mem.mpr (h.references r hr),
    List.flatMap_map] at hperm
  rw [joined, List.flatMap_map]
  exact hperm

end DocumentTables

/-! ## Changes of the rows -/

namespace TextIndex

theorem length_addAll (ix : TextIndex) (rows : List (List String)) :
    (ix.addAll rows).2.length = rows.length := by
  induction rows with
  | nil => rfl
  | cons texts rest ih =>
      simp only [addAll, List.foldr_cons, List.length_cons] at ih ⊢
      rw [← ih]

end TextIndex

namespace Database

/-- The second database differs from the first in documents and text indexes alone. -/
structure SameBesides (db db' : Database) : Prop where
  schema : db'.schema = db.schema
  projects : db'.projects = db.projects

/-- Taking a row out changes nothing but the text indexes. -/
theorem exists_texts_of_dropDocument {db db' : Database} {row : DocumentRow}
    (h : db.dropDocument row = .ok db') :
    ∃ documentTexts symbolTexts, db' = { db with documentTexts, symbolTexts } := by
  unfold dropDocument at h
  simp only at h
  split at h
  all_goals
    obtain ⟨documentTexts, -, h⟩ := bind_eq_ok_iff.mp h
    split at h
    all_goals
      obtain ⟨symbolTexts, -, h⟩ := bind_eq_ok_iff.mp h
      obtain rfl := Except.ok.inj h
      exact ⟨_, _, rfl⟩

theorem exists_texts_of_dropEach {rows : List DocumentRow} {db db' : Database}
    (h : rows.foldlM dropDocument db = .ok db') :
    ∃ documentTexts symbolTexts, db' = { db with documentTexts, symbolTexts } := by
  induction rows generalizing db with
  | nil =>
      obtain rfl := Except.ok.inj h
      exact ⟨_, _, rfl⟩
  | cons row rest ih =>
      rw [List.foldlM_cons] at h
      obtain ⟨left, hdrop, hrest⟩ := bind_eq_ok_iff.mp h
      obtain ⟨_, _, rfl⟩ := exists_texts_of_dropDocument hdrop
      obtain ⟨_, _, rfl⟩ := ih hrest
      exact ⟨_, _, rfl⟩

theorem exists_texts_of_dropDocuments {db db' : Database} {goes : IndexedFile → Bool}
    (h : db.dropDocuments goes = .ok db') :
    ∃ documentTexts symbolTexts, db' = { db with
      tables := db.tables.delete goes
      documentTexts
      symbolTexts } := by
  unfold dropDocuments at h
  obtain ⟨left, hleft, h⟩ := bind_eq_ok_iff.mp h
  obtain rfl := Except.ok.inj h
  obtain ⟨_, _, rfl⟩ := exists_texts_of_dropEach hleft
  exact ⟨_, _, rfl⟩

theorem dropDocuments_eq_ok {db db' : Database} {goes : IndexedFile → Bool}
    (h : db.dropDocuments goes = .ok db') :
    SameBesides db db' ∧ db'.documents = db.documents.filter fun d => !goes d.file := by
  obtain ⟨_, _, rfl⟩ := exists_texts_of_dropDocuments h
  exact ⟨⟨rfl, rfl⟩, DocumentTables.joined_delete db.tables goes⟩

theorem owned_dropDocuments {db db' : Database} {goes : IndexedFile → Bool}
    (h : db.dropDocuments goes = .ok db') (howned : db.tables.Owned) : db'.tables.Owned := by
  obtain ⟨_, _, rfl⟩ := exists_texts_of_dropDocuments h
  exact howned.delete goes

/-- A new row is put in with what the triggers note, and keeps its document. -/
theorem exists_insert_of_addDocument (db : Database) {row : DocumentRow} {d : Document}
    (h : row.Keeps d) : SameBesides db (db.addDocument row) ∧
      ∃ row' : DocumentRow, row'.Keeps d ∧ (db.addDocument row).tables = db.tables.insert row' := by
  have hentry (entry : Option TextEntry) : ({ row with entry } : DocumentRow).Keeps d :=
    ⟨h.file, h.content, h.symbols, h.references, h.sound, h.soundSymbols⟩
  have hsymbols (entries : List TextEntry) (hlength : entries.length = row.symbols.length)
      (entry : Option TextEntry) :
      ({ row with
        entry
        symbols := (row.symbols.zip entries).map fun pair =>
          { pair.1 with entry := some pair.2 } } : DocumentRow).Keeps d := by
    refine ⟨h.file, h.content, ?_, h.references, h.sound, ?_⟩
    · have hrows : (row.symbols.zip entries).map Prod.fst = row.symbols :=
        List.map_fst_zip (by omega)
      rw [← h.symbols]
      nth_rewrite 2 [← hrows]
      simp only [List.map_map, Function.comp_def]
    · intro s hs
      obtain ⟨⟨t, entry⟩, hmem, rfl⟩ := List.mem_map.mp hs
      exact h.soundSymbols t (List.of_mem_zip hmem).1
  unfold addDocument
  simp only
  split
  · split
    · exact ⟨⟨rfl, rfl⟩, _, hsymbols _ (by simp [TextIndex.length_addAll]) _, rfl⟩
    · exact ⟨⟨rfl, rfl⟩, _, hentry _, rfl⟩
  · split
    · exact ⟨⟨rfl, rfl⟩, _, hsymbols _ (by simp [TextIndex.length_addAll]) _, rfl⟩
    · exact ⟨⟨rfl, rfl⟩, _, h, rfl⟩

theorem addDocument_appends (db : Database) {row : DocumentRow} {d : Document}
    (h : row.Keeps d) : SameBesides db (db.addDocument row) ∧
      ∃ row' : DocumentRow, row'.Keeps d ∧
        (db.addDocument row).documents = db.documents ++ [row'] := by
  obtain ⟨hsame, row', hrow, htables⟩ := exists_insert_of_addDocument db h
  refine ⟨hsame, row', hrow, ?_⟩
  unfold documents
  rw [htables, DocumentTables.joined_insert]

theorem owned_addDocument {db : Database} (howned : db.tables.Owned) (d : Document) :
    (db.addDocument (.ofDocument d)).tables.Owned := by
  obtain ⟨-, row, -, htables⟩ := exists_insert_of_addDocument db (DocumentRow.keeps_ofDocument d)
  rw [htables]
  exact howned.insert row

end Database

end CodeAtlas
