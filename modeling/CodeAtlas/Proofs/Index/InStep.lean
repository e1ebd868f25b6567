import CodeAtlas.Proofs.Index.Keeps
import CodeAtlas.Proofs.Index.Migrating

/-!
# The text index of symbols

A text index notes no more of its rows than three sums and their number, so what it notes of some rows does
not depend on their order, and taking in a row and taking it out again leaves no trace. Where the text index
of symbols has exactly the rows of symbols, no write to the database can fail because of it. So each write
does the same to a database that has lost the text index, and building the index anew from the rows gives
the index that the writes would have left.
-/

namespace CodeAtlas

/-- The newest layout before the text index of symbols came into it. -/
def Schema.withoutSymbolSearch : Schema where
  tables := [("schema_version", true), ("projects", true), ("documents", true),
    ("doc_symbols", true), ("doc_references", true), ("documents_fts", true)]
  indexes := Schema.newest.indexes
  triggers := [("documents_ai", "documents"), ("documents_ad", "documents"),
    ("documents_au", "documents")]

def DocumentRow.bare (row : DocumentRow) : DocumentRow :=
  { row with symbols := row.symbols.map SymbolRow.bare }

/-- The database after the last migration has been rolled back. -/
def Database.withoutSymbolSearch (db : Database) : Database where
  schema := .withoutSymbolSearch
  versions := db.versions.filter (· != some "1.1.0")
  projects := db.projects
  tables := db.tables.mapSymbols SymbolRow.bare
  documentTexts := db.documentTexts
  symbolTexts := .empty 3

/-! ## A text index that is in step with its rows -/

/-- What the text index notes of a row with these texts: each token alone at its place. -/
def entryOf (texts : List String) : TextEntry where
  columns := texts.map fun text => (tokens text).map ([·])
  sizes := texts.map fun text => (tokens text).length

/-- The figures of a text index that has taken in each of some rows and nothing else. -/
def indexOf (rows : List SymbolRow) : TextIndex where
  totals := [
    total (rows.map fun s => (tokens s.symbol.name).length),
    total (rows.map fun s => (tokens s.symbol.signature).length),
    total (rows.map fun s => (tokens s.symbol.scope).length)]
  count := rows.length
  remains := []

/-- The text index of symbols has exactly the rows of symbols. -/
structure Database.FindsSymbols (db : Database) : Prop where
  entries : ∀ s ∈ db.symbolRows, s.entry = some (entryOf s.texts)
  figures : db.symbolTexts = indexOf db.symbolRows

section

variable {rows rows' : List SymbolRow} {s : SymbolRow}

theorem ofTokens_nil (texts : List String) : TextEntry.ofTokens (texts.map tokens) [] = entryOf texts := by
  simp [TextEntry.ofTokens, entryOf, Function.comp_def]

theorem add_indexOf (s : SymbolRow) (rows : List SymbolRow) :
    (indexOf rows).add [] s.texts = (indexOf (s :: rows), entryOf s.texts) := by
  unfold TextIndex.add
  rw [ofTokens_nil]
  simp [indexOf, entryOf, SymbolRow.texts, total_cons, Nat.add_comm]

theorem addAll_indexOf (added rows : List SymbolRow) :
    (indexOf rows).addAll (added.map (·.texts)) =
      (indexOf (added ++ rows), added.map fun s => entryOf s.texts) := by
  induction added with
  | nil => rfl
  | cons s rest ih =>
      unfold TextIndex.addAll at ih ⊢
      rw [List.map_cons, List.foldr_cons, ih]
      dsimp only
      rw [add_indexOf]
      rfl

theorem indexOf_nil : indexOf [] = .empty 3 := rfl

/-- The figures depend on nothing but the symbols of the rows. -/
theorem indexOf_congr (h : rows.map (·.symbol) = rows'.map (·.symbol)) : indexOf rows = indexOf rows' := by
  have hsum (size : Symbol → Nat) :
      total (rows.map fun s => size s.symbol) = total (rows'.map fun s => size s.symbol) := by
    have hsizes := congrArg (List.map size) h
    simp only [List.map_map] at hsizes
    exact congrArg total hsizes
  have hlength : rows.length = rows'.length := by simpa using congrArg List.length h
  unfold indexOf
  rw [hsum fun s => (tokens s.name).length, hsum fun s => (tokens s.signature).length,
    hsum fun s => (tokens s.scope).length, hlength]

theorem indexOf_perm (h : rows.Perm rows') : indexOf rows = indexOf rows' := by
  unfold indexOf
  rw [total_perm (h.map _), total_perm (h.map _), total_perm (h.map _), h.length_eq]

/-- Nothing is left of a row when its own tokens are taken out. -/
theorem without_entryOf (texts : List String) :
    (TextEntry.without (texts.map tokens).flatten (entryOf texts).columns).all
      (fun column => column.all List.isEmpty) = true := by
  unfold TextEntry.without entryOf
  simp only [List.all_map, List.all_eq_true, Function.comp_apply, List.isEmpty_iff]
  intro text htext token htoken
  have hmem : token ∈ (texts.map tokens).flatten :=
    List.mem_flatten.mpr ⟨_, List.mem_map_of_mem htext, htoken⟩
  simpa [List.filter_eq_nil_iff] using hmem

theorem drop_indexOf (rows : List SymbolRow) (hentry : s.entry = some (entryOf s.texts)) :
    (indexOf (s :: rows)).drop s.entry s.texts = .ok (indexOf rows) := by
  have hremove : (indexOf (s :: rows)).remove s.entry s.texts =
      .ok (indexOf rows, TextEntry.without (s.texts.map tokens).flatten (entryOf s.texts).columns) := by
    rw [hentry]
    unfold TextIndex.remove
    simp [indexOf, SymbolRow.texts, total_cons]
  unfold TextIndex.drop
  rw [hremove]
  change Except.ok ((indexOf rows).keep _) = _
  rw [TextIndex.keep, if_pos (without_entryOf s.texts)]

/-- Rows can be taken out one after the other. -/
theorem dropEach_indexOf {gone : List SymbolRow} (rows : List SymbolRow)
    (hentries : ∀ s ∈ gone, s.entry = some (entryOf s.texts)) :
    gone.foldlM (fun ix s => ix.drop s.entry s.texts) (indexOf (gone ++ rows)) =
      (.ok (indexOf rows) : Except Cause TextIndex) := by
  induction gone with
  | nil => rfl
  | cons s rest ih =>
      rw [List.foldlM_cons, List.cons_append, drop_indexOf _ (hentries s (by simp))]
      exact ih fun t ht => hentries t (List.mem_cons_of_mem s ht)

end

namespace Database

variable {db db' : Database}

/-- Migrating again puts the text index in step with the rows. -/
theorem findsSymbols_findSymbols (db : Database) : db.findSymbols.FindsSymbols where
  entries := by
    intro s hs
    obtain ⟨filled, hfilled, rfl⟩ := List.mem_map.mp hs
    obtain ⟨old, -, rfl⟩ := List.mem_map.mp hfilled
    exact congrArg some (ofTokens_nil _)
  figures := by
    have hrows := addAll_indexOf db.symbolRows []
    rw [indexOf_nil, List.append_nil] at hrows
    unfold findSymbols
    dsimp only
    rw [hrows]
    refine indexOf_congr ?_
    unfold symbolRows DocumentTables.mapSymbols
    rw [List.map_map, List.map_map, List.map_map]
    rfl

/-- The newest layout, with a text index of symbols that is in step. -/
structure InStep (db : Database) : Prop where
  layout : db.schema = .newest
  finds : db.FindsSymbols

/-- A change does the same without the text index of symbols, and keeps it in step. -/
structure Mirrored {ε : Type} (plain full : Except ε Database) : Prop where
  same : plain = full.map withoutSymbolSearch
  inStep : ∀ db, full = .ok db → db.InStep

section

variable {ε : Type} {plain full : Except ε Database}

theorem mirrored_error (e : ε) : Mirrored (.error e) (.error e) := ⟨rfl, fun _ h => by cases h⟩

theorem InStep.mirrored_ok (h : db.InStep) :
    Mirrored (.ok db.withoutSymbolSearch : Except ε Database) (.ok db) where
  same := rfl
  inStep _ heq := Except.ok.inj heq ▸ h

theorem Mirrored.bind {next next' : Database → Except ε Database} (h : Mirrored plain full)
    (hnext : ∀ db : Database, db.InStep → Mirrored (next db.withoutSymbolSearch) (next' db)) :
    Mirrored (plain >>= next) (full >>= next') := by
  obtain ⟨rfl, hinStep⟩ := h
  cases full with
  | error e => exact mirrored_error e
  | ok db => exact hnext db (hinStep db rfl)

theorem mirrored_bind {α : Type} {guard : Except ε α} {next next' : α → Except ε Database}
    (hnext : ∀ a, Mirrored (next a) (next' a)) : Mirrored (guard >>= next) (guard >>= next') := by
  cases guard with
  | error e => exact mirrored_error e
  | ok a => exact hnext a

theorem Mirrored.failing {plain full : Except Cause Database} (h : Mirrored plain full) (text : String) :
    Mirrored (failing text plain) (failing text full) := by
  obtain ⟨rfl, hinStep⟩ := h
  cases full with
  | error e => exact mirrored_error _
  | ok db => exact (hinStep db rfl).mirrored_ok

end

variable {row : DocumentRow} {rest : List SymbolRow}

/-! ### Deleting -/

theorem dropDocument_newest (hlayout : db.schema = .newest)
    (hentries : ∀ s ∈ row.symbols, s.entry = some (entryOf s.texts))
    (hfigures : db.symbolTexts = indexOf (row.symbols ++ rest)) :
    db.dropDocument row = (db.documentTexts.drop row.entry row.texts).map fun documentTexts =>
      { db with documentTexts, symbolTexts := indexOf rest } := by
  have hdocuments : Schema.newest.hasTrigger "documents_ad" = true := by decide
  have hsymbols : Schema.newest.hasTrigger "doc_symbols_ad" = true := by decide
  unfold dropDocument
  rw [hlayout, hdocuments, hsymbols, hfigures, dropEach_indexOf rest hentries]
  cases db.documentTexts.drop row.entry row.texts <;> rfl

theorem dropDocument_withoutSymbolSearch (db : Database) (row : DocumentRow) :
    db.withoutSymbolSearch.dropDocument row.bare =
      (db.documentTexts.drop row.entry row.texts).map fun documentTexts =>
        { db.withoutSymbolSearch with documentTexts } := by
  have hdocuments : Schema.withoutSymbolSearch.hasTrigger "documents_ad" = true := by decide
  have hsymbols : Schema.withoutSymbolSearch.hasTrigger "doc_symbols_ad" = false := by decide
  unfold dropDocument
  rw [show db.withoutSymbolSearch.schema = .withoutSymbolSearch from rfl, hdocuments, hsymbols]
  change (db.documentTexts.drop row.entry row.texts >>= _) = _
  cases db.documentTexts.drop row.entry row.texts <;> rfl

theorem dropEach_withoutSymbolSearch {gone : List DocumentRow} (hlayout : db.schema = .newest)
    (hentries : ∀ d ∈ gone, ∀ s ∈ d.symbols, s.entry = some (entryOf s.texts))
    (hfigures : db.symbolTexts = indexOf (gone.flatMap (·.symbols) ++ rest)) :
    (gone.map DocumentRow.bare).foldlM dropDocument db.withoutSymbolSearch =
        (gone.foldlM dropDocument db).map withoutSymbolSearch ∧
      ∀ db', gone.foldlM dropDocument db = .ok db' → db'.symbolTexts = indexOf rest := by
  induction gone generalizing db with
  | nil =>
      refine ⟨rfl, fun db' h => ?_⟩
      obtain rfl := Except.ok.inj h
      exact hfigures
  | cons row others ih =>
      rw [List.flatMap_cons, List.append_assoc] at hfigures
      rw [List.map_cons, List.foldlM_cons, List.foldlM_cons, dropDocument_withoutSymbolSearch,
        dropDocument_newest hlayout (hentries row (by simp)) hfigures]
      cases db.documentTexts.drop row.entry row.texts with
      | error c => exact ⟨rfl, fun db' h => by cases h⟩
      | ok documentTexts =>
          let next : Database := { db with
            documentTexts
            symbolTexts := indexOf (others.flatMap (·.symbols) ++ rest) }
          have hnext : next.schema = .newest := hlayout
          exact ih hnext (fun d hd => hentries d (List.mem_cons_of_mem row hd)) rfl

theorem documents_withoutSymbolSearch (db : Database) :
    db.withoutSymbolSearch.documents = db.documents.map DocumentRow.bare :=
  DocumentTables.joined_mapSymbols db.tables SymbolRow.bare

/-- Deletions of documents do the same without the text index of symbols, which can refuse none. -/
theorem InStep.dropDocuments (h : db.InStep) (goes : IndexedFile → Bool) :
    Mirrored (db.withoutSymbolSearch.dropDocuments goes) (db.dropDocuments goes) := by
  let gone := db.documents.filter (goes ·.file)
  have hperm := db.tables.perm_delete_symbols goes
  -- In this order the rows that go can be taken out one after the other.
  have hfigures := h.finds.figures.trans (indexOf_perm hperm).symm
  have hentries : ∀ d ∈ gone, ∀ s ∈ d.symbols, s.entry = some (entryOf s.texts) := by
    intro d hd s hs
    exact h.finds.entries s (hperm.subset (List.mem_append_left _ (List.mem_flatMap.mpr ⟨d, hd, hs⟩)))
  obtain ⟨heach, hleft⟩ := dropEach_withoutSymbolSearch h.layout hentries hfigures
  have hgone : db.withoutSymbolSearch.documents.filter (goes ·.file) = gone.map DocumentRow.bare := by
    rw [documents_withoutSymbolSearch, List.filter_map]
    rfl
  have htables : db.withoutSymbolSearch.tables.delete goes =
      (db.tables.delete goes).mapSymbols SymbolRow.bare :=
    DocumentTables.delete_mapSymbols db.tables SymbolRow.bare goes
  refine ⟨?_, fun db' hdrop => ?_⟩
  · unfold Database.dropDocuments
    rw [hgone, heach, htables]
    cases gone.foldlM dropDocument db <;> rfl
  · unfold Database.dropDocuments at hdrop
    obtain ⟨emptied, hemptied, hdrop⟩ := bind_eq_ok_iff.mp hdrop
    obtain rfl := Except.ok.inj hdrop
    obtain ⟨_, _, hsame⟩ := exists_texts_of_dropEach hemptied
    refine ⟨?_, fun s hs => ?_, hleft emptied hemptied⟩
    · rw [hsame]
      exact h.layout
    · exact h.finds.entries s (hperm.subset (List.mem_append_right _ hs))

/-! ### Inserting -/

theorem addDocument_newest (hlayout : db.schema = .newest) (row : DocumentRow) :
    db.addDocument row = { db with
      tables := db.tables.insert { row with
        entry := some (db.documentTexts.add [] row.texts).2
        symbols := (row.symbols.zip (db.symbolTexts.addAll (row.symbols.map (·.texts))).2).map
          fun pair => { pair.1 with entry := some pair.2 } }
      documentTexts := (db.documentTexts.add [] row.texts).1
      symbolTexts := (db.symbolTexts.addAll (row.symbols.map (·.texts))).1 } := by
  have hdocuments : Schema.newest.hasTrigger "documents_ai" = true := by decide
  have hsymbols : Schema.newest.hasTrigger "doc_symbols_ai" = true := by decide
  unfold addDocument
  simp only [hlayout, hdocuments, hsymbols, if_pos]

theorem addDocument_withoutSymbolSearch (db : Database) (row : DocumentRow) :
    db.withoutSymbolSearch.addDocument row = { db.withoutSymbolSearch with
      tables := db.withoutSymbolSearch.tables.insert
        { row with entry := some (db.documentTexts.add [] row.texts).2 }
      documentTexts := (db.documentTexts.add [] row.texts).1 } := by
  have hlayout : db.withoutSymbolSearch.schema = .withoutSymbolSearch := rfl
  have hdocuments : Schema.withoutSymbolSearch.hasTrigger "documents_ai" = true := by decide
  have hsymbols : Schema.withoutSymbolSearch.hasTrigger "doc_symbols_ai" = false := by decide
  unfold addDocument
  simp only [hlayout, hdocuments, hsymbols, if_pos]
  rfl

/-- Insertions of documents do the same without the text index of symbols, which takes in their symbols. -/
theorem InStep.addDocument (h : db.InStep) (hfresh : row.bare = row) :
    Mirrored (.ok (db.withoutSymbolSearch.addDocument row) : Except Fault Database)
      (.ok (db.addDocument row)) := by
  have hadded := addAll_indexOf row.symbols db.symbolRows
  rw [← h.finds.figures] at hadded
  have hzip (symbols : List SymbolRow) : (symbols.zip (symbols.map fun s => entryOf s.texts)).map
      (fun pair => { pair.1 with entry := some pair.2 }) =
      symbols.map fun s : SymbolRow => { s with entry := some (entryOf s.texts) } := by
    induction symbols with
    | nil => rfl
    | cons s rest ih => simpa using ih
  let put : DocumentRow := { row with
    entry := some (db.documentTexts.add [] row.texts).2
    symbols := row.symbols.map fun s => { s with entry := some (entryOf s.texts) } }
  have hbare : put.symbols.map SymbolRow.bare = row.symbols := by
    have hsymbols : row.symbols.map SymbolRow.bare = row.symbols := congrArg DocumentRow.symbols hfresh
    rw [List.map_map]
    exact hsymbols
  have htables : db.withoutSymbolSearch.tables.insert
      { row with entry := some (db.documentTexts.add [] row.texts).2 } =
        (db.tables.insert put).mapSymbols SymbolRow.bare := by
    rw [← DocumentTables.insert_mapSymbols, hbare]
    rfl
  have hrows : (db.tables.insert put).symbols.map (·.row) = db.symbolRows ++ put.symbols := by
    rw [DocumentTables.insert, List.map_append, List.map_map]
    exact congrArg (db.symbolRows ++ ·) (List.map_id put.symbols)
  rw [addDocument_newest h.layout, addDocument_withoutSymbolSearch, hadded]
  dsimp only
  rw [hzip, htables]
  refine ⟨rfl, fun db' heq => Except.ok.inj heq ▸ ⟨h.layout, fun s hs => ?_, ?_⟩⟩
  · rw [symbolRows, hrows] at hs
    rcases List.mem_append.mp hs with hs | hs
    · exact h.finds.entries s hs
    · obtain ⟨t, -, rfl⟩ := List.mem_map.mp hs
      rfl
  · change indexOf (row.symbols ++ db.symbolRows) = indexOf ((db.tables.insert put).symbols.map (·.row))
    rw [hrows]
    refine (indexOf_perm List.perm_append_comm).trans (indexOf_congr ?_)
    simp [put]

/-! ### Storage operations -/

theorem layout_withoutSymbolSearch (db : Database) :
    db.withoutSymbolSearch.schema = .withoutSymbolSearch := rfl

theorem hasProject_withoutSymbolSearch (db : Database) (id : String) :
    db.withoutSymbolSearch.hasProject id = db.hasProject id := rfl

theorem InStep.deleteDocuments (h : db.InStep) (goes : IndexedFile → Bool) (text : String) :
    Mirrored
      (CodeAtlas.failing text do
        db.withoutSymbolSearch.schema.requireDelete
        db.withoutSymbolSearch.dropDocuments goes)
      (CodeAtlas.failing text do
        db.schema.requireDelete
        db.dropDocuments goes) := by
  have hnewest : Schema.newest.requireDelete = .ok () := rfl
  have hplain : Schema.withoutSymbolSearch.requireDelete = .ok () := rfl
  rw [h.layout, hnewest, layout_withoutSymbolSearch, hplain]
  exact (h.dropDocuments goes).failing text

theorem InStep.withProjects (h : db.InStep) {ε : Type} (projects : List ProjectRow) :
    Mirrored (.ok { db.withoutSymbolSearch with projects } : Except ε Database)
      (.ok { db with projects }) where
  same := rfl
  inStep _ heq := Except.ok.inj heq ▸ ⟨h.layout, h.finds.entries, h.finds.figures⟩

theorem InStep.requireProjects (h : db.InStep) :
    db.withoutSymbolSearch.schema.require "projects" = db.schema.require "projects" := by
  rw [h.layout, layout_withoutSymbolSearch]
  rfl

theorem InStep.createProject (h : db.InStep) (now : Instant) (p : Project) :
    Mirrored (db.withoutSymbolSearch.createProject now p) (db.createProject now p) := by
  unfold Database.createProject
  rw [h.requireProjects]
  refine mirrored_bind fun _ => ?_
  by_cases hold : (db.projects.any fun row =>
      row.project.id == p.id || row.project.rootPath == p.rootPath) = true
  · rw [if_pos hold, show db.withoutSymbolSearch.projects = db.projects from rfl, if_pos hold]
    exact mirrored_error _
  · rw [if_neg hold, show db.withoutSymbolSearch.projects = db.projects from rfl, if_neg hold]
    exact h.withProjects _

theorem InStep.updateProject (h : db.InStep) (p : Project) :
    Mirrored (db.withoutSymbolSearch.updateProject p) (db.updateProject p) := by
  unfold Database.updateProject
  rw [h.requireProjects, hasProject_withoutSymbolSearch]
  refine mirrored_bind fun _ => ?_
  by_cases hproject : db.hasProject p.id = true
  · rw [if_pos hproject, if_pos hproject]
    exact h.withProjects _
  · rw [if_neg hproject, if_neg hproject]
    exact mirrored_error _

theorem InStep.deleteProject (h : db.InStep) (id : String) :
    Mirrored (db.withoutSymbolSearch.deleteProject id) (db.deleteProject id) := by
  have hnewest : Schema.newest.requireDeleteProject = .ok () := rfl
  have hplain : Schema.withoutSymbolSearch.requireDeleteProject = .ok () := rfl
  unfold Database.deleteProject
  rw [h.layout, hnewest, layout_withoutSymbolSearch, hplain]
  refine Mirrored.bind ((h.dropDocuments (·.projectId == id)).failing _) fun left hleft => ?_
  rw [hasProject_withoutSymbolSearch]
  by_cases hproject : left.hasProject id = true
  · rw [if_pos hproject, if_pos hproject]
    exact hleft.withProjects _
  · rw [if_neg hproject, if_neg hproject]
    exact mirrored_error _

theorem bare_ofDocument (d : Document) : (DocumentRow.ofDocument d).bare = .ofDocument d := by
  unfold DocumentRow.bare DocumentRow.ofDocument
  dsimp only
  rw [List.map_map]
  rfl

theorem InStep.putDocument (h : db.InStep) (now : Instant) (d : Document) :
    Mirrored (db.withoutSymbolSearch.putDocument now d) (db.putDocument now d) := by
  unfold Database.putDocument
  refine (h.deleteDocuments _ _).bind fun left hleft => ?_
  have hinsert : Schema.newest.requireInsert = Schema.withoutSymbolSearch.requireInsert := rfl
  have hsymbol : Schema.newest.requireInsertSymbol = Schema.withoutSymbolSearch.requireInsertSymbol := rfl
  have hreference : Schema.newest.require "doc_references" =
      Schema.withoutSymbolSearch.require "doc_references" := rfl
  simp only [hleft.layout, layout_withoutSymbolSearch, hasProject_withoutSymbolSearch, hinsert, hsymbol,
    hreference]
  refine mirrored_bind fun _ => mirrored_bind fun _ => mirrored_bind fun _ => ?_
  exact hleft.addDocument (bare_ofDocument (stamped now d))

theorem InStep.write (h : db.InStep) (now : Instant) (op : WriteOp) :
    Mirrored (db.withoutSymbolSearch.write now op) (db.write now op) := by
  cases op with
  | put d => exact h.putDocument now d
  | deleteFile id => exact h.deleteDocuments _ _
  | deleteProjectDocuments id => exact h.deleteDocuments _ _
  | saveProject p => exact h.updateProject p

theorem InStep.writeAll (h : db.InStep) (now : Instant) (queue : List WriteOp) :
    Mirrored (queue.foldlM (·.write now) db.withoutSymbolSearch) (queue.foldlM (·.write now) db) := by
  induction queue generalizing db with
  | nil => exact h.mirrored_ok
  | cons op rest ih =>
      rw [List.foldlM_cons, List.foldlM_cons]
      exact (h.write now op).bind fun next hnext => ih hnext

/-! ### Building the index anew -/

/-- What migrating makes of the rows is what has been taken from them. -/
theorem InStep.findSymbols_withoutSymbolSearch (h : db.InStep)
    (versions : List (Option String)) :
    { db.withoutSymbolSearch.findSymbols with schema := .newest, versions } = { db with versions } := by
  have htables : db.withoutSymbolSearch.findSymbols.tables = db.tables := by
    refine (DocumentTables.mapSymbols_mapSymbols _ _ _).trans
      (DocumentTables.mapSymbols_eq_self fun s hs => ?_)
    have hentry := h.finds.entries s.row (List.mem_map_of_mem hs)
    rw [← ofTokens_nil] at hentry
    obtain ⟨number, symbol, entry, spoiled⟩ := s
    exact congrArg (SymbolRow.mk symbol · spoiled) hentry.symm
  have htexts : db.withoutSymbolSearch.findSymbols.symbolTexts = db.symbolTexts := by
    rw [(findsSymbols_findSymbols db.withoutSymbolSearch).figures, symbolRows, htables, h.finds.figures]
    rfl
  dsimp only
  rw [htables, htexts, ← h.layout]
  rfl

end Database

end CodeAtlas
