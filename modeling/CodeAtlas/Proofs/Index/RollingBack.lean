import CodeAtlas.Proofs.Index.InStep
import CodeAtlas.Proofs.Index.Shelf

/-!
# Rolling back and migrating again

Rolling the last migration back takes away the text index of symbols with its triggers, and no other
rows but the note of its version. Migrating again finds the rest of the layout there, makes the triggers
and builds the text index anew from the rows of symbols. What happens in between cannot change the layout.
So it does not matter whether rows came and went with the text index or without it: the index afterwards is
the one that the same operations would have left had the migration never been rolled back.
-/

namespace CodeAtlas

/-- A step that would make what is there already. -/
def Schema.hasPart (s : Schema) : SchemaStep → Bool
  | .table name => s.hasName name
  | .index name table =>
      s.has table && !s.hasName name && s.indexes.contains (name, table)
  | .trigger name table => s.hasName table && s.hasTrigger name
  | _ => false

namespace Database

variable {db db' : Database}

theorem dropTable_symbols (db : Database) {s : Schema} (hlayout : db.schema = s)
    (hthere : s.hasName "symbols_fts" = true) :
    db.dropTable "symbols_fts" = .ok
      { db with
        schema := s.drop "symbols_fts"
        tables := db.tables.mapSymbols SymbolRow.bare
        symbolTexts := .empty 3 } := by
  have hlower : "symbols_fts".toLower = "symbols_fts" := by decide +kernel
  unfold dropTable
  simp only [hlower, hlayout, hthere]
  rfl

theorem runSteps_down (hlayout : db.schema = .newest) :
    db.runSteps Migration.second.down =
      ({ db.withoutSymbolSearch with versions := db.versions }, .ok ()) := by
  let untold : Schema := { Schema.newest with triggers := Schema.withoutSymbolSearch.triggers }
  have htriggers : (Schema.newest.triggers.filter (·.1 != "doc_symbols_ad")).filter
      (·.1 != "doc_symbols_ai") = untold.triggers := by decide
  have hthere : untold.hasName "symbols_fts" = true := by decide +kernel
  have hdropped : untold.drop "symbols_fts" = .withoutSymbolSearch := by decide +kernel
  have htriggered : db.runSteps Migration.second.down =
      runSteps { db with schema := untold } [.dropTable "symbols_fts"] := by
    simp only [Migration.second, runSteps, runStep, hlayout, htriggers]
    rfl
  have hdrop : runStep { db with schema := untold } (.dropTable "symbols_fts") =
      .ok { db.withoutSymbolSearch with versions := db.versions } := by
    have htable := dropTable_symbols { db with schema := untold } rfl hthere
    rw [hdropped] at htable
    rw [runStep, hthere, if_pos rfl, htable]
    rfl
  rw [htriggered, runSteps, hdrop]
  rfl

theorem rollbackMigration_eq (hlayout : db.schema = .newest)
    (hcurrent : db.currentVersion = .ok Migration.second.version) :
    db.rollbackMigration = (db.withoutSymbolSearch, .ok ()) := by
  have hpositive : ¬(Migration.second.version.order .zero == .eq) = true := by decide
  have hfind : Migration.all.find? (·.version.order Migration.second.version == .eq) =
      some .second := rfl
  have hother : ¬(Migration.second.version == Migration.first.version) = true := by decide
  have hhas : Schema.withoutSymbolSearch.require "schema_version" = .ok () := rfl
  unfold rollbackMigration
  rw [hcurrent]
  dsimp only
  rw [if_neg hpositive, hfind]
  dsimp only
  rw [runSteps_down hlayout]
  dsimp only
  rw [if_neg hother, toString_second]
  unfold removeVersion
  dsimp only
  rw [show db.withoutSymbolSearch.schema = .withoutSymbolSearch from rfl, hhas]
  rfl

/-! ## Migrating again -/

theorem runStep_of_hasPart {step : SchemaStep} (h : db.schema.hasPart step = true) :
    db.runStep step = .ok db := by
  cases step with
  | table name => exact if_pos h
  | index name table =>
      simp only [Schema.hasPart, Bool.and_eq_true, Bool.not_eq_true'] at h
      obtain ⟨⟨hrequire, hname⟩, hindex⟩ := h
      have hhas : db.schema.require table = .ok () := if_pos (by simpa using hrequire)
      rw [runStep, hhas]
      change (if db.schema.hasName name then _
        else if db.schema.indexes.contains (name, table) then _ else _) = _
      rw [hname, hindex]
      rfl
  | trigger name table =>
      obtain ⟨htable, htrigger⟩ := Bool.and_eq_true_iff.mp h
      rw [runStep, htable, htrigger]
      rfl
  | findSymbols => cases h
  | dropTrigger name => cases h
  | dropTable name => cases h

theorem runSteps_of_hasPart {steps : List SchemaStep} (h : ∀ step ∈ steps, db.schema.hasPart step = true) :
    db.runSteps steps = (db, .ok ()) := by
  induction steps with
  | nil => rfl
  | cons step rest ih =>
      rw [runSteps, runStep_of_hasPart (h step (by simp))]
      exact ih fun k hk => h k (List.mem_cons_of_mem step hk)

theorem addVersion_eq {version : Option String} (hhas : db.schema.require "schema_version" = .ok ())
    (hnew : version ∉ db.versions) :
    db.addVersion version = .ok { db with versions := db.versions ++ [version] } := by
  have hcontains : db.versions.contains version = false := by simpa using hnew
  unfold addVersion
  rw [hhas]
  change (if version.isSome && db.versions.contains version then _ else _) = _
  rw [hcontains, Bool.and_false]
  rfl

theorem migrateUp_of_runSteps {m : Migration} {name : String} (hname : m.version.toString = name)
    (hsteps : db.runSteps m.up = (db', .ok ())) (hhas : db'.schema.require "schema_version" = .ok ())
    (hnew : some name ∉ db'.versions) :
    db.migrateUp m = ({ db' with versions := db'.versions ++ [some name] }, .ok ()) := by
  unfold migrateUp
  dsimp only
  rw [hsteps, hname]
  dsimp only
  rw [addVersion_eq hhas hnew]

/-- The first migration finds everything there but its note. -/
theorem migrateUp_first (hlayout : db.schema = .withoutSymbolSearch) (hnew : some "1.0.0" ∉ db.versions) :
    db.migrateUp .first = ({ db with versions := db.versions ++ [some "1.0.0"] }, .ok ()) := by
  have hparts : Migration.first.up.all Schema.withoutSymbolSearch.hasPart = true := by decide +kernel
  have hhas : db.schema.require "schema_version" = .ok () := by
    rw [hlayout]
    rfl
  rw [← hlayout, List.all_eq_true] at hparts
  exact migrateUp_of_runSteps toString_first (runSteps_of_hasPart hparts) hhas hnew

theorem runSteps_up (hlayout : db.schema = .withoutSymbolSearch) :
    db.runSteps Migration.second.up = ({ db.findSymbols with schema := .newest }, .ok ()) := by
  let withTable : Schema := { Schema.newest with triggers := Schema.withoutSymbolSearch.triggers }
  let withInsert : Schema :=
    { withTable with triggers := withTable.triggers ++ [("doc_symbols_ai", "doc_symbols")] }
  have htable : db.runStep (.table "symbols_fts") = .ok { db with schema := withTable } := by
    have hmissing : Schema.withoutSymbolSearch.hasName "symbols_fts" = false := by decide +kernel
    rw [runStep, hlayout, hmissing]
    rfl
  have hfind : runStep { db with schema := withTable } .findSymbols =
      .ok { db.findSymbols with schema := withTable } := by
    have hindex : withTable.require "symbols_fts" = .ok () := rfl
    have hrows : withTable.require "doc_symbols" = .ok () := rfl
    rw [runStep, hindex, hrows]
    rfl
  have hinsert : runStep { db.findSymbols with schema := withTable }
      (.trigger "doc_symbols_ai" "doc_symbols") = .ok { db.findSymbols with schema := withInsert } := by
    have hthere : withTable.hasName "doc_symbols" = true := by decide +kernel
    have hnew : withTable.hasTrigger "doc_symbols_ai" = false := by decide
    rw [runStep, hthere, hnew]
    rfl
  have hdelete : runStep { db.findSymbols with schema := withInsert }
      (.trigger "doc_symbols_ad" "doc_symbols") = .ok { db.findSymbols with schema := .newest } := by
    have hthere : withInsert.hasName "doc_symbols" = true := by decide +kernel
    have hnew : withInsert.hasTrigger "doc_symbols_ad" = false := by decide
    rw [runStep, hthere, hnew]
    rfl
  simp only [Migration.second, runSteps, htable, hfind, hinsert, hdelete]

theorem migrateUp_second (hlayout : db.schema = .withoutSymbolSearch) (hnew : some "1.1.0" ∉ db.versions) :
    db.migrateUp .second =
      ({ db.findSymbols with schema := .newest, versions := db.versions ++ [some "1.1.0"] }, .ok ()) := by
  have hhas : Schema.newest.require "schema_version" = .ok () := rfl
  exact migrateUp_of_runSteps toString_second (runSteps_up hlayout) hhas hnew

/-- One or both migrations are run, and both find what they would make of tables and rows. -/
theorem applyMigrations_withoutSymbolSearch (hlayout : db.schema = .withoutSymbolSearch)
    (hbelow : ∀ row ∈ db.versions, isBelow row Migration.second.version = true) :
    db.applyMigrations =
      ({ db.findSymbols with
          schema := .newest
          versions := db.versions ++ db.pending.map (some ·.version.toString) }, .ok ()) := by
  have hhas : db.schema.require "schema_version" = .ok () := by
    rw [hlayout]
    rfl
  have hrows : db.VersionsHaveTable := fun hall => absurd rfl (hall _ (has_of_require hhas))
  obtain ⟨versions, -, hcurrent⟩ := exists_notes_of_readable hhas fun row hrow =>
    exists_read_of_isBelow (hbelow row hrow)
  have hnew : some "1.1.0" ∉ db.versions := by
    intro hmem
    have hself := hbelow _ hmem
    rw [isBelow_eq readVersion_second] at hself
    exact Version.not_lessThan_self _ hself
  rw [applyMigrations_eq hrows hcurrent]
  have hlast : db.versions.all (isBelow · Migration.second.version) = true := List.all_eq_true.mpr hbelow
  -- The note of the first version may be missing: nothing has read it since.
  by_cases hboth : db.versions.all (isBelow · Migration.first.version) = true
  · have hpending : db.pending = [.first, .second] := by
      simp [pending, Migration.all, hboth, hlast]
    have hnewFirst : some "1.0.0" ∉ db.versions := by
      intro hmem
      have hself := List.all_eq_true.mp hboth _ hmem
      rw [isBelow_eq readVersion_first] at hself
      exact Version.not_lessThan_self _ hself
    have hnames : [Migration.first, .second].map (some ·.version.toString) =
        [some "1.0.0", some "1.1.0"] := by
      simp only [List.map_cons, List.map_nil, toString_first, toString_second]
    have hlater : some "1.1.0" ∉ db.versions ++ [some "1.0.0"] := by simpa using hnew
    let noted : Database := { db with versions := db.versions ++ [some "1.0.0"] }
    have hnoted : noted.schema = .withoutSymbolSearch := hlayout
    have hup := migrateUp_second hnoted hlater
    rw [hpending, hnames, migrateAll, migrateUp_first hlayout hnewFirst]
    dsimp only
    rw [migrateAll, hup, List.append_assoc]
    rfl
  · have hpending : db.pending = [.second] := by
      simp [pending, Migration.all, hboth, hlast]
    have hnames : [Migration.second].map (some ·.version.toString) = [some "1.1.0"] := by
      simp only [List.map_cons, List.map_nil, toString_second]
    rw [hpending, hnames, migrateAll, migrateUp_second hlayout hnew]
    rfl

/-! ## What storage operations leave alone -/

/-- The layout is the same, and the versions noted are. -/
structure SameFrame (db db' : Database) : Prop where
  schema : db'.schema = db.schema
  versions : db'.versions = db.versions

theorem SameFrame.refl (db : Database) : SameFrame db db := ⟨rfl, rfl⟩

theorem SameFrame.trans {db₁ db₂ db₃ : Database} (h : SameFrame db₁ db₂) (h' : SameFrame db₂ db₃) :
    SameFrame db₁ db₃ :=
  ⟨h'.schema.trans h.schema, h'.versions.trans h.versions⟩

theorem sameFrame_dropDocuments {goes : IndexedFile → Bool} (h : db.dropDocuments goes = .ok db') :
    SameFrame db db' := by
  obtain ⟨_, _, rfl⟩ := exists_texts_of_dropDocuments h
  exact ⟨rfl, rfl⟩

theorem sameFrame_addDocument (db : Database) (row : DocumentRow) : SameFrame db (db.addDocument row) := by
  unfold addDocument
  dsimp only
  split <;> split <;> exact ⟨rfl, rfl⟩

theorem sameFrame_deleteDocuments {goes : IndexedFile → Bool} {text : String} {guard : Except Cause Unit}
    (h : CodeAtlas.failing text (guard >>= fun _ => db.dropDocuments goes) = .ok db') :
    SameFrame db db' := by
  rw [failing_eq_ok_iff] at h
  obtain ⟨-, -, h⟩ := bind_eq_ok_iff.mp h
  exact sameFrame_dropDocuments h

theorem sameFrame_updateProject {p : Project} (h : db.updateProject p = .ok db') : SameFrame db db' := by
  rw [updateProject_eq_ok h]
  exact ⟨rfl, rfl⟩

theorem sameFrame_deleteProject {id : String} (h : db.deleteProject id = .ok db') : SameFrame db db' := by
  unfold deleteProject at h
  obtain ⟨left, hdrop, h⟩ := bind_eq_ok_iff.mp h
  obtain ⟨hschema, hversions⟩ := sameFrame_deleteDocuments hdrop
  split at h
  · obtain rfl := Except.ok.inj h
    exact ⟨hschema, hversions⟩
  · cases h

theorem sameFrame_createProject {now : Instant} {p : Project} (h : db.createProject now p = .ok db') :
    SameFrame db db' := by
  rw [(createProject_eq_ok h).2]
  exact ⟨rfl, rfl⟩

theorem sameFrame_write {now : Instant} {op : WriteOp} (h : db.write now op = .ok db') :
    SameFrame db db' := by
  cases op with
  | put d =>
      change db.putDocument now d = _ at h
      unfold putDocument at h
      obtain ⟨left, hdrop, h⟩ := bind_eq_ok_iff.mp h
      obtain ⟨-, -, h⟩ := bind_eq_ok_iff.mp h
      obtain ⟨-, -, h⟩ := bind_eq_ok_iff.mp h
      obtain ⟨-, -, h⟩ := bind_eq_ok_iff.mp h
      obtain rfl := Except.ok.inj h
      exact (sameFrame_deleteDocuments hdrop).trans (sameFrame_addDocument left _)
  | deleteFile id => exact sameFrame_deleteDocuments h
  | deleteProjectDocuments id => exact sameFrame_deleteDocuments h
  | saveProject p => exact sameFrame_updateProject h

theorem sameFrame_writeAll {now : Instant} {queue : List WriteOp}
    (h : queue.foldlM (·.write now) db = .ok db') : SameFrame db db' := by
  induction queue generalizing db with
  | nil =>
      obtain rfl := Except.ok.inj h
      exact .refl _
  | cons op rest ih =>
      rw [List.foldlM_cons] at h
      obtain ⟨next, hnext, hrest⟩ := bind_eq_ok_iff.mp h
      exact (sameFrame_write hnext).trans (ih hrest)

end Database

namespace Index

variable {ix : Index}

/-- Whatever is done to the index, and whether or not it succeeds, its layout stays as it is. -/
theorem sameFrame_act (ix : Index) (a : StorageAct) :
    ix.database.SameFrame (ix.act a).1.database ∧ (ix.act a).1.isClosed = ix.isClosed := by
  have horSame (outcome : Except Fault Index)
      (h : ∀ ix', outcome = .ok ix' → ix.database.SameFrame ix'.database ∧ ix'.isClosed = ix.isClosed) :
      ix.database.SameFrame (ix.orSame outcome).1.database ∧
        (ix.orSame outcome).1.isClosed = ix.isClosed := by
    cases outcome with
    | error f => exact ⟨.refl _, rfl⟩
    | ok ix' => exact h ix' rfl
  cases a with
  | createProject live now p =>
      refine horSame _ fun ix' hdone => ?_
      obtain ⟨db, hdb, rfl⟩ := createProject_eq_ok hdone
      exact ⟨Database.sameFrame_createProject hdb, rfl⟩
  | updateProject live p =>
      refine horSame _ fun ix' hdone => ?_
      obtain ⟨db, hdb, rfl⟩ := updateProject_eq_ok hdone
      exact ⟨Database.sameFrame_updateProject hdb, rfl⟩
  | deleteProject live id =>
      refine horSame _ fun ix' hdone => ?_
      obtain ⟨db, hdb, rfl⟩ := deleteProject_eq_ok hdone
      exact ⟨Database.sameFrame_deleteProject hdb, rfl⟩
  | openWriter =>
      refine horSame _ fun ix' hdone => ?_
      unfold openWriter at hdone
      split at hdone
      · cases hdone
      · split at hdone
        · cases hdone
        · obtain rfl := Except.ok.inj hdone
          exact ⟨.refl _, rfl⟩
  | submit op =>
      refine horSame _ fun ix' hdone => ?_
      unfold submit at hdone
      split at hdone
      · cases hdone
      · obtain rfl := Except.ok.inj hdone
        exact ⟨.refl _, rfl⟩
  | rollback =>
      refine horSame _ fun ix' hdone => ?_
      unfold rollback at hdone
      split at hdone
      · obtain rfl := Except.ok.inj hdone
        exact ⟨.refl _, rfl⟩
      · cases hdone
  | commit refusal now =>
      rcases hcommit : ix.commitUnless refusal now with ⟨ix', result⟩
      simp only [act, hcommit]
      obtain ⟨f, -, rfl⟩ | ⟨queue, db, -, -, hdb, rfl⟩ := commit_cases hcommit
      · exact ⟨.refl _, rfl⟩
      · exact ⟨Database.sameFrame_writeAll hdb, rfl⟩

/-- Runs storage operations one after the other and collects their answers. -/
def actAll (ix : Index) : List StorageAct → Index × List (Except Fault Unit)
  | [] => (ix, [])
  | a :: rest => (((ix.act a).1.actAll rest).1, (ix.act a).2 :: ((ix.act a).1.actAll rest).2)

theorem sameFrame_actAll (ix : Index) (acts : List StorageAct) :
    ix.database.SameFrame (ix.actAll acts).1.database ∧ (ix.actAll acts).1.isClosed = ix.isClosed := by
  induction acts generalizing ix with
  | nil => exact ⟨.refl _, rfl⟩
  | cons a rest ih =>
      obtain ⟨hframe, hopen⟩ := sameFrame_act ix a
      obtain ⟨hframe', hopen'⟩ := ih (ix.act a).1
      exact ⟨hframe.trans hframe', hopen'.trans hopen⟩

/-! ## The same operations with and without the text index of symbols -/

/-- The index after the last migration has been rolled back. -/
def withoutSymbolSearch (ix : Index) : Index :=
  { ix with database := ix.database.withoutSymbolSearch }

/-- An operation leaves and answers the same without the text index of symbols, and keeps it in step. -/
structure MirroredAct (plain full : Index × Except Fault Unit) : Prop where
  same : plain = (full.1.withoutSymbolSearch, full.2)
  inStep : full.1.database.InStep

theorem mirroredAct_change (h : ix.database.InStep) {guard : Except Fault Unit}
    {plain full : Except Fault Database} (hchange : Database.Mirrored plain full) :
    MirroredAct
      (ix.withoutSymbolSearch.orSame (guard >>= fun _ => plain >>= fun db =>
        pure { ix.withoutSymbolSearch with database := db }))
      (ix.orSame (guard >>= fun _ => full >>= fun db => pure { ix with database := db })) := by
  obtain ⟨rfl, hinStep⟩ := hchange
  cases guard with
  | error f => exact ⟨rfl, h⟩
  | ok =>
      cases full with
      | error f => exact ⟨rfl, h⟩
      | ok db => exact ⟨rfl, hinStep db rfl⟩

theorem mirroredAct_commit (h : ix.database.InStep) (refusal : Option Cause) (now : Instant) :
    MirroredAct (ix.withoutSymbolSearch.commitUnless refusal now) (ix.commitUnless refusal now) := by
  obtain ⟨db, isClosed, queue⟩ := ix
  cases queue with
  | none => exact ⟨rfl, h⟩
  | some queue =>
      have hwrites := Database.InStep.writeAll h now queue
      unfold commitUnless withoutSymbolSearch
      dsimp only at hwrites ⊢
      rw [hwrites.same]
      cases hfull : queue.foldlM (·.write now) db with
      | error f => exact ⟨rfl, h⟩
      | ok db' =>
          cases refusal with
          | some cause => exact ⟨rfl, h⟩
          | none => exact ⟨rfl, hwrites.inStep db' hfull⟩

theorem mirroredAct_act (h : ix.database.InStep) (a : StorageAct) :
    MirroredAct (ix.withoutSymbolSearch.act a) (ix.act a) := by
  cases a with
  | createProject live now p => exact mirroredAct_change h (h.createProject now p)
  | updateProject live p => exact mirroredAct_change h (h.updateProject p)
  | deleteProject live id => exact mirroredAct_change h (h.deleteProject id)
  | openWriter =>
      obtain ⟨db, isClosed, queue⟩ := ix
      cases queue <;> cases isClosed <;> exact ⟨rfl, h⟩
  | submit op =>
      obtain ⟨db, isClosed, queue⟩ := ix
      cases queue <;> exact ⟨rfl, h⟩
  | rollback =>
      obtain ⟨db, isClosed, queue⟩ := ix
      cases queue <;> exact ⟨rfl, h⟩
  | commit refusal now => exact mirroredAct_commit h refusal now

theorem actAll_withoutSymbolSearch (h : ix.database.InStep) (acts : List StorageAct) :
    ix.withoutSymbolSearch.actAll acts =
        ((ix.actAll acts).1.withoutSymbolSearch, (ix.actAll acts).2) ∧
      (ix.actAll acts).1.database.InStep := by
  induction acts generalizing ix with
  | nil => exact ⟨rfl, h⟩
  | cons a rest ih =>
      obtain ⟨hsame, hinStep⟩ := mirroredAct_act h a
      obtain ⟨hrest, hlast⟩ := ih hinStep
      refine ⟨?_, hlast⟩
      rw [actAll, actAll, hsame, hrest]

/-! ## There and back -/

/-- An open index at the newest version: it has the newest layout, and notes that version, spelled as here, and
besides only lower ones. An index that notes the version in another spelling is left out, and so is one with two
rows at the top. -/
structure AtNewest (ix : Index) : Prop where
  isOpen : ix.isClosed = false
  layout : ix.database.schema = .newest
  version : Database.Tops (some "1.1.0") Migration.second.version ix.database.versions

theorem reachVersions_eq (hopen : ix.isClosed = false) : ix.reachVersions = .ok () := by
  unfold reachVersions reach
  rw [hopen]
  rfl

theorem changeLayout_eq {db : Database} {change : Database → Database × Except Fault Unit}
    {answer : Except Fault Unit} (hopen : ix.isClosed = false)
    (hchange : change ix.database = (db, answer)) :
    ix.changeLayout change = ({ ix with database := db }, answer) := by
  unfold changeLayout
  rw [reachVersions_eq hopen]
  dsimp only
  rw [hchange]

theorem AtNewest.currentVersion_eq (h : ix.AtNewest) :
    ix.database.currentVersion = .ok Migration.second.version := by
  refine Database.currentVersion_of_tops ?_ h.version (by decide)
  rw [h.layout]
  rfl

theorem AtNewest.version_eq (h : ix.AtNewest) : ix.version = .ok Migration.second.version := by
  unfold Index.version
  rw [reachVersions_eq h.isOpen]
  exact h.currentVersion_eq

theorem AtNewest.rollBackLayout (h : ix.AtNewest) :
    ix.rollBackLayout = (ix.withoutSymbolSearch, .ok ()) :=
  changeLayout_eq h.isOpen (Database.rollbackMigration_eq h.layout h.currentVersion_eq)

/-- An open index from which the last migration has been rolled back. -/
structure RolledBack (ix : Index) : Prop where
  isOpen : ix.isClosed = false
  layout : ix.database.schema = .withoutSymbolSearch
  version : ∀ row ∈ ix.database.versions, isBelow row Migration.second.version = true

theorem AtNewest.rolledBack (h : ix.AtNewest) : ix.withoutSymbolSearch.RolledBack where
  isOpen := h.isOpen
  layout := rfl
  version := by
    intro row hrow
    obtain ⟨hmem, hother⟩ := List.mem_filter.mp hrow
    exact h.version.others row hmem (by simpa using hother)

theorem RolledBack.actAll (h : ix.RolledBack) (acts : List StorageAct) :
    (ix.actAll acts).1.RolledBack := by
  obtain ⟨hframe, hopen⟩ := sameFrame_actAll ix acts
  exact ⟨hopen.trans h.isOpen, hframe.schema.trans h.layout, by rw [hframe.versions]; exact h.version⟩

/-- The index after migrating again. -/
def again (ix : Index) : Index :=
  { ix with database := { ix.database.findSymbols with
      schema := .newest
      versions := ix.database.versions ++ ix.database.pending.map (some ·.version.toString) } }

theorem RolledBack.migrate (h : ix.RolledBack) : ix.migrate = (ix.again, .ok ()) :=
  changeLayout_eq h.isOpen (Database.applyMigrations_withoutSymbolSearch h.layout h.version)

theorem RolledBack.atNewest (h : ix.RolledBack) : ix.again.AtNewest where
  isOpen := h.isOpen
  layout := rfl
  version := by
    have hsecond : Migration.second ∈ ix.database.pending :=
      List.mem_filter.mpr ⟨by simp [Migration.all], List.all_eq_true.mpr h.version⟩
    refine ⟨?_, Database.readVersion_second, fun other hother hne => ?_⟩
    · rw [← Database.toString_second]
      exact List.mem_append_right _ (List.mem_map_of_mem hsecond)
    · rcases List.mem_append.mp hother with hother | hother
      · exact h.version other hother
      · obtain ⟨m, hm, rfl⟩ := List.mem_map.mp hother
        rcases List.mem_pair.mp (List.mem_of_mem_filter hm) with rfl | rfl
        · rw [Database.toString_first, Database.isBelow_eq Database.readVersion_first]
          decide
        · exact absurd (congrArg some Database.toString_second) hne

/-- What rolling back, some operations and migrating again make of an index. -/
structure RoundTrip (ix : Index) (acts : List StorageAct) (back migrated : Index) : Prop where
  rollsBack : ix.rollBackLayout = (back, .ok ())
  keepsRows : ix.database.SameRows back.database
  migrates : (back.actAll acts).1.migrate = (migrated, .ok ())
  version : migrated.version = .ok ⟨1, 1, 0, "", ""⟩
  atNewest : migrated.AtNewest
  keepsWritten : (back.actAll acts).1.database.SameRows migrated.database
  finds : migrated.database.FindsSymbols
  /-- If the text index was in step, all is as if the migration had never been rolled back. -/
  lossless : ix.database.FindsSymbols → (back.actAll acts).2 = (ix.actAll acts).2 ∧
    migrated = { (ix.actAll acts).1 with
      database := { (ix.actAll acts).1.database with versions := migrated.database.versions } }

theorem AtNewest.roundTrip (h : ix.AtNewest) (acts : List StorageAct) :
    RoundTrip ix acts ix.withoutSymbolSearch (ix.withoutSymbolSearch.actAll acts).1.again where
  rollsBack := h.rollBackLayout
  keepsRows := ⟨rfl, Database.bare_mapSymbols ix.database.tables fun s => rfl, rfl⟩
  migrates := (h.rolledBack.actAll acts).migrate
  version := (h.rolledBack.actAll acts).atNewest.version_eq
  atNewest := (h.rolledBack.actAll acts).atNewest
  keepsWritten := ⟨rfl, Database.bare_mapSymbols _ fun s => rfl, rfl⟩
  finds := by
    obtain ⟨hentries, hfigures⟩ :=
      Database.findsSymbols_findSymbols (ix.withoutSymbolSearch.actAll acts).1.database
    exact ⟨hentries, hfigures⟩
  lossless hfinds := by
    obtain ⟨hsame, hinStep⟩ := actAll_withoutSymbolSearch ⟨h.layout, hfinds⟩ acts
    rw [hsame]
    refine ⟨rfl, ?_⟩
    exact congrArg (fun database => { (ix.actAll acts).1 with database })
      (hinStep.findSymbols_withoutSymbolSearch _)

/-- An index on which nothing but storage operations have been run is at the newest version, with its text
index in step. -/
theorem atNewest_actAll_new (acts : List StorageAct) :
    (new.actAll acts).1.AtNewest ∧ (new.actAll acts).1.database.FindsSymbols := by
  have hinStep : new.database.InStep := by
    rw [new_eq]
    exact ⟨rfl, fun s hs => absurd hs List.not_mem_nil, rfl⟩
  obtain ⟨hframe, hopen⟩ := sameFrame_actAll new acts
  obtain ⟨hlayout, hfinds⟩ := (actAll_withoutSymbolSearch hinStep acts).2
  refine ⟨⟨hopen.trans (by rw [new_eq]), hlayout, ?_⟩, hfinds⟩
  rw [hframe.versions, new_eq]
  refine ⟨by simp, Database.readVersion_second, fun other hother hne => ?_⟩
  rcases List.mem_pair.mp hother with rfl | rfl
  · rw [Database.isBelow_eq Database.readVersion_first]
    decide
  · exact absurd rfl hne

/-- Rolling the last migration back and migrating again loses nothing, whatever operations come between.
Migrations that succeed are exactly those that are higher than every version noted, and then none is left
to be run. -/
theorem migrations_lose_nothing :
    (∀ ix : Index, ix.AtNewest → ∀ acts, ∃ back migrated, RoundTrip ix acts back migrated) ∧
    ∀ db db' : Database, db.VersionsHaveTable → db.applyMigrations = (db', .ok ()) →
      db.migrateAll db.pending = (db', .ok ()) ∧ db.Migrated db.pending db' ∧
        db'.applyMigrations = (db', .ok ()) :=
  ⟨fun _ h acts => ⟨_, _, h.roundTrip acts⟩, fun _ _ => Database.migrated_applyMigrations⟩

/-- A document comes and another one goes while the migration is rolled back. -/
def actsBetween : List StorageAct :=
  [.openWriter, .submit (.deleteFile "f"),
    .submit (.put { awkwardDocument with file := { awkwardDocument.file with id := "h" } }),
    .commit none ⟨40, 0, false⟩]

theorem migrations_lose_nothing_awkward :
    (new.actAll awkwardActs).1.AtNewest ∧
      (∃ back migrated, RoundTrip (new.actAll awkwardActs).1 actsBetween back migrated ∧
        migrated.database.documents.map (·.file.id) = ["g", "h"] ∧
        migrated.database.symbolTexts = ⟨[2, 0, 0], 2, []⟩) ∧
      Database.empty.VersionsHaveTable ∧
      new.database.applyMigrations = (new.database, .ok ()) := by
  obtain ⟨hnewest, hfinds⟩ := atNewest_actAll_new awkwardActs
  obtain ⟨htrips, hmigrations⟩ := migrations_lose_nothing
  obtain ⟨back, migrated, htrip⟩ := htrips _ hnewest actsBetween
  have hempty : Database.empty.VersionsHaveTable := fun _ => rfl
  have hdone : Database.empty.applyMigrations = (new.database, .ok ()) :=
    Prod.ext rfl (by decide +kernel)
  refine ⟨hnewest, ⟨back, migrated, htrip, ?_⟩, hempty, (hmigrations _ _ hempty hdone).2.2⟩
  have htables : migrated.database.tables =
      ((new.actAll awkwardActs).1.actAll actsBetween).1.database.tables := by
    rw [(htrip.lossless hfinds).2]
  rw [htrip.finds.figures, Database.documents, Database.symbolRows, htables, new_eq]
  decide +kernel

end Index

end CodeAtlas
