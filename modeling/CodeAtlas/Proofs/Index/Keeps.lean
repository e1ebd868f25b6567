import CodeAtlas.Proofs.Index.Rows
import Mathlib.Data.List.Nodup

/-!
# Databases that keep documents

A database in order has the newest layout and sound projects with identifiers and roots of their own,
and it keeps documents of different files, each with its project, and no symbols or references without
their document. Every change that succeeds leaves it
in order, and what it keeps then is told by the same change of a plain list. So whatever refuses a
change, rows without a document or documents without a row never come up.
-/

namespace CodeAtlas

def Schema.newest : Schema where
  tables := [("schema_version", true), ("projects", true), ("documents", true),
    ("doc_symbols", true), ("doc_references", true), ("documents_fts", true), ("symbols_fts", true)]
  indexes := [("idx_documents_project", "documents"), ("idx_documents_language", "documents"),
    ("idx_doc_symbols_document", "doc_symbols"), ("idx_doc_symbols_name", "doc_symbols"),
    ("idx_doc_symbols_kind", "doc_symbols"), ("idx_doc_references_document", "doc_references"),
    ("idx_doc_references_symbol", "doc_references")]
  triggers := [("documents_ai", "documents"), ("documents_ad", "documents"),
    ("documents_au", "documents"), ("doc_symbols_ai", "doc_symbols"),
    ("doc_symbols_ad", "doc_symbols")]

theorem Index.new_eq : Index.new =
    { database := { Database.empty with
        schema := .newest, versions := [some "1.0.0", some "1.1.0"] }
      isClosed := false
      queue := none } := by
  decide +kernel

def WriteOp.on (now : Instant) (docs : List Document) : WriteOp → List Document
  | .put d => docs.filter (·.file.id != d.file.id) ++ [Database.stamped now d]
  | .deleteFile id => docs.filter (·.file.id != id)
  | .deleteProjectDocuments id => docs.filter (·.file.projectId != id)
  | .saveProject _ => docs

def ProjectRow.updated (p : Project) (row : ProjectRow) : ProjectRow :=
  if row.project.id == p.id then
    ⟨{ p with rootPath := row.project.rootPath, createdAt := row.project.createdAt },
      row.spoiled.filter fun c => c != "indexed" && c != "last_indexed_at"⟩
  else row

def WriteOp.onProjects (rows : List ProjectRow) : WriteOp → List ProjectRow
  | .saveProject p => rows.map (ProjectRow.updated p)
  | _ => rows

namespace Database

@[simp]
theorem stamped_id (now : Instant) (d : Document) : (stamped now d).file.id = d.file.id := by
  unfold stamped
  split <;> rfl

@[simp]
theorem stamped_projectId (now : Instant) (d : Document) :
    (stamped now d).file.projectId = d.file.projectId := by
  unfold stamped
  split <;> rfl

/-- Projects that no one has damaged, none with the identifier or the root of another. -/
structure SoundProjects (rows : List ProjectRow) : Prop where
  sound : ∀ row ∈ rows, row.spoiled = []
  ids : (rows.map (·.project.id)).Nodup
  roots : (rows.map (·.project.rootPath)).Nodup

/-- A database in order that keeps documents. -/
structure Keeps (db : Database) (docs : List Document) : Prop where
  layout : db.schema = .newest
  projects : SoundProjects db.projects
  rows : List.Forall₂ DocumentRow.Keeps db.documents docs
  files : (docs.map (·.file.id)).Nodup
  owned : ∀ d ∈ docs, db.hasProject d.file.projectId = true
  tables : db.tables.Owned

variable {db db' : Database} {docs : List Document}

theorem hasProject_congr (h : SameBesides db db') (id : String) :
    db'.hasProject id = db.hasProject id := by
  unfold hasProject
  rw [h.projects]

theorem Keeps.dropDocuments (hkeeps : db.Keeps docs) {goes : IndexedFile → Bool}
    (h : db.dropDocuments goes = .ok db') :
    SameBesides db db' ∧ db'.Keeps (docs.filter fun d => !goes d.file) := by
  obtain ⟨hsame, hleft⟩ := dropDocuments_eq_ok h
  refine ⟨hsame, ?_⟩
  constructor
  · rw [hsame.schema, hkeeps.layout]
  · rw [hsame.projects]
    exact hkeeps.projects
  · rw [hleft]
    refine List.rel_filter (fun row d hrow => ?_) hkeeps.rows
    simp [hrow.file]
  · exact hkeeps.files.sublist (List.filter_sublist.map _)
  · intro d hd
    rw [hasProject_congr hsame]
    exact hkeeps.owned d (List.mem_of_mem_filter hd)
  · exact owned_dropDocuments h hkeeps.tables

theorem Keeps.addDocument (hkeeps : db.Keeps docs) {d : Document}
    (hnew : d.file.id ∉ docs.map (·.file.id)) (howned : db.hasProject d.file.projectId = true) :
    (db.addDocument (.ofDocument d)).Keeps (docs ++ [d]) := by
  obtain ⟨hsame, row, hrow, hrows⟩ := addDocument_appends db (DocumentRow.keeps_ofDocument d)
  constructor
  · rw [hsame.schema, hkeeps.layout]
  · rw [hsame.projects]
    exact hkeeps.projects
  · rw [hrows]
    exact List.rel_append hkeeps.rows (.cons hrow .nil)
  · rw [List.map_append, List.nodup_append]
    refine ⟨hkeeps.files, by simp, ?_⟩
    rintro id hid other hother rfl
    obtain rfl : id = d.file.id := by simpa using hother
    exact hnew hid
  · intro e he
    rw [hasProject_congr hsame]
    rcases List.mem_append.mp he with he | he
    · exact hkeeps.owned e he
    · obtain rfl := List.mem_singleton.mp he
      exact howned
  · exact owned_addDocument hkeeps.tables d

theorem Keeps.putDocument (hkeeps : db.Keeps docs) {now : Instant} {d : Document}
    (h : db.putDocument now d = .ok db') : db'.projects = db.projects ∧
      db'.Keeps (docs.filter (·.file.id != d.file.id) ++ [stamped now d]) := by
  unfold Database.putDocument at h
  obtain ⟨left, hdrop, h⟩ := bind_eq_ok_iff.mp h
  rw [failing_eq_ok_iff] at hdrop
  obtain ⟨-, -, hdrop⟩ := bind_eq_ok_iff.mp hdrop
  obtain ⟨hsame, hleft⟩ := hkeeps.dropDocuments hdrop
  obtain ⟨⟨⟩, hinsert, h⟩ := bind_eq_ok_iff.mp h
  rw [failing_eq_ok_iff] at hinsert
  obtain ⟨-, -, hinsert⟩ := bind_eq_ok_iff.mp hinsert
  obtain ⟨-, -, h⟩ := bind_eq_ok_iff.mp h
  obtain ⟨-, -, h⟩ := bind_eq_ok_iff.mp h
  obtain rfl := Except.ok.inj h
  have howned : left.hasProject d.file.projectId = true := by
    split at hinsert
    · assumption
    · simp [throw, throwThe, MonadExceptOf.throw] at hinsert
  have hadded := hleft.addDocument (d := stamped now d) (by simp) (by simpa using howned)
  refine ⟨?_, hadded⟩
  exact ((addDocument_appends left (DocumentRow.keeps_ofDocument _)).1.projects).trans hsame.projects

theorem Keeps.deleteFile (hkeeps : db.Keeps docs) {id : String} (h : db.deleteFile id = .ok db') :
    db'.projects = db.projects ∧ db'.Keeps (docs.filter (·.file.id != id)) := by
  unfold Database.deleteFile at h
  rw [failing_eq_ok_iff] at h
  obtain ⟨-, -, h⟩ := bind_eq_ok_iff.mp h
  obtain ⟨hsame, hleft⟩ := hkeeps.dropDocuments h
  exact ⟨hsame.projects, hleft⟩

theorem Keeps.deleteProjectDocuments (hkeeps : db.Keeps docs) {id : String}
    (h : db.deleteProjectDocuments id = .ok db') :
    db'.projects = db.projects ∧ db'.Keeps (docs.filter (·.file.projectId != id)) := by
  unfold Database.deleteProjectDocuments at h
  rw [failing_eq_ok_iff] at h
  obtain ⟨-, -, h⟩ := bind_eq_ok_iff.mp h
  obtain ⟨hsame, hleft⟩ := hkeeps.dropDocuments h
  exact ⟨hsame.projects, hleft⟩

theorem updateProject_eq_ok {p : Project} (h : db.updateProject p = .ok db') :
    db' = { db with projects := db.projects.map (ProjectRow.updated p) } := by
  unfold updateProject at h
  obtain ⟨-, -, h⟩ := bind_eq_ok_iff.mp h
  split at h
  · exact (Except.ok.inj h).symm
  · simp [throw, throwThe, MonadExceptOf.throw] at h

theorem updated_id (p : Project) (row : ProjectRow) :
    (ProjectRow.updated p row).project.id = row.project.id := by
  unfold ProjectRow.updated
  split
  · rename_i hid
    exact (beq_iff_eq.mp hid).symm
  · rfl

theorem updated_rootPath (p : Project) (row : ProjectRow) :
    (ProjectRow.updated p row).project.rootPath = row.project.rootPath := by
  unfold ProjectRow.updated
  split <;> rfl

theorem SoundProjects.updated {rows : List ProjectRow} (h : SoundProjects rows) (p : Project) :
    SoundProjects (rows.map (ProjectRow.updated p)) where
  sound := by
    intro row hrow
    obtain ⟨old, hold, rfl⟩ := List.mem_map.mp hrow
    unfold ProjectRow.updated
    split
    · simp [h.sound old hold]
    · exact h.sound old hold
  ids := by
    simpa only [List.map_map, Function.comp_def, updated_id] using h.ids
  roots := by
    simpa only [List.map_map, Function.comp_def, updated_rootPath] using h.roots

theorem Keeps.updateProject (hkeeps : db.Keeps docs) {p : Project}
    (h : db.updateProject p = .ok db') : db'.Keeps docs := by
  obtain rfl := updateProject_eq_ok h
  refine ⟨hkeeps.layout, hkeeps.projects.updated p, hkeeps.rows, hkeeps.files, ?_, hkeeps.tables⟩
  intro d hd
  have howned := hkeeps.owned d hd
  simpa only [hasProject, List.any_map, Function.comp_def, updated_id] using howned

/-- A project as it is kept: it has a time of creation. -/
def created (now : Instant) (p : Project) : Project :=
  if p.createdAt.isZero then { p with createdAt := now } else p

theorem createProject_eq_ok {now : Instant} {p : Project} (h : db.createProject now p = .ok db') :
    (∀ row ∈ db.projects, row.project.id ≠ p.id ∧ row.project.rootPath ≠ p.rootPath) ∧
      db' = { db with projects := db.projects ++ [⟨created now p, []⟩] } := by
  unfold createProject at h
  obtain ⟨-, -, h⟩ := bind_eq_ok_iff.mp h
  simp only at h
  by_cases hnew : (db.projects.any fun row =>
      row.project.id == p.id || row.project.rootPath == p.rootPath) = true
  · rw [if_pos hnew] at h
    simp [throw, throwThe, MonadExceptOf.throw, bind, Except.bind] at h
  · rw [if_neg hnew] at h
    exact ⟨by simpa [not_or] using hnew, (Except.ok.inj h).symm⟩

theorem SoundProjects.append {rows : List ProjectRow} (h : SoundProjects rows) {p : Project}
    (hnew : ∀ row ∈ rows, row.project.id ≠ p.id ∧ row.project.rootPath ≠ p.rootPath) :
    SoundProjects (rows ++ [⟨p, []⟩]) where
  sound := by
    intro row hrow
    rcases List.mem_append.mp hrow with hrow | hrow
    · exact h.sound row hrow
    · rw [List.mem_singleton.mp hrow]
  ids := by
    rw [List.map_append, List.nodup_append]
    refine ⟨h.ids, by simp, ?_⟩
    rintro id hid other hother rfl
    obtain ⟨row, hrow, rfl⟩ := List.mem_map.mp hid
    exact (hnew row hrow).1 (by simpa using hother)
  roots := by
    rw [List.map_append, List.nodup_append]
    refine ⟨h.roots, by simp, ?_⟩
    rintro root hroot other hother rfl
    obtain ⟨row, hrow, rfl⟩ := List.mem_map.mp hroot
    exact (hnew row hrow).2 (by simpa using hother)

theorem Keeps.createProject (hkeeps : db.Keeps docs) {now : Instant} {p : Project}
    (h : db.createProject now p = .ok db') : db'.Keeps docs := by
  obtain ⟨hnew, rfl⟩ := createProject_eq_ok h
  have hkept : (created now p).id = p.id ∧ (created now p).rootPath = p.rootPath := by
    unfold created
    split <;> exact ⟨rfl, rfl⟩
  refine ⟨hkeeps.layout, hkeeps.projects.append ?_, hkeeps.rows, hkeeps.files, ?_, hkeeps.tables⟩
  · rw [hkept.1, hkept.2]
    exact hnew
  · intro d hd
    have howned := hkeeps.owned d hd
    simp only [hasProject, List.any_append] at howned ⊢
    rw [howned, Bool.true_or]

theorem SoundProjects.filter {rows : List ProjectRow} (h : SoundProjects rows)
    (stays : ProjectRow → Bool) : SoundProjects (rows.filter stays) where
  sound row hrow := h.sound row (List.mem_of_mem_filter hrow)
  ids := h.ids.sublist (List.filter_sublist.map _)
  roots := h.roots.sublist (List.filter_sublist.map _)

/-- A project goes with all its documents, so that no document is left without a project. -/
theorem Keeps.deleteProject (hkeeps : db.Keeps docs) {id : String}
    (h : db.deleteProject id = .ok db') :
    db'.projects = db.projects.filter (·.project.id != id) ∧
      db'.Keeps (docs.filter (·.file.projectId != id)) := by
  unfold Database.deleteProject at h
  obtain ⟨left, hdrop, h⟩ := bind_eq_ok_iff.mp h
  rw [failing_eq_ok_iff] at hdrop
  obtain ⟨-, -, hdropped⟩ := bind_eq_ok_iff.mp hdrop
  obtain ⟨hsame, hleft⟩ := hkeeps.dropDocuments hdropped
  split at h
  · obtain rfl := Except.ok.inj h
    refine ⟨by rw [hsame.projects], hleft.layout, hleft.projects.filter _, hleft.rows,
      hleft.files, ?_, hleft.tables⟩
    intro d hd
    have howned := hleft.owned d hd
    have hother : d.file.projectId ≠ id := by simpa using (List.mem_filter.mp hd).2
    obtain ⟨row, hrow, hid⟩ := List.any_eq_true.mp howned
    refine List.any_eq_true.mpr ⟨row, List.mem_filter.mpr ⟨hrow, ?_⟩, hid⟩
    rw [beq_iff_eq.mp hid]
    simpa using hother
  · simp [throw, throwThe, MonadExceptOf.throw] at h

theorem Keeps.write (hkeeps : db.Keeps docs) {now : Instant} {op : WriteOp}
    (h : db.write now op = .ok db') :
    db'.projects = op.onProjects db.projects ∧ db'.Keeps (op.on now docs) := by
  cases op with
  | put d => exact hkeeps.putDocument h
  | deleteFile id => exact hkeeps.deleteFile h
  | deleteProjectDocuments id => exact hkeeps.deleteProjectDocuments h
  | saveProject p =>
      refine ⟨?_, hkeeps.updateProject h⟩
      rw [updateProject_eq_ok h]
      rfl

theorem Keeps.writeAll {queue : List WriteOp} (hkeeps : db.Keeps docs) {now : Instant}
    (h : queue.foldlM (·.write now) db = .ok db') :
    db'.projects = queue.foldl WriteOp.onProjects db.projects ∧
      db'.Keeps (queue.foldl (WriteOp.on now) docs) := by
  induction queue generalizing db docs with
  | nil =>
      obtain rfl := Except.ok.inj h
      exact ⟨rfl, hkeeps⟩
  | cons op rest ih =>
      rw [List.foldlM_cons] at h
      obtain ⟨next, hwrite, hrest⟩ := bind_eq_ok_iff.mp h
      obtain ⟨hprojects, hkept⟩ := hkeeps.write hwrite
      obtain ⟨hprojects', hkept'⟩ := ih hkept hrest
      rw [hprojects] at hprojects'
      exact ⟨hprojects', hkept'⟩

theorem keeps_new : Index.new.database.Keeps [] := by
  rw [Index.new_eq]
  exact ⟨rfl, ⟨by simp [empty], .nil, .nil⟩, .nil, .nil, by simp, DocumentTables.owned_empty⟩

theorem Keeps.exists_deleteProject (hkeeps : db.Keeps docs) {id : String}
    (hnone : ∀ d ∈ docs, d.file.projectId ≠ id) (hproject : db.hasProject id = true) :
    ∃ db', db.deleteProject id = .ok db' := by
  have hrows : db.documents.filter (·.file.projectId == id) = [] := by
    have hkept : List.Forall₂ DocumentRow.Keeps (db.documents.filter (·.file.projectId == id))
        (docs.filter (·.file.projectId == id)) :=
      List.rel_filter (fun row d hrow => by simp [hrow.file]) hkeeps.rows
    have hnone : docs.filter (·.file.projectId == id) = [] :=
      List.filter_eq_nil_iff.mpr fun d hd => by simpa using hnone d hd
    rw [hnone] at hkept
    exact List.forall₂_nil_right_iff.mp hkept
  have hdropped : db.dropDocuments (·.projectId == id) =
      .ok { db with tables := db.tables.delete (·.projectId == id) } := by
    unfold Database.dropDocuments
    rw [hrows]
    rfl
  have hdelete : Schema.newest.requireDeleteProject = .ok () := by decide
  unfold Database.deleteProject
  rw [hkeeps.layout, hdropped, hdelete]
  exact ⟨_, if_pos hproject⟩

end Database

namespace Index

variable {ix ix' : Index} {live : Bool} {now : Instant}

theorem createProject_eq_ok {p : Project} (h : ix.createProject live now p = .ok ix') :
    ∃ db, ix.database.createProject now p = .ok db ∧ ix' = { ix with database := db } := by
  unfold createProject at h
  obtain ⟨-, -, h⟩ := bind_eq_ok_iff.mp h
  obtain ⟨db, hdb, h⟩ := bind_eq_ok_iff.mp h
  exact ⟨db, hdb, (Except.ok.inj h).symm⟩

theorem updateProject_eq_ok {p : Project} (h : ix.updateProject live p = .ok ix') :
    ∃ db, ix.database.updateProject p = .ok db ∧ ix' = { ix with database := db } := by
  unfold updateProject at h
  obtain ⟨-, -, h⟩ := bind_eq_ok_iff.mp h
  obtain ⟨db, hdb, h⟩ := bind_eq_ok_iff.mp h
  exact ⟨db, hdb, (Except.ok.inj h).symm⟩

theorem deleteProject_eq_ok {id : String} (h : ix.deleteProject live id = .ok ix') :
    ∃ db, ix.database.deleteProject id = .ok db ∧ ix' = { ix with database := db } := by
  unfold deleteProject at h
  obtain ⟨-, -, h⟩ := bind_eq_ok_iff.mp h
  obtain ⟨db, hdb, h⟩ := bind_eq_ok_iff.mp h
  exact ⟨db, hdb, (Except.ok.inj h).symm⟩

/-- A commit makes all changes of its queue or none, and closes the writer either way. -/
theorem commit_cases {refusal : Option Cause} {result : Except Fault Unit}
    (h : ix.commitUnless refusal now = (ix', result)) :
    (∃ f, result = .error f ∧ ix' = { ix with queue := none }) ∨
      ∃ queue db, result = .ok () ∧ ix.queue = some queue ∧
        queue.foldlM (·.write now) ix.database = .ok db ∧
        ix' = { ix with database := db, queue := none } := by
  unfold commitUnless at h
  split at h
  · rename_i hqueue
    obtain ⟨rfl, rfl⟩ := Prod.mk.inj h
    refine .inl ⟨_, rfl, ?_⟩
    cases ix with
    | mk database isClosed queue => simpa using hqueue
  · rename_i queue hqueue
    simp only at h
    split at h
    · obtain ⟨rfl, rfl⟩ := Prod.mk.inj h
      exact .inl ⟨_, rfl, rfl⟩
    · rename_i db hdb
      split at h
      · obtain ⟨rfl, rfl⟩ := Prod.mk.inj h
        exact .inl ⟨_, rfl, rfl⟩
      · obtain ⟨rfl, rfl⟩ := Prod.mk.inj h
        exact .inr ⟨queue, db, rfl, hqueue, hdb, rfl⟩

end Index

end CodeAtlas
