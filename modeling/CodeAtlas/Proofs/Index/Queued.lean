import CodeAtlas.Proofs.Index.Keeps
import Mathlib.Data.List.Perm.Basic

/-!
# The order of queued changes

Every change that succeeds does the same to the rows of the documents, whatever the text indexes have
noted of them: it takes out rows and may add one at the end. Documents of different files that are put
one after the other may so be put in any order, and the same rows are there in the end.
-/

namespace CodeAtlas

/-- The row without what the text indexes note of it, by which they find it again. -/
def DocumentRow.unnoted (row : DocumentRow) : DocumentRow :=
  { row with entry := none, symbols := row.symbols.map fun s => { s with entry := none } }

def WriteOp.onRows (now : Instant) (rows : List DocumentRow) : WriteOp → List DocumentRow
  | .put d => rows.filter (·.file.id != d.file.id) ++ [.ofDocument (Database.stamped now d)]
  | .deleteFile id => rows.filter (·.file.id != id)
  | .deleteProjectDocuments id => rows.filter (·.file.projectId != id)
  | .saveProject _ => rows

namespace Database

variable {db db' : Database} {now : Instant}

/-- The rows as far as they do not depend on the text indexes. -/
def rows (db : Database) : List DocumentRow := db.documents.map DocumentRow.unnoted

theorem unnoted_ofDocument (d : Document) :
    (DocumentRow.ofDocument d).unnoted = DocumentRow.ofDocument d := by
  simp [DocumentRow.unnoted, DocumentRow.ofDocument, SymbolRow.ofSymbol]

theorem rows_addDocument (db : Database) (row : DocumentRow) :
    (db.addDocument row).rows = db.rows ++ [row.unnoted] ∧
      (db.addDocument row).projects = db.projects := by
  have hsymbols (entries : List TextEntry) (hlength : entries.length = row.symbols.length)
      (entry : Option TextEntry) :
      ({ row with
        entry
        symbols := (row.symbols.zip entries).map fun pair =>
          { pair.1 with entry := some pair.2 } } : DocumentRow).unnoted = row.unnoted := by
    have hrows : (row.symbols.zip entries).map Prod.fst = row.symbols :=
      List.map_fst_zip (by omega)
    have hsame : (row.symbols.zip entries).map (fun pair => ({ pair.1 with entry := none } : SymbolRow)) =
        row.symbols.map fun s => { s with entry := none } := by
      nth_rewrite 2 [← hrows]
      rw [List.map_map]
      rfl
    simp [DocumentRow.unnoted, Function.comp_def, hsame]
  unfold addDocument rows documents
  simp only
  split
  · split
    · refine ⟨?_, rfl⟩
      rw [DocumentTables.joined_insert, List.map_append, List.map_singleton,
        hsymbols _ (by simp [TextIndex.length_addAll])]
    · refine ⟨?_, rfl⟩
      rw [DocumentTables.joined_insert, List.map_append, List.map_singleton]
      rfl
  · split
    · refine ⟨?_, rfl⟩
      rw [DocumentTables.joined_insert, List.map_append, List.map_singleton,
        hsymbols _ (by simp [TextIndex.length_addAll])]
    · refine ⟨?_, rfl⟩
      rw [DocumentTables.joined_insert, List.map_append, List.map_singleton]

theorem rows_dropDocuments {goes : IndexedFile → Bool} (h : db.dropDocuments goes = .ok db') :
    db'.rows = db.rows.filter (fun row => !goes row.file) ∧ db'.projects = db.projects := by
  obtain ⟨hsame, hleft⟩ := dropDocuments_eq_ok h
  refine ⟨?_, hsame.projects⟩
  unfold rows
  rw [hleft, List.filter_map]
  rfl

/-- What a change that succeeds makes of the rows. -/
theorem rows_write {op : WriteOp} (h : db.write now op = .ok db') :
    db'.rows = op.onRows now db.rows ∧ db'.projects = op.onProjects db.projects := by
  cases op with
  | put d =>
      change db.putDocument now d = .ok db' at h
      unfold putDocument at h
      obtain ⟨left, hdrop, h⟩ := bind_eq_ok_iff.mp h
      rw [failing_eq_ok_iff] at hdrop
      obtain ⟨-, -, hdrop⟩ := bind_eq_ok_iff.mp hdrop
      obtain ⟨hrows, hprojects⟩ := rows_dropDocuments hdrop
      obtain ⟨-, -, h⟩ := bind_eq_ok_iff.mp h
      obtain ⟨-, -, h⟩ := bind_eq_ok_iff.mp h
      obtain ⟨-, -, h⟩ := bind_eq_ok_iff.mp h
      obtain rfl := Except.ok.inj h
      obtain ⟨hadded, hsame⟩ := rows_addDocument left (.ofDocument (stamped now d))
      rw [hadded, hsame, hrows, hprojects, unnoted_ofDocument]
      exact ⟨rfl, rfl⟩
  | deleteFile id =>
      change db.deleteFile id = .ok db' at h
      unfold deleteFile at h
      rw [failing_eq_ok_iff] at h
      obtain ⟨-, -, h⟩ := bind_eq_ok_iff.mp h
      exact rows_dropDocuments h
  | deleteProjectDocuments id =>
      change db.deleteProjectDocuments id = .ok db' at h
      unfold deleteProjectDocuments at h
      rw [failing_eq_ok_iff] at h
      obtain ⟨-, -, h⟩ := bind_eq_ok_iff.mp h
      exact rows_dropDocuments h
  | saveProject p =>
      have hsaved := updateProject_eq_ok (show db.updateProject p = .ok db' from h)
      rw [hsaved]
      exact ⟨rfl, rfl⟩

theorem rows_writeAll {ops : List WriteOp} (h : ops.foldlM (·.write now) db = .ok db') :
    db'.rows = ops.foldl (WriteOp.onRows now) db.rows ∧
      db'.projects = ops.foldl WriteOp.onProjects db.projects := by
  induction ops generalizing db with
  | nil =>
      obtain rfl := Except.ok.inj h
      exact ⟨rfl, rfl⟩
  | cons op rest ih =>
      rw [List.foldlM_cons] at h
      obtain ⟨next, hwrite, hrest⟩ := bind_eq_ok_iff.mp h
      obtain ⟨hrows, hprojects⟩ := rows_write hwrite
      rw [List.foldl_cons, List.foldl_cons, ← hrows, ← hprojects]
      exact ih hrest

end Database

namespace WriteOp

variable {now : Instant} {rows rows' : List DocumentRow}

theorem onRows_perm (h : rows.Perm rows') (op : WriteOp) :
    (op.onRows now rows).Perm (op.onRows now rows') := by
  cases op with
  | put d => exact (h.filter _).append_right _
  | deleteFile id => exact h.filter _
  | deleteProjectDocuments id => exact h.filter _
  | saveProject p => exact h

theorem foldl_onRows_perm (h : rows.Perm rows') (ops : List WriteOp) :
    (ops.foldl (onRows now) rows).Perm (ops.foldl (onRows now) rows') := by
  induction ops generalizing rows rows' with
  | nil => exact h
  | cons op rest ih => exact ih (onRows_perm h op)

/-- Documents of different files take the places of those that their files had. -/
theorem foldl_put {documents : List Document} (hfiles : (documents.map (·.file.id)).Nodup)
    (rows : List DocumentRow) :
    (documents.map put).foldl (onRows now) rows =
      rows.filter (fun row => !(documents.map (·.file.id)).contains row.file.id) ++
        documents.map fun d => .ofDocument (Database.stamped now d) := by
  induction documents generalizing rows with
  | nil => simp
  | cons d rest ih =>
      rw [List.map_cons, List.nodup_cons] at hfiles
      have hrow : (DocumentRow.ofDocument (Database.stamped now d)).file.id = d.file.id :=
        Database.stamped_id now d
      have hstays : [DocumentRow.ofDocument (Database.stamped now d)].filter (fun row =>
          !(rest.map (·.file.id)).contains row.file.id) =
            [DocumentRow.ofDocument (Database.stamped now d)] := by
        refine List.filter_eq_self.mpr fun row hnew => ?_
        rw [List.mem_singleton.mp hnew, hrow]
        simpa using hfiles.1
      rw [List.map_cons, List.foldl_cons, ih hfiles.2, onRows, List.filter_append,
        List.filter_filter, hstays, List.map_cons, List.map_cons, List.append_assoc,
        List.singleton_append]
      refine congrArg (· ++ _) (List.filter_congr fun row _ => ?_)
      rw [List.contains_cons, Bool.not_or, Bool.and_comm]
      rfl

theorem foldl_put_perm {documents documents' : List Document}
    (hfiles : (documents.map (·.file.id)).Nodup) (h : documents.Perm documents')
    (hrows : rows.Perm rows') :
    ((documents.map put).foldl (onRows now) rows).Perm
      ((documents'.map put).foldl (onRows now) rows') := by
  have hids := h.map (·.file.id)
  rw [foldl_put hfiles, foldl_put (hids.nodup_iff.mp hfiles)]
  have hsame : rows'.filter (fun row => !(documents'.map (·.file.id)).contains row.file.id) =
      rows'.filter fun row => !(documents.map (·.file.id)).contains row.file.id :=
    List.filter_congr fun row _ => by simp only [List.contains_eq_mem, hids.mem_iff]
  rw [hsame]
  exact (hrows.filter _).append (h.map _)

theorem foldl_onProjects_put (documents : List Document) (rows : List ProjectRow) :
    (documents.map put).foldl onProjects rows = rows := by
  induction documents with
  | nil => rfl
  | cons d rest ih => exact ih

end WriteOp

/-! ## Projects whose rows do not matter

Changes that concern one project look at the rows of other projects nowhere. So they come to the same in
a database in which some of these rows are missing. -/

/-- What a change concerns is of one project. A file that is deleted has been looked up before. -/
def WriteOp.Concerns (projectId : String) : WriteOp → Prop
  | .put d => d.file.projectId = projectId
  | .deleteFile _ => True
  | .deleteProjectDocuments id => id = projectId
  | .saveProject p => p.id = projectId

namespace Database

def withProjects (db : Database) (rows : List ProjectRow) : Database := { db with projects := rows }

/-- The database without the rows of some projects. -/
def unlist (db : Database) (hidden : String → Bool) : Database :=
  db.withProjects (db.projects.filter fun row => !hidden row.project.id)

variable {db db' : Database} {hidden hidden' : String → Bool} {now : Instant}

theorem dropDocument_withProjects {row : DocumentRow} (h : db.dropDocument row = .ok db')
    (rows : List ProjectRow) :
    (db.withProjects rows).dropDocument row = .ok (db'.withProjects rows) := by
  have hschema : (db.withProjects rows).schema = db.schema := rfl
  have hdocuments : (db.withProjects rows).documentTexts = db.documentTexts := rfl
  have hsymbols : (db.withProjects rows).symbolTexts = db.symbolTexts := rfl
  unfold dropDocument at h ⊢
  by_cases hnoted : db.schema.hasTrigger "documents_ad" = true
  all_goals
    by_cases hnamed : db.schema.hasTrigger "doc_symbols_ad" = true
    all_goals
      simp only [hschema, hdocuments, hsymbols, hnoted, hnamed, Bool.false_eq_true,
        ↓reduceIte] at h ⊢
      obtain ⟨documentTexts, hdropped, h⟩ := bind_eq_ok_iff.mp h
      obtain ⟨symbolTexts, hdropped', h⟩ := bind_eq_ok_iff.mp h
      obtain rfl := Except.ok.inj h
      exact bind_eq_ok_iff.mpr
        ⟨documentTexts, hdropped, bind_eq_ok_iff.mpr ⟨symbolTexts, hdropped', rfl⟩⟩

theorem dropEach_withProjects {gone : List DocumentRow} (h : gone.foldlM dropDocument db = .ok db')
    (rows : List ProjectRow) :
    gone.foldlM dropDocument (db.withProjects rows) = .ok (db'.withProjects rows) := by
  induction gone generalizing db with
  | nil =>
      obtain rfl := Except.ok.inj h
      rfl
  | cons row rest ih =>
      rw [List.foldlM_cons] at h ⊢
      obtain ⟨left, hdrop, hrest⟩ := bind_eq_ok_iff.mp h
      exact bind_eq_ok_iff.mpr ⟨_, dropDocument_withProjects hdrop rows, ih hrest⟩

theorem dropDocuments_withProjects {goes : IndexedFile → Bool} (h : db.dropDocuments goes = .ok db')
    (rows : List ProjectRow) :
    (db.withProjects rows).dropDocuments goes = .ok (db'.withProjects rows) := by
  unfold dropDocuments at h ⊢
  obtain ⟨left, hleft, h⟩ := bind_eq_ok_iff.mp h
  obtain rfl := Except.ok.inj h
  exact bind_eq_ok_iff.mpr ⟨_, dropEach_withProjects hleft rows, rfl⟩

theorem addDocument_withProjects (db : Database) (row : DocumentRow) (rows : List ProjectRow) :
    (db.withProjects rows).addDocument row = (db.addDocument row).withProjects rows := by
  have hschema : (db.withProjects rows).schema = db.schema := rfl
  have hdocuments : (db.withProjects rows).documentTexts = db.documentTexts := rfl
  have hsymbols : (db.withProjects rows).symbolTexts = db.symbolTexts := rfl
  unfold addDocument
  simp only [hschema]
  by_cases hnoted : db.schema.hasTrigger "documents_ai" = true
  all_goals
    by_cases hnamed : db.schema.hasTrigger "doc_symbols_ai" = true
    all_goals
      simp only [hnoted, hnamed, Bool.false_eq_true, ↓reduceIte]
      simp only [hschema, hdocuments, hsymbols, hnamed, Bool.false_eq_true, ↓reduceIte]
      rfl

theorem putDocument_withProjects {d : Document} (h : db.putDocument now d = .ok db') :
    db.hasProject d.file.projectId = true ∧ ∀ rows,
      (db.withProjects rows).hasProject d.file.projectId = true →
        (db.withProjects rows).putDocument now d = .ok (db'.withProjects rows) := by
  unfold putDocument at h ⊢
  obtain ⟨left, hdropped, h⟩ := bind_eq_ok_iff.mp h
  rw [failing_eq_ok_iff] at hdropped
  obtain ⟨⟨⟩, hallowed, hdrop⟩ := bind_eq_ok_iff.mp hdropped
  obtain ⟨⟨⟩, hinsert, h⟩ := bind_eq_ok_iff.mp h
  rw [failing_eq_ok_iff] at hinsert
  obtain ⟨⟨⟩, hinserted, howned⟩ := bind_eq_ok_iff.mp hinsert
  obtain ⟨⟨⟩, hsymbols, h⟩ := bind_eq_ok_iff.mp h
  obtain ⟨⟨⟩, hreferences, h⟩ := bind_eq_ok_iff.mp h
  obtain rfl := Except.ok.inj h
  refine ⟨?_, fun rows hrows => bind_eq_ok_iff.mpr ⟨left.withProjects rows, ?_,
    bind_eq_ok_iff.mpr ⟨(), ?_, ?_⟩⟩⟩
  · rw [← hasProject_congr (dropDocuments_eq_ok hdrop).1]
    split at howned
    · assumption
    · simp [throw, throwThe, MonadExceptOf.throw] at howned
  · rw [failing_eq_ok_iff]
    exact bind_eq_ok_iff.mpr ⟨(), hallowed, dropDocuments_withProjects hdrop rows⟩
  · rw [failing_eq_ok_iff]
    exact bind_eq_ok_iff.mpr ⟨(), hinserted, if_pos hrows⟩
  · refine bind_eq_ok_iff.mpr ⟨(), hsymbols, bind_eq_ok_iff.mpr ⟨(), hreferences, ?_⟩⟩
    rw [addDocument_withProjects]
    rfl

theorem hasProject_unlist {id : String} (hlisted : hidden id = false) :
    (db.unlist hidden).hasProject id = db.hasProject id := by
  unfold hasProject unlist withProjects
  rw [Bool.eq_iff_iff, List.any_eq_true, List.any_eq_true]
  constructor
  · rintro ⟨row, hrow, hid⟩
    exact ⟨row, List.mem_of_mem_filter hrow, hid⟩
  · rintro ⟨row, hrow, hid⟩
    refine ⟨row, List.mem_filter.mpr ⟨hrow, ?_⟩, hid⟩
    rw [beq_iff_eq.mp hid, hlisted]
    rfl

theorem write_unlist {op : WriteOp} {projectId : String} (h : db.write now op = .ok db')
    (hconcerns : op.Concerns projectId) (hlisted : hidden projectId = false) :
    (db.unlist hidden).write now op = .ok (db'.unlist hidden) := by
  have hprojects : db'.projects = op.onProjects db.projects := (rows_write h).2
  have hsame {gone : IndexedFile → Bool} (hdrop : db.dropDocuments gone = .ok db') :
      (db.unlist hidden).dropDocuments gone = .ok (db'.unlist hidden) := by
    unfold unlist
    rw [(dropDocuments_eq_ok hdrop).1.projects]
    exact dropDocuments_withProjects hdrop _
  cases op with
  | put d =>
      have hid : d.file.projectId = projectId := hconcerns
      obtain ⟨howned, hput⟩ := putDocument_withProjects h
      rw [← hasProject_unlist (hid ▸ hlisted)] at howned
      unfold unlist at howned ⊢
      rw [hprojects]
      exact hput _ howned
  | deleteFile id =>
      simp only [write, deleteFile, failing_eq_ok_iff] at h ⊢
      obtain ⟨⟨⟩, hallowed, hdrop⟩ := bind_eq_ok_iff.mp h
      exact bind_eq_ok_iff.mpr ⟨(), hallowed, hsame hdrop⟩
  | deleteProjectDocuments id =>
      simp only [write, deleteProjectDocuments, failing_eq_ok_iff] at h ⊢
      obtain ⟨⟨⟩, hallowed, hdrop⟩ := bind_eq_ok_iff.mp h
      exact bind_eq_ok_iff.mpr ⟨(), hallowed, hsame hdrop⟩
  | saveProject p =>
      have hid : p.id = projectId := hconcerns
      obtain rfl := updateProject_eq_ok (show db.updateProject p = .ok db' from h)
      have hrows : (db.projects.map (ProjectRow.updated p)).filter
            (fun row => !hidden row.project.id) =
          (db.unlist hidden).projects.map (ProjectRow.updated p) := by
        unfold unlist withProjects
        simp only [List.filter_map, Function.comp_def, updated_id]
      simp only [write, updateProject] at h ⊢
      obtain ⟨⟨⟩, hallowed, h⟩ := bind_eq_ok_iff.mp h
      refine bind_eq_ok_iff.mpr ⟨(), hallowed, ?_⟩
      rw [hasProject_unlist (hid ▸ hlisted)]
      split at h
      · rename_i howned
        rw [if_pos howned]
        unfold unlist
        simp only [hrows]
        rfl
      · simp [throw, throwThe, MonadExceptOf.throw] at h

theorem writeAll_unlist {ops : List WriteOp} {projectId : String}
    (h : ops.foldlM (·.write now) db = .ok db') (hconcerns : ∀ op ∈ ops, op.Concerns projectId)
    (hlisted : hidden projectId = false) :
    ops.foldlM (·.write now) (db.unlist hidden) = .ok (db'.unlist hidden) := by
  induction ops generalizing db with
  | nil =>
      obtain rfl := Except.ok.inj h
      rfl
  | cons op rest ih =>
      rw [List.foldlM_cons] at h ⊢
      obtain ⟨next, hwrite, hrest⟩ := bind_eq_ok_iff.mp h
      refine bind_eq_ok_iff.mpr ⟨_, write_unlist hwrite (hconcerns op List.mem_cons_self) hlisted, ?_⟩
      exact ih hrest fun op hop => hconcerns op (List.mem_cons_of_mem _ hop)

/-- A project without documents leaves nothing but its row. -/
theorem deleteProject_bare {id : String} (hlayout : db.schema = .newest)
    (hbare : ∀ row ∈ db.documents, row.file.projectId ≠ id) (howned : db.hasProject id = true) :
    db.deleteProject id = .ok (db.unlist (· == id)) := by
  have hnone : db.documents.filter (·.file.projectId == id) = [] :=
    List.filter_eq_nil_iff.mpr fun row hrow => by simpa using hbare row hrow
  have hall : db.tables.delete (·.projectId == id) = db.tables :=
    DocumentTables.delete_eq_self fun row hrow => by simpa using hbare row hrow
  have hdropped : db.dropDocuments (·.projectId == id) = .ok db := by
    unfold dropDocuments
    rw [hnone, hall]
    rfl
  have hdelete : Schema.newest.requireDeleteProject = .ok () := by decide
  unfold deleteProject
  rw [hlayout, hdropped, hdelete]
  exact if_pos howned

theorem unlist_unlist (db : Database) (hidden hidden' : String → Bool) :
    (db.unlist hidden).unlist hidden' = db.unlist fun id => hidden id || hidden' id := by
  unfold unlist withProjects
  simp only [List.filter_filter, Bool.not_or, Bool.and_comm]

theorem unlist_congr (h : ∀ row ∈ db.projects, hidden row.project.id = hidden' row.project.id) :
    db.unlist hidden = db.unlist hidden' := by
  unfold unlist
  rw [List.filter_congr fun row hrow => by rw [h row hrow]]

end Database

end CodeAtlas
