import CodeAtlas.Proofs.Index.Keeps

/-!
# The rows of one project

Changes name the files and the projects that they concern, some the one and some the other. Those that
name neither a project nor a file of it leave its rows as they are, with the symbols and references of its
documents.
-/

namespace CodeAtlas

/-- The change names neither the project nor a file among its rows. -/
def WriteOp.Spares (id : String) (rows : List DocumentRow) : WriteOp → Prop
  | .put d => d.file.projectId ≠ id ∧ ∀ row ∈ rows, row.file.id ≠ d.file.id
  | .deleteFile file => ∀ row ∈ rows, row.file.id ≠ file
  | .deleteProjectDocuments other => other ≠ id
  | .saveProject p => p.id ≠ id

namespace Database

variable {db db' : Database} {now : Instant} {id : String}

def documentsOf (db : Database) (id : String) : List DocumentRow :=
  db.documents.filter (·.file.projectId == id)

def projectsOf (db : Database) (id : String) : List ProjectRow :=
  db.projects.filter (·.project.id == id)

/-- The databases have the same rows of a project. -/
structure SameShare (id : String) (db db' : Database) : Prop where
  projects : db'.projectsOf id = db.projectsOf id
  documents : db'.documentsOf id = db.documentsOf id

theorem SameShare.refl (id : String) (db : Database) : SameShare id db db := ⟨rfl, rfl⟩

theorem SameShare.trans {db'' : Database} (h : SameShare id db db') (h' : SameShare id db' db'') :
    SameShare id db db'' :=
  ⟨h'.projects.trans h.projects, h'.documents.trans h.documents⟩

theorem sameShare_dropDocuments {goes : IndexedFile → Bool} (h : db.dropDocuments goes = .ok db')
    (hstays : ∀ row ∈ db.documentsOf id, goes row.file = false) : SameShare id db db' := by
  obtain ⟨hsame, hleft⟩ := dropDocuments_eq_ok h
  constructor
  · unfold projectsOf
    rw [hsame.projects]
  · unfold documentsOf
    rw [hleft, List.filter_filter]
    refine List.filter_congr fun row hrow => ?_
    by_cases hown : row.file.projectId = id
    · simp [hown, hstays row (List.mem_filter.mpr ⟨hrow, by simpa using hown⟩)]
    · simp [hown]

theorem sameShare_addDocument (db : Database) {d : Document} (hother : d.file.projectId ≠ id) :
    SameShare id db (db.addDocument (.ofDocument d)) := by
  obtain ⟨hsame, row, hrow, hrows⟩ := addDocument_appends db (DocumentRow.keeps_ofDocument d)
  constructor
  · unfold projectsOf
    rw [hsame.projects]
  · unfold documentsOf
    rw [hrows, List.filter_append]
    simp [hrow.file, hother]

theorem sameShare_putDocument {d : Document} (h : db.putDocument now d = .ok db')
    (hspares : (WriteOp.put d).Spares id (db.documentsOf id)) : SameShare id db db' := by
  obtain ⟨hother, hfiles⟩ := hspares
  unfold putDocument at h
  obtain ⟨left, hdrop, h⟩ := bind_eq_ok_iff.mp h
  rw [failing_eq_ok_iff] at hdrop
  obtain ⟨-, -, hdrop⟩ := bind_eq_ok_iff.mp hdrop
  obtain ⟨-, -, h⟩ := bind_eq_ok_iff.mp h
  obtain ⟨-, -, h⟩ := bind_eq_ok_iff.mp h
  obtain ⟨-, -, h⟩ := bind_eq_ok_iff.mp h
  obtain rfl := Except.ok.inj h
  exact (sameShare_dropDocuments hdrop fun row hrow => by simpa using hfiles row hrow).trans
    (sameShare_addDocument left (by simpa using hother))

theorem projectsOf_updated {rows : List ProjectRow} {p : Project} (hother : p.id ≠ id) :
    (rows.map (ProjectRow.updated p)).filter (·.project.id == id) =
      rows.filter (·.project.id == id) := by
  have hids : ((fun row : ProjectRow => row.project.id == id) ∘ ProjectRow.updated p) =
      fun row => row.project.id == id := by
    funext row
    simp only [Function.comp, updated_id]
  rw [List.filter_map, hids]
  refine (List.map_congr_left fun row hrow => ?_).trans (List.map_id _)
  have hown : row.project.id = id := by simpa using (List.mem_filter.mp hrow).2
  exact if_neg (by simpa [hown] using Ne.symm hother)

theorem sameShare_deleteProject {other : String} (h : db.deleteProject other = .ok db')
    (hother : other ≠ id) : SameShare id db db' := by
  unfold deleteProject at h
  obtain ⟨left, hdrop, h⟩ := bind_eq_ok_iff.mp h
  rw [failing_eq_ok_iff] at hdrop
  obtain ⟨-, -, hdropped⟩ := bind_eq_ok_iff.mp hdrop
  have hsame : SameShare id db left := sameShare_dropDocuments hdropped fun row hrow => by
    have hown : row.file.projectId = id := by simpa using (List.mem_filter.mp hrow).2
    simpa [hown] using hother.symm
  split at h
  · obtain rfl := Except.ok.inj h
    refine hsame.trans ⟨?_, rfl⟩
    unfold projectsOf
    rw [List.filter_filter]
    refine List.filter_congr fun row _ => ?_
    by_cases hown : row.project.id = id
    · simp [hown, hother.symm]
    · simp [hown]
  · simp [throw, throwThe, MonadExceptOf.throw] at h

/-- A change that spares a project leaves its rows as they are. -/
theorem sameShare_write {op : WriteOp} (h : db.write now op = .ok db')
    (hspares : op.Spares id (db.documentsOf id)) : SameShare id db db' := by
  cases op with
  | put d => exact sameShare_putDocument h hspares
  | deleteFile file =>
      change db.deleteFile file = .ok db' at h
      unfold deleteFile at h
      rw [failing_eq_ok_iff] at h
      obtain ⟨-, -, h⟩ := bind_eq_ok_iff.mp h
      exact sameShare_dropDocuments h fun row hrow => by simpa using hspares row hrow
  | deleteProjectDocuments other =>
      have hother : other ≠ id := hspares
      change db.deleteProjectDocuments other = .ok db' at h
      unfold deleteProjectDocuments at h
      rw [failing_eq_ok_iff] at h
      obtain ⟨-, -, h⟩ := bind_eq_ok_iff.mp h
      refine sameShare_dropDocuments h fun row hrow => ?_
      have hown : row.file.projectId = id := by simpa using (List.mem_filter.mp hrow).2
      simpa [hown] using hother.symm
  | saveProject p =>
      obtain rfl := updateProject_eq_ok (show db.updateProject p = .ok db' from h)
      exact ⟨projectsOf_updated hspares, rfl⟩

theorem sameShare_writeAll {ops : List WriteOp} (h : ops.foldlM (·.write now) db = .ok db')
    (hspares : ∀ op ∈ ops, op.Spares id (db.documentsOf id)) : SameShare id db db' := by
  induction ops generalizing db with
  | nil =>
      obtain rfl := Except.ok.inj h
      exact .refl id db
  | cons op rest ih =>
      rw [List.foldlM_cons] at h
      obtain ⟨next, hwrite, hrest⟩ := bind_eq_ok_iff.mp h
      have hnext := sameShare_write hwrite (hspares op List.mem_cons_self)
      refine hnext.trans (ih hrest fun op hop => ?_)
      rw [hnext.documents]
      exact hspares op (List.mem_cons_of_mem _ hop)

end Database

end CodeAtlas
