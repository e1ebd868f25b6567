import CodeAtlas.Proofs.Engine.Level
import CodeAtlas.Proofs.Engine.Removal
import CodeAtlas.Proofs.Engine.Yield
import CodeAtlas.Proofs.Index.Share

/-!
# Engines in order

An engine is in order if its index is, if it knows the projects of the index, and if every file of either
has its identifier from a name in its project. That does not ask that the index has the documents that
memory has, so it holds after removals, too, that failed between their two commits. A call that is made
for one project keeps the order and leaves the other projects where they are.
-/

namespace CodeAtlas

/-- Names of files, each with its project, that have identifiers of their own. -/
structure Naming where
  names : Set (String × String)
  fileId_injOn : Set.InjOn (fun name : String × String => fileId name.1 name.2) names

namespace Naming

variable {N : Naming} {f g : IndexedFile}

/-- The identifier of the file is made from its project and a name that comes up. -/
def Knows (N : Naming) (f : IndexedFile) : Prop :=
  ∃ path, (f.projectId, path) ∈ N.names ∧ f.id = fileId f.projectId path

theorem Knows.projectId_eq (h : N.Knows f) (h' : N.Knows g) (hid : f.id = g.id) :
    f.projectId = g.projectId := by
  obtain ⟨path, hname, hfile⟩ := h
  obtain ⟨path', hname', hfile'⟩ := h'
  exact congrArg Prod.fst (N.fileId_injOn hname hname' (hfile.symm.trans (hid.trans hfile')))

theorem Knows.of_eq (h : N.Knows f) (hid : g.id = f.id) (hproject : g.projectId = f.projectId) :
    N.Knows g := by
  obtain ⟨path, hname, hfile⟩ := h
  refine ⟨path, ?_, ?_⟩
  · rwa [hproject]
  · rw [hid, hproject, hfile]

/-- The tree is that of a file system, and the names of its files in the project come up. -/
structure Covers (N : Naming) (tree : FileTree) (projectId : String) : Prop where
  proper : tree.Proper
  names : ∀ place content modified, (place, .file content modified) ∈ tree.entries →
    ∀ rel, rel <:+ place → (projectId, Run.relativeText rel) ∈ N.names

end Naming

def Setting.naming (S : Setting) : Naming := ⟨S.names, S.fileId_injOn⟩

theorem Setting.Covers.naming {S : Setting} {tree : FileTree} {projectId : String}
    (h : S.Covers tree projectId) : S.naming.Covers tree projectId := ⟨h.proper, h.names⟩

namespace Run

variable {N : Naming} {r : Run} {candidates : List Candidate} {new : List FileEntry}
  {puts : List Document}

theorem named_of_discover {tree : FileTree} {caller : Caller} {classifier : Classifier}
    {root projectId : String} {skipped : Nat} (hcovers : N.Covers tree projectId)
    (h : discover tree caller classifier root = .ok (candidates, skipped)) {c : Candidate}
    (hc : c ∈ candidates) : (projectId, c.relativePath) ∈ N.names := by
  obtain ⟨base, -, rfl⟩ := eq_of_discover h
  obtain ⟨rel, -, hcandidate⟩ := List.mem_filterMap.mp hc
  rw [Candidate.placed_of_candidate? hcandidate]
  exact hcovers.names _ _ _ (FileTree.mem_of_node? (Candidate.candidate?_eq_some hcandidate).1) rel
    (List.suffix_append base rel)

/-- Candidates that have names of their own. -/
structure Named (r : Run) (N : Naming) (candidates : List Candidate) : Prop where
  names : ∀ c ∈ candidates, (r.project.id, c.relativePath) ∈ N.names
  distinct : candidates.Pairwise fun c c' => c.relativePath ≠ c'.relativePath

theorem Named.ids (h : r.Named N candidates) : (candidates.map r.idOf).Nodup := by
  refine List.pairwise_map.mpr (h.distinct.imp_of_mem fun {c c'} hc hc' hne hid => hne ?_)
  exact congrArg Prod.snd (N.fileId_injOn (h.names c hc) (h.names c' hc') hid)

theorem Named.knows (h : r.Named N candidates) {f : IndexedFile} {c : Candidate}
    (hc : c ∈ candidates) (hown : f.projectId = r.project.id) (hid : f.id = r.idOf c) :
    N.Knows f := by
  refine ⟨c.relativePath, ?_, ?_⟩
  · rw [hown]
    exact h.names c hc
  · rw [hown]
    exact hid

theorem Yields.distinct (h : r.Yields candidates new puts) (hnamed : r.Named N candidates) :
    (new.map (·.file.id)).Nodup :=
  hnamed.ids.sublist h.ids

theorem Yields.entries_known (h : r.Yields candidates new puts) (hnamed : r.Named N candidates)
    {f : FileEntry} (hf : f ∈ new) : N.Knows f.file := by
  obtain ⟨c, hc, hid⟩ := h.exists_candidate hf
  exact hnamed.knows hc (h.entries f hf) hid

theorem Yields.documents_known (h : r.Yields candidates new puts) (hnamed : r.Named N candidates)
    {d : Document} (hd : d ∈ puts) : N.Knows d.file := by
  obtain ⟨hown, c, hc, hid⟩ := h.documents d hd
  exact hnamed.knows hc hown hid

/-- What a run queues spares every other project. -/
theorem Yields.spares (h : r.Yields candidates new puts) (hnamed : r.Named N candidates)
    (hprior : ∀ f ∈ r.prior, f.file.projectId = r.project.id ∧ N.Knows f.file) {s : RunState}
    {updated : Project} (hupdated : updated.id = r.project.id) {id : String}
    (hother : id ≠ r.project.id) {rows : List DocumentRow}
    (hrows : ∀ row ∈ rows, row.file.projectId = id ∧ N.Knows row.file) :
    ∀ op ∈ r.queued puts (r.erased s) updated, op.Spares id rows := by
  have hne {f : IndexedFile} (hown : f.projectId = r.project.id) (hknown : N.Knows f)
      {row : DocumentRow} (hrow : row ∈ rows) : row.file.id ≠ f.id := by
    intro hid
    obtain ⟨hrowOwn, hrowKnown⟩ := hrows row hrow
    exact hother (hrowOwn.symm.trans ((hrowKnown.projectId_eq hknown hid).trans hown))
  intro op hop
  unfold queued at hop
  simp only [List.mem_append, List.mem_map, List.mem_singleton] at hop
  obtain (hclear | ⟨d, hd, rfl⟩) | ⟨file, hfile, rfl⟩ | rfl := hop
  · split at hclear
    · obtain rfl := List.mem_singleton.mp hclear
      exact hother.symm
    · simp at hclear
  · obtain ⟨hown, -⟩ := h.documents d hd
    exact ⟨hown ▸ hother.symm, fun row hrow => hne hown (h.documents_known hnamed hd) hrow⟩
  · obtain ⟨⟨f, hf, rfl⟩, -⟩ := mem_stale.mp (mem_erased.mp hfile).2
    obtain ⟨hown, hknown⟩ := hprior f hf
    exact fun row hrow => hne hown hknown hrow
  · intro hsame
    exact hother (hsame.symm.trans hupdated)

end Run

namespace Engine

/-- The index is in order, its projects are in memory, and all files have identifiers by their names. -/
structure Orderly (N : Naming) (e : Engine) (docs : List Document) (entries : List FileEntry) :
    Prop where
  reachable : e.index.isClosed = false
  idle : e.index.queue = none
  keeps : e.index.database.Keeps docs
  projects : (e.projects.map Project.plain).Perm
    (e.index.database.projects.map (·.project.plain))
  memory : e.memory.Holds entries
  documents : ∀ d ∈ docs, N.Knows d.file
  entries : ∀ f ∈ entries, N.Knows f.file

/-- The engines hold the same of a project, and so do their indexes. -/
structure SameProject (e e' : Engine) (entries entries' : List FileEntry) (id : String) : Prop where
  level : Level e e' entries entries' id
  share : Database.SameShare id e.index.database e'.index.database

variable {N : Naming} {e e' : Engine} {docs : List Document} {entries entries' : List FileEntry}
  {tree : FileTree} {caller : Caller} {now : Instant} {isFresh : Bool} {projectId id : String}
  {r : Run} {candidates : List Candidate} {skipped : Nat} {s : RunState}

theorem SameProject.refl (e : Engine) (entries : List FileEntry) (id : String) :
    SameProject e e entries entries id := ⟨⟨rfl, rfl⟩, .refl id _⟩

theorem SameProject.trans {e'' : Engine} {entries'' : List FileEntry}
    (h : SameProject e e' entries entries' id) (h' : SameProject e' e'' entries' entries'' id) :
    SameProject e e'' entries entries'' id :=
  ⟨h.level.trans h'.level, h.share.trans h'.share⟩

theorem SameProject.of_same {e'' : Engine} (h : SameProject e e' entries entries' id)
    (hprojects : e''.projects = e'.projects) (hindex : e''.index = e'.index) :
    SameProject e e'' entries entries' id := by
  refine ⟨⟨h.level.project.trans ?_, h.level.entries⟩, ?_⟩
  · unfold project?
    rw [hprojects]
  · rw [hindex]
    exact h.share

/-- Order does not depend on what the parser remembers, nor on locks, counters and times. -/
theorem Orderly.of_same (h : e.Orderly N docs entries) (hindex : e'.index = e.index)
    (hprojects : e'.projects = e.projects) (hmemory : e'.memory = e.memory) :
    e'.Orderly N docs entries := by
  refine ⟨?_, ?_, ?_, ?_, ?_, h.documents, h.entries⟩
  · rw [hindex]
    exact h.reachable
  · rw [hindex]
    exact h.idle
  · rw [hindex]
    exact h.keeps
  · rw [hindex, hprojects]
    exact h.projects
  · rw [hmemory]
    exact h.memory

theorem Orderly.refresh (h : e.Orderly N docs entries) (live : Bool) :
    (e.refresh live).Orderly N docs entries := by
  rw [refresh_eq]
  exact h.of_same rfl rfl rfl

theorem Orderly.ids (h : e.Orderly N docs entries) : (e.projects.map (·.id)).Nodup := by
  have hsame := h.projects.map fun p => p.id
  rw [List.map_map, List.map_map] at hsame
  exact hsame.nodup_iff.mpr h.keeps.projects.ids

theorem Orderly.exists_row (h : e.Orderly N docs entries) {p : Project} (hp : p ∈ e.projects) :
    ∃ row ∈ e.index.database.projects, row.project.plain = p.plain :=
  List.mem_map.mp (h.projects.mem_iff.mp (List.mem_map_of_mem hp))

theorem Orderly.exists_project (h : e.Orderly N docs entries) {row : ProjectRow}
    (hrow : row ∈ e.index.database.projects) : ∃ p ∈ e.projects, p.plain = row.project.plain :=
  List.mem_map.mp (h.projects.mem_iff.mpr (List.mem_map.mpr ⟨row, hrow, rfl⟩))

theorem Orderly.rows_known (h : e.Orderly N docs entries) {row : DocumentRow}
    (hrow : row ∈ e.index.database.documentsOf id) :
    row.file.projectId = id ∧ N.Knows row.file := by
  obtain ⟨hrow, hown⟩ := List.mem_filter.mp hrow
  have hfiles := forall₂_map_eq h.keeps.rows (f := (·.file)) (g := (·.file)) fun row d hrow => hrow.file
  have hmem : row.file ∈ docs.map (·.file) := hfiles ▸ List.mem_map_of_mem hrow
  obtain ⟨d, hd, hfile⟩ := List.mem_map.mp hmem
  exact ⟨by simpa using hown, hfile ▸ h.documents d hd⟩

/-! ## Runs -/

theorem Starts.named (h : e.Starts tree caller now isFresh projectId r candidates skipped)
    (hcovers : N.Covers tree projectId) : r.Named N candidates := by
  obtain ⟨classifier, -, hdiscover⟩ := h.found
  obtain ⟨-, hid⟩ := project?_eq_some h.known
  exact ⟨fun c hc => hid ▸ Run.named_of_discover hcovers hdiscover hc,
    Run.distinct_of_discover hcovers.proper hdiscover⟩

theorem Orderly.prior (h : e.Orderly N docs entries)
    (hstarts : e.Starts tree caller now isFresh projectId r candidates skipped) :
    r.prior.Perm (Engine.entriesOf entries r.project.id) ∧
      ∀ f ∈ r.prior, f.file.projectId = r.project.id ∧ N.Knows f.file := by
  obtain ⟨-, hid⟩ := project?_eq_some hstarts.known
  have hperm : r.prior.Perm (Engine.entriesOf entries r.project.id) := by
    rw [hstarts.prior, hid]
    exact h.memory.ofProject_perm projectId
  refine ⟨hperm, fun f hf => ?_⟩
  obtain ⟨hmem, hown⟩ := List.mem_filter.mp (hperm.mem_iff.mp hf)
  exact ⟨by simpa using hown, h.entries f hmem⟩

theorem Orderly.yields (h : e.Orderly N docs entries)
    (hstarts : e.Starts tree caller now isFresh projectId r candidates skipped)
    (hfilled : e.filled tree caller r candidates skipped = (s, .ok ())) :
    ∃ puts, s.index = { e.index with
        queue := some (r.queued puts (r.erased s) (r.updatedProject tree r.started)) } ∧
      r.Yields candidates s.staged puts := by
  unfold filled at hfilled
  have hyields := Run.fill_yields hfilled rfl fun f hf => ((h.prior hstarts).2 f hf).1
  exact hyields

theorem documents_known {ops : List WriteOp} (hputs : ∀ d, .put d ∈ ops → N.Knows d.file)
    (hdocs : ∀ d ∈ docs, N.Knows d.file) :
    ∀ d ∈ ops.foldl (WriteOp.on now) docs, N.Knows d.file := by
  induction ops generalizing docs with
  | nil => exact hdocs
  | cons op rest ih =>
      refine ih (fun d hd => hputs d (List.mem_cons_of_mem _ hd)) fun d hd => ?_
      cases op with
      | put new =>
          rcases List.mem_append.mp hd with hd | hd
          · exact hdocs d (List.mem_of_mem_filter hd)
          · rw [List.mem_singleton.mp hd]
            exact (hputs new List.mem_cons_self).of_eq (Database.stamped_id now new)
              (Database.stamped_projectId now new)
      | deleteFile file => exact hdocs d (List.mem_of_mem_filter hd)
      | deleteProjectDocuments other => exact hdocs d (List.mem_of_mem_filter hd)
      | saveProject p => exact hdocs d hd

theorem mem_of_put_mem_queued {puts : List Document} {erased : List String} {updated : Project}
    {d : Document} (h : .put d ∈ r.queued puts erased updated) : d ∈ puts := by
  unfold Run.queued at h
  simp only [List.mem_append, List.mem_map, List.mem_singleton] at h
  obtain (hclear | ⟨e, he, heq⟩) | ⟨file, -, heq⟩ | heq := h
  · split at hclear <;> simp at hclear
  · rwa [← WriteOp.put.inj heq]
  · cases heq
  · cases heq

theorem Orderly.entriesAfter_distinct (h : e.Orderly N docs entries) (hnamed : r.Named N candidates)
    {puts : List Document} (hyields : r.Yields candidates s.staged puts) :
    ((entriesAfter entries r s).map (·.file.id)).Nodup := by
  unfold entriesAfter
  rw [List.map_append, List.nodup_append]
  refine ⟨h.memory.distinct.sublist (List.filter_sublist.map _), hyields.distinct hnamed, ?_⟩
  rintro id hmem other hother rfl
  obtain ⟨f, hf, rfl⟩ := List.mem_map.mp hmem
  obtain ⟨g, hg, hid⟩ := List.mem_map.mp hother
  obtain ⟨hf, hforeign⟩ := List.mem_filter.mp hf
  have hsame := (hyields.entries_known hnamed hg).projectId_eq (h.entries f hf) hid
  rw [hyields.entries g hg] at hsame
  simp [← hsame] at hforeign

/-- A run that succeeds keeps the order and spares the other projects. -/
theorem Orderly.complete (h : e.Orderly N docs entries)
    (hstarts : e.Starts tree caller now isFresh projectId r candidates skipped)
    (hcovers : N.Covers tree projectId)
    (hfilled : e.filled tree caller r candidates skipped = (s, .ok ())) {index : Index}
    (hcommit : s.index.commitUnless caller.refusal r.started = (index, .ok ())) :
    (∃ docs', (e.adopt r { s with index } (r.updatedProject tree r.started)).Orderly N docs'
      (entriesAfter entries r s)) ∧
    ∀ id, id ≠ projectId → SameProject e
      (e.adopt r { s with index } (r.updatedProject tree r.started)) entries
      (entriesAfter entries r s) id := by
  have hnamed := hstarts.named hcovers
  obtain ⟨hp, hid⟩ := project?_eq_some hstarts.known
  obtain ⟨puts, hindex, hyields⟩ := h.yields hstarts hfilled
  rw [hindex] at hcommit
  obtain ⟨f, hfailed, -⟩ | ⟨queue, db, -, hqueue, hdb, rfl⟩ := Index.commit_cases hcommit
  · simp at hfailed
  obtain rfl := Option.some.inj hqueue
  obtain ⟨hprojects, hkept⟩ := h.keeps.writeAll hdb
  rw [Run.onProjects_queued] at hprojects
  refine ⟨⟨_, h.reachable, rfl, hkept, ?_, (h.memory.drop r.project.id).setAll
    (h.entriesAfter_distinct hnamed hyields), ?_, ?_⟩, fun id hother => ⟨?_, ?_⟩⟩
  · change (List.map Project.plain (setProject e.projects _)).Perm
      (List.map (fun row => row.project.plain) db.projects)
    rw [hprojects]
    exact setProject_perm h.projects h.ids hp rfl rfl rfl
  · exact documents_known (fun d hd => hyields.documents_known hnamed (mem_of_put_mem_queued hd))
      h.documents
  · intro f hf
    rcases List.mem_append.mp hf with hf | hf
    · exact h.entries f (List.mem_of_mem_filter hf)
    · exact hyields.entries_known hnamed hf
  -- what another project has in memory and in the index
  · exact .of_set (p := r.updatedProject tree r.started) rfl rfl hyields.entries (hid ▸ hother)
  · have hupdated : (r.updatedProject tree r.started).id = r.project.id := rfl
    exact Database.sameShare_writeAll hdb (hyields.spares hnamed (h.prior hstarts).2 hupdated
      (hid ▸ hother) fun row hrow => h.rows_known hrow)

/-- What a run that succeeds has found, staged and committed, and what the engine has of its project
after it. -/
structure Ran (e e' : Engine) (tree : FileTree) (caller : Caller) (now : Instant) (isFresh : Bool)
    (projectId : String) (figures : RunFigures) (r : Run) (candidates : List Candidate)
    (skipped : Nat) (s : RunState) : Prop where
  starts : e.Starts tree caller now isFresh projectId r candidates skipped
  filled : e.filled tree caller r candidates skipped = (s, .ok ())
  figures : figures = r.figures s
  ignore : e'.ignore = e.ignore
  project : e'.project? projectId = some (r.updatedProject tree now)
  files : e'.projectFiles projectId =
    s.staged.mergeSort fun f g => f.file.relativePath ≤ g.file.relativePath
  commits : ∃ ops, s.index = { e.index with queue := some ops } ∧
    ops.foldlM (·.write now) e.index.database = .ok e'.index.database

theorem Ran.files_perm {figures : RunFigures}
    (h : Ran e e' tree caller now isFresh projectId figures r candidates skipped s) :
    (e'.projectFiles projectId).Perm s.staged := by
  rw [h.files]
  exact List.mergeSort_perm _ _

theorem Orderly.ran (h : e.Orderly N docs entries) (hcovers : N.Covers tree projectId)
    {figures : RunFigures} (hrun : e.locked projectId
      (fun e => e.runHeld tree caller now isFresh projectId) = (e', .ok figures)) :
    ∃ r candidates skipped s,
      Ran e e' tree caller now isFresh projectId figures r candidates skipped s := by
  obtain ⟨-, f, hfailed⟩ | ⟨locks, e₁, -, hheld, rfl⟩ := locked_cases hrun
  · simp at hfailed
  have hlocked : ({ e with locks } : Engine).Orderly N docs entries := h.of_same rfl rfl rfl
  cases runs_of_runHeld hheld with
  | @completed r candidates skipped s index hstarts hfilled hcommit =>
      obtain ⟨hp, hid⟩ := project?_eq_some hstarts.known
      obtain ⟨⟨docs', hordered⟩, -⟩ := hlocked.complete hstarts hcovers hfilled hcommit
      obtain ⟨puts, hindex, hyields⟩ := hlocked.yields hstarts hfilled
      obtain rfl := hstarts.started
      refine ⟨r, candidates, skipped, s, hstarts.of_locks, hfilled, rfl, ?_, ?_, ?_, _, hindex, ?_⟩
      · rw [refresh_eq]
        rfl
      · rw [refresh_eq]
        exact project?_of_set (p := r.updatedProject tree r.started) (e := e) hid rfl
      · have hfiles := hordered.memory.ofProject_eq projectId
        have hstaged := entriesOf_of_set entries hyields.entries
        unfold entriesAfter at hfiles
        unfold Engine.entriesOf at hstaged
        rw [hid] at hfiles hstaged
        rw [hstaged] at hfiles
        rw [refresh_eq]
        exact hfiles
      · rw [hindex] at hcommit
        obtain ⟨f, hfailed, -⟩ | ⟨queue, db, -, hqueue, hdb, rfl⟩ := Index.commit_cases hcommit
        · simp at hfailed
        obtain rfl := Option.some.inj hqueue
        rw [refresh_eq]
        exact hdb

theorem exists_run_of_ok {figures : RunFigures}
    (h : e.indexProject tree caller now projectId = (e', .ok figures) ∨
      e.reindexProject tree caller now projectId = (e', .ok figures)) :
    ∃ isFresh, (e.locked projectId fun e => e.runHeld tree caller now isFresh projectId) =
      (e', .ok figures) :=
  h.elim (⟨false, ·⟩) (⟨true, ·⟩)

/-- However a run ends, the order is kept and the other projects are spared. -/
theorem Orderly.runs (h : e.Orderly N docs entries) (hcovers : N.Covers tree projectId)
    {result : Except Fault RunFigures} (hruns : e.Runs tree caller now isFresh projectId e' result) :
    ∃ docs' entries', e'.Orderly N docs' entries' ∧
      ∀ id, id ≠ projectId → SameProject e e' entries entries' id := by
  cases hruns with
  | refused => exact ⟨docs, entries, h, fun id _ => .refl e entries id⟩
  | failed hstarts =>
      exact ⟨docs, entries, h.of_same rfl rfl rfl, fun id _ => ⟨⟨rfl, rfl⟩, .refl id _⟩⟩
  | completed hstarts hfilled hcommit =>
      obtain ⟨⟨docs', hordered⟩, hspares⟩ := h.complete hstarts hcovers hfilled hcommit
      refine ⟨docs', _, hordered.refresh _, fun id hother => ?_⟩
      rw [refresh_eq]
      exact (hspares id hother).of_same rfl rfl

/-! ## Removals -/

theorem Orderly.forget (h : e.Orderly N docs entries) {index : Index}
    (hreachable : index.isClosed = false) (hidle : index.queue = none)
    (hkeeps : index.database.Keeps (docs.filter (·.file.projectId != projectId)))
    (hprojects : index.database.projects =
      e.index.database.projects.filter (·.project.id != projectId)) :
    (Engine.forget { e with index } projectId).Orderly N
      (docs.filter (·.file.projectId != projectId))
      (entries.filter (·.file.projectId != projectId)) := by
  refine ⟨hreachable, hidle, hkeeps, ?_, h.memory.drop projectId,
    fun d hd => h.documents d (List.mem_of_mem_filter hd),
    fun f hf => h.entries f (List.mem_of_mem_filter hf)⟩
  have hsame := h.projects.filter (·.id != projectId)
  rw [List.filter_map, List.filter_map] at hsame
  change ((e.projects.filter (·.id != projectId)).map Project.plain).Perm
    (index.database.projects.map (·.project.plain))
  rw [hprojects]
  exact hsame

theorem sameShare_of_clearing {index : Index}
    (h : (e.clearing projectId).commitUnless caller.refusal now = (index, .ok ()))
    (hother : id ≠ projectId) :
    Database.SameShare id e.index.database index.database := by
  obtain ⟨db, hdb, rfl⟩ := database_of_clearing h
  have hwrite : e.index.database.write now (.deleteProjectDocuments projectId) = .ok db := hdb
  exact Database.sameShare_write hwrite hother.symm

/-- The index of a removal that has come to its end, whether or not the project still had its row. -/
theorem Orderly.cleared (h : e.Orderly N docs entries) {cleared index : Index}
    (hcleared : (e.clearing projectId).commitUnless caller.refusal now = (cleared, .ok ()))
    (hgone : cleared.deleteProject (caller.waits .deleteProject) projectId = .ok index ∨
      ∃ f, cleared.deleteProject (caller.waits .deleteProject) projectId = .error f ∧
        f.cause = .notFound ∧ index = cleared) :
    index.isClosed = false ∧ index.queue = none ∧
      index.database.Keeps (docs.filter (·.file.projectId != projectId)) ∧
      index.database.projects =
        e.index.database.projects.filter (·.project.id != projectId) ∧
      ∀ id, id ≠ projectId → Database.SameShare id e.index.database index.database := by
  have hshare {id : String} (hother : id ≠ projectId) := sameShare_of_clearing hcleared hother
  obtain ⟨db, hdb, rfl⟩ := database_of_clearing hcleared
  obtain ⟨hprojects, hkept⟩ := h.keeps.deleteProjectDocuments hdb
  obtain hdelete | ⟨f, hdelete, hcause, rfl⟩ := hgone
  · obtain ⟨db', hdb', rfl⟩ := Index.deleteProject_eq_ok hdelete
    obtain ⟨hprojects', hkept'⟩ := hkept.deleteProject hdb'
    rw [List.filter_filter] at hkept'
    simp only [Bool.and_self] at hkept'
    rw [hprojects] at hprojects'
    exact ⟨h.reachable, rfl, hkept', hprojects', fun id hother =>
      (hshare hother).trans (Database.sameShare_deleteProject hdb' hother.symm)⟩
  · -- the row was not there any more, so that deleting the documents was all there was to do
    have hnone : db.hasProject projectId = false := by
      by_contra hthere
      refine Index.deleteProject_error ?_ hdelete hcause
      exact hkept.exists_deleteProject (fun d hd => by simpa using (List.mem_filter.mp hd).2)
        (by simpa using hthere)
    have hall : db.projects.filter (·.project.id != projectId) = db.projects :=
      List.filter_eq_self.mpr fun row hrow => by simpa using List.any_eq_false.mp hnone row hrow
    rw [hprojects] at hall
    exact ⟨h.reachable, rfl, hkept, hprojects.trans hall.symm, fun id hother => hshare hother⟩

theorem Orderly.removes (h : e.Orderly N docs entries) {result : Except Fault Unit}
    (hremoves : e.Removes caller now projectId e' result) :
    ∃ docs' entries', e'.Orderly N docs' entries' ∧
      ∀ id, id ≠ projectId → SameProject e e' entries entries' id := by
  cases hremoves with
  | refused => exact ⟨docs, entries, h, fun id _ => .refl e entries id⟩
  | stopped hfree hcleared hstopped hcause =>
      -- the documents are gone from the index while memory still has their entries
      have hshare {id : String} (hother : id ≠ projectId) := sameShare_of_clearing hcleared hother
      obtain ⟨db, hdb, rfl⟩ := database_of_clearing hcleared
      obtain ⟨hprojects, hkept⟩ := h.keeps.deleteProjectDocuments hdb
      refine ⟨docs.filter (·.file.projectId != projectId), entries, ⟨h.reachable, rfl, hkept, ?_,
        h.memory, fun d hd => h.documents d (List.mem_of_mem_filter hd), h.entries⟩,
        fun id hother => ⟨⟨rfl, rfl⟩, hshare hother⟩⟩
      change (e.projects.map Project.plain).Perm (db.projects.map fun row => row.project.plain)
      rw [hprojects]
      exact h.projects
  | @completed cleared index hcleared hgone =>
      obtain ⟨hreachable, hidle, hkept, hprojects, hshare⟩ := h.cleared hcleared hgone
      have hforgot := h.forget hreachable hidle hkept hprojects
      have hdone : ({ (Engine.forget { e with index } projectId) with
          generation := e.generation + 1, lastUpdate := now } : Engine).Orderly N
            (docs.filter (·.file.projectId != projectId))
            (entries.filter (·.file.projectId != projectId)) := hforgot.of_same rfl rfl rfl
      refine ⟨_, _, hdone.refresh _, fun id hother => ?_⟩
      rw [refresh_eq]
      exact ⟨.of_drop rfl hother, hshare id hother⟩

/-! ## Other calls -/

/-- What holds of a call that is turned away, and of one that has the lock, holds of the whole call if it
does not depend on the locks. -/
theorem locked_preserves {α : Type} {call : Engine → Engine × Except Fault α}
    {P : Engine → Except Fault α → Prop} (hrefused : ∀ f, P e (.error f))
    (hheld : ∀ locks, P (call { e with locks }).1 (call { e with locks }).2)
    (hgiven : ∀ (locks : LockTable) {e' : Engine} {result : Except Fault α}, P e' result →
      P { e' with locks } result) : P (e.locked projectId call).1 (e.locked projectId call).2 := by
  rcases hrun : e.locked projectId call with ⟨e', result⟩
  obtain ⟨rfl, f, rfl⟩ | ⟨locks, e₁, -, hdone, rfl⟩ := locked_cases hrun
  · exact hrefused f
  · have hcalled := hheld locks
    rw [hdone] at hcalled
    exact hgiven _ hcalled

/-- Whatever a call under the lock keeps and spares, the whole call does. -/
theorem Orderly.locked {α : Type} (h : e.Orderly N docs entries)
    {call : Engine → Engine × Except Fault α}
    (hcall : ∀ {e₁ e₂ : Engine} {result : Except Fault α}, e₁.Orderly N docs entries →
      call e₁ = (e₂, result) → ∃ docs' entries', e₂.Orderly N docs' entries' ∧
        ∀ id, id ≠ projectId → SameProject e₁ e₂ entries entries' id) :
    ∃ docs' entries', (e.locked projectId call).1.Orderly N docs' entries' ∧
      ∀ id, id ≠ projectId → SameProject e (e.locked projectId call).1 entries entries' id := by
  refine locked_preserves (P := fun e' _ => ∃ docs' entries', e'.Orderly N docs' entries' ∧
    ∀ id, id ≠ projectId → SameProject e e' entries entries' id) (fun _ => ?_) (fun locks => ?_) ?_
  · exact ⟨docs, entries, h, fun id _ => .refl e entries id⟩
  · have hlocked : ({ e with locks } : Engine).Orderly N docs entries := h.of_same rfl rfl rfl
    obtain ⟨docs', entries', hordered, hspares⟩ := hcall hlocked rfl
    have hlockedSame (id : String) : SameProject e { e with locks } entries entries id :=
      (SameProject.refl e entries id).of_same rfl rfl
    exact ⟨docs', entries', hordered, fun id hother => (hlockedSame id).trans (hspares id hother)⟩
  · rintro locks e' - ⟨docs', entries', hordered, hspares⟩
    exact ⟨docs', entries', hordered.of_same rfl rfl rfl, fun id hother =>
      (hspares id hother).of_same rfl rfl⟩

theorem Orderly.run (h : e.Orderly N docs entries) (hcovers : N.Covers tree projectId)
    (caller : Caller) (now : Instant) (isFresh : Bool) :
    ∃ docs' entries',
      (e.locked projectId fun e => e.runHeld tree caller now isFresh projectId).1.Orderly N docs'
        entries' ∧ ∀ id, id ≠ projectId → SameProject e
          (e.locked projectId fun e => e.runHeld tree caller now isFresh projectId).1 entries entries'
          id :=
  h.locked fun hlocked hrun => hlocked.runs hcovers (runs_of_runHeld hrun)

theorem Orderly.removeProject (h : e.Orderly N docs entries) (caller : Caller) (now : Instant)
    (projectId : String) :
    ∃ docs' entries', (e.removeProject caller now projectId).1.Orderly N docs' entries' ∧
      ∀ id, id ≠ projectId →
        SameProject e (e.removeProject caller now projectId).1 entries entries' id :=
  h.locked fun hlocked hrun => hlocked.removes (removes_of_removeHeld hrun)

theorem Orderly.createProject (h : e.Orderly N docs entries) {db : Database} {p : Project}
    (hdb : e.index.database.createProject now p = .ok db)
    (hcreated : Database.created now p = p) :
    ({ e with
      index := { e.index with database := db }
      projects := setProject e.projects p } : Engine).Orderly N docs entries ∧
    db.documents = e.index.database.documents ∧ e.project? p.id = none := by
  have hkept := h.keeps.createProject hdb
  obtain ⟨hnew, rfl⟩ := Database.createProject_eq_ok hdb
  have hothers : ∀ q ∈ e.projects, q.id ≠ p.id := by
    intro q hq hid
    obtain ⟨row, hrow, hplain⟩ := h.exists_row hq
    have hrowId : row.project.plain.id = q.plain.id := congrArg Project.id hplain
    exact (hnew row hrow).1 (hrowId.trans hid)
  have hset : setProject e.projects p = e.projects ++ [p] := by
    refine if_neg ?_
    rw [Bool.not_eq_true, List.any_eq_false]
    exact fun q hq => by simpa using hothers q hq
  refine ⟨⟨h.reachable, h.idle, hkept, ?_, h.memory, h.documents, h.entries⟩, rfl, ?_⟩
  · simp only
    rw [hset, hcreated, List.map_append, List.map_append]
    exact h.projects.append_right _
  · exact List.find?_eq_none.mpr fun q hq => by simpa using hothers q hq

theorem Orderly.projectByPath_ne_ok (h : e.Orderly N docs entries) {root : String} {live : Bool}
    (hnone : e.projects.find? (·.rootPath == root) = none) (known : Project) :
    e.index.projectByPath live root ≠ .ok known := by
  intro hfound
  unfold Index.projectByPath Index.findProject at hfound
  obtain ⟨-, -, hfound⟩ := bind_eq_ok_iff.mp hfound
  obtain ⟨-, -, hfound⟩ := bind_eq_ok_iff.mp hfound
  split at hfound
  · simp [throw, throwThe, MonadExceptOf.throw] at hfound
  · rename_i row hrow
    obtain ⟨p, hp, hplain⟩ := h.exists_project (List.mem_of_find?_eq_some hrow)
    have hroot : row.project.rootPath = root := by simpa using List.find?_some hrow
    have hsame : p.plain.rootPath = row.project.plain.rootPath := congrArg Project.rootPath hplain
    have hother := List.find?_eq_none.mp hnone p hp
    exact hother (beq_iff_eq.mpr (hsame.trans hroot))

/-- A registration keeps the order and leaves all projects that are known where they are. -/
theorem Orderly.addProject (h : e.Orderly N docs entries) (tree : FileTree) (live : Bool)
    (now : Instant) (name path description : String) :
    (e.addProject tree live now name path description).1.Orderly N docs entries ∧
      (e.addProject tree live now name path description).1.index.database.documents =
        e.index.database.documents ∧
      ∀ id p, e.project? id = some p →
        (e.addProject tree live now name path description).1.project? id = some p := by
  unfold Engine.addProject
  simp only
  split
  · exact ⟨h, rfl, fun id p hp => hp⟩
  · split
    · exact ⟨h, rfl, fun id p hp => hp⟩
    · rename_i hnone
      split
      · rename_i index hindex
        obtain ⟨db, hdb, rfl⟩ := Index.createProject_eq_ok hindex
        obtain ⟨hordered, hdocuments, hnew⟩ :=
          h.createProject hdb (created_newProject _ _ _ _ _ _)
        refine ⟨hordered.of_same rfl rfl rfl, hdocuments, fun id p hp => ?_⟩
        change List.find? _ (setProject e.projects _) = _
        rw [find?_setProject, if_neg]
        · exact hp
        · rintro rfl
          rw [hnew] at hp
          simp at hp
      · split
        · -- the row in the way would have a root that memory does not know
          rename_i known _ hknown
          exact absurd hknown (h.projectByPath_ne_ok hnone known)
        · exact ⟨h.of_same rfl rfl rfl, rfl, fun id p hp => hp⟩

theorem entries_known (hfiles : (entries.map FileEntry.document).Perm (docs.map Document.listed))
    (hdocs : ∀ d ∈ docs, N.Knows d.file) : ∀ f ∈ entries, N.Knows f.file := by
  intro f hf
  obtain ⟨d, hd, hdocument⟩ := List.mem_map.mp (hfiles.mem_iff.mp (List.mem_map_of_mem hf))
  exact (hdocs d hd).of_eq (FileEntry.id_of_document_eq hdocument.symm)
    (FileEntry.projectId_of_document_eq hdocument.symm)

theorem Orderly.restore (h : e.Orderly N docs entries) {ignore : IgnoreConfig} {parser : Parser}
    {minted : Nat} {live : Bool} (hopened : Engine.restore ignore parser e.index minted live = .ok e') :
    ∃ entries', e'.Orderly N docs entries' := by
  obtain rfl := live_of_restore h.reachable hopened
  obtain ⟨projects, memory, hrestore, hprojects, entries', hmemory, hfiles⟩ :=
    restore_eq_ok h.reachable h.keeps ignore parser minted
  obtain rfl := Except.ok.inj (hrestore.symm.trans hopened)
  have hplain : projects.map Project.plain = projects := by
    refine (List.map_congr_left fun p hp => ?_).trans (List.map_id _)
    obtain ⟨row, -, rfl⟩ := List.mem_map.mp (hprojects.mem_iff.mp hp)
    rfl
  have hordered : (⟨ignore, parser, e.index, projects, memory, .empty, .zero, 0, minted⟩ :
      Engine).Orderly N docs entries' :=
    ⟨h.reachable, h.idle, h.keeps, by rwa [hplain], hmemory, h.documents,
      entries_known hfiles h.documents⟩
  exact ⟨entries', hordered.refresh true⟩

end Engine

end CodeAtlas
