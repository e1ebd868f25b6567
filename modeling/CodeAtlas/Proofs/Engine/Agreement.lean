import CodeAtlas.Proofs.Engine.Restore

/-!
# Memory and index agree

What an engine holds in memory is what its index keeps, and every document is that of a file below the
root of its project. Each operation of the engine keeps this, whether or not it succeeds, and a restart
brings it back from the index alone.
-/

namespace CodeAtlas

namespace Engine

/-- What an engine holds in memory is what its index keeps, and that was found in files. -/
structure Agrees (S : Setting) (e : Engine) (docs : List Document) (entries : List FileEntry) :
    Prop where
  parser : e.parser.Sound S
  reachable : e.index.isClosed = false
  idle : e.index.queue = none
  keeps : e.index.database.Keeps docs
  projects : (e.projects.map Project.plain).Perm
    (e.index.database.projects.map (·.project.plain))
  memory : e.memory.Holds entries
  files : (entries.map FileEntry.document).Perm (docs.map Document.listed)
  explained : ∀ p ∈ e.projects, ∀ d ∈ docs, d.file.projectId = p.id → S.Explains p.rootPath d

variable {S : Setting} {e e' : Engine} {docs : List Document} {entries : List FileEntry}
  {tree : FileTree} {caller : Caller} {now : Instant} {isFresh : Bool} {projectId : String}
  {r : Run} {candidates : List Candidate} {skipped : Nat} {s : RunState}

theorem Agrees.ids (h : e.Agrees S docs entries) : (e.projects.map (·.id)).Nodup := by
  have hsame := h.projects.map fun p => p.id
  rw [List.map_map, List.map_map] at hsame
  exact hsame.nodup_iff.mpr h.keeps.projects.ids

theorem Agrees.exists_row (h : e.Agrees S docs entries) {p : Project} (hp : p ∈ e.projects) :
    ∃ row ∈ e.index.database.projects, row.project.plain = p.plain :=
  List.mem_map.mp (h.projects.mem_iff.mp (List.mem_map_of_mem hp))

theorem Agrees.exists_project (h : e.Agrees S docs entries) {row : ProjectRow}
    (hrow : row ∈ e.index.database.projects) : ∃ p ∈ e.projects, p.plain = row.project.plain :=
  List.mem_map.mp (h.projects.mem_iff.mpr (List.mem_map.mpr ⟨row, hrow, rfl⟩))

theorem Agrees.hasProject_iff (h : e.Agrees S docs entries) (id : String) :
    e.index.database.hasProject id = true ↔ ∃ p ∈ e.projects, p.id = id := by
  unfold Database.hasProject
  rw [List.any_eq_true]
  constructor
  · rintro ⟨row, hrow, hid⟩
    obtain ⟨p, hp, hplain⟩ := h.exists_project hrow
    have hsame : p.plain.id = row.project.plain.id := congrArg Project.id hplain
    exact ⟨p, hp, hsame.trans (beq_iff_eq.mp hid)⟩
  · rintro ⟨p, hp, rfl⟩
    obtain ⟨row, hrow, hplain⟩ := h.exists_row hp
    have hid : row.project.plain.id = p.plain.id := congrArg Project.id hplain
    exact ⟨row, hrow, beq_iff_eq.mpr hid⟩

theorem Agrees.owner (h : e.Agrees S docs entries) {d : Document} (hd : d ∈ docs) :
    ∃ p ∈ e.projects, p.id = d.file.projectId :=
  (h.hasProject_iff _).mp (h.keeps.owned d hd)

theorem Agrees.document_of_entry (h : e.Agrees S docs entries) {f : FileEntry}
    (hf : f ∈ entries) : ∃ d ∈ docs, f.document = d.listed := by
  obtain ⟨d, hd, heq⟩ := List.mem_map.mp (h.files.mem_iff.mp (List.mem_map_of_mem hf))
  exact ⟨d, hd, heq.symm⟩

theorem Agrees.entry_of_document (h : e.Agrees S docs entries) {d : Document} (hd : d ∈ docs) :
    ∃ f ∈ entries, f.document = d.listed :=
  List.mem_map.mp (h.files.mem_iff.mpr (List.mem_map_of_mem hd))

theorem Agrees.files_filter (h : e.Agrees S docs entries) (has : IndexedFile → Bool)
    (hlisted : ∀ f : IndexedFile, has f.listed = has f) :
    ((entries.filter fun f => has f.file).map FileEntry.document).Perm
      ((docs.filter fun d => has d.file).map Document.listed) := by
  have hsame := h.files.filter fun d => has d.file
  rw [List.filter_map, List.filter_map] at hsame
  have hentries : entries.filter ((fun d : Document => has d.file) ∘ FileEntry.document) =
      entries.filter fun f => has f.file := List.filter_congr fun f _ => hlisted f.file
  have hdocs : docs.filter ((fun d : Document => has d.file) ∘ Document.listed) =
      docs.filter fun d => has d.file := List.filter_congr fun d _ => hlisted d.file
  rwa [hentries, hdocs] at hsame

theorem Agrees.projectFiles_perm (h : e.Agrees S docs entries) (projectId : String) :
    ((e.projectFiles projectId).map FileEntry.document).Perm
      ((docs.filter (·.file.projectId == projectId)).map Document.listed) :=
  ((h.memory.ofProject_perm projectId).map _).trans
    (h.files_filter (·.projectId == projectId) fun _ => rfl)

/-- A run that has started has the project's entries before it. -/
theorem Agrees.begins (h : e.Agrees S docs entries)
    (hstarts : e.Starts tree caller now isFresh projectId r candidates skipped) :
    r.Begins S docs := by
  obtain ⟨hp, hid⟩ := project?_eq_some hstarts.known
  have hprior := h.memory.ofProject_perm r.project.id
  rw [hid] at hprior
  have hentries : r.prior = e.memory.ofProject projectId := hstarts.prior
  refine ⟨h.keeps.files, ?_, h.explained _ hp, ?_, ?_⟩
  · intro d hd
    obtain ⟨q, hq, hown⟩ := h.owner hd
    exact (h.explained q hq d hd hown.symm).id_eq
  · intro f hf
    rw [hentries, hprior.mem_iff] at hf
    obtain ⟨hf, hown⟩ := List.mem_filter.mp hf
    obtain ⟨d, hd, hdocument⟩ := h.document_of_entry hf
    refine ⟨d, hd, ?_, hdocument⟩
    rw [← FileEntry.projectId_of_document_eq hdocument, hid]
    exact beq_iff_eq.mp hown
  · intro d hd hown
    obtain ⟨f, hf, hdocument⟩ := h.entry_of_document hd
    refine ⟨f, ?_, FileEntry.id_of_document_eq hdocument⟩
    rw [hentries, hprior.mem_iff]
    refine List.mem_filter.mpr ⟨hf, beq_iff_eq.mpr ?_⟩
    rw [FileEntry.projectId_of_document_eq hdocument, hown, hid]

/-- Agreement does not depend on locks, counters and times. -/
theorem Agrees.of_same (h : e.Agrees S docs entries) (hparser : e'.parser.Sound S)
    (hindex : e'.index = e.index) (hprojects : e'.projects = e.projects)
    (hmemory : e'.memory = e.memory) : e'.Agrees S docs entries := by
  constructor
  · exact hparser
  · rw [hindex]
    exact h.reachable
  · rw [hindex]
    exact h.idle
  · rw [hindex]
    exact h.keeps
  · rw [hindex, hprojects]
    exact h.projects
  · rw [hmemory]
    exact h.memory
  · exact h.files
  · rw [hprojects]
    exact h.explained

theorem Agrees.refresh (h : e.Agrees S docs entries) (live : Bool) :
    (e.refresh live).Agrees S docs entries := by
  rw [refresh_eq]
  exact h.of_same h.parser rfl rfl rfl

/-- Setting a project in memory and saving it in the index come to the same. -/
theorem setProject_perm {projects : List Project} {rows : List ProjectRow} {old new : Project}
    (hperm : (projects.map Project.plain).Perm (rows.map (·.project.plain)))
    (hids : (projects.map (·.id)).Nodup) (hold : old ∈ projects) (hid : new.id = old.id)
    (hroot : new.rootPath = old.rootPath) (hcreated : new.createdAt = old.createdAt) :
    ((setProject projects new).map Project.plain).Perm
      ((rows.map (ProjectRow.updated new)).map (·.project.plain)) := by
  -- the same change of plain projects on both sides
  let change (p : Project) : Project :=
    if p.id == new.id then { new.plain with rootPath := p.rootPath, createdAt := p.createdAt }
    else p
  have hmemory : (setProject projects new).map Project.plain =
      (projects.map Project.plain).map change := by
    have hany : projects.any (·.id == new.id) = true :=
      List.any_eq_true.mpr ⟨old, hold, beq_iff_eq.mpr hid.symm⟩
    unfold setProject
    rw [if_pos hany, List.map_map, List.map_map]
    refine List.map_congr_left fun p hp => ?_
    by_cases hsame : p.id = new.id
    · have hp : p = old := List.inj_on_of_nodup_map hids hp hold (hsame.trans hid)
      simp [change, Project.plain, hp, hid, hroot, hcreated]
    · simp [change, Project.plain, hsame]
  have hindex : (rows.map (ProjectRow.updated new)).map (·.project.plain) =
      (rows.map (·.project.plain)).map change := by
    rw [List.map_map, List.map_map]
    refine List.map_congr_left fun row _ => ?_
    by_cases hsame : row.project.id = new.id
    · simp [change, Project.plain, ProjectRow.updated, hsame]
    · simp [change, Project.plain, ProjectRow.updated, hsame]
  rw [hmemory, hindex]
  exact hperm.map change

theorem mem_setProject {projects : List Project} {old new p : Project} (hold : old ∈ projects)
    (hid : new.id = old.id) (h : p ∈ setProject projects new) :
    p = new ∨ p ∈ projects ∧ p.id ≠ old.id := by
  have hany : projects.any (·.id == new.id) = true :=
    List.any_eq_true.mpr ⟨old, hold, beq_iff_eq.mpr hid.symm⟩
  unfold setProject at h
  rw [if_pos hany] at h
  obtain ⟨q, hq, rfl⟩ := List.mem_map.mp h
  by_cases hsame : q.id = new.id
  · exact .inl (by simp [hsame])
  · rw [if_neg (by simpa using hsame)]
    exact .inr ⟨hq, fun hqid => hsame (hqid.trans hid.symm)⟩

theorem Starts.meets (h : e.Starts tree caller now isFresh projectId r candidates skipped)
    (hcovers : S.Covers tree projectId) :
    (∀ c ∈ candidates, S.Meets r.project.id r.project.rootPath c) ∧
      candidates.Pairwise fun c c' => c.relativePath ≠ c'.relativePath := by
  obtain ⟨classifier, -, hdiscover⟩ := h.found
  obtain ⟨-, hid⟩ := project?_eq_some h.known
  rw [hid]
  exact ⟨fun c hc => Run.meets_of_discover hcovers hdiscover hc,
    Run.distinct_of_discover hcovers.proper hdiscover⟩

/-- However a run ends, the parser is sound after it. -/
theorem Agrees.filled_sound (h : e.Agrees S docs entries)
    (hstarts : e.Starts tree caller now isFresh projectId r candidates skipped)
    (hcovers : S.Covers tree projectId) (hsteady : S.Steady caller) :
    (e.filled tree caller r candidates skipped).1.parser.Sound S :=
  Run.fill_sound (s := ⟨{ e.index with queue := some [] }, e.parser, [], 0, 0, skipped, 0, []⟩)
    h.parser hsteady (hstarts.meets hcovers).1 (r.updatedProject tree r.started)

/-- The entries after a run: those of other projects, and what was staged. -/
def entriesAfter (entries : List FileEntry) (r : Run) (s : RunState) : List FileEntry :=
  entries.filter (·.file.projectId != r.project.id) ++ s.staged

/-- If the documents of other projects stay and the staged entries are those of the project, then all
entries are those of the documents. -/
theorem Agrees.entriesAfter_perm (h : e.Agrees S docs entries) {docs' : List Document}
    (hsettles : r.Settles S docs candidates s docs') :
    ((entriesAfter entries r s).map FileEntry.document).Perm (docs'.map Document.listed) := by
  have hothers := h.files_filter (·.projectId != r.project.id) fun _ => rfl
  rw [← hsettles.others] at hothers
  have hsplit := List.filter_append_perm (fun d : Document => d.file.projectId != r.project.id) docs'
  have hown : docs'.filter (fun d => !(d.file.projectId != r.project.id)) =
      docs'.filter (·.file.projectId == r.project.id) :=
    List.filter_congr fun d _ => Bool.not_not _
  rw [hown] at hsplit
  unfold entriesAfter
  rw [List.map_append]
  refine (hothers.append hsettles.entries_perm).trans ?_
  rw [← List.map_append]
  exact hsplit.map _

/-- A run that succeeds settles its project, and the engine agrees with the index again. -/
theorem Agrees.complete (h : e.Agrees S docs entries)
    (hstarts : e.Starts tree caller now isFresh projectId r candidates skipped)
    (hcovers : S.Covers tree projectId) (hsteady : S.Steady caller)
    (hfilled : e.filled tree caller r candidates skipped = (s, .ok ())) {index : Index}
    (hcommit : s.index.commitUnless caller.refusal r.started = (index, .ok ())) :
    ∃ docs', r.Settles S docs candidates s docs' ∧
      (e.adopt r { s with index } (r.updatedProject tree r.started)).Agrees S docs'
        (entriesAfter entries r s) := by
  obtain ⟨hmeets, hdistinct⟩ := hstarts.meets hcovers
  obtain ⟨hp, -⟩ := project?_eq_some hstarts.known
  have hparser := h.filled_sound hstarts hcovers hsteady
  rw [hfilled] at hparser
  obtain ⟨ops, hindex, hsettles, hrows⟩ :=
    (h.begins hstarts).settles rfl h.parser hsteady hmeets hdistinct hfilled
  rw [hindex] at hcommit
  obtain ⟨f, hfailed, -⟩ | ⟨queue, db, -, hqueue, hdb, rfl⟩ := Index.commit_cases hcommit
  · simp at hfailed
  obtain rfl := Option.some.inj hqueue
  obtain ⟨hprojects, hkept⟩ := h.keeps.writeAll hdb
  have hfiles := h.entriesAfter_perm hsettles
  refine ⟨_, hsettles, ?_⟩
  constructor
  · exact hparser.invalidateAll _
  · exact h.reachable
  · rfl
  · exact hkept
  · change (List.map Project.plain (setProject e.projects _)).Perm
      (List.map (fun row => row.project.plain) db.projects)
    rw [hprojects, hrows]
    exact setProject_perm h.projects h.ids hp rfl rfl rfl
  · refine (h.memory.drop r.project.id).setAll ?_
    have hids := hfiles.map fun d => d.file.id
    rw [List.map_map, List.map_map] at hids
    exact hids.nodup_iff.mpr hkept.files
  · exact hfiles
  · intro p hmem d hd hown
    have hset : p ∈ setProject e.projects (r.updatedProject tree r.started) := hmem
    have hid : (r.updatedProject tree r.started).id = r.project.id := rfl
    obtain rfl | ⟨hmem, hne⟩ := mem_setProject hp hid hset
    · exact hsettles.explained d hd hown
    · have hother : d ∈ docs.filter (·.file.projectId != r.project.id) := by
        rw [← hsettles.others]
        refine List.mem_filter.mpr ⟨hd, ?_⟩
        rw [hown]
        simpa using hne
      exact h.explained p hmem d (List.mem_of_mem_filter hother) hown

/-- However a run ends, the engine agrees with the index after it. -/
theorem Agrees.runs (h : e.Agrees S docs entries) (hcovers : S.Covers tree projectId)
    (hsteady : S.Steady caller) {result : Except Fault RunFigures}
    (hruns : e.Runs tree caller now isFresh projectId e' result) :
    ∃ docs' entries', e'.Agrees S docs' entries' := by
  cases hruns with
  | refused => exact ⟨docs, entries, h⟩
  | failed hstarts =>
      exact ⟨docs, entries, h.of_same (h.filled_sound hstarts hcovers hsteady) rfl rfl rfl⟩
  | completed hstarts hfilled hcommit =>
      obtain ⟨docs', -, hagrees⟩ := h.complete hstarts hcovers hsteady hfilled hcommit
      exact ⟨docs', _, hagrees.refresh _⟩

end Engine

end CodeAtlas
