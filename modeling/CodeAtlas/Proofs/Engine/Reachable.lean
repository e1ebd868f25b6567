import CodeAtlas.Proofs.Engine.Agreement
import CodeAtlas.Proofs.Engine.FailedRun
import Mathlib.Data.List.Infix

/-!
# Engines that come up

An engine is opened over a new index, and projects are added, indexed and removed; it may be opened
again over the index that it leaves. Runs may fail wherever they do, and a removal may be refused
before it has removed anything. In every engine that comes up, memory and index agree.
-/

namespace CodeAtlas

namespace Index

variable {ix : Index} {live : Bool}

theorem reachToWrite_error {c : Cause} (h : ix.reachToWrite live = .error c) : c ≠ .notFound := by
  unfold reachToWrite reach at h
  split at h
  · obtain rfl := Except.error.inj h
    simp
  · split at h
    · obtain rfl := Except.error.inj h
      simp
    · change (if (ix.queue.getD []).isEmpty then Except.ok () else Except.error Cause.locked) = _ at h
      split at h
      · simp at h
      · obtain rfl := Except.error.inj h
        simp

/-- A project whose documents are gone can be deleted, unless nobody can write. -/
theorem deleteProject_error {id : String} {f : Fault}
    (hgoes : ∃ db, ix.database.deleteProject id = .ok db)
    (h : ix.deleteProject live id = .error f) : f.cause ≠ .notFound := by
  obtain ⟨db, hdb⟩ := hgoes
  unfold Index.deleteProject at h
  rw [hdb] at h
  cases hreach : ix.reachToWrite live with
  | error c =>
      rw [hreach] at h
      obtain rfl := Except.error.inj h
      exact reachToWrite_error hreach
  | ok _ =>
      rw [hreach] at h
      simp [failing, bind, Except.bind, pure, Except.pure] at h

end Index

namespace Engine

variable {S : Setting} {e e' : Engine} {docs : List Document} {entries : List FileEntry}
  {tree : FileTree} {caller : Caller} {now : Instant} {isFresh : Bool} {projectId : String}

/-- Whatever a call under the lock keeps, the whole call keeps. -/
theorem Agrees.locked {α : Type} (h : e.Agrees S docs entries)
    {call : Engine → Engine × Except Fault α} {result : Except Fault α}
    (hcall : ∀ {e₁ e₂ : Engine}, e₁.Agrees S docs entries → call e₁ = (e₂, result) →
      e₁.index = e.index → e₂.index = e'.index → ∃ docs' entries', e₂.Agrees S docs' entries')
    (hrun : e.locked projectId call = (e', result)) :
    ∃ docs' entries', e'.Agrees S docs' entries' := by
  obtain ⟨rfl, -⟩ | ⟨locks, e₁, -, hdone, rfl⟩ := locked_cases hrun
  · exact ⟨docs, entries, h⟩
  · have hlocked : ({ e with locks } : Engine).Agrees S docs entries :=
      h.of_same h.parser rfl rfl rfl
    obtain ⟨docs', entries', hagrees⟩ := hcall hlocked hdone rfl rfl
    exact ⟨docs', entries', hagrees.of_same hagrees.parser rfl rfl rfl⟩

theorem Agrees.indexProject (h : e.Agrees S docs entries) (hcovers : S.Covers tree projectId)
    (hsteady : S.Steady caller) :
    ∃ docs' entries', (e.indexProject tree caller now projectId).1.Agrees S docs' entries' :=
  h.locked (fun hagrees hrun _ _ => hagrees.runs hcovers hsteady (runs_of_runHeld hrun)) rfl

theorem Agrees.reindexProject (h : e.Agrees S docs entries) (hcovers : S.Covers tree projectId)
    (hsteady : S.Steady caller) :
    ∃ docs' entries', (e.reindexProject tree caller now projectId).1.Agrees S docs' entries' :=
  h.locked (fun hagrees hrun _ _ => hagrees.runs hcovers hsteady (runs_of_runHeld hrun)) rfl

theorem Agrees.createProject (h : e.Agrees S docs entries) {db : Database} {p : Project}
    (hdb : e.index.database.createProject now p = .ok db)
    (hcreated : Database.created now p = p) :
    ({ e with
      index := { e.index with database := db }
      projects := setProject e.projects p } : Engine).Agrees S docs entries := by
  obtain ⟨hnew, rfl⟩ := Database.createProject_eq_ok hdb
  have hothers : ∀ q ∈ e.projects, q.id ≠ p.id := by
    intro q hq hid
    obtain ⟨row, hrow, hplain⟩ := h.exists_row hq
    have hrowId : row.project.plain.id = q.plain.id := congrArg Project.id hplain
    exact (hnew row hrow).1 (hrowId.trans hid)
  have hset : setProject e.projects p = e.projects ++ [p] := by
    refine if_neg ?_
    rw [Bool.not_eq_true, List.any_eq_false]
    exact fun q hq => by simpa using hothers q hq
  refine ⟨h.parser, h.reachable, h.idle, h.keeps.createProject hdb, ?_, h.memory, h.files, ?_⟩
  · simp only
    rw [hset, hcreated, List.map_append, List.map_append]
    exact h.projects.append_right _
  · simp only
    rw [hset]
    intro q hq d hd hown
    rcases List.mem_append.mp hq with hq | hq
    · exact h.explained q hq d hd hown
    · obtain ⟨owner, howner, hid⟩ := h.owner hd
      rw [List.mem_singleton.mp hq] at hown
      exact absurd (hid.trans hown) (hothers owner howner)

theorem created_newProject (tree : FileTree) (now : Instant) (id name root description : String) :
    Database.created now (newProject tree now id name root description) =
      newProject tree now id name root description := by
  unfold Database.created
  split <;> rfl

theorem Agrees.projectByPath_ne_ok (h : e.Agrees S docs entries) {root : String} {live : Bool}
    (hnone : e.projects.find? (·.rootPath == root) = none) (known : Project) :
    e.index.projectByPath live root ≠ .ok known := by
  intro hfound
  unfold Index.projectByPath Index.findProject at hfound
  obtain ⟨-, -, hfound⟩ := bind_eq_ok_iff.mp hfound
  obtain ⟨-, -, hfound⟩ := bind_eq_ok_iff.mp hfound
  split at hfound
  · simp [throw, throwThe, MonadExceptOf.throw] at hfound
  · rename_i row hrow
    obtain ⟨p, hp, hplain⟩ := h.exists_project (List.mem_of_find?_eq_some hrow)
    have hroot : row.project.rootPath = root := by simpa using List.find?_some hrow
    have hsame : p.plain.rootPath = row.project.plain.rootPath := congrArg Project.rootPath hplain
    have hother := List.find?_eq_none.mp hnone p hp
    exact hother (beq_iff_eq.mpr (hsame.trans hroot))

theorem Agrees.addProject (h : e.Agrees S docs entries) (tree : FileTree) (live : Bool)
    (now : Instant) (name path description : String) :
    (e.addProject tree live now name path description).1.Agrees S docs entries := by
  unfold Engine.addProject
  simp only
  split
  · exact h
  · split
    · exact h
    · rename_i hnone
      split
      · rename_i index hindex
        obtain ⟨db, hdb, rfl⟩ := Index.createProject_eq_ok hindex
        exact (h.createProject hdb (created_newProject _ _ _ _ _ _)).of_same h.parser rfl rfl rfl
      · split
        · rename_i known _ hknown
          exact absurd hknown (h.projectByPath_ne_ok hnone known)
        · exact h.of_same h.parser rfl rfl rfl

/-- An engine forgets a project whose documents and whose row are gone. -/
theorem Agrees.forget (h : e.Agrees S docs entries) {index : Index}
    (hreachable : index.isClosed = false) (hidle : index.queue = none)
    (hkeeps : index.database.Keeps (docs.filter (·.file.projectId != projectId)))
    (hprojects : index.database.projects =
      e.index.database.projects.filter (·.project.id != projectId)) :
    (Engine.forget { e with index } projectId).Agrees S
      (docs.filter (·.file.projectId != projectId))
      (entries.filter (·.file.projectId != projectId)) := by
  refine ⟨h.parser.invalidateAll _, hreachable, hidle, hkeeps, ?_, h.memory.drop projectId,
    h.files_filter (·.projectId != projectId) fun _ => rfl, ?_⟩
  · have hsame := h.projects.filter (·.id != projectId)
    rw [List.filter_map, List.filter_map] at hsame
    change ((e.projects.filter (·.id != projectId)).map Project.plain).Perm
      (index.database.projects.map (·.project.plain))
    rw [hprojects]
    exact hsame
  · intro p hp d hd hown
    exact h.explained p (List.mem_of_mem_filter hp) d (List.mem_of_mem_filter hd) hown

/-- The index after the documents of a project have been removed. -/
structure Cleared (before : Index) (docs : List Document) (projectId : String) (after : Index) :
    Prop where
  reachable : after.isClosed = false
  idle : after.queue = none
  projects : after.database.projects = before.database.projects
  keeps : after.database.Keeps (docs.filter (·.file.projectId != projectId))

theorem Agrees.cleared (h : e.Agrees S docs entries) {index : Index} {refusal : Option Cause}
    (hcommit : (Index.enqueue { e.index with queue := some [] }
      [.deleteProjectDocuments projectId]).commitUnless refusal now = (index, .ok ())) :
    Cleared e.index docs projectId index := by
  obtain ⟨f, hfailed, -⟩ | ⟨queue, db, -, hqueue, hdb, rfl⟩ := Index.commit_cases hcommit
  · simp at hfailed
  · obtain rfl := Option.some.inj hqueue
    obtain ⟨hprojects, hkept⟩ := h.keeps.writeAll hdb
    exact ⟨h.reachable, rfl, hprojects, hkept⟩

theorem Cleared.eq_of_database_eq {before after : Index} (h : Cleared before docs projectId after)
    (hreachable : before.isClosed = false) (hidle : before.queue = none)
    (hsame : after.database = before.database) : after = before := by
  cases before with
  | mk database isClosed queue =>
      cases after with
      | mk database' isClosed' queue' =>
          obtain rfl : isClosed = false := hreachable
          obtain rfl : queue = none := hidle
          obtain rfl : isClosed' = false := h.reachable
          obtain rfl : queue' = none := h.idle
          obtain rfl : database' = database := hsame
          rfl

theorem Cleared.delete {before after last : Index} (h : Cleared before docs projectId after)
    {live : Bool} (hdelete : after.deleteProject live projectId = .ok last) :
    last.isClosed = false ∧ last.queue = none ∧
      last.database.Keeps (docs.filter (·.file.projectId != projectId)) ∧
      last.database.projects = before.database.projects.filter (·.project.id != projectId) := by
  obtain ⟨db, hdb, rfl⟩ := Index.deleteProject_eq_ok hdelete
  obtain ⟨hprojects, hkept⟩ := h.keeps.deleteProject hdb
  rw [List.filter_filter] at hkept
  simp only [Bool.and_self] at hkept
  rw [h.projects] at hprojects
  exact ⟨h.reachable, h.idle, hkept, hprojects⟩

/-- A project in memory does not go missing between its documents and its row. -/
theorem Agrees.cause_of_delete (h : e.Agrees S docs entries) {project : Project}
    (hproject : e.project? projectId = some project) {index : Index}
    (hcleared : Cleared e.index docs projectId index) {live : Bool} {f : Fault}
    (hdelete : index.deleteProject live projectId = .error f) : f.cause ≠ .notFound := by
  refine Index.deleteProject_error ?_ hdelete
  refine hcleared.keeps.exists_deleteProject
    (fun d hd => by simpa using (List.mem_filter.mp hd).2) ?_
  obtain ⟨hp, hid⟩ := project?_eq_some hproject
  have howned := (h.hasProject_iff projectId).mpr ⟨project, hp, hid⟩
  unfold Database.hasProject at howned ⊢
  rwa [hcleared.projects]

/-- Whether a removal succeeds or is refused before anything is removed, memory and index agree. -/
theorem Agrees.removeHeld (h : e.Agrees S docs entries) {result : Except Fault Unit}
    (hrun : e.removeHeld caller now projectId = (e', result))
    (hdone : result.isOk = true ∨ e'.index.database = e.index.database) :
    ∃ docs' entries', e'.Agrees S docs' entries' := by
  have hsame {index : Index} (hindex : index = e.index) :
      ∃ docs' entries', ({ e with index } : Engine).Agrees S docs' entries' :=
    ⟨docs, entries, h.of_same h.parser hindex rfl rfl⟩
  have hidle : ({ e.index with queue := none } : Index) = e.index := by
    rw [← h.idle]
  unfold Engine.removeHeld at hrun
  split at hrun
  · obtain ⟨rfl, -⟩ := Prod.mk.inj hrun
    exact ⟨docs, entries, h⟩
  · rename_i project hproject
    split at hrun
    · obtain ⟨rfl, -⟩ := Prod.mk.inj hrun
      exact ⟨docs, entries, h⟩
    · rename_i writer hopen
      obtain ⟨-, rfl⟩ := openWriter_eq_ok hopen
      split at hrun
      · obtain ⟨rfl, -⟩ := Prod.mk.inj hrun
        exact ⟨docs, entries, h⟩
      · split at hrun
        · obtain ⟨rfl, -⟩ := Prod.mk.inj hrun
          exact hsame hidle
        · rename_i queued hsubmit
          obtain rfl := Index.eq_enqueue_of_submit hsubmit
          split at hrun
          · rename_i index f hcommit
            obtain ⟨rfl, -⟩ := Prod.mk.inj hrun
            exact hsame ((Index.eq_discard_of_commit_error hcommit).trans hidle)
          · rename_i index hcommit
            have hcleared := h.cleared hcommit
            simp only at hrun
            split at hrun
            · rename_i last hdelete
              obtain ⟨rfl, -⟩ := Prod.mk.inj hrun
              obtain ⟨hreachable, hclosed, hkept, hprojects⟩ := hcleared.delete hdelete
              have hforgot := h.forget hreachable hclosed hkept hprojects
              refine ⟨docs.filter (·.file.projectId != projectId),
                entries.filter (·.file.projectId != projectId), Agrees.refresh ?_ _⟩
              exact hforgot.of_same hforgot.parser rfl rfl rfl
            · rename_i f hdelete
              split at hrun
              · rename_i hmissing
                exact absurd (beq_iff_eq.mp hmissing) (h.cause_of_delete hproject hcleared hdelete)
              · obtain ⟨rfl, rfl⟩ := Prod.mk.inj hrun
                obtain hok | hunchanged := hdone
                · simp [Except.isOk, Except.toBool] at hok
                · exact hsame (hcleared.eq_of_database_eq h.reachable h.idle hunchanged)

theorem Agrees.removeProject (h : e.Agrees S docs entries)
    (hdone : (e.removeProject caller now projectId).2.isOk = true ∨
      (e.removeProject caller now projectId).1.index.database = e.index.database) :
    ∃ docs' entries', (e.removeProject caller now projectId).1.Agrees S docs' entries' :=
  h.locked (fun hagrees hrun hbefore hafter => hagrees.removeHeld hrun
    (hdone.imp id fun hsame => by rw [hafter, hbefore, hsame])) rfl

/-- An engine that is opened over the index of another one agrees with it. -/
theorem Agrees.restore (h : e.Agrees S docs entries) {ignore : IgnoreConfig} {minted : Nat}
    {live : Bool}
    (hopened : Engine.restore ignore (.new S.config S.tool) e.index minted live = .ok e') :
    ∃ entries', e'.Agrees S docs entries' := by
  obtain rfl := live_of_restore h.reachable hopened
  obtain ⟨projects, memory, hrestore, hprojects, entries', hmemory, hfiles⟩ :=
    restore_eq_ok h.reachable h.keeps ignore (.new S.config S.tool) minted
  obtain rfl := Except.ok.inj (hrestore.symm.trans hopened)
  have hplain : projects.map Project.plain = projects := by
    refine (List.map_congr_left fun p hp => ?_).trans (List.map_id _)
    obtain ⟨row, -, rfl⟩ := List.mem_map.mp (hprojects.mem_iff.mp hp)
    rfl
  have hplainRows : (projects.map Project.plain).Perm
      (e.index.database.projects.map (·.project.plain)) := by
    rw [hplain]
    exact hprojects
  have hexplained : ∀ p ∈ projects, ∀ d ∈ docs, d.file.projectId = p.id →
      S.Explains p.rootPath d := by
    intro p hp d hd hown
    obtain ⟨row, hrow, rfl⟩ := List.mem_map.mp (hprojects.mem_iff.mp hp)
    obtain ⟨q, hq, hsame⟩ := h.exists_project hrow
    have hid : q.plain.id = row.project.plain.id := congrArg Project.id hsame
    have hroot : q.plain.rootPath = row.project.plain.rootPath := congrArg Project.rootPath hsame
    rw [← hroot]
    exact h.explained q hq d hd (hown.trans hid.symm)
  have hagrees : (⟨ignore, .new S.config S.tool, e.index, projects, memory, .empty, .zero, 0,
      minted⟩ : Engine).Agrees S docs entries' :=
    ⟨Parser.sound_new S, h.reachable, h.idle, h.keeps, hplainRows, hmemory, hfiles, hexplained⟩
  exact ⟨entries', hagrees.refresh true⟩

/-- The engines that come up over an index that they alone write. Trees, times, rules and callers are
arbitrary, as long as parsing finds the same for all of them. -/
inductive Reachable (S : Setting) : Engine → Prop where
  | opened {ignore : IgnoreConfig} {minted : Nat} {live : Bool} {e : Engine}
      (hopened : Engine.restore ignore (.new S.config S.tool) .new minted live = .ok e) :
      Reachable S e
  | addProject {e : Engine} (h : Reachable S e) (tree : FileTree) (live : Bool) (now : Instant)
      (name path description : String) :
      Reachable S (e.addProject tree live now name path description).1
  | indexProject {e : Engine} (h : Reachable S e) {tree : FileTree} {caller : Caller}
      {projectId : String} (hcovers : S.Covers tree projectId) (hsteady : S.Steady caller)
      (now : Instant) : Reachable S (e.indexProject tree caller now projectId).1
  | reindexProject {e : Engine} (h : Reachable S e) {tree : FileTree} {caller : Caller}
      {projectId : String} (hcovers : S.Covers tree projectId) (hsteady : S.Steady caller)
      (now : Instant) : Reachable S (e.reindexProject tree caller now projectId).1
  | removeProject {e : Engine} (h : Reachable S e) {caller : Caller} {now : Instant}
      {projectId : String} (hdone : (e.removeProject caller now projectId).2.isOk = true ∨
        (e.removeProject caller now projectId).1.index.database = e.index.database) :
      Reachable S (e.removeProject caller now projectId).1
  | reopened {e e' : Engine} (h : Reachable S e) {ignore : IgnoreConfig} {minted : Nat}
      {live : Bool}
      (hopened : Engine.restore ignore (.new S.config S.tool) e.index minted live = .ok e') :
      Reachable S e'

theorem agrees_new (S : Setting) (ignore : IgnoreConfig) :
    (⟨ignore, .new S.config S.tool, .new, [], .empty, .empty, .zero, 0, 0⟩ : Engine).Agrees S [] []
    where
  parser := Parser.sound_new S
  reachable := by rw [Index.new_eq]
  idle := by rw [Index.new_eq]
  keeps := Database.keeps_new
  projects := by
    rw [Index.new_eq]
    exact .nil
  memory := FileMemory.holds_empty
  files := .nil
  explained := by simp

theorem Reachable.agrees (h : Reachable S e) : ∃ docs entries, e.Agrees S docs entries := by
  induction h with
  | @opened ignore minted live e hopened => exact ⟨[], (agrees_new S ignore).restore hopened⟩
  | addProject h tree live now name path description ih =>
      obtain ⟨docs, entries, hagrees⟩ := ih
      exact ⟨docs, entries, hagrees.addProject tree live now name path description⟩
  | indexProject h hcovers hsteady now ih =>
      obtain ⟨docs, entries, hagrees⟩ := ih
      exact hagrees.indexProject hcovers hsteady
  | reindexProject h hcovers hsteady now ih =>
      obtain ⟨docs, entries, hagrees⟩ := ih
      exact hagrees.reindexProject hcovers hsteady
  | removeProject h hdone ih =>
      obtain ⟨docs, entries, hagrees⟩ := ih
      exact hagrees.removeProject hdone
  | reopened h hopened ih =>
      obtain ⟨docs, entries, hagrees⟩ := ih
      exact ⟨docs, hagrees.restore hopened⟩

/-- The stores have the same files, and each file has its project. -/
structure Consistent (e : Engine) : Prop where
  files : ∀ entry ∈ e.memory.files.entries, entry.2.id = entry.1
  projects : ∀ f ∈ e.memory.files.values, ∃ p ∈ e.projects, p.id = f.projectId
  symbols : e.memory.symbols.keys.Perm e.memory.files.keys
  references : e.memory.references.keys.Perm e.memory.files.keys
  usages : e.memory.usages.keys ⊆ e.memory.files.keys

theorem Agrees.consistent (h : e.Agrees S docs entries) : e.Consistent where
  files entry hentry := by
    rw [h.memory.files] at hentry
    obtain ⟨f, -, rfl⟩ := List.mem_map.mp hentry
    rfl
  projects f hf := by
    rw [h.memory.values_files] at hf
    obtain ⟨entry, hentry, rfl⟩ := List.mem_map.mp hf
    obtain ⟨d, hd, hdocument⟩ := h.document_of_entry hentry
    rw [FileEntry.projectId_of_document_eq hdocument]
    exact h.owner hd
  symbols := by rw [h.memory.keys_symbols, h.memory.keys_files]
  references := by rw [h.memory.keys_references, h.memory.keys_files]
  usages id hid := by
    obtain ⟨f, hf, rfl, -⟩ := h.memory.mem_keys_usages.mp hid
    rw [h.memory.keys_files]
    exact List.mem_map_of_mem hf

/-- The second engine holds the projects, files, symbols and references of the first. -/
structure SameContents (e e' : Engine) : Prop where
  projects : e'.projects.Perm (e.projects.map Project.plain)
  files : e'.memory.files.keys.Perm e.memory.files.keys
  documents : ∀ projectId, ((e'.projectFiles projectId).map FileEntry.document).Perm
    ((e.projectFiles projectId).map FileEntry.document)

theorem Agrees.keys_perm (h : e.Agrees S docs entries) :
    e.memory.files.keys.Perm (docs.map (·.file.id)) := by
  have hids := h.files.map fun d => d.file.id
  rw [List.map_map, List.map_map] at hids
  rw [h.memory.keys_files]
  exact hids

/-- In every engine that comes up the projects are those of the index and, project by project, the
files, symbols and references are those that the index lists; no store knows another file, every file
has its project, and opening the index once more gives the same contents. -/
theorem memory_agrees_with_index (h : Reachable S e) :
    (∃ projects, e.index.projects true = .ok projects ∧
      projects.Perm (e.projects.map Project.plain)) ∧
    (∀ projectId, ∃ listed, e.index.documents true projectId = .ok listed ∧
      listed.Perm ((e.projectFiles projectId).map FileEntry.document)) ∧
    e.Consistent ∧
    ∀ ignore minted, ∃ e',
      Engine.restore ignore (.new S.config S.tool) e.index minted true = .ok e' ∧
      e.SameContents e' ∧ e'.Consistent := by
  obtain ⟨docs, entries, hagrees⟩ := h.agrees
  refine ⟨?_, ?_, hagrees.consistent, ?_⟩
  · obtain ⟨projects, hprojects, hperm⟩ := Index.projects_perm hagrees.reachable hagrees.keeps
    exact ⟨projects, hprojects, hperm.trans hagrees.projects.symm⟩
  · intro projectId
    obtain ⟨listed, hlisted, hperm, -⟩ :=
      Index.documents_perm hagrees.reachable hagrees.keeps projectId
    exact ⟨listed, hlisted, hperm.trans (hagrees.projectFiles_perm projectId).symm⟩
  · intro ignore minted
    obtain ⟨projects, memory, hrestore, hperm, -⟩ :=
      restore_eq_ok hagrees.reachable hagrees.keeps ignore (.new S.config S.tool) minted
    obtain ⟨entries', hrestored⟩ := hagrees.restore hrestore
    refine ⟨_, hrestore, ⟨?_, ?_, ?_⟩, hrestored.consistent⟩
    · rw [refresh_eq]
      exact hperm.trans hagrees.projects.symm
    · exact hrestored.keys_perm.trans hagrees.keys_perm.symm
    · intro projectId
      exact (hrestored.projectFiles_perm projectId).trans
        (hagrees.projectFiles_perm projectId).symm

def sampleId : String := (Uuid.ofCounter 1).toString

def sampleNames : List (String × String) := [(sampleId, "."), (sampleId, "a.py")]

def sampleTexts : List String := ["\n", "def f():\n"]

def sampleSetting : Setting where
  config := .standard
  tool := none
  contents := {content | content ∈ sampleTexts.map bytesOfText}
  names := {name | name ∈ sampleNames}
  checksum_injOn := by
    have hdistinct : ((sampleTexts.map bytesOfText).map checksum).Nodup := by decide +kernel
    exact fun content hcontent other hother hsame =>
      List.inj_on_of_nodup_map hdistinct hcontent hother hsame
  fileId_injOn := by
    have hdistinct : (sampleNames.map fun name => fileId name.1 name.2).Nodup := by decide +kernel
    exact fun name hname other hother hsame =>
      List.inj_on_of_nodup_map hdistinct hname hother hsame

theorem mem_sampleTree {text : String} {place : List String} {content : List UInt8}
    {modified : Instant} (h : (place, .file content modified) ∈ (sampleTree text).entries) :
    place = ["a.py"] ∧ content = bytesOfText text := by
  simp only [sampleTree, List.mem_singleton, Prod.mk.injEq, FileNode.file.injEq] at h
  exact ⟨h.1, h.2.1⟩

theorem covers_sampleTree {text : String} (htext : text ∈ sampleTexts) :
    sampleSetting.Covers (sampleTree text) sampleId where
  proper := by
    refine ⟨by simp [sampleTree], ?_⟩
    simp [sampleTree, ProperName]
  contents place content modified hfile := by
    have hbytes : ∀ text ∈ sampleTexts,
        (decode (bytesOfText text)).bytes ∈ sampleTexts.map bytesOfText := by decide +kernel
    rw [(mem_sampleTree hfile).2]
    exact ⟨List.mem_map_of_mem htext, hbytes text htext⟩
  names place content modified hfile rel hrel := by
    have hnames : ∀ rel ∈ ["a.py"].tails, (sampleId, Run.relativeText rel) ∈ sampleNames := by
      decide +kernel
    rw [(mem_sampleTree hfile).1] at hrel
    exact hnames rel ((List.mem_tails _ _).mpr hrel)

def sampleRuns (e : Engine) : Engine :=
  ((e.addProject (sampleTree "\n") true ⟨10, 0, false⟩ "sample" "/" "").1.indexProject
    (sampleTree "\n") .patient ⟨20, 0, false⟩ sampleId).1

theorem Reachable.sampleRuns (h : Reachable sampleSetting e) :
    Reachable sampleSetting e.sampleRuns :=
  (h.addProject _ _ _ _ _ _).indexProject (covers_sampleTree (by simp [sampleTexts]))
    sampleSetting.steady_patient _

/-- The engine that comes up over a new index, without ignore rules and without a tag tool. -/
def bareEngine : Engine where
  ignore := .bare
  parser := .new .standard none
  index :=
    { database := { Database.empty with schema := .newest, versions := [some "1.0.0", some "1.1.0"] }
      isClosed := false
      queue := none }
  projects := []
  memory := .empty
  locks := .empty
  lastUpdate := .zero
  generation := 0
  minted := 0

theorem restore_new : restore .bare (.new .standard none) .new 0 true = .ok bareEngine := by
  rw [Index.new_eq]
  -- what the index gives is computed by recursions that are not structural
  with_unfolding_all rfl

theorem reachable_bareEngine : Reachable sampleSetting bareEngine := .opened restore_new

/-- After its first run the engine holds one file, and it is the one that the index lists. -/
theorem sample_memory_agrees_with_index :
    ∃ e listed, Reachable sampleSetting e ∧ (e.projectFiles sampleId).length = 1 ∧
      e.index.documents true sampleId = .ok listed ∧
      listed.Perm ((e.projectFiles sampleId).map FileEntry.document) := by
  have hone : (bareEngine.sampleRuns.projectFiles sampleId).length = 1 := by decide +kernel
  have hreachable := reachable_bareEngine.sampleRuns
  obtain ⟨listed, hlisted, hperm⟩ := (memory_agrees_with_index hreachable).2.1 sampleId
  exact ⟨bareEngine.sampleRuns, listed, hreachable, hone, hlisted, hperm⟩

end Engine

end CodeAtlas
