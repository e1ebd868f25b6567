import CodeAtlas.Proofs.Engine.Jobs
import CodeAtlas.Proofs.Engine.Reachable

/-!
# A job on its own

What becomes of an engine whose memory and index agree when it does a job that nothing stands in the way
of: the index makes the changes of the job, memory takes over what the job has staged, or forgets, and
the lock is free again.
-/

namespace CodeAtlas

namespace Index

variable {ix ix' : Index} {refusal : Option Cause} {now : Instant}

theorem commitUnless_eq_ok {ops : List WriteOp} {db : Database} (hqueue : ix.queue = some ops)
    (hwrites : ops.foldlM (·.write now) ix.database = .ok db) :
    ix.commitUnless none now = ({ ix with database := db, queue := none }, .ok ()) := by
  unfold commitUnless
  simp only [hqueue, hwrites]

theorem refusal_eq_none (h : ix.commitUnless refusal now = (ix', .ok ())) : refusal = none := by
  unfold commitUnless at h
  split at h
  · simp at h
  · simp only at h
    split at h
    · simp at h
    · split at h
      · simp at h
      · rfl

theorem openWriter_eq {caller : Caller} (hclosed : ix.isClosed = false) (hidle : ix.queue = none)
    (hwaits : caller.waits .openWriter = true) :
    Engine.openWriter ix caller = .ok { ix with queue := some [] } := by
  unfold Engine.openWriter Index.openWriter
  rw [if_pos hwaits, hidle, hclosed]
  rfl

theorem deleteProject_bare {id : String} (hclosed : ix.isClosed = false)
    (hidle : (ix.queue.getD []).isEmpty = true) (hlayout : ix.database.schema = .newest)
    (hbare : ∀ row ∈ ix.database.documents, row.file.projectId ≠ id)
    (howned : ix.database.hasProject id = true) :
    ix.deleteProject true id = .ok { ix with database := ix.database.unlist (· == id) } := by
  unfold deleteProject reachToWrite reach
  rw [Database.deleteProject_bare hlayout hbare howned, hclosed, hidle]
  rfl

end Index

theorem Database.Keeps.bare {db : Database} {docs : List Document} {projectId : String}
    (h : db.Keeps (docs.filter (·.file.projectId != projectId))) :
    ∀ row ∈ db.documents, row.file.projectId ≠ projectId := by
  intro row hrow
  obtain ⟨i, hi, rfl⟩ := List.getElem_of_mem hrow
  have hkept := h.rows.get hi (by rwa [← h.rows.length_eq])
  have hd := List.get_mem (docs.filter (·.file.projectId != projectId))
    ⟨i, by rwa [← h.rows.length_eq]⟩
  have hother := (List.mem_filter.mp hd).2
  have hfile : db.documents[i].file = _ := hkept.file
  rw [hfile]
  simpa using hother

namespace Engine

variable {S : Setting} {e e' : Engine} {docs : List Document} {entries : List FileEntry}
  {tree : FileTree} {caller : Caller} {now : Instant} {isFresh : Bool} {projectId : String}
  {r : Run} {candidates : List Candidate} {skipped : Nat} {s : RunState} {db : Database}

theorem locked_eq {α : Type} {call : Engine → Engine × Except Fault α} {result : Except Fault α}
    (hfree : e.locks = .empty)
    (hcall : call { e with locks := ⟨[projectId]⟩ } = (e', result)) :
    e.locked projectId call = ({ e' with locks := e'.locks.release projectId }, result) := by
  have hlocks : e.locks.acquire projectId = (⟨[projectId]⟩, true) := by
    rw [hfree]
    rfl
  unfold locked
  simp only [hlocks, hcall]

theorem runHeld_eq_ok (hstarts : e.Starts tree caller now isFresh projectId r candidates skipped)
    (hopen : openWriter e.index caller = .ok { e.index with queue := some [] })
    (hfilled : e.filled tree caller r candidates skipped = (s, .ok ())) {index : Index}
    (hcommit : s.index.commitUnless caller.refusal now = (index, .ok ())) :
    e.runHeld tree caller now isFresh projectId =
      ((e.adopt r { s with index } (r.updatedProject tree now)).refresh (caller.waits .figures),
        .ok (r.figures s)) := by
  obtain ⟨classifier, hrules, hdiscover⟩ := hstarts.found
  have hr : (⟨r.project, isFresh, r.ignore, now, e.projectFiles projectId⟩ : Run) = r := by
    rw [← hstarts.fresh, ← hstarts.started, ← hstarts.prior]
  unfold filled at hfilled
  rw [hstarts.started] at hfilled
  unfold runHeld
  simp only [hstarts.known, hrules, hdiscover, hopen, hr, hfilled, hcommit]

theorem removeHeld_eq_ok {project : Project} (hknown : e.project? projectId = some project)
    (hopen : openWriter e.index caller = .ok { e.index with queue := some [] })
    (hclear : caller.waits .clear = true) {index last : Index}
    (hcommit : ({ e.index with
      queue := some [.deleteProjectDocuments projectId] } : Index).commitUnless caller.refusal now =
        (index, .ok ()))
    (hdelete : index.deleteProject (caller.waits .deleteProject) projectId = .ok last) :
    e.removeHeld caller now projectId =
      (({ (forget { e with index := last } projectId) with
          generation := e.generation + 1
          lastUpdate := now } : Engine).refresh (caller.waits .figures), .ok ()) := by
  unfold removeHeld
  simp only [hknown, hopen, hclear, Bool.not_true, Bool.false_eq_true, ↓reduceIte, Index.submit,
    List.nil_append, hcommit, hdelete]

theorem perform_run_eq {j : Job} {tree : FileTree} {isFresh : Bool} (hwish : j.wish = .run isFresh tree)
    (e : Engine) : j.perform e =
      ((e.locked j.projectId fun e => e.runHeld tree j.caller j.now isFresh j.projectId).1,
        (e.locked j.projectId fun e =>
          e.runHeld tree j.caller j.now isFresh j.projectId).2.map some) := by
  unfold Job.perform
  rw [hwish]
  cases isFresh <;> rfl

theorem perform_removal_eq {j : Job} (hwish : j.wish = .removal) (e : Engine) : j.perform e =
    ((e.locked j.projectId fun e => e.removeHeld j.caller j.now j.projectId).1,
      (e.locked j.projectId fun e => e.removeHeld j.caller j.now j.projectId).2.map
        fun _ => none) := by
  unfold Job.perform
  rw [hwish]
  rfl

/-- What a job leaves that succeeds. -/
structure Leaves (S : Setting) (e e' : Engine) (db : Database) (projects : List Project)
    (docs : List Document) (entries : List FileEntry) : Prop where
  locks : e'.locks = .empty
  ignore : e'.ignore = e.ignore
  database : e'.index.database = db
  projects : e'.projects = projects
  agrees : e'.Agrees S docs entries

/-- A job that nothing stands in the way of, and whose lock is given back. -/
theorem Agrees.leaves (e : Engine) (projectId : String) {projects : List Project}
    (h : e'.Agrees S docs entries) (hlocks : e'.locks = ⟨[projectId]⟩) (hignore : e'.ignore = e.ignore)
    (hdatabase : e'.index.database = db) (hprojects : e'.projects = projects) (live : Bool) :
    e.Leaves S { (e'.refresh live) with locks := (e'.refresh live).locks.release projectId } db
      projects docs entries := by
  rw [refresh_eq]
  refine ⟨?_, hignore, hdatabase, hprojects, h.of_same h.parser rfl rfl rfl⟩
  simp [hlocks, LockTable.release, LockTable.empty]

/-- A run that succeeds puts its project and what it has staged in the place of what was there. -/
theorem Agrees.perform_run (h : e.Agrees S docs entries) (hfree : e.locks = .empty) {j : Job}
    (hwish : j.wish = .run isFresh tree) (hcovers : S.Covers tree j.projectId)
    (hsteady : S.Steady j.caller)
    (hstarts : e.Starts tree j.caller j.now isFresh j.projectId r candidates skipped)
    (hwaits : j.caller.waits .openWriter = true)
    (hfilled : e.filled tree j.caller r candidates skipped = (s, .ok ())) {ops : List WriteOp}
    (hqueue : s.index = { e.index with queue := some ops })
    (hwrites : ops.foldlM (·.write j.now) e.index.database = .ok db)
    (hrefusal : j.caller.refusal = none) :
    (∀ f ∈ s.staged, f.file.projectId = j.projectId) ∧ ∃ e' docs',
      j.perform e = (e', .ok (some (r.figures s))) ∧
        e.Leaves S e' db (setProject e.projects (r.updatedProject tree j.now)) docs'
          (entriesAfter entries r s) := by
  let held : Engine := { e with locks := ⟨[j.projectId]⟩ }
  have hheld : held.Agrees S docs entries := h.of_same h.parser rfl rfl rfl
  have hstarts' : held.Starts tree j.caller j.now isFresh j.projectId r candidates skipped :=
    ⟨hstarts.fresh, hstarts.started, hstarts.known, hstarts.prior, hstarts.found⟩
  have hcommit : s.index.commitUnless j.caller.refusal j.now =
      ({ s.index with database := db, queue := none }, .ok ()) := by
    rw [hrefusal]
    refine Index.commitUnless_eq_ok (by rw [hqueue]) ?_
    rw [hqueue]
    exact hwrites
  have hrun := runHeld_eq_ok hstarts' (Index.openWriter_eq h.reachable h.idle hwaits) hfilled hcommit
  rw [← hstarts.started] at hcommit
  obtain ⟨docs', hsettles, hagrees⟩ := hheld.complete hstarts' hcovers hsteady hfilled hcommit
  rw [hstarts.started] at hagrees
  refine ⟨fun f hf => ?_, _, docs', ?_,
    hagrees.leaves e j.projectId rfl rfl rfl rfl (j.caller.waits .figures)⟩
  · obtain ⟨d, -, hown, hdocument⟩ := hsettles.staged.kept f hf
    rw [FileEntry.projectId_of_document_eq hdocument, hown]
    exact (project?_eq_some hstarts.known).2
  · rw [perform_run_eq hwish, locked_eq hfree hrun]
    rfl

/-- A removal that succeeds takes away the documents of its project, its row and what is known of it. -/
theorem Agrees.perform_removal (h : e.Agrees S docs entries) (hfree : e.locks = .empty) {j : Job}
    (hwish : j.wish = .removal) {project : Project} (hknown : e.project? j.projectId = some project)
    (hwaits : j.caller.waits .openWriter = true) (hclear : j.caller.waits .clear = true)
    (hdelete : j.caller.waits .deleteProject = true)
    (hwrites : [WriteOp.deleteProjectDocuments j.projectId].foldlM (·.write j.now) e.index.database =
      .ok db) (hrefusal : j.caller.refusal = none) :
    ∃ e', j.perform e = (e', .ok none) ∧
      e.Leaves S e' (db.unlist (· == j.projectId)) (e.projects.filter (·.id != j.projectId))
        (docs.filter (·.file.projectId != j.projectId))
        (entries.filter (·.file.projectId != j.projectId)) := by
  let held : Engine := { e with locks := ⟨[j.projectId]⟩ }
  have hheld : held.Agrees S docs entries := h.of_same h.parser rfl rfl rfl
  have hcommit : ({ e.index with
      queue := some [.deleteProjectDocuments j.projectId] } : Index).commitUnless j.caller.refusal j.now =
        ({ e.index with database := db, queue := none }, .ok ()) := by
    rw [hrefusal]
    exact Index.commitUnless_eq_ok rfl hwrites
  have hcleared := hheld.cleared hcommit
  have howned : db.hasProject j.projectId = true := by
    obtain ⟨hp, hid⟩ := project?_eq_some hknown
    have hheldProject := (h.hasProject_iff j.projectId).mpr ⟨project, hp, hid⟩
    unfold Database.hasProject at hheldProject ⊢
    rwa [hcleared.projects]
  let cleared : Index := { e.index with database := db, queue := none }
  have hclosed : cleared.isClosed = false := h.reachable
  have hgone : cleared.deleteProject (j.caller.waits .deleteProject) j.projectId =
      .ok { cleared with database := db.unlist (· == j.projectId) } := by
    rw [hdelete]
    exact Index.deleteProject_bare hclosed rfl hcleared.keeps.layout hcleared.keeps.bare howned
  obtain ⟨hreachable, hidle, hkept, hprojects⟩ := hcleared.delete hgone
  have hagrees := hheld.forget hreachable hidle hkept hprojects
  have hrun := removeHeld_eq_ok (e := held) hknown (Index.openWriter_eq h.reachable h.idle hwaits)
    hclear hcommit hgone
  have hdone : ({ (Engine.forget { held with
        index := { e.index with database := db.unlist (· == j.projectId), queue := none } } j.projectId) with
      generation := held.generation + 1, lastUpdate := j.now } : Engine).Agrees S
        (docs.filter (·.file.projectId != j.projectId))
        (entries.filter (·.file.projectId != j.projectId)) :=
    hagrees.of_same hagrees.parser rfl rfl rfl
  refine ⟨_, ?_, hdone.leaves e j.projectId rfl rfl rfl rfl (j.caller.waits .figures)⟩
  rw [perform_removal_eq hwish, locked_eq hfree hrun]
  rfl

end Engine

end CodeAtlas
