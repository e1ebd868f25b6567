import CodeAtlas.Proofs.Engine.ByWorkers

/-!
# Runs that fail

A run that fails, wherever it does and however its workers moved, leaves the engine as it was, up to what
the parser remembers, with the lock given back and the writer closed.
-/

namespace CodeAtlas

namespace Engine

/-- A run that fails under the lock of its project changes nothing but what the parser remembers, in
whatever way its candidates are taken up. -/
theorem runHeldBy_error {e e' : Engine}
    {takes : Run → List Candidate → RunState → RunState × Except Fault Unit} {tree : FileTree}
    {caller : Caller} {now : Instant} {isFresh : Bool} {projectId : String} {f : Fault}
    (htakes : ∀ r candidates (s : RunState), s.index.Extends (takes r candidates s).1.index)
    (h : e.runHeldBy takes tree caller now isFresh projectId = (e', .error f)) :
    e' = { e with parser := e'.parser } := by
  unfold runHeldBy at h
  split at h
  · obtain ⟨rfl, -⟩ := Prod.mk.inj h
    rfl
  · rename_i project hproject
    split at h
    · obtain ⟨rfl, -⟩ := Prod.mk.inj h
      rfl
    · rename_i ignore classifier hrules
      split at h
      · obtain ⟨rfl, -⟩ := Prod.mk.inj h
        rfl
      · rename_i candidates skipped hdiscover
        simp only at h
        split at h
        · obtain ⟨rfl, -⟩ := Prod.mk.inj h
          rfl
        · rename_i index hopen
          have hdiscard {r : Run} {updated : Project} {s : RunState} {filled : Except Fault Unit}
              (hfill : r.fillBy caller (takes r candidates)
                ⟨index, e.parser, [], 0, 0, skipped, 0, []⟩ updated = (s, filled)) :
              discard s.index = e.index := by
            have hextends := r.fillBy_extends caller (htakes r candidates)
              ⟨index, e.parser, [], 0, 0, skipped, 0, []⟩ updated
            rw [hfill] at hextends
            exact hextends.discard_eq.trans (discard_of_openWriter hopen)
          -- the queue is discarded either before or by the commit
          split at h
          · rename_i s fault hfill
            obtain ⟨rfl, -⟩ := Prod.mk.inj h
            rw [hdiscard hfill]
          · rename_i s hfill
            split at h
            · rename_i index' fault hcommit
              obtain ⟨rfl, -⟩ := Prod.mk.inj h
              rw [Index.eq_discard_of_commit_error hcommit, hdiscard hfill]
            · simp at h

theorem runHeld_error {e e' : Engine} {tree : FileTree} {caller : Caller} {now : Instant}
    {isFresh : Bool} {projectId : String} {f : Fault}
    (h : e.runHeld tree caller now isFresh projectId = (e', .error f)) :
    e' = { e with parser := e'.parser } := by
  rw [← runHeldBy_takeAll] at h
  exact runHeldBy_error (fun r candidates s => r.takeAll_extends caller candidates s) h

theorem locked_error {α : Type} {e e' : Engine} {projectId : String}
    {call : Engine → Engine × Except Fault α} {f : Fault}
    (hcall : ∀ {e₁ e₂ : Engine} {f : Fault}, call e₁ = (e₂, .error f) →
      e₂ = { e₁ with parser := e₂.parser })
    (h : e.locked projectId call = (e', .error f)) : e' = { e with parser := e'.parser } := by
  obtain ⟨rfl, -⟩ | ⟨locks, e₁, hlocks, hrun, rfl⟩ := locked_cases h
  · rfl
  · rw [hcall hrun]
    simp [LockTable.release_of_acquire hlocks]

/-- Wherever a run of a project fails, with whatever workers, the tables of the index, the writer's slot,
the locks, and the projects, stores and generation in memory are as before it. -/
theorem failed_run_changes_nothing {e e' : Engine} {tree : FileTree} {caller : Caller}
    {now : Instant} {projectId : String} {f : Fault}
    (h : e.indexProject tree caller now projectId = (e', .error f) ∨
      e.reindexProject tree caller now projectId = (e', .error f) ∨
      ∃ limit moves isFresh,
        e.runBy limit moves tree caller now isFresh projectId = (e', .error f)) :
    e'.index.database = e.index.database ∧ e'.index.queue = e.index.queue ∧
      e'.projects = e.projects ∧ e'.memory = e.memory ∧ e'.generation = e.generation ∧
      e'.locks = e.locks ∧ e' = { e with parser := e'.parser } := by
  have hsame : e' = { e with parser := e'.parser } := by
    obtain h | h | ⟨limit, moves, isFresh, h⟩ := h
    · exact locked_error (fun hrun => runHeld_error hrun) h
    · exact locked_error (fun hrun => runHeld_error hrun) h
    · refine locked_error (fun hrun => runHeldBy_error ?_ hrun) h
      exact fun r candidates s => r.takeAllBy_extends caller limit moves s candidates
  rw [hsame]
  exact ⟨rfl, rfl, rfl, rfl, rfl, rfl, rfl⟩

def sampleTree (text : String) : FileTree :=
  { entries := [(["a.py"], .file (bytesOfText text) ⟨5, 0, false⟩)]
    current := [] }

def sampleProject : Project :=
  { id := "p", name := "sample", rootPath := "/", description := "", indexed := false
    lastIndexed := .zero, repositoryKind := "filesystem", branch := "", remoteUrl := ""
    createdAt := ⟨10, 0, false⟩ }

def sampleEngine : Engine :=
  { ignore := .bare
    parser := .new .standard none
    index := { Index.new with
      database := { Index.new.database with projects := [⟨sampleProject, []⟩] } }
    projects := [sampleProject]
    memory := .empty
    locks := .empty
    lastUpdate := .zero
    generation := 0
    minted := 0 }

/-- The disk refuses the commit of a run that has read its file and queued its document. -/
theorem refused_run_changes_nothing :
    ∃ e' f, sampleEngine.indexProject (sampleTree "def f():\n")
        ⟨fun _ => true, some (.other "disk full")⟩ ⟨20, 0, false⟩ "p" = (e', .error f) ∧
      e'.index.database = sampleEngine.index.database ∧ e'.locks = .empty := by
  have hfails : (sampleEngine.indexProject (sampleTree "def f():\n")
      ⟨fun _ => true, some (.other "disk full")⟩ ⟨20, 0, false⟩ "p").2.isOk = false := by
    rw [sampleEngine, Index.new_eq]
    decide +kernel
  obtain ⟨f, hrun⟩ := exists_eq_error hfails
  have hsame := failed_run_changes_nothing (.inl hrun)
  exact ⟨_, f, hrun, hsame.1, hsame.2.2.2.2.2.1⟩

end Engine

end CodeAtlas
