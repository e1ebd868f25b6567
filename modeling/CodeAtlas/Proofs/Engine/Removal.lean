import CodeAtlas.Proofs.Engine.FailedRun

/-!
# The ways in which a removal ends

A removal commits twice: the documents of the project go first and its row afterwards. It is refused
before the first commit, or it is stopped between the two, or it is completed; only then the engine
forgets the project and the index counts as changed.
-/

namespace CodeAtlas

namespace Engine

def clearing (e : Engine) (projectId : String) : Index :=
  Index.enqueue { e.index with queue := some [] } [.deleteProjectDocuments projectId]

/-- The ways in which a removal ends. -/
inductive Removes (e : Engine) (caller : Caller) (now : Instant) (projectId : String) :
    Engine → Except Fault Unit → Prop where
  | refused (f : Fault) : Removes e caller now projectId e (.error f)
  | stopped {index : Index} {f : Fault} (hfree : e.index.queue = none)
      (hcleared : (e.clearing projectId).commitUnless caller.refusal now = (index, .ok ()))
      (hstopped : index.deleteProject (caller.waits .deleteProject) projectId = .error f)
      (hcause : f.cause ≠ .notFound) :
      Removes e caller now projectId { e with index } (.error (f.within "failed to remove project"))
  | completed {cleared index : Index}
      (hcleared : (e.clearing projectId).commitUnless caller.refusal now = (cleared, .ok ()))
      (hgone : cleared.deleteProject (caller.waits .deleteProject) projectId = .ok index ∨
        ∃ f, cleared.deleteProject (caller.waits .deleteProject) projectId = .error f ∧
          f.cause = .notFound ∧ index = cleared) :
      Removes e caller now projectId
        (({ (forget { e with index } projectId) with
          generation := e.generation + 1
          lastUpdate := now } : Engine).refresh (caller.waits .figures)) (.ok ())

variable {e e' : Engine} {caller : Caller} {now : Instant} {projectId : String}

theorem removes_of_removeHeld {result : Except Fault Unit}
    (h : e.removeHeld caller now projectId = (e', result)) :
    e.Removes caller now projectId e' result := by
  unfold removeHeld at h
  split at h
  · obtain ⟨rfl, rfl⟩ := Prod.mk.inj h
    exact .refused _
  · split at h
    · obtain ⟨rfl, rfl⟩ := Prod.mk.inj h
      exact .refused _
    · rename_i writer hopen
      have hclosed := discard_of_openWriter hopen
      obtain ⟨hfree, rfl⟩ := openWriter_eq_ok hopen
      split at h
      · obtain ⟨rfl, rfl⟩ := Prod.mk.inj h
        exact .refused _
      · split at h
        · obtain ⟨rfl, rfl⟩ := Prod.mk.inj h
          rw [hclosed]
          exact .refused _
        · rename_i queued hsubmit
          obtain rfl := Index.eq_enqueue_of_submit hsubmit
          split at h
          · rename_i index f hcommit
            obtain ⟨rfl, rfl⟩ := Prod.mk.inj h
            rw [show index = e.index from (Index.eq_discard_of_commit_error hcommit).trans hclosed]
            exact .refused _
          · rename_i cleared hcommit
            simp only at h
            split at h
            · rename_i index hdelete
              obtain ⟨rfl, rfl⟩ := Prod.mk.inj h
              exact .completed hcommit (.inl hdelete)
            · rename_i f hdelete
              split at h
              · rename_i hcause
                obtain ⟨rfl, rfl⟩ := Prod.mk.inj h
                exact .completed hcommit (.inr ⟨f, hdelete, by simpa using hcause, rfl⟩)
              · rename_i hcause
                obtain ⟨rfl, rfl⟩ := Prod.mk.inj h
                exact .stopped hfree hcommit hdelete (by simpa using hcause)

end Engine

/-! ## Removals that fail

A removal that fails leaves what the engine has in memory as it was. The index it leaves as it was, too,
unless it fails between its two commits: then the documents of the project are gone, its row stays, and
the engine goes on as if the documents were there. -/

theorem Database.rows_of_deleteProjectDocuments {db db' : Database} {id : String}
    (h : db.deleteProjectDocuments id = .ok db') :
    db'.projects = db.projects ∧
      db'.documents = db.documents.filter (·.file.projectId != id) := by
  unfold deleteProjectDocuments at h
  rw [failing_eq_ok_iff] at h
  obtain ⟨-, -, hdrop⟩ := bind_eq_ok_iff.mp h
  obtain ⟨hsame, hdocuments⟩ := dropDocuments_eq_ok hdrop
  exact ⟨hsame.projects, hdocuments⟩

namespace Engine

variable {e e' : Engine} {caller : Caller} {now : Instant} {projectId : String} {f : Fault}

theorem database_of_clearing {index : Index}
    (h : (e.clearing projectId).commitUnless caller.refusal now = (index, .ok ())) :
    ∃ db, e.index.database.deleteProjectDocuments projectId = .ok db ∧
      index = { e.index with database := db, queue := none } := by
  obtain ⟨f, hfailed, -⟩ | ⟨queue, db, -, hqueue, hdb, rfl⟩ := Index.commit_cases h
  · cases hfailed
  · obtain rfl := Option.some.inj hqueue
    exact ⟨db, by simpa [clearing, Index.enqueue, Database.write] using hdb, rfl⟩

theorem memory_eq_of_spared (h : e' = { e with index := e'.index }) : e'.memory = e.memory := by
  rw [h]

/-- The index after a removal that failed between its two commits. -/
structure Halved (e e' : Engine) (caller : Caller) (projectId : String) (f : Fault) : Prop where
  index : e'.index = { e.index with database := e'.index.database }
  projects : e'.index.database.projects = e.index.database.projects
  documents : e'.index.database.documents =
    e.index.database.documents.filter (·.file.projectId != projectId)
  failure : ∃ g : Fault, e'.index.deleteProject (caller.waits .deleteProject) projectId = .error g ∧
    g.cause ≠ .notFound ∧ f = g.within "failed to remove project"

/-- A removal that fails changes nothing in memory, and in the index nothing but that it may have lost
the documents of the project. -/
theorem failed_removal_spares_memory (h : e.removeProject caller now projectId = (e', .error f)) :
    e' = { e with index := e'.index } ∧
      (e'.index = e.index ∨ Halved e e' caller projectId f) := by
  obtain ⟨rfl, -⟩ | ⟨locks, e₁, hlocks, hremoved, rfl⟩ := locked_cases h
  · exact ⟨rfl, .inl rfl⟩
  · cases removes_of_removeHeld hremoved with
    | refused => simp [LockTable.release_of_acquire hlocks]
    | @stopped index g hfree hcleared hstopped hcause =>
        obtain ⟨db, hdb, rfl⟩ := database_of_clearing hcleared
        obtain ⟨hprojects, hdocuments⟩ := Database.rows_of_deleteProjectDocuments hdb
        refine ⟨by simp [LockTable.release_of_acquire hlocks], .inr ⟨?_, hprojects, hdocuments, ?_⟩⟩
        · exact congrArg (fun queue => { e.index with database := db, queue }) hfree.symm
        · exact ⟨g, hstopped, hcause, rfl⟩

/-- A caller who leaves between the two commits of a removal. -/
def leavesHalfway : Caller := ⟨fun s => s != .deleteProject, none⟩

def indexedSample : Engine :=
  (sampleEngine.indexProject (sampleTree "def f():\n") .patient ⟨20, 0, false⟩ "p").1

/-- The caller leaves when the document of the sample file is gone already. -/
theorem left_removal_spares_memory : ∃ e' f,
    indexedSample.removeProject leavesHalfway ⟨30, 0, false⟩ "p" = (e', .error f) ∧
      e'.memory = indexedSample.memory ∧ e'.index.database.documents = [] := by
  have hfails : (indexedSample.removeProject leavesHalfway ⟨30, 0, false⟩ "p").2.isOk = false ∧
      (indexedSample.removeProject leavesHalfway ⟨30, 0, false⟩ "p").1.index.database.documents = [] := by
    rw [indexedSample, sampleEngine, Index.new_eq]
    decide +kernel
  obtain ⟨f, hremoved⟩ := exists_eq_error hfails.1
  exact ⟨_, f, hremoved, memory_eq_of_spared (failed_removal_spares_memory hremoved).1, hfails.2⟩

/-- A removal that fails takes the document of the sample file out of the index, without counting that
as a change, and the next run on the same tree does not bring it back: it takes the file for indexed. -/
theorem left_removal_loses_documents :
    let removed := indexedSample.removeProject leavesHalfway ⟨30, 0, false⟩ "p"
    let again := removed.1.indexProject (sampleTree "def f():\n") .patient ⟨40, 0, false⟩ "p"
    removed.2 = .error ⟨["failed to remove project", "failed to delete project"], .canceled⟩ ∧
      indexedSample.index.database.documents.length = 1 ∧
      removed.1.index.database.documents = [] ∧ removed.1.generation = indexedSample.generation ∧
      again.2.isOk = true ∧ again.1.index.database.documents = [] ∧
      (again.1.projectFiles "p").length = 1 := by
  rw [indexedSample, sampleEngine, Index.new_eq]
  decide +kernel

end Engine

end CodeAtlas
