import CodeAtlas.Proofs.Engine.Effects
import CodeAtlas.Proofs.Engine.Settle

/-!
# Runs that leave their candidates to workers

A run is the same whichever way its candidates are taken up: it clears, lets them be taken up, erases
what is stale, saves the project and commits. Here it may leave them to workers that move in a given
order; one of these orders takes them up one by one.
-/

namespace CodeAtlas

namespace Engine

/-- A run whose candidates are taken up in some way. -/
def runHeldBy (e : Engine)
    (takes : Run → List Candidate → RunState → RunState × Except Fault Unit) (tree : FileTree)
    (caller : Caller) (now : Instant) (isFresh : Bool) (projectId : String) :
    Engine × Except Fault RunFigures :=
  match e.project? projectId with
  | none => (e, .error (.of (.projectNotFound projectId)))
  | some project =>
      match Run.loadRules tree e.ignore project.rootPath with
      | .error f => (e, .error f)
      | .ok (ignore, classifier) =>
          match Run.discover tree caller classifier project.rootPath with
          | .error f => (e, .error f)
          | .ok (candidates, skipped) =>
              let r : Run :=
                { project, isFresh, ignore, started := now, prior := e.projectFiles projectId }
              match openWriter e.index caller with
              | .error f => (e, .error f)
              | .ok index =>
                  let updated := r.updatedProject tree now
                  match r.fillBy caller (takes r candidates)
                    ⟨index, e.parser, [], 0, 0, skipped, 0, []⟩ updated with
                  | (s, .error f) =>
                      ({ e with index := discard s.index, parser := s.parser }, .error f)
                  | (s, .ok ()) =>
                      match s.index.commitUnless caller.refusal now with
                      | (index, .error f) =>
                          ({ e with index, parser := s.parser },
                            .error (f.within "failed to commit index"))
                      | (index, .ok ()) =>
                          ((e.adopt r { s with index } updated).refresh (caller.waits .figures),
                            .ok (r.figures s))

theorem runHeldBy_takeAll (e : Engine) (tree : FileTree) (caller : Caller) (now : Instant)
    (isFresh : Bool) (projectId : String) :
    e.runHeldBy (fun r candidates s => r.takeAll caller s candidates) tree caller now isFresh
        projectId = e.runHeld tree caller now isFresh projectId := by
  unfold runHeldBy runHeld
  rfl

/-- Indexes a project with workers that move in a given order. -/
def runBy (e : Engine) (limit : Nat) (moves : List Move) (tree : FileTree) (caller : Caller)
    (now : Instant) (isFresh : Bool) (projectId : String) : Engine × Except Fault RunFigures :=
  e.locked projectId fun e =>
    e.runHeldBy (fun r candidates s => r.takeAllBy caller limit moves s candidates) tree caller now
      isFresh projectId

/-- The state of a run when it has opened the writer. -/
def begun (e : Engine) (skipped : Nat) : RunState :=
  ⟨{ e.index with queue := some [] }, e.parser, [], 0, 0, skipped, 0, []⟩

/-- The state of a run when its workers begin. -/
def atWork (e : Engine) (r : Run) (skipped : Nat) : RunState :=
  { e.begun skipped with
    index := { e.index with
      queue := some (if r.isFresh then [.deleteProjectDocuments r.project.id] else []) } }

end Engine

namespace Run

variable {r : Run} {caller : Caller} {takes takes' : RunState → RunState × Except Fault Unit}
  {e : Engine} {skipped : Nat} {updated : Project} {s : RunState}

theorem cleared_eq_atWork (h : (if r.isFresh then
      queue (caller.waits .clear) (e.begun skipped) (.deleteProjectDocuments r.project.id)
      else (e.begun skipped, .ok ())) = (s, .ok ())) : s = e.atWork r skipped := by
  by_cases hfresh : r.isFresh = true
  · rw [if_pos hfresh] at h
    rw [queue_eq_ok h]
    simp [Engine.atWork, Engine.begun, Index.enqueue, hfresh]
  · rw [if_neg hfresh] at h
    rw [← (Prod.mk.inj h).1]
    simp [Engine.atWork, Engine.begun, hfresh]

/-- The way of taking up is asked once, in the state in which the workers begin. -/
theorem fillBy_congr (caller : Caller) (updated : Project)
    (htakes : takes (e.atWork r skipped) = takes' (e.atWork r skipped)) :
    r.fillBy caller takes (e.begun skipped) updated =
      r.fillBy caller takes' (e.begun skipped) updated := by
  unfold fillBy
  simp only
  split
  · rfl
  · rename_i s hclear
    rw [cleared_eq_atWork hclear, htakes]

/-- A filled queue, from the outside in. -/
theorem fillBy_eq_ok (h : r.fillBy caller takes (e.begun skipped) updated = (s, .ok ())) :
    ∃ s₁, takes (e.atWork r skipped) = (s₁, .ok ()) ∧
      s = { s₁ with
        index := s₁.index.enqueue ((r.erased s₁).map .deleteFile ++ [.saveProject updated]) } := by
  unfold fillBy at h
  simp only at h
  split at h
  · simp at h
  · rename_i s₀ hclear
    rw [cleared_eq_atWork hclear] at h
    split at h
    · simp at h
    · rename_i s₁ htake
      refine ⟨s₁, htake, ?_⟩
      split at h
      · simp at h
      · rename_i s₂ herase
        split at h
        · simp at h
        · rename_i s₃ hsave
          obtain ⟨rfl, -⟩ := Prod.mk.inj h
          rw [queue_eq_ok hsave, eraseAll_eq_ok herase]
          simp [erased]

end Run

namespace Engine

variable {e e' : Engine} {tree : FileTree} {caller : Caller} {now : Instant} {isFresh : Bool}
  {projectId : String} {r r' : Run} {candidates candidates' : List Candidate}
  {skipped skipped' : Nat}

/-- What a run has found is decided when it begins. -/
theorem Starts.unique (h : e.Starts tree caller now isFresh projectId r candidates skipped)
    (h' : e.Starts tree caller now isFresh projectId r' candidates' skipped') :
    r = r' ∧ candidates = candidates' ∧ skipped = skipped' := by
  obtain ⟨classifier, hrules, hdiscover⟩ := h.found
  obtain ⟨classifier', hrules', hdiscover'⟩ := h'.found
  have hproject : r.project = r'.project := Option.some.inj (h.known.symm.trans h'.known)
  rw [hproject] at hrules hdiscover
  obtain ⟨hignore, hclassifier⟩ := Prod.mk.inj (Except.ok.inj (hrules.symm.trans hrules'))
  rw [hclassifier] at hdiscover
  obtain ⟨hcandidates, hskipped⟩ := Prod.mk.inj (Except.ok.inj (hdiscover.symm.trans hdiscover'))
  refine ⟨?_, hcandidates, hskipped⟩
  cases r with
  | mk project isFresh ignore started prior =>
      cases r' with
      | mk project' isFresh' ignore' started' prior' =>
          have hfresh := h.fresh.trans h'.fresh.symm
          have hstarted := h.started.trans h'.started.symm
          have hprior := h.prior.trans h'.prior.symm
          simp only at hproject hignore hfresh hstarted hprior
          rw [hproject, hignore, hfresh, hstarted, hprior]

variable {takes takes' : Run → List Candidate → RunState → RunState × Except Fault Unit}

/-- A run that is committed, whichever way its candidates are taken up. -/
theorem runHeldBy_eq_ok {figures : RunFigures}
    (h : e.runHeldBy takes tree caller now isFresh projectId = (e', .ok figures)) :
    ∃ r candidates skipped s index,
      e.Starts tree caller now isFresh projectId r candidates skipped ∧
      r.fillBy caller (takes r candidates) (e.begun skipped) (r.updatedProject tree now) =
        (s, .ok ()) ∧
      s.index.commitUnless caller.refusal now = (index, .ok ()) ∧
      e' = (e.adopt r { s with index } (r.updatedProject tree now)).refresh
        (caller.waits .figures) ∧
      figures = r.figures s := by
  unfold runHeldBy at h
  split at h
  · simp at h
  · rename_i project hproject
    split at h
    · simp at h
    · rename_i ignore classifier hrules
      split at h
      · simp at h
      · rename_i candidates skipped hdiscover
        simp only at h
        split at h
        · simp at h
        · rename_i index hopen
          obtain ⟨-, rfl⟩ := openWriter_eq_ok hopen
          split at h
          · simp at h
          · rename_i s hfill
            split at h
            · simp at h
            · rename_i index hcommit
              obtain ⟨rfl, hfigures⟩ := Prod.mk.inj h
              exact ⟨⟨project, isFresh, ignore, now, e.projectFiles projectId⟩, candidates, skipped,
                s, index, ⟨rfl, rfl, hproject, rfl, classifier, hrules, hdiscover⟩, hfill, hcommit,
                rfl, (Except.ok.inj hfigures).symm⟩

/-- Ways of taking up that agree on what a run finds make the same run. -/
theorem runHeldBy_congr (htakes : ∀ r candidates skipped,
      e.Starts tree caller now isFresh projectId r candidates skipped →
        takes r candidates (e.atWork r skipped) = takes' r candidates (e.atWork r skipped)) :
    e.runHeldBy takes tree caller now isFresh projectId =
      e.runHeldBy takes' tree caller now isFresh projectId := by
  unfold runHeldBy
  split
  · rfl
  · rename_i project hproject
    split
    · rfl
    · rename_i ignore classifier hrules
      split
      · rfl
      · rename_i candidates skipped hdiscover
        simp only
        split
        · rfl
        · rename_i index hopen
          obtain ⟨-, rfl⟩ := openWriter_eq_ok hopen
          have hsame := htakes ⟨project, isFresh, ignore, now, e.projectFiles projectId⟩ candidates
            skipped ⟨rfl, rfl, hproject, rfl, classifier, hrules, hdiscover⟩
          have hfill := Run.fillBy_congr caller
            (Run.updatedProject ⟨project, isFresh, ignore, now, e.projectFiles projectId⟩ tree now)
            hsame
          unfold begun at hfill
          rw [hfill]

theorem Starts.of_locks {locks : LockTable}
    (h : ({ e with locks } : Engine).Starts tree caller now isFresh projectId r candidates skipped) :
    e.Starts tree caller now isFresh projectId r candidates skipped :=
  ⟨h.fresh, h.started, h.known, h.prior, h.found⟩

/-- A run that takes up its candidates one by one is one of those with workers. -/
theorem exists_moves_runBy (e : Engine) (tree : FileTree) (caller : Caller) (now : Instant)
    (isFresh : Bool) (projectId : String) {limit : Nat} (hlimit : 0 < limit) :
    ∃ moves, e.runBy limit moves tree caller now isFresh projectId =
      e.locked projectId fun e => e.runHeld tree caller now isFresh projectId := by
  have hmoves : ∃ moves, ∀ r candidates skipped,
      e.Starts tree caller now isFresh projectId r candidates skipped →
        r.takeAllBy caller limit moves (e.atWork r skipped) candidates =
          r.takeAll caller (e.atWork r skipped) candidates := by
    by_cases hstarts : ∃ r candidates skipped,
        e.Starts tree caller now isFresh projectId r candidates skipped
    · obtain ⟨r, candidates, skipped, hstarts⟩ := hstarts
      obtain ⟨moves, hmoves⟩ :=
        Run.exists_moves r caller hlimit (e.atWork r skipped) candidates
      refine ⟨moves, fun r' candidates' skipped' hstarts' => ?_⟩
      obtain ⟨rfl, rfl, rfl⟩ := hstarts.unique hstarts'
      exact hmoves
    · exact ⟨[], fun r candidates skipped h => absurd ⟨r, candidates, skipped, h⟩ hstarts⟩
  obtain ⟨moves, hmoves⟩ := hmoves
  refine ⟨moves, ?_⟩
  unfold runBy locked
  split
  · rfl
  · rename_i locks hlocks
    have hsame : ({ e with locks } : Engine).runHeldBy
        (fun r candidates s => r.takeAllBy caller limit moves s candidates) tree caller now isFresh
          projectId = ({ e with locks } : Engine).runHeld tree caller now isFresh projectId := by
      rw [← runHeldBy_takeAll]
      exact runHeldBy_congr fun r candidates skipped hstarts =>
        hmoves r candidates skipped hstarts.of_locks
    simp only [hsame]

end Engine

end CodeAtlas
