import CodeAtlas.Proofs.Engine.Alone
import CodeAtlas.Proofs.Engine.Turns
import Mathlib.Logic.Relation

/-!
# A job that is alone

Nobody stands in the way of a job that is alone. Step by step it does what the call does that it stands
for, with the same answer.
-/

namespace CodeAtlas

namespace Job

/-- A job gets from one point to another one in its own steps. -/
def Reaches (j : Job) : Engine × Progress → Engine × Progress → Prop :=
  Relation.ReflTransGen fun x y => j.step x.1 x.2 = y

variable {j : Job} {e e' : Engine} {before after : Progress} {x y : Engine × Progress}

/-- Where a job gets in its own steps, the job gets that is alone. -/
theorem Reaches.run (h : j.Reaches x y) (commits stranded : List Job) :
    ∃ n commits' stranded', Bustle.run ⟨x.1, [(j, x.2)], commits, stranded⟩ (List.replicate n 0) =
      ⟨y.1, [(j, y.2)], commits', stranded'⟩ := by
  induction h using Relation.ReflTransGen.head_induction_on generalizing commits stranded with
  | refl => exact ⟨0, commits, stranded, rfl⟩
  | @head x z hstep _ ih =>
      obtain rfl := hstep
      obtain ⟨n, commits', stranded', hrun⟩ := ih
        (if !x.2.isCommitted && (j.step x.1 x.2).2.isCommitted then commits ++ [j] else commits)
        (if x.2.isCommitted && !(j.step x.1 x.2).2.isCommitted then stranded ++ [j] else stranded)
      exact ⟨n + 1, commits', stranded', hrun⟩

end Job

namespace Plan

/-- Where a run is when it has done all its errands. -/
def finished (p : Plan) (e : Engine) : RunState × Except Fault Unit → Engine × Progress
  | (s, .ok ()) => ({ e with index := s.index, parser := s.parser }, .filling p s .commit)
  | (s, .error f) =>
      ({ e with index := Engine.discard s.index, parser := s.parser }, .leaving (.error f))

variable {p : Plan} {j : Job} {e : Engine} {s : RunState} {errand : Errand}

/-- An errand gets a run there from where all others do. -/
theorem reaches_finished_of_next (hmore : errand ≠ .commit)
    (hnext : ∀ s' next, p.proceed j.caller s errand = (s', .ok next) →
      j.Reaches ({ e with index := s'.index, parser := s'.parser }, .filling p s' next)
        (p.finished e (p.finish j.caller s' next))) :
    j.Reaches ({ e with index := s.index, parser := s.parser }, .filling p s errand)
      (p.finished e (p.finish j.caller s errand)) := by
  have hstep := j.step_filling { e with index := s.index, parser := s.parser } p s hmore
  have hsame : s.over s.index s.parser = s := rfl
  dsimp only at hstep
  rw [hsame] at hstep
  rw [p.finish_eq j.caller s errand]
  rcases hproceed : p.proceed j.caller s errand with ⟨s', f | next⟩
  · rw [hproceed] at hstep
    exact .head hstep .refl
  · rw [hproceed] at hstep
    exact .head hstep (hnext s' next hproceed)

theorem reaches_finished_save (p : Plan) (j : Job) (e : Engine) (s : RunState) :
    j.Reaches ({ e with index := s.index, parser := s.parser }, .filling p s .save)
      (p.finished e (p.finish j.caller s .save)) := by
  refine reaches_finished_of_next (by simp) fun s' next hnext => ?_
  have hanswer := (queueThen_eq_ok hnext).1
  split at hanswer
  · obtain rfl := Except.ok.inj hanswer
    exact .refl
  · simp at hanswer

theorem reaches_finished_erase (p : Plan) (j : Job) (e : Engine) (s : RunState) (ids : List String) :
    j.Reaches ({ e with index := s.index, parser := s.parser }, .filling p s (.erase ids))
      (p.finished e (p.finish j.caller s (.erase ids))) := by
  induction ids generalizing s with
  | nil =>
      refine reaches_finished_of_next (by simp) fun s' next hnext => ?_
      obtain ⟨rfl, hanswer⟩ := Prod.mk.inj hnext
      obtain rfl := Except.ok.inj hanswer
      exact p.reaches_finished_save j e s
  | cons id ids ih =>
      refine reaches_finished_of_next (by simp) fun s' next hnext => ?_
      obtain rfl := Except.ok.inj (queueThen_eq_ok hnext).1
      exact ih s'

theorem reaches_finished_take (p : Plan) (j : Job) (e : Engine) (s : RunState)
    (left : List Candidate) :
    j.Reaches ({ e with index := s.index, parser := s.parser }, .filling p s (.take left))
      (p.finished e (p.finish j.caller s (.take left))) := by
  induction left generalizing s with
  | nil =>
      refine reaches_finished_of_next (by simp) fun s' next hnext => ?_
      obtain ⟨rfl, hanswer⟩ := Prod.mk.inj hnext
      split at hanswer
      · obtain rfl := Except.ok.inj hanswer
        exact p.reaches_finished_erase j e s _
      · simp at hanswer
  | cons c left ih =>
      refine reaches_finished_of_next (by simp) fun s' next hnext => ?_
      unfold proceed at hnext
      dsimp only at hnext
      split at hnext
      · obtain ⟨rfl, hanswer⟩ := Prod.mk.inj hnext
        obtain rfl := Except.ok.inj hanswer
        exact ih _
      · simp at hnext

/-- A run that has opened the writer gets through all its errands. -/
theorem reaches_finished (p : Plan) (j : Job) (e : Engine) (s : RunState) :
    j.Reaches ({ e with index := s.index, parser := s.parser }, .filling p s .clear)
      (p.finished e (p.run.fill j.caller s p.candidates p.updated)) := by
  refine reaches_finished_of_next (by simp) fun s' next hnext => ?_
  have hanswer : next = .take p.candidates := by
    unfold proceed at hnext
    dsimp only at hnext
    split at hnext
    · exact (Except.ok.inj (queueThen_eq_ok hnext).1).symm
    · exact (Except.ok.inj (Prod.mk.inj hnext).2).symm
  rw [hanswer]
  exact p.reaches_finished_take j e s' p.candidates

end Plan

namespace Job

variable {j : Job} {e : Engine}

theorem enter_idle (hidle : e.index.queue = none) (before : Progress) (after : Index → Progress) :
    j.enter e before after =
      match Engine.openWriter e.index j.caller with
      | .error f => (e, .leaving (.error f))
      | .ok index => ({ e with index }, after index) := by
  unfold enter
  rw [hidle]
  rfl

/-- A run that has its lock comes to what the call comes to. -/
theorem reaches_runHeld {isFresh : Bool} {tree : FileTree} (hwish : j.wish = .run isFresh tree)
    (hidle : e.index.queue = none) :
    j.Reaches (e, .admitted)
      ((e.runHeld tree j.caller j.now isFresh j.projectId).1,
        .leaving ((e.runHeld tree j.caller j.now isFresh j.projectId).2.map some)) := by
  refine .head (show j.step e .admitted = (e, j.lookUp e) from rfl) ?_
  unfold Engine.runHeld lookUp
  rw [hwish]
  rcases e.project? j.projectId with _ | project
  · exact .refl
  · dsimp only
    rcases Run.loadRules tree e.ignore project.rootPath with f | ⟨ignore, classifier⟩
    · exact .refl
    · dsimp only
      rcases Run.discover tree j.caller classifier project.rootPath with f | ⟨candidates, skipped⟩
      · exact .refl
      · dsimp only
        let r : Run :=
          { project, isFresh, ignore, started := j.now, prior := e.projectFiles j.projectId }
        let p : Plan := ⟨r, candidates, skipped, r.updatedProject tree j.now⟩
        have henter : j.step e (.ready p) =
            match Engine.openWriter e.index j.caller with
            | .error f => (e, .leaving (.error f))
            | .ok index => ({ e with index }, .filling p (p.begun index e.parser) .clear) :=
          enter_idle hidle _ _
        refine .head henter ?_
        rcases Engine.openWriter e.index j.caller with f | index
        · exact .refl
        · have hfinished := p.reaches_finished j { e with index } (p.begun index e.parser)
          refine hfinished.trans ?_
          dsimp only
          change j.Reaches (p.finished { e with index }
            (r.fill j.caller ⟨index, e.parser, [], 0, 0, skipped, 0, []⟩ candidates
              (r.updatedProject tree j.now))) _
          rcases r.fill j.caller ⟨index, e.parser, [], 0, 0, skipped, 0, []⟩ candidates
              (r.updatedProject tree j.now) with ⟨s, f | ⟨⟨⟩⟩⟩
          · exact .refl
          · dsimp only
            rcases hcommit : s.index.commitUnless j.caller.refusal j.now with ⟨index', f | ⟨⟨⟩⟩⟩
            · exact .single (commit_of_error hcommit _ _)
            · exact .head (commit_of_ok hcommit _ _) (.head rfl (.single rfl))

/-- A removal that has its lock comes to what the call comes to. -/
theorem reaches_removeHeld (hwish : j.wish = .removal) (hidle : e.index.queue = none) :
    j.Reaches (e, .admitted)
      ((e.removeHeld j.caller j.now j.projectId).1,
        .leaving ((e.removeHeld j.caller j.now j.projectId).2.map fun _ => none)) := by
  refine .head (show j.step e .admitted = (e, j.lookUp e) from rfl) ?_
  unfold Engine.removeHeld lookUp
  rw [hwish]
  rcases e.project? j.projectId with _ | project
  · exact .refl
  · dsimp only
    refine .head (enter_idle hidle _ _) ?_
    rcases hopen : Engine.openWriter e.index j.caller with f | index
    · exact .refl
    · obtain ⟨-, rfl⟩ := Engine.openWriter_eq_ok hopen
      have hclosed := Engine.discard_of_openWriter hopen
      by_cases hclear : j.caller.waits .clear = true
      · have hsubmit : j.step { e with index := { e.index with queue := some [] } } .emptying =
            ({ e with index := { e.index with
              queue := some [.deleteProjectDocuments j.projectId] } }, .emptied) := by
          simp [step, hclear, Index.submit]
        refine .head hsubmit ?_
        simp only [hclear, Bool.not_true, Bool.false_eq_true, ↓reduceIte, Index.submit, List.nil_append]
        rcases hcommit : ({ e.index with
            queue := some [.deleteProjectDocuments j.projectId] } : Index).commitUnless
              j.caller.refusal j.now with ⟨index, f | ⟨⟨⟩⟩⟩
        · exact .single (commit_of_error hcommit _ _)
        · refine .head (commit_of_ok hcommit _ _) ?_
          dsimp only
          rcases hdelete : index.deleteProject (j.caller.waits .deleteProject) j.projectId with f | last
          · by_cases hmissing : (f.cause == .notFound) = true
            · have hbare : j.step { e with index } .bare = ({ e with index }, .rowless) := by
                simp [step, hdelete, hmissing]
              simp only [if_pos hmissing]
              exact .head hbare (.head rfl (.single rfl))
            · have hbare : j.step { e with index } .bare = ({ e with index },
                  .leaving (.error (f.within "failed to remove project"))) := by
                simp [step, hdelete, hmissing]
              simp only [if_neg hmissing]
              exact .single hbare
          · have hbare : j.step { e with index } .bare = ({ e with index := last }, .rowless) := by
              simp [step, hdelete]
            exact .head hbare (.head rfl (.single rfl))
      · have hgivesUp : j.step { e with index := { e.index with queue := some [] } } .emptying =
            ({ e with index := e.index }, .leaving (.error (.of .canceled))) := by
          simp [step, hclear, hclosed]
        simp only [hclear, Bool.not_false, ↓reduceIte]
        exact .single hgivesUp

/-- A job that is alone does in its steps what the call does, with the same answer. -/
theorem reaches_perform (j : Job) (hidle : e.index.queue = none) :
    j.Reaches (e, .begun) ((j.perform e).1, .gone (j.perform e).2) := by
  have hlocked {α : Type} {call : Engine → Engine × Except Fault α} {tell : α → Option RunFigures}
      (hperform : j.perform e =
        ((e.locked j.projectId call).1, (e.locked j.projectId call).2.map tell))
      (hcall : ∀ e : Engine, e.index.queue = none →
        j.Reaches (e, .admitted) ((call e).1, .leaving ((call e).2.map tell))) :
      j.Reaches (e, .begun) ((j.perform e).1, .gone (j.perform e).2) := by
    rw [hperform]
    unfold Engine.locked
    rcases hacquire : e.locks.acquire j.projectId with ⟨locks, _ | _⟩
    · refine .single ?_
      simp [step, hacquire, Except.map]
    · have hbegun : j.step e .begun = ({ e with locks }, .admitted) := by
        simp [step, hacquire]
      exact .head hbegun ((hcall { e with locks } hidle).tail rfl)
  cases hwish : j.wish with
  | run isFresh tree =>
      exact hlocked (Engine.perform_run_eq hwish e) fun e hidle => reaches_runHeld hwish hidle
  | removal =>
      exact hlocked (Engine.perform_removal_eq hwish e) fun e hidle => reaches_removeHeld hwish hidle

end Job

/-- Taken alone, the steps of a job are the call. -/
theorem Bustle.run_alone {e : Engine} (hidle : e.index.queue = none) (j : Job) :
    ∃ n, ((start e [j]).run (List.replicate n 0)).engine = (j.perform e).1 ∧
      ((start e [j]).run (List.replicate n 0)).posts = [(j, .gone (j.perform e).2)] := by
  obtain ⟨n, commits, stranded, hrun⟩ := (j.reaches_perform hidle).run [] []
  refine ⟨n, ?_, ?_⟩
  · exact congrArg Bustle.engine hrun
  · exact congrArg Bustle.posts hrun

end CodeAtlas
