import CodeAtlas.Proofs.Engine.Errands

/-!
# Jobs that are underway at once

Callers want projects indexed and removed at the same time. Each job takes its steps, and between any two
of them the others take theirs: it takes the lock of its project or is turned away, looks up what is
known, waits until nobody else writes, queues its changes one by one, commits them, makes them known in
memory, and gives the lock back.
-/

namespace CodeAtlas

/-- What a caller wants for a project. -/
inductive Wish where
  | run (isFresh : Bool) (tree : FileTree)
  | removal

structure Job where
  projectId : String
  wish : Wish
  caller : Caller
  now : Instant

/-- What a caller is told: the figures of a run, or that the project is gone. -/
abbrev Answer := Except Fault (Option RunFigures)

/-- How far a job has come. -/
inductive Progress where
  | begun
  | admitted
  -- a run, before it has the writer, with the writer, and when it is committed
  | ready (p : Plan)
  | filling (p : Plan) (s : RunState) (errand : Errand)
  | committed (p : Plan) (s : RunState)
  -- a removal, likewise; its documents go first, then its row, and then it is forgotten
  | found
  | emptying
  | emptied
  | bare
  | rowless
  -- all is done but the look at the figures, and but giving back the lock
  | settled (figures : Option RunFigures)
  | leaving (answer : Answer)
  | gone (answer : Answer)

namespace Progress

/-- Whether the job holds the lock of its project. -/
def holds : Progress → Bool
  | begun => false
  | gone _ => false
  | _ => true

/-- Whether the job has the writer. -/
def writes : Progress → Bool
  | filling .. => true
  | emptying => true
  | emptied => true
  | _ => false

/-- Whether the changes of the job have been made. -/
def isCommitted : Progress → Bool
  | committed .. => true
  | bare => true
  | rowless => true
  | settled _ => true
  | leaving answer => answer.isOk
  | gone answer => answer.isOk
  | _ => false

end Progress

namespace Job

/-- The job as one call of the engine. -/
def perform (j : Job) (e : Engine) : Engine × Answer :=
  match j.wish with
  | .run isFresh tree =>
      let (e, answer) :=
        if isFresh then e.reindexProject tree j.caller j.now j.projectId
        else e.indexProject tree j.caller j.now j.projectId
      (e, answer.map some)
  | .removal =>
      let (e, answer) := e.removeProject j.caller j.now j.projectId
      (e, answer.map fun _ => none)

/-- Looks up the project, and for a run what there is to do. -/
def lookUp (j : Job) (e : Engine) : Progress :=
  match e.project? j.projectId with
  | none => .leaving (.error (.of (.projectNotFound j.projectId)))
  | some project =>
      match j.wish with
      | .removal => .found
      | .run isFresh tree =>
          match Run.loadRules tree e.ignore project.rootPath with
          | .error f => .leaving (.error f)
          | .ok (ignore, classifier) =>
              match Run.discover tree j.caller classifier project.rootPath with
              | .error f => .leaving (.error f)
              | .ok (candidates, skipped) =>
                  let r : Run :=
                    { project, isFresh, ignore, started := j.now
                      prior := e.projectFiles j.projectId }
                  .ready ⟨r, candidates, skipped, r.updatedProject tree j.now⟩

/-- Opens the writer; while another job has it, a caller who waits stays where he is. -/
def enter (j : Job) (e : Engine) (before : Progress) (after : Index → Progress) :
    Engine × Progress :=
  if e.index.queue.isSome && j.caller.waits .openWriter then (e, before)
  else
    match Engine.openWriter e.index j.caller with
    | .error f => (e, .leaving (.error f))
    | .ok index => ({ e with index }, after index)

/-- Commits what is queued. -/
def commit (j : Job) (e : Engine) (context : String) (after : Progress) : Engine × Progress :=
  match e.index.commitUnless j.caller.refusal j.now with
  | (index, .error f) => ({ e with index }, .leaving (.error (f.within context)))
  | (index, .ok ()) => ({ e with index }, after)

/-- The next step of a job. -/
def step (j : Job) (e : Engine) : Progress → Engine × Progress
  | .begun =>
      match e.locks.acquire j.projectId with
      | (_, false) => (e, .gone (.error (.of .indexingInProgress)))
      | (locks, true) => ({ e with locks }, .admitted)
  | .admitted => (e, j.lookUp e)
  | .ready p => j.enter e (.ready p) fun index => .filling p (p.begun index e.parser) .clear
  | .filling p s .commit => j.commit e "failed to commit index" (.committed p s)
  | .filling p s errand =>
      match p.proceed j.caller (s.over e.index e.parser) errand with
      | (s, .ok errand) => ({ e with index := s.index, parser := s.parser }, .filling p s errand)
      | (s, .error f) =>
          ({ e with index := Engine.discard s.index, parser := s.parser }, .leaving (.error f))
  | .committed p s =>
      (e.adopt p.run (s.over e.index e.parser) p.updated, .settled (some (p.run.figures s)))
  | .found => j.enter e .found fun _ => .emptying
  | .emptying =>
      if !j.caller.waits .clear then
        ({ e with index := Engine.discard e.index }, .leaving (.error (.of .canceled)))
      else
        match e.index.submit (.deleteProjectDocuments j.projectId) with
        | .error f => ({ e with index := Engine.discard e.index }, .leaving (.error f))
        | .ok index => ({ e with index }, .emptied)
  | .emptied => j.commit e "failed to remove project documents" .bare
  | .bare =>
      match e.index.deleteProject (j.caller.waits .deleteProject) j.projectId with
      | .ok index => ({ e with index }, .rowless)
      | .error f =>
          if f.cause == .notFound then (e, .rowless)
          else (e, .leaving (.error (f.within "failed to remove project")))
  | .rowless =>
      ({ e.forget j.projectId with generation := e.generation + 1, lastUpdate := j.now },
        .settled none)
  | .settled figures => (e.refresh (j.caller.waits .figures), .leaving (.ok figures))
  | .leaving answer => ({ e with locks := e.locks.release j.projectId }, .gone answer)
  | .gone answer => (e, .gone answer)

/-- Short of the commit a run does its next errand. -/
theorem step_filling (j : Job) (e : Engine) (p : Plan) (s : RunState) {errand : Errand}
    (hmore : errand ≠ .commit) : j.step e (.filling p s errand) =
      match p.proceed j.caller (s.over e.index e.parser) errand with
      | (s, .ok errand) => ({ e with index := s.index, parser := s.parser }, .filling p s errand)
      | (s, .error f) =>
          ({ e with index := Engine.discard s.index, parser := s.parser }, .leaving (.error f)) := by
  cases errand with
  | commit => exact absurd rfl hmore
  | _ => rfl

end Job

/-- An engine with the jobs that callers want of it, the jobs that were committed, in the order in which
they were, and those that failed afterwards. -/
structure Bustle where
  engine : Engine
  posts : List (Job × Progress)
  commits : List Job
  stranded : List Job

namespace Bustle

def start (e : Engine) (jobs : List Job) : Bustle := ⟨e, jobs.map (·, .begun), [], []⟩

/-- A job takes its next step. -/
def step (b : Bustle) (i : Nat) : Bustle :=
  match b.posts[i]? with
  | none => b
  | some (job, progress) =>
      let (engine, next) := job.step b.engine progress
      { engine
        posts := b.posts.set i (job, next)
        commits :=
          if !progress.isCommitted && next.isCommitted then b.commits ++ [job] else b.commits
        stranded :=
          if progress.isCommitted && !next.isCommitted then b.stranded ++ [job] else b.stranded }

/-- The jobs take their steps in a given order. -/
def run (b : Bustle) (moves : List Nat) : Bustle := moves.foldl step b

/-- The jobs that are underway, behind the locks of their projects. -/
def holders (b : Bustle) : List Job := (b.posts.filter (·.2.holds)).map (·.1)

/-- The jobs that have succeeded. -/
def succeeded (b : Bustle) : List Job :=
  b.posts.filterMap fun
    | (job, .gone (.ok _)) => some job
    | _ => none

end Bustle

namespace Engine

/-- The engine after jobs that all succeed, one after the other. -/
def after? (e : Engine) : List Job → Option Engine
  | [] => some e
  | j :: rest =>
      match j.perform e with
      | (e, .ok _) => e.after? rest
      | (_, .error _) => none

end Engine

end CodeAtlas
