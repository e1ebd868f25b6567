import CodeAtlas.Proofs.Engine.Lone
import CodeAtlas.Proofs.Engine.Reachable

/-!
# Registrations among jobs

A registration takes no lock. It looks for its root in memory, inserts a row, reads the row that is in the
way if there is one, and sets in memory what it then has in hand; between any two of these steps others
take theirs. What it has in hand may be out of date by then, and what a run has noted in the record since
is lost, although it is in the row.
-/

namespace CodeAtlas

structure Registration where
  tree : FileTree
  live : Bool
  now : Instant
  name : String
  path : String
  description : String

/-- How far a registration has come. -/
inductive Enrolment where
  | begun
  -- memory does not know the root, so there is a new project
  | minted (p : Project)
  -- the index has a row that is in the way
  | blocked (f : Fault)
  -- the record that memory will have
  | inHand (p : Project)
  | gone (answer : Except Fault String)

namespace Enrolment

def isUnderway : Enrolment → Bool
  | begun => false
  | gone _ => false
  | _ => true

/-- The identifier that the caller was told. -/
def id? : Enrolment → Option String
  | gone (.ok id) => some id
  | _ => none

end Enrolment

namespace Registration

def root (r : Registration) : String := r.tree.absolute r.path

def newProject (r : Registration) (id : String) : Project :=
  Engine.newProject r.tree r.now id r.name r.root r.description

/-- The next step of a registration. -/
def step (r : Registration) (e : Engine) : Enrolment → Engine × Enrolment
  | .begun =>
      match Engine.checkRoot r.tree r.root with
      | .error f => (e, .gone (.error f))
      | .ok () =>
          match e.projects.find? (·.rootPath == r.root) with
          | some known => (e, .gone (.ok known.id))
          | none =>
              ({ e with minted := e.minted + 1 },
                .minted (r.newProject (Uuid.ofCounter (e.minted + 1)).toString))
  | .minted p =>
      match e.index.createProject r.live r.now p with
      | .ok index => ({ e with index }, .inHand p)
      | .error f =>
          if f.cause == .alreadyExists then (e, .blocked f)
          else (e, .gone (.error (f.within "failed to register project")))
  | .blocked f =>
      match e.index.projectByPath r.live r.root with
      | .ok known => (e, .inHand known)
      | .error _ => (e, .gone (.error (f.within "failed to register project")))
  | .inHand p => ({ e with projects := Engine.setProject e.projects p }, .gone (.ok p.id))
  | .gone answer => (e, .gone answer)

def perform (r : Registration) (e : Engine) : Engine × Except Fault String :=
  e.addProject r.tree r.live r.now r.name r.path r.description

theorem perform_eq (r : Registration) (e : Engine) : r.perform e =
    match Engine.checkRoot r.tree r.root with
    | .error f => (e, .error f)
    | .ok () =>
        match e.projects.find? (·.rootPath == r.root) with
        | some known => (e, .ok known.id)
        | none =>
            let e := { e with minted := e.minted + 1 }
            let p := r.newProject (Uuid.ofCounter e.minted).toString
            match e.index.createProject r.live r.now p with
            | .ok index => ({ e with index, projects := Engine.setProject e.projects p }, .ok p.id)
            | .error f =>
                match f.cause, e.index.projectByPath r.live r.root with
                | .alreadyExists, .ok known =>
                    ({ e with projects := Engine.setProject e.projects known }, .ok known.id)
                | _, _ => (e, .error (f.within "failed to register project")) := by
  unfold perform Engine.addProject
  rfl

/-- A registration that is alone does in its steps what the call does, with the same answer. -/
theorem steps_alone (r : Registration) (e : Engine) :
    (fun x => r.step x.1 x.2)^[4] (e, .begun) = ((r.perform e).1, .gone (r.perform e).2) := by
  simp only [Function.iterate_succ, Function.iterate_zero, Function.comp_apply, id_eq]
  rw [perform_eq]
  rcases hcheck : Engine.checkRoot r.tree r.root with f | ⟨⟨⟩⟩
  · simp [step.eq_def, hcheck]
  rcases hknown : e.projects.find? (·.rootPath == r.root) with _ | known
  · rcases hcreate : e.index.createProject r.live r.now
        (r.newProject (Uuid.ofCounter (e.minted + 1)).toString) with f | index
    · rcases hread : e.index.projectByPath r.live r.root with fault | known
      · by_cases hthere : f.cause = .alreadyExists
        · simp [step.eq_def, hcheck, hknown, hcreate, hthere, hread]
        · simp [step.eq_def, hcheck, hknown, hcreate, hthere]
      · by_cases hthere : f.cause = .alreadyExists
        · simp [step.eq_def, hcheck, hknown, hcreate, hthere, hread]
        · simp [step.eq_def, hcheck, hknown, hcreate, hthere]
    · simp [step.eq_def, hcheck, hknown, hcreate]
  · simp [step.eq_def, hcheck, hknown]

end Registration

/-- Jobs and registrations that are underway at once. -/
structure Throng where
  bustle : Bustle
  newcomers : List (Registration × Enrolment)

/-- Whose turn it is. -/
inductive Turn where
  | work (i : Nat)
  | enrol (i : Nat)

namespace Throng

def engine (t : Throng) : Engine := t.bustle.engine

def start (e : Engine) (jobs : List Job) (registrations : List Registration) : Throng :=
  ⟨.start e jobs, registrations.map (·, .begun)⟩

def step (t : Throng) : Turn → Throng
  | .work i => { t with bustle := t.bustle.step i }
  | .enrol i =>
      match t.newcomers[i]? with
      | none => t
      | some (r, progress) =>
          let (engine, next) := r.step t.engine progress
          { bustle := { t.bustle with engine }
            newcomers := t.newcomers.set i (r, next) }

def run (t : Throng) (turns : List Turn) : Throng := turns.foldl step t

/-- Nobody is underway. -/
def isQuiet (t : Throng) : Bool :=
  t.bustle.posts.all (!·.2.holds) && t.newcomers.all (!·.2.isUnderway)

end Throng

namespace Engine

def recordAt (e : Engine) (root : String) : Option Project :=
  e.projects.find? (·.rootPath == root)

end Engine

def Database.rowAt (db : Database) (root : String) : Option Project :=
  (db.projects.find? (·.project.rootPath == root)).map (·.project)

def sampleRegistration : Registration where
  tree := Engine.sampleTree "\n"
  live := true
  now := ⟨10, 0, false⟩
  name := "sample"
  path := "/"
  description := ""

def sampleJob : Job where
  projectId := Engine.sampleId
  wish := .run false (Engine.sampleTree "\n")
  caller := .patient
  now := ⟨20, 0, false⟩

/-- Both registrations find no record; the first one comes to its end, the second one reads the row of the
first one, the job is done from start to end, and only then the second registration sets the record. -/
def lateTurns : List Turn :=
  [.enrol 0, .enrol 1, .enrol 0, .enrol 0, .enrol 1, .enrol 1] ++ List.replicate 12 (.work 0) ++
    [.enrol 1]

/-- Nobody is underway any more and both registrations have given the same identifier, but memory has a
record that is not indexed, and the index a row that is. -/
theorem late_registration_overwrites_record :
    ((Engine.restore .bare (.new .standard none) .new 0 true).map fun e =>
      let t := (Throng.start e [sampleJob] [sampleRegistration, sampleRegistration]).run lateTurns
      (t.isQuiet, t.newcomers.map (·.2.id?), (t.engine.recordAt "/").map (·.indexed),
        (t.engine.index.database.rowAt "/").map (·.indexed))).toOption =
      some (true, [some Engine.sampleId, some Engine.sampleId], some false, some true) := by
  rw [Engine.restore_new]
  decide +kernel

end CodeAtlas
