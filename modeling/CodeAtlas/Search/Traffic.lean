import CodeAtlas.Engine.Caller
import CodeAtlas.Search.Searcher

/-!
Searches beside calls that change the index.  A search looks into what the searcher keeps, notes the
generation of the index, asks the index, and keeps the answer.  A call that changes the index commits
and then counts the generation up.  Between any two of these steps others may take theirs.
-/

namespace CodeAtlas

inductive SearchStage where
  | begun
  | found (kept : KeptResponse)
  | outdated
  | missed
  | noted (generation : Nat)
  | answered (generation : Nat) (response : SearchResponse)
  | ended (outcome : Except Fault (SearchResponse × Bool))

namespace SearchStage

def next (s : Searcher) (ix : Index) (generation : Nat) (now : Instant) (live : Bool)
    (r : SearchRequest) : SearchStage → Searcher × SearchStage
  | begun =>
      match (if r.useCache then s.cache.peek? r.key else none) with
      | none => (s, missed)
      | some kept => (⟨s.cache.touch r.key⟩, found kept)
  | found kept =>
      if kept.expiresAt.before now || kept.generation != generation then (s, outdated)
      else (s, ended (.ok (kept.response, true)))
  | outdated => (⟨s.cache.erase r.key⟩, missed)
  | missed => (s, noted generation)
  | noted noticed =>
      match Searcher.answer ix live r with
      | .error f => (s, ended (.error f))
      | .ok response => (s, answered noticed response)
  | answered noticed response =>
      (if r.useCache && response.total > 0 then s.keep now noticed r response else s,
        ended (.ok (response, false)))
  | ended outcome => (s, ended outcome)

def outcome? : SearchStage → Option (Except Fault (SearchResponse × Bool))
  | ended outcome => some outcome
  | _ => none

end SearchStage

inductive ChangeTask where
  | run (ops : List WriteOp)
  | removal (projectId : String)

/-- How far a call has come.  The states of the index are numbered as they are committed; a call that
is through with the index has the number of the state it left. -/
inductive ChangeStage where
  | begun
  | cleared
  | committed (state : Nat)
  | counted (state : Nat)
  | returned (state : Nat)
  | failed
  deriving DecidableEq, Repr

namespace ChangeStage

/-- The state that a call has left that is through with the index. -/
def left? : ChangeStage → Option Nat
  | committed state => some state
  | counted state => some state
  | returned state => some state
  | _ => none

/-- The state that a call has left whose change is counted. -/
def counted? : ChangeStage → Option Nat
  | counted state => some state
  | returned state => some state
  | _ => none

/-- The state that a call has left that has returned without a fault. -/
def returned? : ChangeStage → Option Nat
  | returned state => some state
  | _ => none

end ChangeStage

/-- A search with the states that were left by the calls that had returned when it began. -/
structure OngoingSearch where
  request : SearchRequest
  live : Bool
  before : List Nat
  stage : SearchStage

/-- A search as it begins; a request that is not valid ends it at once. -/
def OngoingSearch.ofRequest (r : SearchRequest) (live : Bool) (before : List Nat) : OngoingSearch :=
  match r.validated with
  | .error f => ⟨r, live, before, .ended (.error f)⟩
  | .ok r => ⟨r, live, before, .begun⟩

structure OngoingChange where
  task : ChangeTask
  caller : Caller
  stage : ChangeStage

/-- A searcher and an index with its generation, its earlier states, and all searches and changes so
far. -/
structure Traffic where
  searcher : Searcher
  generation : Nat
  index : Index
  past : List Index
  searches : List OngoingSearch
  changes : List OngoingChange

inductive TrafficStep where
  | search (r : SearchRequest) (live : Bool)
  | advance (i : Nat) (now : Instant)
  | change (task : ChangeTask) (caller : Caller)
  | proceed (j : Nat) (now : Instant)

namespace Traffic

def start (index : Index) (generation : Nat) : Traffic := ⟨.new, generation, index, [], [], []⟩

def states (t : Traffic) : List Index := t.past ++ [t.index]

def latest (t : Traffic) : Nat := t.past.length

def counted (t : Traffic) : List Nat := t.changes.filterMap (·.stage.counted?)

def returned (t : Traffic) : List Nat := t.changes.filterMap (·.stage.returned?)

def moveOn (t : Traffic) (index : Index) : Traffic := { t with past := t.past ++ [t.index], index }

/-- Makes all changes of a writer at once. -/
def write (t : Traffic) (caller : Caller) (now : Instant) (ops : List WriteOp) : Option Traffic :=
  match ({ t.index with queue := some ops } : Index).commitUnless caller.refusal now with
  | (index, .ok ()) => some (t.moveOn index)
  | (_, .error _) => none

/-- The next step of a call.  A removal commits twice: first the documents go, then the row. -/
def next (t : Traffic) (now : Instant) (task : ChangeTask) (caller : Caller) :
    ChangeStage → Traffic × ChangeStage
  | .begun =>
      match task with
      | .run ops => match t.write caller now ops with
        | some t => (t, .committed t.latest)
        | none => (t, .failed)
      | .removal id => match t.write caller now [.deleteProjectDocuments id] with
        | some t => (t, .cleared)
        | none => (t, .failed)
  | .cleared =>
      match task with
      | .run _ => (t, .failed)
      | .removal id =>
        match t.index.deleteProject (caller.waits .deleteProject) id with
        | .ok index => (t.moveOn index, .committed (t.moveOn index).latest)
        | .error f => (t, if f.cause == .notFound then .committed t.latest else .failed)
  | .committed state => ({ t with generation := t.generation + 1 }, .counted state)
  | .counted state => (t, .returned state)
  | stage => (t, stage)

def begin (t : Traffic) (r : SearchRequest) (live : Bool) : Traffic :=
  { t with searches := t.searches ++ [.ofRequest r live t.returned] }

def step (t : Traffic) : TrafficStep → Traffic
  | .search r live => t.begin r live
  | .advance i now =>
      match t.searches[i]? with
      | none => t
      | some s =>
          let (searcher, stage) := s.stage.next t.searcher t.index t.generation now s.live s.request
          { t with searcher, searches := t.searches.set i { s with stage } }
  | .change task caller => { t with changes := t.changes ++ [⟨task, caller, .begun⟩] }
  | .proceed j now =>
      match t.changes[j]? with
      | none => t
      | some c =>
          let (t, stage) := t.next now c.task c.caller c.stage
          { t with changes := t.changes.set j { c with stage } }

def outcome? (t : Traffic) (i : Nat) : Option (Except Fault (SearchResponse × Bool)) :=
  t.searches[i]?.bind (·.stage.outcome?)

def run (t : Traffic) (steps : List TrafficStep) : Traffic := steps.foldl step t

end Traffic

end CodeAtlas
