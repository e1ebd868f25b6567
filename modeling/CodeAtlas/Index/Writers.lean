import CodeAtlas.Index.Store

/-!
The writers of the index beside each other.  Who opens a writer takes the token of the writer slot, of
which there is one, and begins a transaction.  Any number of callers submit changes; one worker makes
them in the order in which they were accepted.  Who commits or rolls back marks the writer, waits until
the worker is through with the queue, ends the transaction and gives the token back.  Between any two of
these steps others may take theirs.
-/

namespace CodeAtlas

structure Ticket where
  call : Nat
  op : WriteOp
  deriving DecidableEq, Repr

/-- How far a writer has come.  From `opening` to `ended` it has a token. -/
inductive WriterStage where
  | opening
  | refused
  | accepting
  | marked
  | ended
  | closed
  deriving DecidableEq, Repr

namespace WriterStage

def hasToken : WriterStage → Bool
  | opening | accepting | marked | ended => true
  | refused | closed => false

def isMarked : WriterStage → Bool
  | marked | ended | closed => true
  | opening | refused | accepting => false

def isOpened (s : WriterStage) : Bool := s == accepting || s.isMarked

def isOver : WriterStage → Bool
  | ended | closed => true
  | _ => false

end WriterStage

/-- A writer: the tables as they were when it began and as its transaction has them, or the first
failure; its queue, and what its worker has in hand.  For the record it has all changes it accepted,
those its worker is through with, and the call that marked it. -/
structure Writer where
  stage : WriterStage
  base : Database
  state : Except Fault Database
  queue : List Ticket
  hand : Option Ticket
  accepted : List Ticket
  handled : List Ticket
  closer : Option Nat

namespace Writer

def queueSize : Nat := 64

def opening (db : Database) : Writer := ⟨.opening, db, .ok db, [], none, [], [], none⟩

def accept (w : Writer) (t : Ticket) : Writer :=
  { w with queue := w.queue ++ [t], accepted := w.accepted ++ [t] }

/-- The worker is done with what it has in hand: once something has failed it only empties the
queue. -/
def handle (w : Writer) (clock : Nat → Instant) (t : Ticket) : Writer :=
  { w with
    hand := none
    handled := w.handled ++ [t]
    state := match w.state with
      | .ok db => db.write (clock t.call) t.op
      | .error f => .error f }

def isDrained (w : Writer) : Bool := w.queue.isEmpty && w.hand.isNone

end Writer

inductive WriterRequest where
  | submit (op : WriteOp)
  | commit
  | rollback
  deriving DecidableEq, Repr

/-- How far a call has come.  A submission is `inside` and `leaving` while it keeps the writer from
being marked. -/
inductive CallPhase where
  | waiting
  | inside
  | leaving (answer : Except Fault Unit)
  | draining
  | ended (answer : Except Fault Unit)
  | returned (answer : Except Fault Unit)

def CallPhase.keepsOpen : CallPhase → Bool
  | inside | leaving _ => true
  | _ => false

/-- A call, and whether the writer had been marked when it was made. -/
structure WriterCall where
  writer : Nat
  request : WriterRequest
  late : Bool
  phase : CallPhase

/-- The end of a transaction: the call that ended it, the committed tables before and after, and the
answer. -/
structure WriterEnd where
  call : Nat
  before : Database
  after : Database
  answer : Except Fault Unit

def closedAnswer : Except Fault Unit := .error (.of .writerClosed)

def Writer.ending (w : Writer) (n : Nat) (request : WriterRequest) (committed : Database)
    (refusal : Option Cause) : WriterEnd :=
  match request with
  | .commit =>
      match w.state with
      | .error f => ⟨n, committed, committed, .error (f.within "index write failed")⟩
      | .ok db =>
          match refusal with
          | some cause => ⟨n, committed, committed, .error ⟨["failed to commit index"], cause⟩⟩
          | none => ⟨n, committed, db, .ok ()⟩
  | _ =>
      match refusal with
      | some cause => ⟨n, committed, committed, .error (.of cause)⟩
      | none => ⟨n, committed, committed, .ok ()⟩

/-- The committed tables, the tokens in the writer slot, all writers and calls so far, and all ends of
transactions in their order. -/
structure Writers where
  committed : Database
  slot : Nat
  writers : List Writer
  calls : List WriterCall
  ends : List WriterEnd

/-- One step of somebody: of who opens a writer, of a call, or of a worker. -/
inductive WriterStep where
  | acquire
  | begin (i : Nat) (fails : Bool)
  | call (i : Nat) (request : WriterRequest)
  | enter (n : Nat)
  | send (n : Nat)
  | giveUp (n : Nat) (cause : Cause)
  | leave (n : Nat)
  | takeUp (i : Nat)
  | handle (i : Nat)
  | finish (n : Nat) (refusal : Option Cause)
  | release (n : Nat)

namespace Writers

def start (db : Database) : Writers := ⟨db, 0, [], [], []⟩

def slotSize : Nat := 1

def isKeptOpen (m : Writers) (i : Nat) : Bool :=
  m.calls.any fun c => c.writer == i && c.phase.keepsOpen

def setWriter (m : Writers) (i : Nat) (w : Writer) : Writers :=
  { m with writers := m.writers.set i w }

def update (m : Writers) (n : Nat) (c : WriterCall) (w : Writer) (phase : CallPhase) : Writers :=
  { m with writers := m.writers.set c.writer w, calls := m.calls.set n { c with phase } }

def withWriter (m : Writers) (i : Nat) (act : Writer → Writers) : Writers :=
  match m.writers[i]? with
  | some w => act w
  | none => m

def withCall (m : Writers) (n : Nat) (act : WriterCall → Writer → Writers) : Writers :=
  match m.calls[n]? with
  | some c => m.withWriter c.writer (act c)
  | none => m

def acquire (m : Writers) : Writers :=
  if m.slot < slotSize then
    { m with slot := m.slot + 1, writers := m.writers ++ [.opening m.committed] }
  else m

def begin (m : Writers) (i : Nat) (fails : Bool) : Writers :=
  m.withWriter i fun w =>
    if w.stage = .opening then
      if fails then { m.setWriter i { w with stage := .refused } with slot := m.slot - 1 }
      else m.setWriter i { w with stage := .accepting, base := m.committed, state := .ok m.committed }
    else m

def call (m : Writers) (i : Nat) (request : WriterRequest) : Writers :=
  m.withWriter i fun w =>
    if w.stage.isOpened then
      { m with calls := m.calls ++ [⟨i, request, w.stage.isMarked, .waiting⟩] }
    else m

/-- A call looks at the mark.  A submission keeps the writer open from here on; the others mark it as
soon as nobody keeps it open. -/
def enter (m : Writers) (n : Nat) : Writers :=
  m.withCall n fun c w =>
    match c.phase with
    | .waiting =>
        if w.stage.isMarked then m.update n c w (.returned closedAnswer)
        else
          match c.request with
          | .submit _ => m.update n c w .inside
          | _ =>
              if m.isKeptOpen c.writer then m
              else m.update n c { w with stage := .marked, closer := some n } .draining
    | _ => m

def send (m : Writers) (n : Nat) : Writers :=
  m.withCall n fun c w =>
    match c.phase, c.request with
    | .inside, .submit op =>
        if w.queue.length < Writer.queueSize then
          m.update n c (w.accept ⟨n, op⟩) (.leaving (.ok ()))
        else m
    | _, _ => m

def giveUp (m : Writers) (n : Nat) (cause : Cause) : Writers :=
  m.withCall n fun c w =>
    match c.phase with
    | .inside => m.update n c w (.leaving (.error (.of cause)))
    | _ => m

def leave (m : Writers) (n : Nat) : Writers :=
  m.withCall n fun c w =>
    match c.phase with
    | .leaving answer => m.update n c w (.returned answer)
    | _ => m

def takeUp (m : Writers) (i : Nat) : Writers :=
  m.withWriter i fun w =>
    match w.hand, w.queue with
    | none, t :: rest => m.setWriter i { w with hand := some t, queue := rest }
    | _, _ => m

def handle (m : Writers) (clock : Nat → Instant) (i : Nat) : Writers :=
  m.withWriter i fun w =>
    match w.hand with
    | some t => m.setWriter i (w.handle clock t)
    | none => m

/-- Who has marked a writer ends its transaction once the worker is through. -/
def finish (m : Writers) (n : Nat) (refusal : Option Cause) : Writers :=
  m.withCall n fun c w =>
    match c.phase with
    | .draining =>
        if w.isDrained then
          let e := w.ending n c.request m.committed refusal
          { m.update n c { w with stage := .ended } (.ended e.answer) with
            committed := e.after
            ends := m.ends ++ [e] }
        else m
    | _ => m

def release (m : Writers) (n : Nat) : Writers :=
  m.withCall n fun c w =>
    match c.phase with
    | .ended answer =>
        { m.update n c { w with stage := .closed } (.returned answer) with slot := m.slot - 1 }
    | _ => m

/-- One step; the change of a call is made at the time that the clock has for the call. -/
def step (clock : Nat → Instant) (m : Writers) : WriterStep → Writers
  | .acquire => m.acquire
  | .begin i fails => m.begin i fails
  | .call i request => m.call i request
  | .enter n => m.enter n
  | .send n => m.send n
  | .giveUp n cause => m.giveUp n cause
  | .leave n => m.leave n
  | .takeUp i => m.takeUp i
  | .handle i => m.handle clock i
  | .finish n refusal => m.finish n refusal
  | .release n => m.release n

def run (clock : Nat → Instant) (m : Writers) (steps : List WriterStep) : Writers :=
  steps.foldl (step clock) m

end Writers

end CodeAtlas
