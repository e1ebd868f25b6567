import CodeAtlas.Index.Version
import CodeAtlas.Model.Hit

/-!
What goes wrong with the index, and how it is said.
-/

namespace CodeAtlas

inductive Cause where
  | notFound
  | alreadyExists
  | writerClosed
  | emptyQuery
  | canceled
  | deadline
  | databaseClosed
  /-- Another writer has unfinished work. -/
  | locked
  /-- A table or column that a command needs does not exist. -/
  | missing (what : String)
  /-- A sum does not fit into its type. -/
  | overflow
  /-- A cell holds no value of its column's type. -/
  | unreadable (column : String)
  /-- A text index was told of more than it has. -/
  | unsound
  | constraint (rule : String)
  | projectNotFound (id : String)
  | indexingInProgress
  | unreadableRoot (detail : String)
  | ambiguousProject (name : String)
  /-- A search found something that is no answer. -/
  | badHit (fault : HitFault)
  | other (text : String)
  deriving DecidableEq, Repr, Inhabited

def Cause.text : Cause → String
  | notFound => "not found"
  | alreadyExists => "already exists"
  | writerClosed => "index writer closed"
  | emptyQuery => "query cannot be empty"
  | canceled => "context canceled"
  | deadline => "context deadline exceeded"
  | databaseClosed => "sql: database is closed"
  | locked => "database is locked (5) (SQLITE_BUSY)"
  | missing what => "SQL logic error: no such table or column: " ++ what
  | overflow => "SQL logic error: integer overflow (1)"
  | unreadable column => "sql: Scan error on column " ++ column
  | unsound => "database disk image is malformed (267)"
  | constraint rule => "constraint failed: " ++ rule
  | projectNotFound id => "project not found: " ++ id
  | indexingInProgress => "indexing already in progress for this project"
  | unreadableRoot detail => "project root is not a readable directory: " ++ detail
  | ambiguousProject name => "more than one project has that name; use the project id: " ++ name
  | badHit fault => fault.message
  | other text => text

/-- A failure: what was being done, from the outside in, and the cause. -/
structure Fault where
  context : List String
  cause : Cause
  deriving DecidableEq, Repr, Inhabited

namespace Fault

def of (cause : Cause) : Fault := ⟨[], cause⟩

def within (text : String) (f : Fault) : Fault := { f with context := text :: f.context }

def message (f : Fault) : String := ": ".intercalate (f.context ++ [f.cause.text])

end Fault

def inContext {α : Type} (text : String) : Except Fault α → Except Fault α
  | .ok a => .ok a
  | .error f => .error (f.within text)

def failing {α : Type} (text : String) : Except Cause α → Except Fault α
  | .ok a => .ok a
  | .error c => .error ⟨[text], c⟩

def plainly {α : Type} : Except Cause α → Except Fault α
  | .ok a => .ok a
  | .error c => .error (.of c)

variable {α : Type} {text : String} {a : α}

@[simp]
theorem inContext_eq_ok_iff {x : Except Fault α} : inContext text x = .ok a ↔ x = .ok a := by
  cases x <;> simp [inContext]

@[simp]
theorem failing_eq_ok_iff {x : Except Cause α} : failing text x = .ok a ↔ x = .ok a := by
  cases x <;> simp [failing]

@[simp]
theorem plainly_eq_ok_iff {x : Except Cause α} : plainly x = .ok a ↔ x = .ok a := by
  cases x <;> simp [plainly]

end CodeAtlas
