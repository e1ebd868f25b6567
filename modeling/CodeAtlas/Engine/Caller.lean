import CodeAtlas.Index.Fault

/-!
Callers of the engine.  A caller may stop waiting at any moment of a call, and the disk may refuse what
the call wants to keep.
-/

namespace CodeAtlas

/-- The moments of a call at which it is asked whether the caller still waits. -/
inductive Stage where
  | restore
  | register
  | search
  | walk (path : String)
  | openWriter
  | clear
  | take (path : String)
  | parse (path : String)
  | submit (path : String)
  | allTaken
  | erase (fileId : String)
  | save
  | commit
  | deleteProject
  | figures
  deriving DecidableEq, Repr

/-- When a caller waits, and why the disk refuses a commit of the call, if it does. -/
structure Caller where
  waits : Stage → Bool
  refusal : Option Cause

namespace Caller

def patient : Caller := ⟨fun _ => true, none⟩

def gone : Caller := ⟨fun _ => false, none⟩

end Caller

end CodeAtlas
