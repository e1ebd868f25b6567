/-!
Locks of runs.  A lock is taken or refused at once; nobody waits for it.
-/

namespace CodeAtlas

structure RunLock where
  held : Bool
  deriving DecidableEq, Repr, Inhabited

namespace RunLock

def free : RunLock := ⟨false⟩

/-- Takes the lock unless it is held, and says whether it was taken. -/
def tryAcquire (l : RunLock) : RunLock × Bool := (⟨true⟩, !l.held)

def release (_ : RunLock) : RunLock := free

end RunLock

/-- The projects with a run in flight. -/
structure LockTable where
  held : List String
  deriving DecidableEq, Repr, Inhabited

namespace LockTable

def empty : LockTable := ⟨[]⟩

def acquire (t : LockTable) (projectId : String) : LockTable × Bool :=
  if t.held.contains projectId then (t, false) else (⟨projectId :: t.held⟩, true)

def release (t : LockTable) (projectId : String) : LockTable :=
  ⟨t.held.filter (· != projectId)⟩

def size (t : LockTable) : Nat := t.held.length

/-- A lock that was taken and is given back leaves no trace. -/
theorem release_of_acquire {t t' : LockTable} {projectId : String}
    (h : t.acquire projectId = (t', true)) : t'.release projectId = t := by
  unfold acquire at h
  split at h
  · simp at h
  · rename_i hfree
    obtain ⟨rfl, -⟩ := Prod.mk.inj h
    have hne : ∀ id ∈ t.held, (id != projectId) = true := by
      intro id hid
      simp only [bne_iff_ne]
      rintro rfl
      exact hfree (by simpa using hid)
    simp [release, List.filter_eq_self.mpr hne]

end LockTable

end CodeAtlas
