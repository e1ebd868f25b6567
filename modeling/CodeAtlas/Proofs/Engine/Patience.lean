import CodeAtlas.Proofs.Engine.Errands
import CodeAtlas.Proofs.Engine.Order

/-!
# Callers who wait

Filling the queue of a run fails if its caller leaves, and in no other way, as long as the writer is open.
So a run for a caller who waits comes to its commit, provided that its rules and its files can be read.
-/

namespace CodeAtlas

theorem Index.Extends.queue_isSome {ix ix' : Index} (h : ix.Extends ix') :
    ix'.queue.isSome = ix.queue.isSome := by
  obtain ⟨ops, rfl⟩ := h
  simp [Index.enqueue]

namespace Run

variable {r : Run} {s : RunState} {c : Candidate} {candidates : List Candidate}

theorem submit_patient (hopen : s.index.queue.isSome = true) (f : FileEntry) :
    ∃ s' chore, r.advance Caller.patient.waits s c (.submit f) = (s', .ok chore) := by
  obtain ⟨ops, hops⟩ := Option.isSome_iff_exists.mp hopen
  simp [advance, Caller.patient, Index.submit, hops, inContext]

theorem take_patient (hopen : s.index.queue.isSome = true) :
    ∃ s', r.take .patient s c = (s', .ok ()) := by
  rw [take_eq, if_pos (show Caller.patient.waits _ = true from rfl)]
  cases r.unparsed? c with
  | some o => exact ⟨_, rfl⟩
  | none =>
      rcases hparse : s.parser.parse (Caller.patient.waits (.parse c.relativePath))
        (c.request r.project.id) with ⟨answer, parser⟩
      cases hparsed : r.parsed c (answer.map Prod.fst) with
      | indexed f =>
          obtain ⟨s', chore, hsubmit⟩ := submit_patient (r := r) (c := c) (s := { s with parser }) hopen f
          simp only [hparsed, hsubmit]
          exact ⟨_, rfl⟩
      | _ =>
          simp only [hparsed]
          exact ⟨_, rfl⟩

theorem takeAll_patient (hopen : s.index.queue.isSome = true) :
    ∃ s', r.takeAll .patient s candidates = (s', .ok ()) := by
  induction candidates generalizing s with
  | nil => exact ⟨s, rfl⟩
  | cons c rest ih =>
      obtain ⟨s₁, htake⟩ := take_patient (r := r) (c := c) hopen
      have hextends := take_extends r .patient s c
      rw [htake] at hextends
      obtain ⟨s', hrest⟩ := ih (hextends.queue_isSome.trans hopen)
      refine ⟨s', ?_⟩
      rw [takeAll, htake]
      exact hrest

theorem queue_patient (hopen : s.index.queue.isSome = true) (op : WriteOp) :
    queue true s op = ({ s with index := s.index.enqueue [op] }, .ok ()) := by
  obtain ⟨ops, hops⟩ := Option.isSome_iff_exists.mp hopen
  simp [queue, Index.submit, Index.enqueue, hops]

theorem eraseAll_patient (hopen : s.index.queue.isSome = true) (ids : List String) :
    ∃ s', eraseAll .patient s ids = (s', .ok ()) := by
  induction ids generalizing s with
  | nil => exact ⟨s, rfl⟩
  | cons id rest ih =>
      have hqueue : queue (Caller.patient.waits (.erase id)) s (.deleteFile id) = _ :=
        queue_patient hopen (.deleteFile id)
      rw [eraseAll, hqueue]
      exact ih (by simpa [Index.enqueue] using hopen)

/-- A caller who waits sees the queue filled. -/
theorem fill_patient (hopen : s.index.queue.isSome = true) (updated : Project) :
    ∃ s', r.fill .patient s candidates updated = (s', .ok ()) := by
  have hextends {s₁ s₂ : RunState} (h : s₁.index.Extends s₂.index)
      (hopen : s₁.index.queue.isSome = true) : s₂.index.queue.isSome = true :=
    h.queue_isSome.trans hopen
  obtain ⟨s₁, hclear, hopen₁⟩ : ∃ s₁, (if r.isFresh then
      queue (Caller.patient.waits .clear) s (.deleteProjectDocuments r.project.id)
      else (s, .ok ())) = (s₁, .ok ()) ∧ s₁.index.queue.isSome = true := by
    split
    · exact ⟨_, queue_patient hopen _, by simpa [Index.enqueue] using hopen⟩
    · exact ⟨s, rfl, hopen⟩
  obtain ⟨s₂, htake⟩ : ∃ s₂, r.takeAll .patient s₁ candidates = (s₂, .ok ()) :=
    takeAll_patient hopen₁
  have hopen₂ : s₂.index.queue.isSome = true := by
    have h := takeAll_extends r .patient candidates s₁
    rw [htake] at h
    exact h.queue_isSome.trans hopen₁
  obtain ⟨s₃, herase⟩ := eraseAll_patient hopen₂ (if r.isFresh then [] else r.stale s₂)
  have hopen₃ : s₃.index.queue.isSome = true := by
    rw [eraseAll_eq_ok herase]
    simpa [Index.enqueue] using hopen₂
  have hsave : queue (Caller.patient.waits .save) s₃ (.saveProject updated) = _ :=
    queue_patient hopen₃ (.saveProject updated)
  unfold fill
  rw [hclear]
  simp only [htake, herase, hsave]
  exact ⟨_, rfl⟩

/-- What somebody has found in a tree, a caller who waits finds, too. -/
theorem discover_patient {tree : FileTree} {caller : Caller} {classifier : Classifier}
    {root : String} {walked : List Candidate × Nat}
    (h : discover tree caller classifier root = .ok walked) :
    discover tree .patient classifier root = .ok walked := by
  obtain ⟨base, hbase, hlisted, rfl⟩ := found_of_discover h
  rw [discover_of_listed hbase hlisted]
  exact if_pos (List.all_eq_true.mpr fun _ _ => rfl)

end Run

namespace Engine

variable {e : Engine} {tree : FileTree} {now : Instant} {isFresh : Bool} {projectId : String}
  {p : Project} {ignore : IgnoreConfig} {classifier : Classifier} {candidates : List Candidate}
  {skipped : Nat}

theorem openWriter_patient {ix : Index} (hidle : ix.queue = none) (hopen : ix.isClosed = false) :
    openWriter ix .patient = .ok { ix with queue := some [] } := by
  simp [openWriter, Caller.patient, Index.openWriter, hidle, hopen, inContext]

/-- A run for a caller who waits succeeds if what it has queued can be committed. -/
theorem run_patient (hidle : e.index.queue = none) (hopen : e.index.isClosed = false)
    (hknown : e.project? projectId = some p)
    (hrules : Run.loadRules tree e.ignore p.rootPath = .ok (ignore, classifier))
    (hfound : Run.discover tree .patient classifier p.rootPath = .ok (candidates, skipped))
    (now : Instant) (isFresh : Bool) :
    ∃ r s, e.Starts tree .patient now isFresh projectId r candidates skipped ∧
      e.filled tree .patient r candidates skipped = (s, .ok ()) ∧
      ∀ index, s.index.commitUnless none now = (index, .ok ()) →
        ∃ e', e.runHeld tree .patient now isFresh projectId = (e', .ok (r.figures s)) := by
  let r : Run := ⟨p, isFresh, ignore, now, e.projectFiles projectId⟩
  obtain ⟨s, hfilled⟩ : ∃ s, r.fill .patient
      ⟨{ e.index with queue := some [] }, e.parser, [], 0, 0, skipped, 0, []⟩ candidates
      (r.updatedProject tree now) = (s, .ok ()) := Run.fill_patient rfl _
  refine ⟨r, s, ⟨rfl, rfl, hknown, rfl, classifier, hrules, hfound⟩, hfilled, fun index hcommit => ?_⟩
  have hrefusal : Caller.patient.refusal = none := rfl
  unfold runHeld
  simp only [hknown, hrules, hfound, openWriter_patient hidle hopen]
  rw [hfilled]
  simp only [hrefusal, hcommit]
  exact ⟨_, rfl⟩

theorem locked_of_free {α : Type} {call : Engine → Engine × Except Fault α}
    (hfree : e.locks = .empty) (hcall : ∀ locks, ∃ e' a, call { e with locks } = (e', .ok a)) :
    ∃ e' a, e.locked projectId call = (e', .ok a) := by
  have hacquire : e.locks.acquire projectId = (⟨[projectId]⟩, true) := by
    rw [hfree]
    rfl
  obtain ⟨e', a, he'⟩ := hcall ⟨[projectId]⟩
  unfold locked
  rw [hacquire]
  simp only [he']
  exact ⟨_, a, rfl⟩

end Engine

end CodeAtlas
