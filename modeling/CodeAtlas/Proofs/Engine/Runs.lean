import CodeAtlas.Engine.Run
import CodeAtlas.Proofs.Index.Keeps

/-!
# The ways in which a run ends

A run reaches the index through its queue alone: whatever it does before its commit appends changes
there, and a commit that fails throws them away. So a run is refused at once, or it fails and leaves
only what the parser remembers, or it is committed and taken over.
-/

namespace CodeAtlas

namespace Index

def enqueue (ix : Index) (ops : List WriteOp) : Index :=
  { ix with queue := ix.queue.map (· ++ ops) }

@[simp]
theorem enqueue_nil (ix : Index) : ix.enqueue [] = ix := by
  cases ix with
  | mk database isClosed queue => cases queue <;> simp [enqueue]

@[simp]
theorem enqueue_enqueue (ix : Index) (first second : List WriteOp) :
    (ix.enqueue first).enqueue second = ix.enqueue (first ++ second) := by
  cases ix with
  | mk database isClosed queue => cases queue <;> simp [enqueue]

def Extends (ix ix' : Index) : Prop := ∃ ops, ix' = ix.enqueue ops

theorem Extends.refl (ix : Index) : ix.Extends ix := ⟨[], by simp⟩

theorem Extends.trans {ix₁ ix₂ ix₃ : Index} (h : ix₁.Extends ix₂) (h' : ix₂.Extends ix₃) :
    ix₁.Extends ix₃ := by
  obtain ⟨ops, rfl⟩ := h
  obtain ⟨more, rfl⟩ := h'
  exact ⟨ops ++ more, by simp⟩

theorem Extends.discard_eq {ix ix' : Index} (h : ix.Extends ix') :
    Engine.discard ix' = Engine.discard ix := by
  obtain ⟨ops, rfl⟩ := h
  rfl

theorem eq_enqueue_of_submit {ix ix' : Index} {op : WriteOp} (h : ix.submit op = .ok ix') :
    ix' = ix.enqueue [op] := by
  unfold submit at h
  split at h
  · simp at h
  · rename_i queue hqueue
    obtain rfl := Except.ok.inj h
    simp [enqueue, hqueue]

/-- A commit that fails closes the writer and changes no table. -/
theorem eq_discard_of_commit_error {ix ix' : Index} {refusal : Option Cause} {now : Instant}
    {f : Fault} (h : ix.commitUnless refusal now = (ix', .error f)) :
    ix' = Engine.discard ix := by
  obtain ⟨-, -, rfl⟩ | ⟨-, -, hdone, -⟩ := commit_cases h
  · rfl
  · simp at hdone

end Index

namespace Engine

/-- A writer is opened only where none is open, with nothing queued. -/
theorem openWriter_eq_ok {ix ix' : Index} {caller : Caller} (h : openWriter ix caller = .ok ix') :
    ix.queue = none ∧ ix' = { ix with queue := some [] } := by
  unfold openWriter at h
  rw [inContext_eq_ok_iff] at h
  split at h
  · unfold Index.openWriter at h
    split at h
    · simp at h
    · rename_i hopen
      split at h
      · simp at h
      · exact ⟨by simpa using hopen, (Except.ok.inj h).symm⟩
  · simp at h

theorem discard_of_openWriter {ix ix' : Index} {caller : Caller}
    (h : openWriter ix caller = .ok ix') : discard ix' = ix := by
  obtain ⟨hqueue, rfl⟩ := openWriter_eq_ok h
  cases ix with
  | mk database isClosed queue => simpa [discard] using hqueue.symm

end Engine

/-- A file that is neither too large nor binary. -/
def Candidate.fits (ignore : IgnoreConfig) (c : Candidate) : Bool :=
  !(ignore.maxFileSize > 0 && c.content.length > ignore.maxFileSize) && !isBinaryContent c.content

/-- What the system says where it refuses to tell of a file, or to give the content of one that is not
too large. -/
def Candidate.refusal? (ignore : IgnoreConfig) (c : Candidate) : Option String :=
  match c.untold with
  | some message => some message
  | none =>
      if ignore.maxFileSize > 0 && c.content.length > ignore.maxFileSize then none else c.unread

/-- The system gives the content of the file, and the run goes on with it. -/
structure Candidate.Opens (ignore : IgnoreConfig) (c : Candidate) : Prop where
  given : c.refusal? ignore = none
  fits : c.fits ignore = true

namespace Run

variable {r : Run} {caller : Caller} {s : RunState} {c : Candidate}

/-! ## How a candidate is taken up -/

theorem take_of_leaves (h : caller.waits (.take c.relativePath) = false) :
    r.take caller s c = (s, .error (.of .canceled)) := by
  unfold take
  rw [h]
  rfl

/-- A candidate is refused, skipped, or goes on to its content. -/
theorem take_of_waits (h : caller.waits (.take c.relativePath) = true) :
    r.take caller s c = match c.refusal? r.ignore with
      | some message => (r.fail s (fileId r.project.id c.relativePath) c message, .ok ())
      | none =>
          if c.fits r.ignore then r.takeContent caller s c
          else ({ s with skipped := s.skipped + 1 }, .ok ()) := by
  unfold take Candidate.refusal? Candidate.fits
  rw [h]
  cases c.untold with
  | some message => rfl
  | none =>
      by_cases hlarge : (r.ignore.maxFileSize > 0 && c.content.length > r.ignore.maxFileSize) = true
      · simp [hlarge]
      · cases c.unread with
        | some message => simp [hlarge]
        | none => by_cases hbinary : isBinaryContent c.content = true <;> simp [hlarge, hbinary]

theorem takeContent_extends (r : Run) (caller : Caller) (s : RunState) (c : Candidate) :
    s.index.Extends (r.takeContent caller s c).1.index := by
  unfold takeContent
  simp only
  split
  · exact .refl _
  · split
    · exact .refl _
    · split
      · exact .refl _
      · split
        · exact .refl _
        · rename_i index hqueued
          rw [inContext_eq_ok_iff] at hqueued
          split at hqueued
          · exact ⟨_, Index.eq_enqueue_of_submit hqueued⟩
          · simp at hqueued

theorem take_extends (r : Run) (caller : Caller) (s : RunState) (c : Candidate) :
    s.index.Extends (r.take caller s c).1.index := by
  by_cases hwaits : caller.waits (.take c.relativePath) = true
  · rw [take_of_waits hwaits]
    split
    · exact .refl _
    · split
      · exact takeContent_extends r caller s c
      · exact .refl _
  · rw [take_of_leaves (by simpa using hwaits)]
    exact .refl _

theorem queue_extends (live : Bool) (s : RunState) (op : WriteOp) :
    s.index.Extends (queue live s op).1.index := by
  unfold queue
  split
  · split
    · rename_i index hsubmit
      exact ⟨[op], Index.eq_enqueue_of_submit hsubmit⟩
    · exact .refl _
  · exact .refl _

/-- Fills the queue, in whatever way the candidates are taken up. -/
def fillBy (r : Run) (caller : Caller) (takes : RunState → RunState × Except Fault Unit)
    (s : RunState) (updated : Project) : RunState × Except Fault Unit :=
  let cleared :=
    if r.isFresh then queue (caller.waits .clear) s (.deleteProjectDocuments r.project.id)
    else (s, .ok ())
  match cleared with
  | (s, .error f) => (s, .error f)
  | (s, .ok ()) =>
      match takes s with
      | (s, .error f) => (s, .error f)
      | (s, .ok ()) =>
          match eraseAll caller s (if r.isFresh then [] else r.stale s) with
          | (s, .error f) => (s, .error f)
          | (s, .ok ()) =>
              match queue (caller.waits .save) s (.saveProject updated) with
              | (s, .error f) => (s, .error f)
              | (s, .ok ()) => (s, if caller.waits .commit then .ok () else .error (.of .canceled))

theorem fillBy_takeAll (r : Run) (caller : Caller) (s : RunState) (candidates : List Candidate)
    (updated : Project) :
    r.fillBy caller (r.takeAll caller · candidates) s updated =
      r.fill caller s candidates updated := rfl

section

variable {P : RunState → Prop} {r : Run} {caller : Caller} {candidates : List Candidate}
  {s : RunState}

theorem takeAll_preserves (htake : ∀ s, ∀ c ∈ candidates, P s → P (r.take caller s c).1)
    (h : P s) : P (r.takeAll caller s candidates).1 := by
  induction candidates generalizing s with
  | nil => exact h
  | cons c rest ih =>
      have htaken := htake s c List.mem_cons_self h
      unfold takeAll
      split
      · rename_i s' hdone
        rw [hdone] at htaken
        exact ih (fun s d hd => htake s d (List.mem_cons_of_mem c hd)) htaken
      · exact htaken

theorem eraseAll_preserves (caller : Caller) (hqueue : ∀ live s op, P s → P (queue live s op).1)
    (ids : List String) (h : P s) : P (eraseAll caller s ids).1 := by
  induction ids generalizing s with
  | nil => exact h
  | cons id rest ih =>
      have hqueued := hqueue (caller.waits (.erase id)) s (.deleteFile id) h
      unfold eraseAll
      split
      · rename_i s' hdone
        rw [hdone] at hqueued
        exact ih hqueued
      · exact hqueued

/-- What each queued change and the way of taking up preserve, filling the queue preserves, whether or
not it comes to its end. -/
theorem fillBy_preserves {takes : RunState → RunState × Except Fault Unit}
    (hqueue : ∀ live s op, P s → P (queue live s op).1) (htakes : ∀ s, P s → P (takes s).1)
    (h : P s) (updated : Project) : P (r.fillBy caller takes s updated).1 := by
  have hcleared : P (if r.isFresh then queue (caller.waits .clear) s
      (.deleteProjectDocuments r.project.id) else (s, .ok ())).1 := by
    split
    · exact hqueue _ _ _ h
    · exact h
  unfold fillBy
  simp only
  split
  · rename_i s₁ f hclear
    rwa [hclear] at hcleared
  · rename_i s₁ hclear
    rw [hclear] at hcleared
    have htaken := htakes s₁ hcleared
    split
    · rename_i s₂ f hdone
      rwa [hdone] at htaken
    · rename_i s₂ hdone
      rw [hdone] at htaken
      have herased := eraseAll_preserves caller hqueue
        (if r.isFresh then [] else r.stale s₂) htaken
      split
      · rename_i s₃ f herase
        rwa [herase] at herased
      · rename_i s₃ herase
        rw [herase] at herased
        have hsaved := hqueue (caller.waits .save) s₃ (.saveProject updated) herased
        split
        · rename_i s₄ f hsave
          rwa [hsave] at hsaved
        · rename_i s₄ hsave
          rwa [hsave] at hsaved

theorem fill_preserves (hqueue : ∀ live s op, P s → P (queue live s op).1)
    (htake : ∀ s, ∀ c ∈ candidates, P s → P (r.take caller s c).1) (h : P s) (updated : Project) :
    P (r.fill caller s candidates updated).1 := by
  rw [← fillBy_takeAll]
  exact fillBy_preserves hqueue (fun _ => takeAll_preserves htake) h updated

end

/-- Filling the queue changes nothing else of the index, if taking up the candidates does not. -/
theorem fillBy_extends (r : Run) (caller : Caller)
    {takes : RunState → RunState × Except Fault Unit}
    (htakes : ∀ s : RunState, s.index.Extends (takes s).1.index) (s : RunState) (updated : Project) :
    s.index.Extends (r.fillBy caller takes s updated).1.index :=
  fillBy_preserves (P := fun s' => s.index.Extends s'.index)
    (fun live s' op h => h.trans (queue_extends live s' op)) (fun s' h => h.trans (htakes s'))
    (.refl _) updated

theorem takeAll_extends (r : Run) (caller : Caller) (candidates : List Candidate) (s : RunState) :
    s.index.Extends (r.takeAll caller s candidates).1.index :=
  takeAll_preserves (P := fun s' => s.index.Extends s'.index)
    (fun s' c _ h => h.trans (take_extends r caller s' c)) (.refl _)

theorem fill_extends (r : Run) (caller : Caller) (s : RunState) (candidates : List Candidate)
    (updated : Project) : s.index.Extends (r.fill caller s candidates updated).1.index :=
  fillBy_extends r caller (takeAll_extends r caller candidates) s updated

end Run

namespace Engine

/-- What a run has found when it opens the writer. -/
structure Starts (e : Engine) (tree : FileTree) (caller : Caller) (now : Instant) (isFresh : Bool)
    (projectId : String) (r : Run) (candidates : List Candidate) (skipped : Nat) : Prop where
  fresh : r.isFresh = isFresh
  started : r.started = now
  known : e.project? projectId = some r.project
  prior : r.prior = e.projectFiles projectId
  found : ∃ classifier,
    Run.loadRules tree e.ignore r.project.rootPath = .ok (r.ignore, classifier) ∧
    Run.discover tree caller classifier r.project.rootPath = .ok (candidates, skipped)

def filled (e : Engine) (tree : FileTree) (caller : Caller) (r : Run)
    (candidates : List Candidate) (skipped : Nat) : RunState × Except Fault Unit :=
  r.fill caller ⟨{ e.index with queue := some [] }, e.parser, [], 0, 0, skipped, 0, []⟩ candidates
    (r.updatedProject tree r.started)

/-- The ways in which a run ends. -/
inductive Runs (e : Engine) (tree : FileTree) (caller : Caller) (now : Instant) (isFresh : Bool)
    (projectId : String) : Engine → Except Fault RunFigures → Prop where
  | refused (f : Fault) : Runs e tree caller now isFresh projectId e (.error f)
  | failed {r : Run} {candidates : List Candidate} {skipped : Nat}
      (hstarts : e.Starts tree caller now isFresh projectId r candidates skipped) (f : Fault) :
      Runs e tree caller now isFresh projectId
        { e with parser := (e.filled tree caller r candidates skipped).1.parser } (.error f)
  | completed {r : Run} {candidates : List Candidate} {skipped : Nat} {s : RunState}
      {index : Index} (hstarts : e.Starts tree caller now isFresh projectId r candidates skipped)
      (hfilled : e.filled tree caller r candidates skipped = (s, .ok ()))
      (hcommit : s.index.commitUnless caller.refusal r.started = (index, .ok ())) :
      Runs e tree caller now isFresh projectId
        ((e.adopt r { s with index } (r.updatedProject tree r.started)).refresh
          (caller.waits .figures))
        (.ok (r.figures s))

variable {e e' : Engine} {tree : FileTree} {caller : Caller} {now : Instant} {isFresh : Bool}
  {projectId : String}

theorem project?_eq_some {p : Project} (h : e.project? projectId = some p) :
    p ∈ e.projects ∧ p.id = projectId :=
  ⟨List.mem_of_find?_eq_some h, by simpa using List.find?_some h⟩

theorem runs_of_runHeld {result : Except Fault RunFigures}
    (h : e.runHeld tree caller now isFresh projectId = (e', result)) :
    e.Runs tree caller now isFresh projectId e' result := by
  unfold runHeld at h
  split at h
  · obtain ⟨rfl, rfl⟩ := Prod.mk.inj h
    exact .refused _
  · rename_i project hproject
    split at h
    · obtain ⟨rfl, rfl⟩ := Prod.mk.inj h
      exact .refused _
    · rename_i ignore classifier hrules
      split at h
      · obtain ⟨rfl, rfl⟩ := Prod.mk.inj h
        exact .refused _
      · rename_i candidates skipped hdiscover
        simp only at h
        split at h
        · obtain ⟨rfl, rfl⟩ := Prod.mk.inj h
          exact .refused _
        · rename_i index hopen
          have hclosed := discard_of_openWriter hopen
          obtain ⟨-, rfl⟩ := openWriter_eq_ok hopen
          have hstarts : e.Starts tree caller now isFresh projectId
              ⟨project, isFresh, ignore, now, e.projectFiles projectId⟩ candidates skipped :=
            ⟨rfl, rfl, hproject, rfl, classifier, hrules, hdiscover⟩
          have hextends := Run.fill_extends ⟨project, isFresh, ignore, now,
            e.projectFiles projectId⟩ caller
            ⟨{ e.index with queue := some [] }, e.parser, [], 0, 0, skipped, 0, []⟩ candidates
            (Run.updatedProject ⟨project, isFresh, ignore, now, e.projectFiles projectId⟩ tree now)
          -- the queue is discarded either before or by the commit
          split at h
          · rename_i s f hfill
            rw [hfill] at hextends
            obtain ⟨rfl, rfl⟩ := Prod.mk.inj h
            have hfailed := Runs.failed hstarts f
            unfold filled at hfailed
            rw [hfill] at hfailed
            rw [hextends.discard_eq, hclosed]
            exact hfailed
          · rename_i s hfill
            rw [hfill] at hextends
            split at h
            · rename_i index f hcommit
              obtain ⟨rfl, rfl⟩ := Prod.mk.inj h
              have hfailed := Runs.failed hstarts (f.within "failed to commit index")
              unfold filled at hfailed
              rw [hfill] at hfailed
              rw [Index.eq_discard_of_commit_error hcommit, hextends.discard_eq, hclosed]
              exact hfailed
            · rename_i index hcommit
              obtain ⟨rfl, rfl⟩ := Prod.mk.inj h
              exact .completed hstarts hfill hcommit

/-- A call under a lock is refused, or it is made and gives the lock back. -/
theorem locked_cases {α : Type} {call : Engine → Engine × Except Fault α}
    {result : Except Fault α} (h : e.locked projectId call = (e', result)) :
    e' = e ∧ (∃ f, result = .error f) ∨ ∃ locks e₁, e.locks.acquire projectId = (locks, true) ∧
      call { e with locks } = (e₁, result) ∧
      e' = { e₁ with locks := e₁.locks.release projectId } := by
  unfold locked at h
  split at h
  · obtain ⟨rfl, rfl⟩ := Prod.mk.inj h
    exact .inl ⟨rfl, _, rfl⟩
  · rename_i locks hlocks
    rcases hcall : call { e with locks } with ⟨e₁, outcome⟩
    simp only [hcall] at h
    obtain ⟨rfl, rfl⟩ := Prod.mk.inj h
    exact .inr ⟨locks, e₁, hlocks, hcall, rfl⟩

end Engine

end CodeAtlas
