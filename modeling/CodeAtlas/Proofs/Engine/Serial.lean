import CodeAtlas.Proofs.Engine.Commits

/-!
# Jobs underway at once come to the same as jobs one after the other

Every step keeps a mirror of the engine, unless a removal that is committed fails to take away the row of
its project. So once all jobs are done the engine holds what it would hold had those that succeeded been
done one after the other, in the order of their commits.
-/

namespace CodeAtlas

/-- Nobody whose caller has left can take away a row. -/
theorem Index.deleteProject_of_left (ix : Index) (id : String) :
    ∃ f, ix.deleteProject false id = .error f ∧ f.cause ≠ .notFound := by
  have hrefused : ∃ c, ix.reachToWrite false = .error c := by
    unfold reachToWrite reach
    split <;> exact ⟨_, rfl⟩
  obtain ⟨c, hreach⟩ := hrefused
  refine ⟨⟨["failed to delete project"], c⟩, ?_, reachToWrite_error hreach⟩
  unfold deleteProject
  rw [hreach]
  rfl

theorem Job.step_bare_of_left {j : Job} (hleft : j.caller.waits .deleteProject = false) (e : Engine) :
    (j.step e .bare).2.isCommitted = false := by
  obtain ⟨f, hdelete, hcause⟩ := e.index.deleteProject_of_left j.projectId
  unfold Job.step
  dsimp only
  rw [hleft, hdelete]
  simp [hcause, Progress.isCommitted, Except.isOk, Except.toBool]

namespace Engine

variable {S : Setting} {e₀ e e' σ : Engine} {others : List (Job × Progress)} {commits : List Job}
  {docs : List Document} {kept held held' : List FileEntry} {j : Job} {before after : Progress}

theorem Mirrors.isCommitted_eq (h : Mirrors S e₀ e ((j, before) :: others) commits σ docs kept held)
    (h' : Mirrors S e₀ e' ((j, after) :: others) commits σ docs kept held') :
    after.isCommitted = before.isCommitted := by
  have hlength := h.committed.length_eq.symm.trans h'.committed.length_eq
  cases hbefore : before.isCommitted <;> cases hafter : after.isCommitted <;> simp_all

/-- A job takes its next step, and there is a mirror again. -/
theorem Mirrors.step (h : Mirrors S e₀ e ((j, before) :: others) commits σ docs kept held)
    (hlocked : Locked e.locks ((j, before) :: others))
    (hgoes : before.isCommitted = true → (j.step e before).2.isCommitted = true)
    (hstays : (j.step e before).2 = .bare → j.caller.waits .deleteProject = true) :
    ∃ σ' docs' kept' held', Mirrors S e₀ (j.step e before).1 ((j, (j.step e before).2) :: others)
      (if !before.isCommitted && (j.step e before).2.isCommitted then commits ++ [j] else commits)
      σ' docs' kept' held' := by
  have hquiet {held' : List FileEntry}
      (hnext : Mirrors S e₀ (j.step e before).1 ((j, (j.step e before).2) :: others) commits σ docs
        kept held') :
      ∃ σ' docs' kept' held', Mirrors S e₀ (j.step e before).1 ((j, (j.step e before).2) :: others)
        (if !before.isCommitted && (j.step e before).2.isCommitted then commits ++ [j] else commits)
        σ' docs' kept' held' := by
    refine ⟨σ, docs, kept, held', ?_⟩
    rw [h.isCommitted_eq hnext, Bool.not_and_self]
    exact hnext
  cases before with
  | begun => exact hquiet h.step_begun
  | admitted => exact hquiet (h.step_admitted hlocked)
  | ready p => exact hquiet h.step_ready
  | found => exact hquiet h.step_found
  | emptying => exact hquiet h.step_emptying
  | settled figures => exact hquiet h.step_settled
  | leaving answer => exact hquiet h.step_leaving
  | gone answer => exact hquiet h
  | bare => exact hquiet (h.step_bare (hgoes rfl))
  | committed p s =>
      obtain ⟨held', hnext⟩ := h.step_committed
      exact hquiet hnext
  | rowless =>
      obtain ⟨held', hnext⟩ := h.step_rowless
      exact hquiet hnext
  | filling p s errand =>
      by_cases hlast : errand = .commit
      · subst hlast
        rcases hcommit : e.index.commitUnless j.caller.refusal j.now with ⟨index, f | ⟨⟨⟩⟩⟩
        · exact hquiet (h.commit_failed rfl hcommit _ _)
        · obtain ⟨σ', docs', kept', hnext⟩ := h.commit_run hlocked hcommit
          have hstep : j.step e (.filling p s .commit) = ({ e with index }, .committed p s) :=
            Job.commit_of_ok hcommit _ _
          rw [hstep]
          exact ⟨σ', docs', kept', held, hnext⟩
      · exact hquiet (h.step_filling hlast)
  | emptied =>
      rcases hcommit : e.index.commitUnless j.caller.refusal j.now with ⟨index, f | ⟨⟨⟩⟩⟩
      · exact hquiet (h.commit_failed rfl hcommit _ _)
      · have hstep : j.step e .emptied = ({ e with index }, .bare) := Job.commit_of_ok hcommit _ _
        rw [hstep] at hstays ⊢
        obtain ⟨σ', docs', kept', hnext⟩ := h.commit_removal hlocked (hstays rfl) hcommit
        exact ⟨σ', docs', kept', held, hnext⟩

end Engine

namespace Bustle

variable {S : Setting} {e : Engine} {b : Bustle}

/-- There is a mirror of the engine. -/
def Mirrored (b : Bustle) (S : Setting) (e : Engine) : Prop :=
  ∃ σ docs kept held, Engine.Mirrors S e b.engine b.posts b.commits σ docs kept held

/-- A removal has left the row of its project, or is about to because its caller has left. -/
def Doomed (b : Bustle) : Prop :=
  b.stranded ≠ [] ∨ ∃ post ∈ b.posts, post.2 = .bare ∧ post.1.caller.waits .deleteProject = false

theorem doomed_step (i : Nat) (h : b.Doomed) : (b.step i).Doomed := by
  obtain hsame | ⟨j, before, others, hposts, hposts', -, -, hstranded⟩ := b.step_cases i
  · rwa [hsame]
  obtain hdone | ⟨post, hpost, hbare, hleft⟩ := h
  · refine .inl ?_
    rw [hstranded]
    split
    · simp
    · exact hdone
  · rcases List.mem_cons.mp (hposts.mem_iff.mp hpost) with rfl | hother
    · refine .inl ?_
      obtain rfl : before = .bare := hbare
      rw [hstranded, Job.step_bare_of_left hleft]
      simp [Progress.isCommitted]
    · exact .inr ⟨post, hposts'.mem_iff.mpr (List.mem_cons_of_mem _ hother), hbare, hleft⟩

theorem mirrored_step (i : Nat) (hlocked : Locked b.engine.locks b.posts) (h : b.Mirrored S e) :
    (b.step i).Mirrored S e ∨ (b.step i).Doomed := by
  obtain ⟨σ, docs, kept, held, hmirrors⟩ := h
  obtain hsame | ⟨j, before, others, hposts, hposts', hengine, hcommits, hstranded⟩ := b.step_cases i
  · rw [hsame]
    exact .inl ⟨σ, docs, kept, held, hmirrors⟩
  by_cases hgoes : before.isCommitted = true → (j.step b.engine before).2.isCommitted = true
  · by_cases hstays : (j.step b.engine before).2 = .bare → j.caller.waits .deleteProject = true
    · obtain ⟨σ', docs', kept', held', hnext⟩ :=
        (hmirrors.perm hposts).step (hlocked.perm hposts) hgoes hstays
      refine .inl ⟨σ', docs', kept', held', ?_⟩
      rw [hengine, hcommits]
      exact hnext.perm hposts'.symm
    · obtain ⟨hbare, hleft⟩ := Classical.not_imp.mp hstays
      exact .inr (.inr ⟨_, hposts'.mem_iff.mpr List.mem_cons_self, hbare, by simpa using hleft⟩)
  · obtain ⟨hbefore, hafter⟩ := Classical.not_imp.mp hgoes
    rw [Bool.not_eq_true] at hafter
    refine .inr (.inl ?_)
    rw [hstranded, hbefore, hafter]
    simp

theorem mirrored_start {docs : List Document} {entries : List FileEntry} (h : e.Agrees S docs entries)
    (hfree : e.locks = .empty) {jobs : List Job} (hsuits : ∀ j ∈ jobs, j.Suits S) :
    (start e jobs).Mirrored S e := by
  have hbegun : ∀ post ∈ (start e jobs).posts, post.1 ∈ jobs ∧ post.2 = .begun := by
    intro post hpost
    obtain ⟨j, hj, rfl⟩ := List.mem_map.mp hpost
    exact ⟨hj, rfl⟩
  have howed : owed (start e jobs).posts = fun _ => false := by
    funext id
    refine List.any_eq_false.mpr fun post hpost => ?_
    rw [(hbegun post hpost).2]
    simp [Progress.owesRow]
  have hwriter : Manned none (start e jobs).posts := by
    refine List.countP_eq_zero.mpr fun post hpost => ?_
    rw [(hbegun post hpost).2]
    simp [Progress.writes]
  have hcommitted : (start e jobs).posts.filter (·.2.isCommitted) = [] := by
    refine List.filter_eq_nil_iff.mpr fun post hpost => ?_
    rw [(hbegun post hpost).2]
    simp [Progress.isCommitted]
  have hqueue : e.index.queue = none := h.idle
  refine ⟨e, docs, entries, entries, ?_⟩
  constructor
  · exact fun post hpost => hsuits _ (hbegun post hpost).1
  · rfl
  · exact hfree
  · exact h
  · exact h.parser
  · rfl
  · exact h.reachable
  · rw [howed]
    simp [Database.unlist, Database.withProjects, start]
  · exact h.memory
  · exact fun f hf => h.named hf
  · exact fun id _ => ⟨rfl, rfl⟩
  · exact hqueue ▸ hwriter
  · intro post hpost
    rw [(hbegun post hpost).2]
    trivial
  · rw [hcommitted]
    exact .nil

theorem mirrored_run {docs : List Document} {entries : List FileEntry} (h : e.Agrees S docs entries)
    (hfree : e.locks = .empty) {jobs : List Job} (hsuits : ∀ j ∈ jobs, j.Suits S) (moves : List Nat) :
    ((start e jobs).run moves).Mirrored S e ∨ ((start e jobs).run moves).Doomed := by
  let Keeps (b : Bustle) : Prop :=
    Locked b.engine.locks b.posts ∧ (b.Mirrored S e ∨ b.Doomed)
  have hstep (b : Bustle) (i : Nat) (hb : Keeps b) : Keeps (b.step i) := by
    obtain ⟨hlocked, hmirrored | hdoomed⟩ := hb
    · exact ⟨locked_step i hlocked, mirrored_step i hlocked hmirrored⟩
    · exact ⟨locked_step i hlocked, .inr (doomed_step i hdoomed)⟩
  exact (run_keeps (P := Keeps) hstep
    ⟨locked_start hfree jobs, .inl (mirrored_start h hfree hsuits)⟩ moves).2

theorem not_holds (hnobody : b.holders = []) {post : Job × Progress} (hpost : post ∈ b.posts) :
    post.2.holds = false := by
  have hnone : b.posts.filter (·.2.holds) = [] := List.map_eq_nil_iff.mp hnobody
  simpa using List.filter_eq_nil_iff.mp hnone post hpost

theorem succeeded_eq (hnobody : b.holders = []) :
    b.succeeded = (b.posts.filter (·.2.isCommitted)).map (·.1) := by
  have hdone (posts : List (Job × Progress)) (hposts : ∀ post ∈ posts, post.2.holds = false) :
      ({ b with posts } : Bustle).succeeded = (posts.filter (·.2.isCommitted)).map (·.1) := by
    induction posts with
    | nil => rfl
    | cons post rest ih =>
        have hrest := ih fun post hpost => hposts post (List.mem_cons_of_mem _ hpost)
        have hpost := hposts post List.mem_cons_self
        obtain ⟨j, progress⟩ := post
        cases progress with
        | begun => exact hrest
        | gone answer =>
            cases answer with
            | error f => exact hrest
            | ok figures => exact congrArg (j :: ·) hrest
        | _ => simp [Progress.holds] at hpost
  exact hdone b.posts fun post hpost => b.not_holds hnobody hpost

theorem projectIds_holders (b : Bustle) :
    b.holders.map (·.projectId) = (b.posts.filter (·.2.holds)).map (·.1.projectId) :=
  List.map_map

/-- What the jobs come to, however they take their turns. -/
structure Serializes (b : Bustle) (e : Engine) : Prop where
  -- at most one job of a project is underway, and the lock table has just the projects of those that are
  distinct : (b.holders.map (·.projectId)).Nodup
  locks : b.engine.locks.held.Perm (b.holders.map (·.projectId))
  free : b.holders = [] → b.engine.locks = .empty
  refused : ∀ i j, b.posts[i]? = some (j, .begun) → (∃ k ∈ b.holders, k.projectId = j.projectId) →
    b.step i = { b with posts := b.posts.set i (j, .gone (.error (.of .indexingInProgress))) }
  serial : b.holders = [] → b.stranded = [] → b.commits.Perm b.succeeded ∧
    ∃ σ, e.after? b.commits = some σ ∧ b.engine.index = σ.index ∧
      b.engine.memory.Same σ.memory ∧ ∀ id, b.engine.project? id = σ.project? id

/-- When nobody is underway the engine holds what its mirror holds. -/
theorem Mirrored.settles (h : b.Mirrored S e) (hnobody : b.holders = []) :
    b.commits.Perm b.succeeded ∧ ∃ σ, e.after? b.commits = some σ ∧ b.engine.index = σ.index ∧
      b.engine.memory.Same σ.memory ∧ ∀ id, b.engine.project? id = σ.project? id := by
  obtain ⟨σ, docs, kept, held, hmirrors⟩ := h
  have hlevel (id : String) : Engine.Level b.engine σ held kept id := by
    refine hmirrors.level id fun post hpost hpending => ?_
    have hholds := b.not_holds hnobody hpost
    rw [Progress.holds_of_isPending hpending] at hholds
    simp at hholds
  have howed : owed b.posts = fun _ => false := by
    funext id
    refine List.any_eq_false.mpr fun post hpost => ?_
    have hholds := b.not_holds hnobody hpost
    by_cases howes : post.2.owesRow = true
    · rw [Progress.holds_of_isPending (Progress.isPending_of_owesRow howes)] at hholds
      simp at hholds
    · simp [howes]
  have hidle : b.engine.index.queue = none := by
    have hwriter : b.posts.countP (·.2.writes) = b.engine.index.queue.isSome.toNat := hmirrors.writer
    have hnone : b.posts.countP (·.2.writes) = 0 := by
      refine List.countP_eq_zero.mpr fun post hpost hwrites => ?_
      have hholds := b.not_holds hnobody hpost
      rw [Progress.holds_of_writes hwrites] at hholds
      simp at hholds
    rw [hnone] at hwriter
    cases hqueue : b.engine.index.queue with
    | none => rfl
    | some ops => simp [hqueue] at hwriter
  have hdatabase : σ.index.database = b.engine.index.database := by
    rw [hmirrors.database, howed]
    simp [Database.unlist, Database.withProjects]
  refine ⟨(succeeded_eq hnobody).symm ▸ hmirrors.committed, σ, hmirrors.after, ?_, ?_,
    fun id => (hlevel id).project⟩
  · have hclosed := hmirrors.closed
    have hclosed' := hmirrors.agrees.reachable
    have hidle' := hmirrors.agrees.idle
    cases hindex : b.engine.index with
    | mk database isClosed queue =>
        cases hindex' : σ.index with
        | mk database' isClosed' queue' => simp_all
  · exact hmirrors.memory.same hmirrors.agrees.memory (Engine.perm_of_entriesOf fun id => (hlevel id).entries)

end Bustle

namespace Engine

variable {S : Setting} {e : Engine}

theorem locks_locked {α : Type} {projectId : String} {call : Engine → Engine × Except Fault α}
    (hcall : ∀ e, (call e).1.locks = e.locks) (hfree : e.locks = .empty) :
    (e.locked projectId call).1.locks = .empty := by
  rcases hlocked : e.locked projectId call with ⟨e', result⟩
  obtain ⟨rfl, -⟩ | ⟨locks, e₁, hacquire, hdone, rfl⟩ := locked_cases hlocked
  · exact hfree
  · have hlocks := hcall { e with locks }
    rw [hdone] at hlocks
    change e₁.locks.release projectId = .empty
    rw [hlocks, ← hfree]
    exact LockTable.release_of_acquire hacquire

theorem locks_runHeld (tree : FileTree) (caller : Caller) (now : Instant) (isFresh : Bool)
    (projectId : String) (e : Engine) :
    (e.runHeld tree caller now isFresh projectId).1.locks = e.locks := by
  rcases hrun : e.runHeld tree caller now isFresh projectId with ⟨e', result⟩
  cases runs_of_runHeld hrun with
  | refused => rfl
  | failed => rfl
  | completed =>
      rw [refresh_eq]
      rfl

theorem locks_removeHeld (caller : Caller) (now : Instant) (projectId : String) (e : Engine) :
    (e.removeHeld caller now projectId).1.locks = e.locks := by
  unfold removeHeld
  dsimp only
  repeat' split
  all_goals first | rfl | (rw [refresh_eq]; rfl)

/-- Between calls nobody has a lock. -/
theorem Reachable.locks (h : Reachable S e) : e.locks = .empty := by
  have hrestored {index : Index} {ignore : IgnoreConfig} {parser : Parser} {minted : Nat}
      {live : Bool} {e : Engine} (h : restore ignore parser index minted live = .ok e) :
      e.locks = .empty := by
    unfold restore at h
    obtain ⟨projects, -, h⟩ := bind_eq_ok_iff.mp h
    obtain ⟨memory, -, h⟩ := bind_eq_ok_iff.mp h
    obtain rfl := Except.ok.inj h
    rw [refresh_eq]
  induction h with
  | opened hopened => exact hrestored hopened
  | reopened h hopened => exact hrestored hopened
  | indexProject h hcovers hsteady now ih => exact locks_locked (locks_runHeld _ _ _ _ _) ih
  | reindexProject h hcovers hsteady now ih => exact locks_locked (locks_runHeld _ _ _ _ _) ih
  | removeProject h hdone ih => exact locks_locked (locks_removeHeld _ _ _) ih
  | addProject h tree live now name path description ih =>
      unfold Engine.addProject
      dsimp only
      repeat' split
      all_goals exact ih

/-- Jobs that are underway at once are serializable: however they take their turns, at most one of a
project is behind its lock and the others are turned away; and when all are done, the engine holds what it
would hold had those that succeeded been done one after the other, in the order of their commits. A
removal must not be stranded between its documents and its row. What the runs find must not depend on who
calls: no two of their files or contents have one identifier or checksum, and no caller gives up in the middle
of a file, which would leave to all others what the parser finds as a last resort. -/
theorem jobs_serialize (h : Reachable S e) {jobs : List Job} (hsuits : ∀ j ∈ jobs, j.Suits S)
    (moves : List Nat) : ((Bustle.start e jobs).run moves).Serializes e := by
  obtain ⟨docs, entries, hagrees⟩ := h.agrees
  have hlocked := Bustle.locked_run h.locks jobs moves
  have hids := Bustle.projectIds_holders ((Bustle.start e jobs).run moves)
  constructor
  · rw [hids]
    exact hlocked.held.nodup_iff.mp hlocked.distinct
  · rw [hids]
    exact hlocked.held
  · intro hnobody
    have hnone := hlocked.held
    rw [← hids, hnobody] at hnone
    exact congrArg LockTable.mk hnone.eq_nil
  · exact fun i j hpost htaken => Bustle.step_refused hlocked hpost htaken
  · intro hnobody hstranded
    obtain hmirrored | hdoomed := Bustle.mirrored_run hagrees h.locks hsuits moves
    · exact hmirrored.settles hnobody
    · obtain hsome | ⟨post, hpost, hbare, -⟩ := hdoomed
      · exact absurd hstranded hsome
      · have hholds := Bustle.not_holds hnobody hpost
        rw [hbare] at hholds
        simp [Progress.holds] at hholds

def otherId : String := (Uuid.ofCounter 2).toString

/-- One project has a file that has been read, the other one is an empty directory. -/
def twoProjects (e : Engine) : Engine :=
  (e.sampleRuns.addProject ⟨[(["b"], .directory)], [], []⟩ true ⟨25, 0, false⟩ "other" "/b" "").1

def sampleJobs : List Job :=
  [⟨sampleId, .run false (sampleTree "def f():\n"), .patient, ⟨30, 0, false⟩⟩,
    ⟨otherId, .removal, .patient, ⟨40, 0, false⟩⟩,
    ⟨sampleId, .run true (sampleTree "\n"), .patient, ⟨50, 0, false⟩⟩]

/-- The second run finds the lock taken. The removal waits for the writer of the first run, and commits
before that run has told memory what it has found. -/
def sampleMoves : List Nat :=
  [0, 0, 1, 1, 2, 0, 1] ++ List.replicate 6 0 ++ [1, 1, 1, 0, 1, 1, 1, 1, 0, 0]

theorem suits_sampleJobs : ∀ j ∈ sampleJobs, j.Suits sampleSetting := by
  have hcovers {text : String} (htext : text ∈ sampleTexts) {isFresh : Bool} {caller : Caller}
      {now : Instant} (hcaller : caller = .patient) :
      (⟨sampleId, .run isFresh (sampleTree text), caller, now⟩ : Job).Suits sampleSetting := by
    intro isFresh' tree hwish
    obtain ⟨rfl, rfl⟩ := Wish.run.inj hwish
    exact ⟨covers_sampleTree htext, hcaller ▸ sampleSetting.steady_patient⟩
  intro j hj
  simp only [sampleJobs, List.mem_cons, List.not_mem_nil, or_false] at hj
  obtain rfl | rfl | rfl := hj
  · exact hcovers (by simp [sampleTexts]) rfl
  · intro isFresh tree hwish
    simp at hwish
  · exact hcovers (by simp [sampleTexts]) rfl

/-- A run and a removal get by one another, and the engine is the one after both. -/
theorem sample_jobs_serialize : ∃ e σ, Reachable sampleSetting e ∧
    ((Bustle.start e sampleJobs).run sampleMoves).commits.map (·.projectId) = [sampleId, otherId] ∧
    e.after? ((Bustle.start e sampleJobs).run sampleMoves).commits = some σ ∧
    ((Bustle.start e sampleJobs).run sampleMoves).engine.index = σ.index ∧
    ((Bustle.start e sampleJobs).run sampleMoves).engine.memory.Same σ.memory := by
  obtain ⟨e, hreachable, hholders, hstranded, hcommits⟩ : ∃ e, Reachable sampleSetting e ∧
      ((Bustle.start e sampleJobs).run sampleMoves).holders.isEmpty = true ∧
      ((Bustle.start e sampleJobs).run sampleMoves).stranded.isEmpty = true ∧
      ((Bustle.start e sampleJobs).run sampleMoves).commits.map (·.projectId) = [sampleId, otherId] :=
    ⟨bareEngine.twoProjects, reachable_bareEngine.sampleRuns.addProject _ _ _ _ _ _,
      by decide +kernel⟩
  obtain ⟨-, σ, hafter, hindex, hmemory, -⟩ := (jobs_serialize hreachable suits_sampleJobs
    sampleMoves).serial (List.isEmpty_iff.mp hholders) (List.isEmpty_iff.mp hstranded)
  exact ⟨e, σ, hreachable, hcommits, hafter, hindex, hmemory⟩

end Engine

end CodeAtlas
