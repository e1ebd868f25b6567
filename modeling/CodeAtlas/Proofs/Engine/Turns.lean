import CodeAtlas.Proofs.Engine.Jobs
import CodeAtlas.Proofs.Engine.Restore

/-!
# Whose turn it is

At most one job of a project is behind its lock, and the lock table has the projects of just these jobs.
At most one job has the writer. A job that finds the lock of its project taken is turned away, and
nothing else happens.
-/

namespace CodeAtlas

/-- The lock table has the projects of the jobs that are underway, each of them once. -/
structure Locked (locks : LockTable) (posts : List (Job × Progress)) : Prop where
  held : locks.held.Perm ((posts.filter (·.2.holds)).map (·.1.projectId))
  distinct : locks.held.Nodup

/-- There is a queue if one of the jobs has the writer, and no two have it. -/
def Manned (queue : Option (List WriteOp)) (posts : List (Job × Progress)) : Prop :=
  posts.countP (·.2.writes) = queue.isSome.toNat

section

variable {locks : LockTable} {queue queue' : Option (List WriteOp)} {j : Job} {before after : Progress}
  {others posts posts' : List (Job × Progress)}

theorem Locked.perm (h : Locked locks posts) (hperm : posts.Perm posts') : Locked locks posts' :=
  ⟨h.held.trans ((hperm.filter _).map _), h.distinct⟩

theorem Locked.same (h : Locked locks ((j, before) :: others)) (hholds : after.holds = before.holds) :
    Locked locks ((j, after) :: others) := by
  refine ⟨?_, h.distinct⟩
  have hheld := h.held
  by_cases hbefore : before.holds = true
  · simpa [List.filter_cons, hholds, hbefore] using hheld
  · simpa [List.filter_cons, hholds, hbefore] using hheld

theorem Locked.acquire {locks' : LockTable} (h : Locked locks ((j, before) :: others))
    (hbefore : before.holds = false) (hafter : after.holds = true)
    (hacquire : locks.acquire j.projectId = (locks', true)) :
    Locked locks' ((j, after) :: others) := by
  unfold LockTable.acquire at hacquire
  split at hacquire
  · simp at hacquire
  · rename_i hfree
    obtain ⟨rfl, -⟩ := Prod.mk.inj hacquire
    have hheld := h.held
    simp only [List.filter_cons, hbefore, Bool.false_eq_true, ↓reduceIte] at hheld
    refine ⟨?_, List.nodup_cons.mpr ⟨by simpa using hfree, h.distinct⟩⟩
    simpa [List.filter_cons, hafter] using hheld.cons j.projectId

/-- No other job that is underway is one for the same project. -/
theorem Locked.ne_of_holds (h : Locked locks ((j, before) :: others)) (hbefore : before.holds = true)
    {post : Job × Progress} (hpost : post ∈ others) (hholds : post.2.holds = true) :
    post.1.projectId ≠ j.projectId := by
  have hdistinct := h.held.nodup_iff.mp h.distinct
  simp only [List.filter_cons, hbefore, ↓reduceIte, List.map_cons, List.nodup_cons] at hdistinct
  intro hsame
  exact hdistinct.1 (List.mem_map.mpr ⟨post, List.mem_filter.mpr ⟨hpost, hholds⟩, hsame⟩)

theorem Locked.release (h : Locked locks ((j, before) :: others)) (hbefore : before.holds = true)
    (hafter : after.holds = false) :
    Locked (locks.release j.projectId) ((j, after) :: others) := by
  have hheld := h.held.filter (· != j.projectId)
  have hstay : ((others.filter (·.2.holds)).map (·.1.projectId)).filter (· != j.projectId) =
      (others.filter (·.2.holds)).map (·.1.projectId) := by
    refine List.filter_eq_self.mpr fun id hid => ?_
    obtain ⟨post, hpost, rfl⟩ := List.mem_map.mp hid
    obtain ⟨hpost, hholds⟩ := List.mem_filter.mp hpost
    simpa using h.ne_of_holds hbefore hpost hholds
  refine ⟨?_, h.distinct.sublist List.filter_sublist⟩
  simpa [LockTable.release, List.filter_cons, hbefore, hafter, hstay] using hheld

theorem Manned.perm (h : Manned queue posts) (hperm : posts.Perm posts') : Manned queue posts' := by
  unfold Manned at h ⊢
  rw [← hperm.countP_eq, h]

theorem Manned.count (h : Manned queue ((j, before) :: others)) :
    others.countP (·.2.writes) + before.writes.toNat = queue.isSome.toNat := by
  rw [← h, List.countP_cons]
  cases before.writes <;> rfl

theorem Manned.isSome (h : Manned queue ((j, before) :: others)) (hwrites : before.writes = true) :
    queue.isSome = true := by
  have hcount := h.count
  rw [hwrites, Bool.toNat_true] at hcount
  by_contra hnone
  rw [Bool.not_eq_true] at hnone
  rw [hnone, Bool.toNat_false] at hcount
  omega

theorem Manned.follow (h : Manned queue ((j, before) :: others))
    (hcount : before.writes.toNat + queue'.isSome.toNat =
      after.writes.toNat + queue.isSome.toNat) : Manned queue' ((j, after) :: others) := by
  have hothers := h.count
  have hafter : ((j, after) :: others).countP (·.2.writes) =
      others.countP (·.2.writes) + after.writes.toNat := by
    rw [List.countP_cons]
    cases after.writes <;> rfl
  unfold Manned
  omega

theorem Manned.idle (h : Manned queue ((j, before) :: others))
    (halone : before.writes = true ∨ queue = none) {post : Job × Progress} (hpost : post ∈ others) :
    post.2.writes = false := by
  have hothers := h.count
  have hone : queue.isSome.toNat ≤ 1 := Bool.toNat_le _
  have hnone : others.countP (·.2.writes) = 0 := by
    obtain hwrites | hqueue := halone
    · rw [hwrites, Bool.toNat_true] at hothers
      omega
    · rw [hqueue, Option.isSome_none, Bool.toNat_false] at hothers
      omega
  simpa using List.countP_eq_zero.mp hnone post hpost

end

namespace Job

theorem locks_enter (j : Job) (e : Engine) (before : Progress) (after : Index → Progress) :
    (j.enter e before after).1.locks = e.locks := by
  unfold enter
  split
  · rfl
  · split <;> rfl

theorem holds_enter (j : Job) (e : Engine) {before : Progress} {after : Index → Progress}
    (hbefore : before.holds = true) (hafter : ∀ index, (after index).holds = true) :
    (j.enter e before after).2.holds = true := by
  unfold enter
  split
  · exact hbefore
  · split
    · rfl
    · exact hafter _

theorem commit_of_ok {j : Job} {e : Engine} {index : Index}
    (h : e.index.commitUnless j.caller.refusal j.now = (index, .ok ())) (context : String)
    (after : Progress) : j.commit e context after = ({ e with index }, after) := by
  unfold commit
  rw [h]

theorem commit_of_error {j : Job} {e : Engine} {index : Index} {f : Fault}
    (h : e.index.commitUnless j.caller.refusal j.now = (index, .error f)) (context : String)
    (after : Progress) :
    j.commit e context after = ({ e with index }, .leaving (.error (f.within context))) := by
  unfold commit
  rw [h]

theorem locks_commit (j : Job) (e : Engine) (context : String) (after : Progress) :
    (j.commit e context after).1.locks = e.locks := by
  unfold commit
  split <;> rfl

theorem holds_commit (j : Job) (e : Engine) (context : String) {after : Progress}
    (hafter : after.holds = true) : (j.commit e context after).2.holds = true := by
  unfold commit
  split
  · rfl
  · exact hafter

theorem holds_lookUp (j : Job) (e : Engine) : (j.lookUp e).holds = true := by
  unfold lookUp
  split
  · rfl
  · split
    · rfl
    · split
      · rfl
      · split <;> rfl

/-- Between taking the lock and giving it back a job leaves the lock table alone. -/
theorem step_underway (j : Job) (e : Engine) {progress : Progress} (hholds : progress.holds = true)
    (hstays : ∀ answer, progress ≠ .leaving answer) :
    (j.step e progress).1.locks = e.locks ∧ (j.step e progress).2.holds = true := by
  cases progress with
  | begun => simp [Progress.holds] at hholds
  | gone answer => simp [Progress.holds] at hholds
  | leaving answer => exact absurd rfl (hstays answer)
  | admitted => exact ⟨rfl, j.holds_lookUp e⟩
  | ready p => exact ⟨j.locks_enter e _ _, j.holds_enter e rfl fun _ => rfl⟩
  | found => exact ⟨j.locks_enter e _ _, j.holds_enter e rfl fun _ => rfl⟩
  | emptied => exact ⟨j.locks_commit e _ _, j.holds_commit e _ rfl⟩
  | committed p s => exact ⟨rfl, rfl⟩
  | rowless => exact ⟨rfl, rfl⟩
  | settled figures =>
      refine ⟨?_, rfl⟩
      unfold step
      rw [Engine.refresh_eq]
  | filling p s errand =>
      cases errand with
      | commit => exact ⟨j.locks_commit e _ _, j.holds_commit e _ rfl⟩
      | _ =>
          unfold step
          dsimp only
          split <;> exact ⟨rfl, rfl⟩
  | emptying =>
      unfold step
      dsimp only
      split
      · exact ⟨rfl, rfl⟩
      · split <;> exact ⟨rfl, rfl⟩
  | bare =>
      unfold step
      dsimp only
      split
      · exact ⟨rfl, rfl⟩
      · split <;> exact ⟨rfl, rfl⟩

end Job

/-- A step keeps the lock table to the projects of the jobs that are underway. -/
theorem Locked.step {e : Engine} (h : Locked e.locks ((j, before) :: others)) :
    Locked (j.step e before).1.locks ((j, (j.step e before).2) :: others) := by
  by_cases hholds : before.holds = true
  · by_cases hleaves : ∃ answer, before = .leaving answer
    · obtain ⟨answer, rfl⟩ := hleaves
      exact h.release rfl rfl
    · obtain ⟨hlocks, hstill⟩ := j.step_underway e hholds fun answer hsame => hleaves ⟨answer, hsame⟩
      rw [hlocks]
      exact h.same (hstill.trans hholds.symm)
  · cases before with
    | begun =>
        unfold Job.step
        dsimp only
        split
        · exact h.same rfl
        · rename_i locks hacquire
          exact h.acquire rfl rfl hacquire
    | gone answer => exact h.same rfl
    | _ => exact absurd rfl hholds

namespace Bustle

variable {b : Bustle}

/-- What a move comes to: nothing, or the next step of one of the jobs. -/
theorem step_cases (b : Bustle) (i : Nat) : b.step i = b ∨ ∃ j before others,
    b.posts.Perm ((j, before) :: others) ∧
    (b.step i).posts.Perm ((j, (j.step b.engine before).2) :: others) ∧
    (b.step i).engine = (j.step b.engine before).1 ∧
    (b.step i).commits =
      (if !before.isCommitted && (j.step b.engine before).2.isCommitted then b.commits ++ [j]
      else b.commits) ∧
    (b.step i).stranded =
      if before.isCommitted && !(j.step b.engine before).2.isCommitted then b.stranded ++ [j]
      else b.stranded := by
  unfold step
  cases hpost : b.posts[i]? with
  | none => exact .inl rfl
  | some post =>
      obtain ⟨j, before⟩ := post
      obtain ⟨hi, hget⟩ := List.getElem?_eq_some_iff.mp hpost
      have hperm := List.getElem_cons_eraseIdx_perm hi
      rw [hget] at hperm
      exact .inr ⟨j, before, b.posts.eraseIdx i, hperm.symm, List.set_perm_cons_eraseIdx hi _,
        rfl, rfl, rfl⟩

/-- What each move keeps, a run keeps. -/
theorem run_keeps {P : Bustle → Prop} (hstep : ∀ b i, P b → P (b.step i)) (h : P b)
    (moves : List Nat) : P (b.run moves) := by
  induction moves generalizing b with
  | nil => exact h
  | cons i rest ih => exact ih (hstep b i h)

theorem locked_start {e : Engine} (hfree : e.locks = .empty) (jobs : List Job) :
    Locked (start e jobs).engine.locks (start e jobs).posts := by
  have hnobody : (start e jobs).posts.filter (·.2.holds) = [] := by
    refine List.filter_eq_nil_iff.mpr fun post hpost => ?_
    obtain ⟨j, -, rfl⟩ := List.mem_map.mp hpost
    simp [Progress.holds]
  have hlocks : (start e jobs).engine.locks = .empty := hfree
  rw [hlocks]
  refine ⟨?_, .nil⟩
  rw [hnobody]
  exact .nil

theorem locked_step (i : Nat) (h : Locked b.engine.locks b.posts) :
    Locked (b.step i).engine.locks (b.step i).posts := by
  obtain hsame | ⟨j, before, others, hposts, hposts', hengine, -⟩ := b.step_cases i
  · rwa [hsame]
  · rw [hengine]
    exact (h.perm hposts).step.perm hposts'.symm

/-- However the jobs take their turns, the lock table has the projects of those that are underway, each
of them once. -/
theorem locked_run {e : Engine} (hfree : e.locks = .empty) (jobs : List Job) (moves : List Nat) :
    Locked ((start e jobs).run moves).engine.locks ((start e jobs).run moves).posts :=
  run_keeps (P := fun b => Locked b.engine.locks b.posts) (fun _ i h => locked_step i h)
    (locked_start hfree jobs) moves

/-- A job that finds another one of its project underway is turned away, and nothing else happens. -/
theorem step_refused (h : Locked b.engine.locks b.posts) {i : Nat} {j : Job}
    (hpost : b.posts[i]? = some (j, .begun)) (htaken : ∃ k ∈ b.holders, k.projectId = j.projectId) :
    b.step i =
      { b with posts := b.posts.set i (j, .gone (.error (.of .indexingInProgress))) } := by
  obtain ⟨k, hk, hsame⟩ := htaken
  obtain ⟨post, hpost', rfl⟩ := List.mem_map.mp hk
  have hheld : j.projectId ∈ b.engine.locks.held :=
    h.held.mem_iff.mpr (List.mem_map.mpr ⟨post, hpost', hsame⟩)
  have hacquire : b.engine.locks.acquire j.projectId = (b.engine.locks, false) := by
    unfold LockTable.acquire
    rw [if_pos (List.contains_iff_mem.mpr hheld)]
  unfold step Job.step
  simp [hpost, hacquire, Progress.isCommitted, Except.isOk, Except.toBool]

end Bustle

end CodeAtlas
