import CodeAtlas.Proofs.Engine.Mirror

/-!
# Steps that commit nothing

A job takes its lock, looks up what there is to do, opens the writer, queues its changes, gives up, or
gives the lock back. The mirror sees nothing of these steps.
-/

namespace CodeAtlas

theorem Engine.waits_of_openWriter {ix ix' : Index} {caller : Caller}
    (h : Engine.openWriter ix caller = .ok ix') : caller.waits .openWriter = true := by
  by_contra hleft
  simp [Engine.openWriter, hleft, inContext] at h

theorem Progress.uncommitted_of_writes {progress : Progress} (h : progress.writes = true) :
    progress.isCommitted = false := by
  cases progress <;> first | rfl | simp [writes] at h

namespace Engine

variable {S : Setting} {e₀ e σ : Engine} {others : List (Job × Progress)} {commits : List Job}
  {docs : List Document} {kept held : List FileEntry} {j : Job} {before : Progress}

theorem SameStores.refl (e : Engine) : SameStores e e := ⟨rfl, rfl, rfl, rfl, rfl⟩

theorem Mirrors.step_begun (h : Mirrors S e₀ e ((j, .begun) :: others) commits σ docs kept held) :
    Mirrors S e₀ (j.step e .begun).1 ((j, (j.step e .begun).2) :: others) commits σ docs kept held := by
  unfold Job.step
  dsimp only
  split
  · exact h.quiet (.refl e) h.parser rfl rfl rfl rfl (.inr (.inr rfl)) trivial
  · exact h.quiet ⟨rfl, rfl, rfl, rfl, rfl⟩ h.parser rfl rfl rfl rfl (.inr (.inr rfl)) trivial

/-- What a job looks up in the engine it would look up in the mirror. -/
theorem Mirrors.step_admitted
    (h : Mirrors S e₀ e ((j, .admitted) :: others) commits σ docs kept held)
    (hlocked : Locked e.locks ((j, .admitted) :: others)) :
    Mirrors S e₀ (j.step e .admitted).1 ((j, (j.step e .admitted).2) :: others) commits σ docs kept
      held := by
  have hlevel := h.own_level hlocked rfl rfl
  change Mirrors S e₀ e ((j, j.lookUp e) :: others) commits σ docs kept held
  have hleaves (f : Fault) :
      Mirrors S e₀ e ((j, .leaving (.error f)) :: others) commits σ docs kept held :=
    h.quiet (.refl e) h.parser rfl rfl rfl rfl (.inr (.inr rfl)) trivial
  unfold Job.lookUp
  split
  · exact hleaves _
  · rename_i project hproject
    split
    · rename_i hwish
      refine h.quiet (.refl e) h.parser rfl rfl rfl rfl (.inr (.inr rfl)) ⟨hwish, project, ?_⟩
      rw [← hlevel.project, hproject]
    · rename_i isFresh tree hwish
      split
      · exact hleaves _
      · rename_i ignore classifier hrules
        split
        · exact hleaves _
        · rename_i candidates skipped hdiscover
          refine h.quiet (.refl e) h.parser rfl rfl rfl rfl (.inr (.inr rfl))
            ⟨isFresh, tree, hwish, rfl, ?_⟩
          exact hlevel.starts h.memory h.agrees.memory h.ignore
            ⟨rfl, rfl, hproject, rfl, classifier, hrules, hdiscover⟩

theorem Mirrors.enter (h : Mirrors S e₀ e ((j, before) :: others) commits σ docs kept held)
    (hwrites : before.writes = false) (hopen : before.isCommitted = false)
    {after : Index → Progress} (hwriter : ∀ index, (after index).writes = true)
    (htells : j.caller.waits .openWriter = true → ∀ index, j.Tells S (some []) σ kept (after index)) :
    Mirrors S e₀ (j.enter e before after).1 ((j, (j.enter e before after).2) :: others) commits σ docs
      kept held := by
  obtain ⟨hpending, howes⟩ := Progress.uncommitted hopen
  unfold Job.enter
  split
  · exact h
  · split
    · exact h.quiet (.refl e) h.parser hpending.symm howes.symm hopen.symm (by rw [hwrites]; rfl)
        (.inr (.inr rfl)) trivial
    · rename_i index hopened
      have hwaits := waits_of_openWriter hopened
      obtain ⟨hidle, rfl⟩ := openWriter_eq_ok hopened
      have hnew := Progress.uncommitted_of_writes (hwriter { e.index with queue := some [] })
      obtain ⟨hpending', howes'⟩ := Progress.uncommitted hnew
      refine h.quiet ⟨rfl, rfl, rfl, rfl, rfl⟩ h.parser (hpending'.trans hpending.symm)
        (howes'.trans howes.symm) (hnew.trans hopen.symm) ?_ (.inr (.inl hidle)) (htells hwaits _)
      rw [hwrites, hwriter, hidle]
      rfl

theorem Mirrors.step_ready {p : Plan}
    (h : Mirrors S e₀ e ((j, .ready p) :: others) commits σ docs kept held) :
    Mirrors S e₀ (j.step e (.ready p)).1 ((j, (j.step e (.ready p)).2) :: others) commits σ docs kept
      held := by
  have hprepared : j.Prepared σ p := h.tells _ List.mem_cons_self
  exact h.enter rfl rfl (fun _ => rfl) fun hwaits index =>
    ⟨hprepared, hwaits, [], rfl, p.halfway_begun S j.caller index e.parser⟩

theorem Mirrors.step_found (h : Mirrors S e₀ e ((j, .found) :: others) commits σ docs kept held) :
    Mirrors S e₀ (j.step e .found).1 ((j, (j.step e .found).2) :: others) commits σ docs kept held := by
  have hfinds : j.Finds σ := h.tells _ List.mem_cons_self
  exact h.enter rfl rfl (fun _ => rfl) fun hwaits _ => ⟨hfinds, hwaits, rfl⟩

/-- A job that has the writer gives up; nothing of what it has queued is left. -/
theorem Mirrors.giveUp (h : Mirrors S e₀ e ((j, before) :: others) commits σ docs kept held)
    (hwrites : before.writes = true) {parser : Parser} (hparser : parser.Sound S) (f : Fault) :
    Mirrors S e₀ { e with index := discard e.index, parser } ((j, .leaving (.error f)) :: others)
      commits σ docs kept held := by
  have hopen := Progress.uncommitted_of_writes hwrites
  obtain ⟨hpending, howes⟩ := Progress.uncommitted hopen
  refine h.quiet ⟨rfl, rfl, rfl, rfl, rfl⟩ hparser hpending.symm howes.symm hopen.symm ?_ (.inl hwrites)
    trivial
  rw [hwrites, h.writer.isSome hwrites]
  rfl

/-- A commit that fails. -/
theorem Mirrors.commit_failed (h : Mirrors S e₀ e ((j, before) :: others) commits σ docs kept held)
    (hwrites : before.writes = true) {index : Index} {f : Fault}
    (hcommit : e.index.commitUnless j.caller.refusal j.now = (index, .error f)) (context : String)
    (after : Progress) :
    Mirrors S e₀ (j.commit e context after).1 ((j, (j.commit e context after).2) :: others) commits σ
      docs kept held := by
  rw [Job.commit_of_error hcommit, Index.eq_discard_of_commit_error hcommit]
  exact h.giveUp hwrites h.parser _

theorem Prepared.fits {p : Plan} (h : j.Prepared σ p) (hsuits : j.Suits S) :
    p.Fits S ∧ S.Steady j.caller := by
  obtain ⟨isFresh, tree, hwish, hupdated, hstarts⟩ := h
  obtain ⟨hcovers, hsteady⟩ := hsuits isFresh tree hwish
  refine ⟨⟨(hstarts.meets hcovers).1, ?_⟩, hsteady⟩
  rw [hupdated]
  rfl

/-- A run does an errand. -/
theorem Mirrors.step_filling {p : Plan} {s : RunState} {errand : Errand}
    (h : Mirrors S e₀ e ((j, .filling p s errand) :: others) commits σ docs kept held)
    (hmore : errand ≠ .commit) :
    Mirrors S e₀ (j.step e (.filling p s errand)).1
      ((j, (j.step e (.filling p s errand)).2) :: others) commits σ docs kept held := by
  have htells : j.Tells S e.index.queue σ kept (.filling p s errand) := h.tells _ List.mem_cons_self
  obtain ⟨hprepared, hwaits, ops, hqueue, hhalfway⟩ := htells
  obtain ⟨hfits, hsteady⟩ := Prepared.fits hprepared (h.suits _ List.mem_cons_self)
  rw [j.step_filling e p s hmore]
  split
  · rename_i s' next hproceed
    obtain ⟨hsound, more, hindex, hnext⟩ :=
      (hhalfway.over e.index e.parser).proceed hproceed hfits h.parser hsteady
    have hindex' : s'.index = e.index.enqueue more := hindex
    rw [hindex']
    have hqueue' : (e.index.enqueue more).queue = some (ops ++ more) := by
      rw [Index.enqueue, hqueue]
      rfl
    refine h.quiet ⟨rfl, rfl, rfl, rfl, rfl⟩ hsound rfl rfl rfl ?_ (.inl rfl)
      ⟨hprepared, hwaits, ops ++ more, hqueue', hnext⟩
    rw [hqueue', hqueue]
    rfl
  · rename_i s' f hproceed
    have hsound : (p.proceed j.caller (s.over e.index e.parser) errand).1.parser.Sound S :=
      Plan.proceed_preserves (P := fun s => s.parser.Sound S)
        (fun live op => by
          rw [Run.parser_queue]
          exact h.parser)
        (fun c left htake => Run.take_sound h.parser hsteady
          (hfits.meets c ((htake ▸ hhalfway.within : p.Within (.take (c :: left))) List.mem_cons_self)))
        h.parser
    have hextends := p.proceed_extends j.caller (s.over e.index e.parser) errand
    rw [hproceed] at hsound hextends
    rw [hextends.discard_eq]
    exact h.giveUp rfl hsound f

theorem Mirrors.step_emptying
    (h : Mirrors S e₀ e ((j, .emptying) :: others) commits σ docs kept held) :
    Mirrors S e₀ (j.step e .emptying).1 ((j, (j.step e .emptying).2) :: others) commits σ docs kept
      held := by
  have htells : j.Tells S e.index.queue σ kept .emptying := h.tells _ List.mem_cons_self
  obtain ⟨hfinds, hwaits, hqueue⟩ := htells
  unfold Job.step
  dsimp only
  split
  · exact h.giveUp rfl h.parser _
  · rename_i hclear
    rw [Index.submit, hqueue]
    refine h.quiet ⟨rfl, rfl, rfl, rfl, rfl⟩ h.parser rfl rfl rfl ?_ (.inl rfl)
      ⟨hfinds, hwaits, by simpa using hclear, rfl⟩
    rw [hqueue]
    rfl

theorem Mirrors.step_settled {figures : Option RunFigures}
    (h : Mirrors S e₀ e ((j, .settled figures) :: others) commits σ docs kept held) :
    Mirrors S e₀ (j.step e (.settled figures)).1 ((j, (j.step e (.settled figures)).2) :: others)
      commits σ docs kept held := by
  change Mirrors S e₀ (e.refresh (j.caller.waits .figures)) ((j, .leaving (.ok figures)) :: others)
    commits σ docs kept held
  rw [refresh_eq]
  exact h.quiet ⟨rfl, rfl, rfl, rfl, rfl⟩ h.parser rfl rfl rfl rfl (.inr (.inr rfl)) trivial

theorem Mirrors.step_leaving {answer : Answer}
    (h : Mirrors S e₀ e ((j, .leaving answer) :: others) commits σ docs kept held) :
    Mirrors S e₀ (j.step e (.leaving answer)).1 ((j, (j.step e (.leaving answer)).2) :: others) commits
      σ docs kept held :=
  h.quiet ⟨rfl, rfl, rfl, rfl, rfl⟩ h.parser rfl rfl rfl rfl (.inr (.inr rfl)) trivial

end Engine

end CodeAtlas
