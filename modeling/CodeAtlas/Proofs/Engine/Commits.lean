import CodeAtlas.Proofs.Engine.Quiet

/-!
# Steps that commit

When a job commits its changes, the mirror does the whole job. Whatever the others have found is still
right there, because it is of other projects.
-/

namespace CodeAtlas

namespace Progress

theorem holds_of_writes {progress : Progress} (h : progress.writes = true) :
    progress.holds = true := by
  cases progress <;> first | rfl | simp [writes] at h

theorem isCommitted_of_isPending {progress : Progress} (h : progress.isPending = true) :
    progress.isCommitted = true := by
  cases progress <;> first | rfl | simp [isPending] at h

theorem not_writes_of_isPending {progress : Progress} (h : progress.isPending = true) :
    progress.writes = false := by
  cases progress <;> first | rfl | simp [isPending] at h

theorem isPending_of_owesRow {progress : Progress} (h : progress.owesRow = true) :
    progress.isPending = true := by
  cases progress <;> first | rfl | simp [owesRow] at h

end Progress

namespace Engine

variable {S : Setting} {e₀ e e' σ σ' : Engine} {others : List (Job × Progress)} {commits : List Job}
  {docs docs' : List Document} {kept kept' held : List FileEntry} {j : Job} {before after : Progress}

theorem after?_append {jobs : List Job} {answer : Option RunFigures}
    (h : e₀.after? jobs = some σ) (hperform : j.perform σ = (σ', .ok answer)) :
    e₀.after? (jobs ++ [j]) = some σ' := by
  induction jobs generalizing e₀ with
  | nil =>
      obtain rfl := Option.some.inj h
      simp [after?, hperform]
  | cons first rest ih =>
      rw [List.cons_append, after?]
      rw [after?] at h
      split at h
      · exact ih h
      · simp at h

/-- The row of a project is not owed while another job of it is underway. -/
theorem not_owed_of_holds {locks : LockTable} (h : Locked locks ((j, before) :: others))
    (hholds : before.holds = true) (hbefore : before.owesRow = false) :
    owed ((j, before) :: others) j.projectId = false := by
  have hothers : owed others j.projectId = false := by
    refine List.any_eq_false.mpr fun post hpost => ?_
    by_cases howes : post.2.owesRow = true
    · have hpending := Progress.isPending_of_owesRow howes
      simpa [howes] using h.ne_of_holds hholds hpost (Progress.holds_of_isPending hpending)
    · simp [howes]
  rw [owed_cons]
  simp [hbefore, hothers]

/-- A job commits its changes, and the mirror does all of it. -/
theorem Mirrors.advance (h : Mirrors S e₀ e ((j, before) :: others) commits σ docs kept held)
    (hlocked : Locked e.locks ((j, before) :: others)) (hwrites : before.writes = true)
    (hpending : after.isPending = true) {db db' : Database} {projects : List Project}
    {answer : Option RunFigures} (hperform : j.perform σ = (σ', .ok answer))
    (hleaves : σ.Leaves S σ' db' projects docs' kept')
    (hothers : ∀ id, id ≠ j.projectId → Level σ σ' kept kept' id)
    (hdatabase : db' = db.unlist (owed ((j, after) :: others)))
    (htells : j.Tells S none σ' kept' after) :
    Mirrors S e₀ { e with index := { e.index with database := db, queue := none } }
      ((j, after) :: others) (commits ++ [j]) σ' docs' kept' held := by
  have hholds := Progress.holds_of_writes hwrites
  have hopen := Progress.uncommitted_of_writes hwrites
  have hdone := Progress.isCommitted_of_isPending hpending
  constructor
  · intro post hpost
    rcases List.mem_cons.mp hpost with rfl | hpost
    · exact h.suits (j, before) List.mem_cons_self
    · exact h.suits post (List.mem_cons_of_mem _ hpost)
  · exact after?_append h.after hperform
  · exact hleaves.locks
  · exact hleaves.agrees
  · exact h.parser
  · exact hleaves.ignore.trans h.ignore
  · exact h.closed
  · exact hleaves.database.trans hdatabase
  · exact h.memory
  · exact h.named
  · intro id hnone
    have hid : id ≠ j.projectId := (hnone (j, after) List.mem_cons_self hpending).symm
    have hlevel := h.level id fun post hpost hpost' => by
      rcases List.mem_cons.mp hpost with rfl | hpost
      · exact hid.symm
      · exact hnone post (List.mem_cons_of_mem _ hpost) hpost'
    have hthere := hlevel.trans (hothers id hid)
    exact ⟨hthere.project, hthere.entries⟩
  · refine h.writer.follow ?_
    rw [hwrites, h.writer.isSome hwrites, Progress.not_writes_of_isPending hpending]
    rfl
  · intro post hpost
    rcases List.mem_cons.mp hpost with rfl | hpost
    · exact htells
    · refine (h.tells post (List.mem_cons_of_mem _ hpost)).frame h.agrees.memory
        hleaves.agrees.memory hleaves.ignore (fun hpost' => ?_) fun hpost' => ?_
      · exact hothers _ (hlocked.ne_of_holds hholds hpost hpost')
      · rw [h.writer.idle (.inl hwrites) hpost] at hpost'
        simp at hpost'
  · have hcommits := h.committed
    rw [List.filter_cons, if_neg (by simp [hopen])] at hcommits
    rw [List.filter_cons, if_pos hdone, List.map_cons]
    exact (List.perm_append_singleton j commits).trans (hcommits.cons j)

/-- The index and the mirror make the same changes. -/
theorem Mirrors.writes (h : Mirrors S e₀ e ((j, before) :: others) commits σ docs kept held)
    (hlocked : Locked e.locks ((j, before) :: others)) (hbefore : before.writes = true)
    {ops : List WriteOp} {db : Database} (hconcerns : ∀ op ∈ ops, op.Concerns j.projectId)
    (hwrites : ops.foldlM (·.write j.now) e.index.database = .ok db) :
    ops.foldlM (·.write j.now) σ.index.database =
      .ok (db.unlist (owed ((j, before) :: others))) := by
  have howes := (Progress.uncommitted (Progress.uncommitted_of_writes hbefore)).2
  rw [h.database]
  exact Database.writeAll_unlist hwrites hconcerns
    (not_owed_of_holds hlocked (Progress.holds_of_writes hbefore) howes)

/-- A run commits. -/
theorem Mirrors.commit_run {p : Plan} {s : RunState}
    (h : Mirrors S e₀ e ((j, .filling p s .commit) :: others) commits σ docs kept held)
    (hlocked : Locked e.locks ((j, .filling p s .commit) :: others)) {index : Index}
    (hcommit : e.index.commitUnless j.caller.refusal j.now = (index, .ok ())) :
    ∃ σ' docs' kept', Mirrors S e₀ { e with index } ((j, .committed p s) :: others) (commits ++ [j]) σ'
      docs' kept' held := by
  have htells : j.Tells S e.index.queue σ kept (.filling p s .commit) := h.tells _ List.mem_cons_self
  obtain ⟨⟨isFresh, tree, hwish, hupdated, hstarts⟩, hwaits, ops, hqueue, hhalfway⟩ := htells
  obtain ⟨hcovers, hsteady⟩ := h.suits _ List.mem_cons_self isFresh tree hwish
  have hid : p.run.project.id = j.projectId := (project?_eq_some hstarts.known).2
  have hrefusal := Index.refusal_eq_none hcommit
  obtain ⟨f, hfailed, -⟩ | ⟨queue, db, -, hqueue', hwrites, rfl⟩ := Index.commit_cases hcommit
  · simp at hfailed
  obtain rfl := Option.some.inj (hqueue.symm.trans hqueue')
  obtain ⟨parser, -, hfill⟩ :=
    hhalfway.fill { σ.index with queue := some [] } σ.parser rfl h.agrees.parser
  have hfilled : σ.filled tree j.caller p.run p.candidates p.skipped =
      (s.over { σ.index with queue := some ops } parser, .ok ()) := by
    unfold filled
    rw [hstarts.started, ← hupdated]
    exact hfill
  have hconcerns : ∀ op ∈ ops, op.Concerns j.projectId := hid ▸ hhalfway.concerns
  obtain ⟨hstaged, σ', docs', hperform, hleaves⟩ := h.agrees.perform_run h.free hwish hcovers hsteady
    hstarts hwaits hfilled rfl (h.writes hlocked rfl hconcerns hwrites) hrefusal
  rw [← hupdated] at hleaves
  have hset : p.updated.id = j.projectId := by
    rw [hupdated]
    exact hid
  have hkept : entriesAfter kept p.run (s.over { σ.index with queue := some ops } parser) =
      kept.filter (·.file.projectId != j.projectId) ++ s.staged := by
    unfold entriesAfter
    rw [hid]
    rfl
  rw [hkept] at hleaves
  refine ⟨σ', docs', _, h.advance hlocked rfl rfl hperform hleaves (fun id hother => ?_) rfl
    ⟨hid, hset, project?_of_set hset hleaves.projects, entriesOf_of_set kept hstaged⟩⟩
  exact .of_set hset hleaves.projects hstaged hother

/-- A removal commits. -/
theorem Mirrors.commit_removal
    (h : Mirrors S e₀ e ((j, .emptied) :: others) commits σ docs kept held)
    (hlocked : Locked e.locks ((j, .emptied) :: others))
    (hstays : j.caller.waits .deleteProject = true) {index : Index}
    (hcommit : e.index.commitUnless j.caller.refusal j.now = (index, .ok ())) :
    ∃ σ' docs' kept', Mirrors S e₀ { e with index } ((j, .bare) :: others) (commits ++ [j]) σ' docs'
      kept' held := by
  have htells : j.Tells S e.index.queue σ kept .emptied := h.tells _ List.mem_cons_self
  obtain ⟨⟨hwish, project, hproject⟩, hwaits, hclear, hqueue⟩ := htells
  have hrefusal := Index.refusal_eq_none hcommit
  obtain ⟨f, hfailed, -⟩ | ⟨queue, db, -, hqueue', hwrites, rfl⟩ := Index.commit_cases hcommit
  · simp at hfailed
  obtain rfl := Option.some.inj (hqueue.symm.trans hqueue')
  obtain ⟨σ', hperform, hleaves⟩ := h.agrees.perform_removal h.free hwish hproject hwaits hclear hstays
    (h.writes hlocked rfl (by simp [WriteOp.Concerns]) hwrites) hrefusal
  have hgone : entriesOf (kept.filter (·.file.projectId != j.projectId)) j.projectId = [] := by
    rw [entriesOf_others, if_pos rfl]
  refine ⟨σ', _, _, h.advance hlocked rfl rfl hperform hleaves
    (fun id hother => .of_drop hleaves.projects hother) ?_
    ⟨project?_of_drop hleaves.projects, hgone⟩⟩
  rw [Database.unlist_unlist, owed_cons, owed_cons]
  refine Database.unlist_congr fun row _ => ?_
  simp [Progress.owesRow, Bool.or_comm, Bool.beq_comm]

end Engine

/-! ## Steps after a commit

A run that is committed makes known in memory what it has found; a removal takes away the row of its
project and forgets it. In the mirror all this is done already, and with these steps the engine catches
up with it. -/

theorem Database.hasProject_of_deleteProject {db db' : Database} {id : String}
    (h : db.deleteProject id = .ok db') : db.hasProject id = true := by
  unfold deleteProject at h
  obtain ⟨left, hdrop, h⟩ := bind_eq_ok_iff.mp h
  rw [failing_eq_ok_iff] at hdrop
  obtain ⟨-, -, hdropped⟩ := bind_eq_ok_iff.mp hdrop
  rw [← hasProject_congr (dropDocuments_eq_ok hdropped).1]
  split at h
  · assumption
  · simp [throw, throwThe, MonadExceptOf.throw] at h

theorem Database.unlist_of_not_hasProject {db : Database} {id : String} {hidden : String → Bool}
    (h : db.hasProject id = false) :
    (db.unlist fun other => id == other || hidden other) = db.unlist hidden := by
  refine unlist_congr fun row hrow => ?_
  have hother : row.project.id ≠ id := by
    simpa using List.any_eq_false.mp h row hrow
  simp [hother.symm]

namespace Engine

variable {S : Setting} {e₀ e e' σ : Engine} {others : List (Job × Progress)} {commits : List Job}
  {docs : List Document} {kept held held' : List FileEntry} {j : Job} {before : Progress}

/-- Nothing is known of the documents of a project that is not there. -/
theorem Agrees.bare {entries : List FileEntry} (h : e.Agrees S docs entries) {id : String}
    (hnone : e.project? id = none) : ∀ row ∈ e.index.database.documents, row.file.projectId ≠ id := by
  have hall : docs.filter (·.file.projectId != id) = docs := by
    refine List.filter_eq_self.mpr fun d hd => ?_
    obtain ⟨p, hp, hown⟩ := h.owner hd
    have hother : p.id ≠ id := by simpa using List.find?_eq_none.mp hnone p hp
    simpa [← hown] using hother
  exact Database.Keeps.bare (hall.symm ▸ h.keeps)

theorem Mirrors.catchUp (h : Mirrors S e₀ e ((j, before) :: others) commits σ docs kept held)
    (hpending : before.isPending = true) (howes : before.owesRow = false)
    (hignore : e'.ignore = e.ignore) (hparser : e'.parser.Sound S) (hindex : e'.index = e.index)
    (hmemory : e'.memory.Holds held') (hnamed : ∀ f ∈ held', S.Names f.file)
    (hothers : ∀ id, id ≠ j.projectId → Level e e' held held' id)
    (hown : Level e' σ held' kept j.projectId) (figures : Option RunFigures) :
    Mirrors S e₀ e' ((j, .settled figures) :: others) commits σ docs kept held' := by
  refine h.follow hignore hparser (by rw [hindex]) ?_ hmemory hnamed (fun id hnone => ?_)
    (Progress.isCommitted_of_isPending hpending).symm ?_ (.inr (.inr (by rw [hindex]))) trivial
  · rw [h.database, hindex, owed_cons, owed_cons, howes]
    rfl
  · by_cases hid : id = j.projectId
    · rw [hid]
      exact hown
    · refine (hothers id hid).symm.trans (h.level id fun post hpost hpost' => ?_)
      rcases List.mem_cons.mp hpost with rfl | hpost
      · exact fun hsame => hid hsame.symm
      · exact hnone post (List.mem_cons_of_mem _ hpost) hpost'
  · rw [hindex, Progress.not_writes_of_isPending hpending]
    rfl

/-- A run that is committed makes known what it has staged. -/
theorem Mirrors.step_committed {p : Plan} {s : RunState}
    (h : Mirrors S e₀ e ((j, .committed p s) :: others) commits σ docs kept held) :
    ∃ held', Mirrors S e₀ (j.step e (.committed p s)).1
      ((j, (j.step e (.committed p s)).2) :: others) commits σ docs kept held' := by
  have htells : j.Tells S e.index.queue σ kept (.committed p s) := h.tells _ List.mem_cons_self
  obtain ⟨hid, hset, hproject, hentries⟩ := htells
  have hstaged : ∀ f ∈ s.staged, f ∈ kept ∧ f.file.projectId = j.projectId := by
    intro f hf
    rw [← hentries] at hf
    obtain ⟨hf, hown⟩ := List.mem_filter.mp hf
    exact ⟨hf, beq_iff_eq.mp hown⟩
  have hown : ∀ f ∈ s.staged, f.file.projectId = j.projectId := fun f hf => (hstaged f hf).2
  have hnamed : ∀ f ∈ s.staged, S.Names f.file := fun f hf => h.agrees.named (hstaged f hf).1
  have hothers : ∀ f ∈ held.filter (·.file.projectId != j.projectId),
      f ∈ held ∧ f.file.projectId ≠ j.projectId := by
    intro f hf
    obtain ⟨hf, hother⟩ := List.mem_filter.mp hf
    exact ⟨hf, by simpa using hother⟩
  have hdistinct : ((held.filter (·.file.projectId != j.projectId) ++ s.staged).map
      (·.file.id)).Nodup := by
    rw [List.map_append, List.nodup_append]
    refine ⟨h.memory.distinct.sublist (List.filter_sublist.map _), ?_, ?_⟩
    · rw [← hentries]
      exact h.agrees.memory.distinct.sublist (List.filter_sublist.map _)
    · intro id hid id' hid' hsame
      obtain ⟨f, hf, rfl⟩ := List.mem_map.mp hid
      obtain ⟨g, hg, rfl⟩ := List.mem_map.mp hid'
      have hproject := Setting.Names.projectId_eq (h.named f (hothers f hf).1) (hnamed g hg) hsame
      exact (hothers f hf).2 (hproject.trans (hown g hg))
  let e' := e.adopt p.run (s.over e.index e.parser) p.updated
  have hignore : e'.ignore = e.ignore := rfl
  have hparser : e'.parser.Sound S := h.parser.invalidateAll _
  have hprojects : e'.projects = setProject e.projects p.updated := rfl
  refine ⟨held.filter (·.file.projectId != j.projectId) ++ s.staged,
    h.catchUp rfl rfl hignore hparser rfl ?_ ?_
      (fun id hother => .of_set hset hprojects hown hother) ?_ _⟩
  · change ((e.memory.drop p.run.project.id).setAll s.staged).Holds _
    rw [hid]
    exact (h.memory.drop j.projectId).setAll hdistinct
  · intro f hf
    rcases List.mem_append.mp hf with hf | hf
    · exact h.named f (hothers f hf).1
    · exact hnamed f hf
  · constructor
    · rw [hproject]
      exact project?_of_set hset hprojects
    · rw [entriesOf_of_set held hown, hentries]

/-- A removal takes away the row of its project. -/
theorem Mirrors.step_bare (h : Mirrors S e₀ e ((j, .bare) :: others) commits σ docs kept held)
    (hgoes : (j.step e .bare).2.isCommitted = true) :
    Mirrors S e₀ (j.step e .bare).1 ((j, (j.step e .bare).2) :: others) commits σ docs kept held := by
  have htells : j.Tells S e.index.queue σ kept .bare := h.tells _ List.mem_cons_self
  obtain ⟨hproject, hentries⟩ := htells
  have hlayout : e.index.database.schema = .newest := by
    have hlayout := h.agrees.keeps.layout
    rwa [h.database] at hlayout
  have hbare : ∀ row ∈ e.index.database.documents, row.file.projectId ≠ j.projectId := by
    have hbare := h.agrees.bare hproject
    rwa [h.database] at hbare
  -- the mirror has no row of the project, so it makes no difference whether the index had one
  have hrowless {index : Index} (hindex : index = { e.index with database := index.database })
      (hdatabase : e.index.database.unlist (owed ((j, .bare) :: others)) =
        index.database.unlist (owed others)) :
      Mirrors S e₀ { e with index } ((j, .rowless) :: others) commits σ docs kept held := by
    have hqueue : index.queue = e.index.queue := by rw [hindex]
    have hclosed : index.isClosed = e.index.isClosed := by rw [hindex]
    refine h.follow rfl h.parser hclosed (h.database.trans hdatabase) h.memory h.named
      (fun id hnone => ?_) rfl ?_ (.inr (.inr hqueue)) ⟨hproject, hentries⟩
    · have hlevel := h.level id fun post hpost hpending => by
        rcases List.mem_cons.mp hpost with rfl | hpost
        · exact hnone (j, .rowless) List.mem_cons_self rfl
        · exact hnone post (List.mem_cons_of_mem _ hpost) hpending
      exact ⟨hlevel.project, hlevel.entries⟩
    · change 0 + index.queue.isSome.toNat = 0 + e.index.queue.isSome.toNat
      rw [hqueue]
  have howed : owed ((j, .bare) :: others) = fun id => j.projectId == id || owed others id := rfl
  unfold Job.step at hgoes ⊢
  dsimp only at hgoes ⊢
  split
  · rename_i index hdelete
    obtain ⟨db, hdb, rfl⟩ := Index.deleteProject_eq_ok hdelete
    have hgone := Database.deleteProject_bare hlayout hbare (Database.hasProject_of_deleteProject hdb)
    obtain rfl := Except.ok.inj (hgone.symm.trans hdb)
    refine hrowless rfl ?_
    rw [Database.unlist_unlist, howed]
    refine Database.unlist_congr fun row _ => ?_
    rw [Bool.beq_comm]
  · rename_i f hdelete
    rw [hdelete] at hgoes
    dsimp only at hgoes
    split at hgoes
    · rename_i hmissing
      rw [if_pos hmissing]
      refine hrowless rfl ?_
      rw [howed]
      refine Database.unlist_of_not_hasProject ?_
      by_contra hlisted
      refine Index.deleteProject_error ⟨_, Database.deleteProject_bare hlayout hbare ?_⟩ hdelete
        (beq_iff_eq.mp hmissing)
      simpa using hlisted
    · simp [Progress.isCommitted, Except.isOk, Except.toBool] at hgoes

/-- A removal forgets its project. -/
theorem Mirrors.step_rowless (h : Mirrors S e₀ e ((j, .rowless) :: others) commits σ docs kept held) :
    ∃ held', Mirrors S e₀ (j.step e .rowless).1 ((j, (j.step e .rowless).2) :: others) commits σ docs
      kept held' := by
  have htells : j.Tells S e.index.queue σ kept .rowless := h.tells _ List.mem_cons_self
  obtain ⟨hproject, hentries⟩ := htells
  let e' : Engine :=
    { e.forget j.projectId with generation := e.generation + 1, lastUpdate := j.now }
  have hignore : e'.ignore = e.ignore := rfl
  have hparser : e'.parser.Sound S := h.parser.invalidateAll _
  have hprojects : e'.projects = e.projects.filter (·.id != j.projectId) := rfl
  refine ⟨held.filter (·.file.projectId != j.projectId),
    h.catchUp rfl rfl hignore hparser rfl (h.memory.drop j.projectId)
      (fun f hf => h.named f (List.mem_of_mem_filter hf))
      (fun id hother => .of_drop hprojects hother) ?_ _⟩
  constructor
  · rw [hproject]
    exact project?_of_drop hprojects
  · rw [entriesOf_others, if_pos rfl, hentries]

end Engine

end CodeAtlas
