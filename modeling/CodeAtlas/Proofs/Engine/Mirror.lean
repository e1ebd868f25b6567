import CodeAtlas.Proofs.Engine.Level
import CodeAtlas.Proofs.Engine.Turns

/-!
# The engine that does one job after the other

Beside an engine with jobs underway stands one that does a job as a whole at the moment when the other
one commits it. The two are level at all projects but those of jobs that memory does not know of yet, and
what a job has found in the one it would find in the other. So the step that commits a job can be
answered by doing all of it.
-/

namespace CodeAtlas

/-- The identifier of a file is made from its project and a name that comes up. -/
def Setting.Names (S : Setting) (f : IndexedFile) : Prop :=
  ∃ path, (f.projectId, path) ∈ S.names ∧ f.id = fileId f.projectId path

theorem Setting.Names.projectId_eq {S : Setting} {f g : IndexedFile} (h : S.Names f) (h' : S.Names g)
    (hid : f.id = g.id) : f.projectId = g.projectId := by
  obtain ⟨path, hname, hfile⟩ := h
  obtain ⟨path', hname', hfile'⟩ := h'
  exact congrArg Prod.fst (S.fileId_injOn hname hname' (hfile.symm.trans (hid.trans hfile')))

theorem Engine.Agrees.named {S : Setting} {e : Engine} {docs : List Document}
    {entries : List FileEntry} (h : e.Agrees S docs entries) {f : FileEntry} (hf : f ∈ entries) :
    S.Names f.file := by
  obtain ⟨d, hd, hdocument⟩ := h.document_of_entry hf
  obtain ⟨p, hp, hown⟩ := h.owner hd
  obtain ⟨path, hname, hid⟩ := (h.explained p hp d hd hown.symm).id_eq
  refine ⟨path, ?_, ?_⟩
  · rwa [FileEntry.projectId_of_document_eq hdocument]
  · rw [FileEntry.id_of_document_eq hdocument, FileEntry.projectId_of_document_eq hdocument, hid]

namespace Progress

/-- Whether the index has the changes of the job, but memory has not. -/
def isPending : Progress → Bool
  | committed .. => true
  | bare => true
  | rowless => true
  | _ => false

/-- Whether the row of the project is still there, though it goes with the documents. -/
def owesRow : Progress → Bool
  | bare => true
  | _ => false

theorem holds_of_isPending {progress : Progress} (h : progress.isPending = true) :
    progress.holds = true := by
  cases progress <;> first | rfl | simp [isPending] at h

/-- A job that has not committed has left nothing. -/
theorem uncommitted {progress : Progress} (h : progress.isCommitted = false) :
    progress.isPending = false ∧ progress.owesRow = false := by
  cases progress <;> first | exact ⟨rfl, rfl⟩ | simp [isCommitted] at h

end Progress

/-- Whether the row of a project is still there, though it goes with the documents. -/
def owed (posts : List (Job × Progress)) (id : String) : Bool :=
  posts.any fun post => post.2.owesRow && post.1.projectId == id

section

variable {posts posts' : List (Job × Progress)}

theorem owed_perm (hperm : posts.Perm posts') : owed posts = owed posts' := by
  funext id
  exact hperm.any_eq

theorem owed_cons (j : Job) (before : Progress) (others : List (Job × Progress)) :
    owed ((j, before) :: others) = fun id =>
      before.owesRow && j.projectId == id || owed others id := rfl

end

namespace Job

/-- What is asked of a run: the files of its tree have identifiers and checksums that collide with no others,
and parsing finds the same for its caller as for one who waits. So a run whose caller gives up in the middle of a
file is left out: the parser would keep what it finds as a last resort, and later runs would be told that. -/
def Suits (j : Job) (S : Setting) : Prop :=
  ∀ isFresh tree, j.wish = .run isFresh tree → S.Covers tree j.projectId ∧ S.Steady j.caller

/-- The run would find the same in the mirror. -/
def Prepared (j : Job) (σ : Engine) (p : Plan) : Prop :=
  ∃ isFresh tree, j.wish = .run isFresh tree ∧ p.updated = p.run.updatedProject tree j.now ∧
    σ.Starts tree j.caller j.now isFresh j.projectId p.run p.candidates p.skipped

/-- The removal would find its project in the mirror. -/
def Finds (j : Job) (σ : Engine) : Prop :=
  j.wish = .removal ∧ ∃ project, σ.project? j.projectId = some project

/-- What a job has found, and what it has queued, as the mirror sees it. -/
def Tells (j : Job) (S : Setting) (queue : Option (List WriteOp)) (σ : Engine)
    (kept : List FileEntry) : Progress → Prop
  | .ready p => j.Prepared σ p
  | .filling p s errand =>
      j.Prepared σ p ∧ j.caller.waits .openWriter = true ∧
        ∃ ops, queue = some ops ∧ p.Halfway S j.caller ops s errand
  | .committed p s =>
      p.run.project.id = j.projectId ∧ p.updated.id = j.projectId ∧
        σ.project? j.projectId = some p.updated ∧
        Engine.entriesOf kept j.projectId = s.staged
  | .found => j.Finds σ
  | .emptying => j.Finds σ ∧ j.caller.waits .openWriter = true ∧ queue = some []
  | .emptied =>
      j.Finds σ ∧ j.caller.waits .openWriter = true ∧ j.caller.waits .clear = true ∧
        queue = some [.deleteProjectDocuments j.projectId]
  | .bare => σ.project? j.projectId = none ∧ Engine.entriesOf kept j.projectId = []
  | .rowless => σ.project? j.projectId = none ∧ Engine.entriesOf kept j.projectId = []
  | _ => True

variable {j : Job} {S : Setting} {queue queue' : Option (List WriteOp)} {σ σ' : Engine}
  {docs docs' : List Document} {kept kept' : List FileEntry} {progress : Progress}

/-- What becomes of another project, and of the queue of somebody else, is no matter for a job. -/
theorem Tells.frame (h : j.Tells S queue σ kept progress) (hmemory : σ.memory.Holds kept)
    (hmemory' : σ'.memory.Holds kept') (hignore : σ'.ignore = σ.ignore)
    (hlevel : progress.holds = true → Engine.Level σ σ' kept kept' j.projectId)
    (hqueue : progress.writes = true → queue' = queue) : j.Tells S queue' σ' kept' progress := by
  have hprepared {p : Plan} (hlevel : Engine.Level σ σ' kept kept' j.projectId)
      (h : j.Prepared σ p) : j.Prepared σ' p := by
    obtain ⟨isFresh, tree, hwish, hupdated, hstarts⟩ := h
    exact ⟨isFresh, tree, hwish, hupdated, hlevel.starts hmemory hmemory' hignore hstarts⟩
  have hfinds (hlevel : Engine.Level σ σ' kept kept' j.projectId) (h : j.Finds σ) : j.Finds σ' := by
    obtain ⟨hwish, project, hproject⟩ := h
    exact ⟨hwish, project, hlevel.project ▸ hproject⟩
  cases progress with
  | ready p => exact hprepared (hlevel rfl) h
  | filling p s errand =>
      obtain ⟨hready, hwaits, hrest⟩ := h
      exact ⟨hprepared (hlevel rfl) hready, hwaits, hqueue rfl ▸ hrest⟩
  | committed p s =>
      obtain ⟨hid, hupdated, hproject, hentries⟩ := h
      exact ⟨hid, hupdated, (hlevel rfl).project ▸ hproject, (hlevel rfl).entries ▸ hentries⟩
  | found => exact hfinds (hlevel rfl) h
  | emptying => exact ⟨hfinds (hlevel rfl) h.1, h.2.1, hqueue rfl ▸ h.2.2⟩
  | emptied => exact ⟨hfinds (hlevel rfl) h.1, h.2.1, h.2.2.1, hqueue rfl ▸ h.2.2.2⟩
  | bare => exact ⟨(hlevel rfl).project ▸ h.1, (hlevel rfl).entries ▸ h.2⟩
  | rowless => exact ⟨(hlevel rfl).project ▸ h.1, (hlevel rfl).entries ▸ h.2⟩
  | begun => trivial
  | admitted => trivial
  | settled figures => trivial
  | leaving answer => trivial
  | gone answer => trivial

end Job

namespace Engine

/-- The mirror of an engine with jobs underway. -/
structure Mirrors (S : Setting) (e₀ e : Engine) (posts : List (Job × Progress)) (commits : List Job)
    (σ : Engine) (docs : List Document) (kept held : List FileEntry) : Prop where
  suits : ∀ post ∈ posts, post.1.Suits S
  after : e₀.after? commits = some σ
  free : σ.locks = .empty
  agrees : σ.Agrees S docs kept
  parser : e.parser.Sound S
  ignore : σ.ignore = e.ignore
  closed : e.index.isClosed = false
  database : σ.index.database = e.index.database.unlist (owed posts)
  memory : e.memory.Holds held
  named : ∀ f ∈ held, S.Names f.file
  level : ∀ id, (∀ post ∈ posts, post.2.isPending = true → post.1.projectId ≠ id) →
    Level e σ held kept id
  writer : Manned e.index.queue posts
  tells : ∀ post ∈ posts, post.1.Tells S e.index.queue σ kept post.2
  committed : commits.Perm ((posts.filter (·.2.isCommitted)).map (·.1))

variable {S : Setting} {e₀ e e' σ : Engine} {posts posts' others : List (Job × Progress)}
  {commits : List Job} {docs : List Document} {kept held held' : List FileEntry} {j : Job}
  {before after : Progress}

theorem Mirrors.perm (h : Mirrors S e₀ e posts commits σ docs kept held)
    (hperm : posts.Perm posts') : Mirrors S e₀ e posts' commits σ docs kept held where
  suits post hpost := h.suits post (hperm.mem_iff.mpr hpost)
  after := h.after
  free := h.free
  agrees := h.agrees
  parser := h.parser
  ignore := h.ignore
  closed := h.closed
  database := by rw [h.database, owed_perm hperm]
  memory := h.memory
  named := h.named
  level id hnone := h.level id fun post hpost => hnone post (hperm.mem_iff.mp hpost)
  writer := h.writer.perm hperm
  tells post hpost := h.tells post (hperm.mem_iff.mpr hpost)
  committed := h.committed.trans ((hperm.filter _).map _)

theorem Mirrors.own_level (h : Mirrors S e₀ e ((j, before) :: others) commits σ docs kept held)
    (hlocked : Locked e.locks ((j, before) :: others)) (hholds : before.holds = true)
    (hbefore : before.isPending = false) : Level e σ held kept j.projectId := by
  refine h.level j.projectId fun post hpost hpending => ?_
  rcases List.mem_cons.mp hpost with rfl | hpost
  · rw [hbefore] at hpending
    simp at hpending
  · exact hlocked.ne_of_holds hholds hpost (Progress.holds_of_isPending hpending)

/-- The mirror sees nothing of a step that does not commit. -/
theorem Mirrors.follow (h : Mirrors S e₀ e ((j, before) :: others) commits σ docs kept held)
    (hignore : e'.ignore = e.ignore) (hparser : e'.parser.Sound S)
    (hclosed : e'.index.isClosed = e.index.isClosed)
    (hdatabase : σ.index.database = e'.index.database.unlist (owed ((j, after) :: others)))
    (hmemory : e'.memory.Holds held') (hnamed : ∀ f ∈ held', S.Names f.file)
    (hlevel : ∀ id, (∀ post ∈ (j, after) :: others, post.2.isPending = true → post.1.projectId ≠ id) →
      Level e' σ held' kept id)
    (hcommitted : after.isCommitted = before.isCommitted)
    (hcount : before.writes.toNat + e'.index.queue.isSome.toNat =
      after.writes.toNat + e.index.queue.isSome.toNat)
    (hqueue : before.writes = true ∨ e.index.queue = none ∨ e'.index.queue = e.index.queue)
    (htells : j.Tells S e'.index.queue σ kept after) :
    Mirrors S e₀ e' ((j, after) :: others) commits σ docs kept held' where
  suits := by
    intro post hpost
    rcases List.mem_cons.mp hpost with rfl | hpost
    · exact h.suits (j, before) List.mem_cons_self
    · exact h.suits post (List.mem_cons_of_mem _ hpost)
  after := h.after
  free := h.free
  agrees := h.agrees
  parser := hparser
  ignore := h.ignore.trans hignore.symm
  closed := hclosed.trans h.closed
  database := hdatabase
  memory := hmemory
  named := hnamed
  level := hlevel
  writer := h.writer.follow hcount
  tells := by
    intro post hpost
    rcases List.mem_cons.mp hpost with rfl | hpost
    · exact htells
    · refine (h.tells post (List.mem_cons_of_mem _ hpost)).frame h.agrees.memory h.agrees.memory rfl
        (fun _ => ⟨rfl, rfl⟩) fun hwrites => ?_
      obtain hmine | hnobody | hqueue := hqueue
      · rw [h.writer.idle (.inl hmine) hpost] at hwrites
        simp at hwrites
      · rw [h.writer.idle (.inr hnobody) hpost] at hwrites
        simp at hwrites
      · exact hqueue
  committed := by
    have hcommits := h.committed
    by_cases hbefore : before.isCommitted = true
    · simpa [List.filter_cons, hcommitted, hbefore] using hcommits
    · simpa [List.filter_cons, hcommitted, hbefore] using hcommits

/-- The engines differ in locks, the queue, what the parser remembers, and times. -/
structure SameStores (e e' : Engine) : Prop where
  ignore : e'.ignore = e.ignore
  closed : e'.index.isClosed = e.index.isClosed
  database : e'.index.database = e.index.database
  memory : e'.memory = e.memory
  projects : e'.projects = e.projects

/-- A step that neither commits nor tells memory anything. -/
theorem Mirrors.quiet (h : Mirrors S e₀ e ((j, before) :: others) commits σ docs kept held)
    (hsame : SameStores e e') (hparser : e'.parser.Sound S)
    (hpending : after.isPending = before.isPending) (howes : after.owesRow = before.owesRow)
    (hcommitted : after.isCommitted = before.isCommitted)
    (hcount : before.writes.toNat + e'.index.queue.isSome.toNat =
      after.writes.toNat + e.index.queue.isSome.toNat)
    (hqueue : before.writes = true ∨ e.index.queue = none ∨ e'.index.queue = e.index.queue)
    (htells : j.Tells S e'.index.queue σ kept after) :
    Mirrors S e₀ e' ((j, after) :: others) commits σ docs kept held := by
  refine h.follow hsame.ignore hparser hsame.closed ?_ ?_ h.named (fun id hnone => ?_) hcommitted hcount
    hqueue htells
  · rw [h.database, hsame.database, owed_cons, owed_cons, howes]
  · rw [hsame.memory]
    exact h.memory
  · have hlevel := h.level id fun post hpost => by
      rcases List.mem_cons.mp hpost with rfl | hpost
      · exact hpending ▸ hnone (j, after) List.mem_cons_self
      · exact hnone post (List.mem_cons_of_mem _ hpost)
    refine ⟨?_, hlevel.entries⟩
    rw [← hlevel.project]
    unfold project?
    rw [hsame.projects]

end Engine

end CodeAtlas
