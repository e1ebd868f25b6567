import CodeAtlas.Proofs.Engine.Found
import CodeAtlas.Proofs.Engine.Patience

/-!
# After a restart

An engine that is opened over the index that another one has left has the files of a project with their
symbols and references, but without usages. Its first run on the same tree reads each file again, and
finds what the other engine had found, since identifier and checksum tell what is found in a file. So it
writes nothing, and the graph that was built from the old entries is built from the new ones, too.
-/

namespace CodeAtlas

namespace FileEntry

/-- What the graph of a project has of a file, with the path by which its files are ordered. -/
def share (projectId : String) (f : FileEntry) : FileRecord × String :=
  (f.record projectId, f.file.relativePath)

def byPath (f g : FileEntry) : Bool := f.file.relativePath ≤ g.file.relativePath

variable {f g : FileEntry} {projectId : String}

theorem eq_of_document_eq (h : f.document = g.document) : f.file.id = g.file.id ∧
    f.file.relativePath = g.file.relativePath ∧ f.file.checksum = g.file.checksum :=
  ⟨congrArg (fun d : Document => d.file.id) h, congrArg (fun d : Document => d.file.relativePath) h,
    congrArg (fun d : Document => d.file.checksum) h⟩

theorem id_of_share_eq (h : f.share projectId = g.share projectId) : f.file.id = g.file.id :=
  congrArg (fun share : FileRecord × String => share.1.fileId) h

theorem records_eq {l l' : List FileEntry} (h : l.map (share projectId) = l'.map (share projectId)) :
    (l.mergeSort byPath).map (record projectId) = (l'.mergeSort byPath).map (record projectId) := by
  have hshares (l : List FileEntry) : (l.mergeSort byPath).map (share projectId) =
      (l.map (share projectId)).mergeSort fun a b => a.2 ≤ b.2 :=
    List.map_mergeSort fun f _ g _ => rfl
  have hrecords (l : List FileEntry) :
      l.map (record projectId) = (l.map (share projectId)).map Prod.fst := by
    rw [List.map_map]
    rfl
  rw [hrecords, hrecords (l'.mergeSort byPath), hshares, hshares, h]

end FileEntry

namespace Run

variable {S : Setting} {r r' : Run} {c : Candidate} {candidates : List Candidate} {o : Outcome}

/-- A candidate that did not fail was skipped, or what is found in it was staged. -/
theorem Judges.skipped_or_found (h : r.Judges S.parse c o)
    (hmeets : S.Meets r.project.id r.project.rootPath c)
    (hprior : ∀ f ∈ r.prior, f.file.projectId = r.project.id ∧ (f.usages.isSome = true → S.Finds f))
    (hdone : o.isFailed = false) :
    (o = .skipped ∧ c.refusal? r.ignore = none ∧ c.fits r.ignore = false) ∨
      c.Opens r.ignore ∧ ∃ file result,
      o.entries r c = [entryOf file result.found] ∧ file.checksum = checksum c.content ∧
      S.parse (c.request r.project.id) = .ok result := by
  cases h with
  | refused => simp [Outcome.isFailed] at hdone
  | skipped hgiven hfits => exact .inl ⟨rfl, hgiven, hfits⟩
  | @kept f hopens hknown hread =>
      obtain ⟨hfound, -, hsum⟩ := prior?_of_known? hknown
      obtain ⟨hown, hfinds⟩ := hprior f (List.mem_of_find?_eq_some hfound)
      obtain ⟨result, hparse, hf⟩ := (hfinds hread).parse_eq hmeets hown (id_of_prior? hfound) hsum
      exact .inr ⟨hopens, f.file, result, congrArg ([·]) hf, hsum, hparse⟩
  | failed => simp [Outcome.isFailed] at hdone
  | @reread f result hopens hknown hunread hanswer =>
      exact .inr ⟨hopens, f.file, result, rfl, (prior?_of_known? hknown).2.2, hanswer⟩
  | indexed hopens hknown hanswer => exact .inr ⟨hopens, _, _, rfl, rfl, hanswer⟩

/-- A run of the same project that starts with what the index has kept of what another one staged. -/
structure Resumes (r' r : Run) (answer : ParseRequest → Except TooLarge ParseResult)
    (candidates : List Candidate) : Prop where
  id : r'.project.id = r.project.id
  ignore : r'.ignore = r.ignore
  fresh : r'.isFresh = false
  found : ∀ c ∈ candidates, ∀ f ∈ (r.outcomeOf answer c).entries r c, ∃ g,
    r'.prior? (r.idOf c) = some g ∧ g.usages = none ∧ g.document = f.document
  known : ∀ g ∈ r'.prior, ∃ f ∈ r.entriesOf answer candidates, g.document = f.document

/-- What was skipped is skipped again; every other file is read and found unchanged. -/
theorem Resumes.outcomeOf (h : r'.Resumes r S.parse candidates) (hc : c ∈ candidates)
    (hmeets : S.Meets r.project.id r.project.rootPath c)
    (hprior : ∀ f ∈ r.prior, f.file.projectId = r.project.id ∧ (f.usages.isSome = true → S.Finds f))
    (hdone : (r.outcomeOf S.parse c).isFailed = false) :
    r.outcomeOf S.parse c = .skipped ∧ r'.outcomeOf S.parse c = .skipped ∨
      ∃ f g, (r.outcomeOf S.parse c).entries r c = [f] ∧ r'.outcomeOf S.parse c = .unchanged g ∧
        g.share r.project.id = f.share r.project.id := by
  obtain ⟨hskipped, hgiven, hfits⟩ | ⟨hopens, file, result, hentries, hsum, hparse⟩ :=
    (r.judges_outcomeOf S.parse c).skipped_or_found hmeets hprior hdone
  · exact .inl ⟨hskipped, r'.outcomeOf_of_unparsed? S.parse
      (unparsed?_of_skipped (h.ignore ▸ hgiven) (h.ignore ▸ hfits))⟩
  · have hmem : entryOf file result.found ∈ (r.outcomeOf S.parse c).entries r c := by simp [hentries]
    obtain ⟨g, hold, hunread, hdocument⟩ := h.found c hc _ hmem
    obtain ⟨hid, hpath, hgsum⟩ := FileEntry.eq_of_document_eq hdocument
    have hidOf : r'.idOf c = r.idOf c := by
      unfold idOf
      rw [h.id]
    rw [← hidOf] at hold
    have hknown := known?_eq_some h.fresh hold (hgsum.trans hsum)
    have hrequest : c.request r'.project.id = c.request r.project.id := by rw [h.id]
    refine .inr ⟨_, entryOf g.file result.found, hentries, ?_, ?_⟩
    · rw [outcomeOf_of_unread (h.ignore ▸ hopens), hrequest, hparse]
      · simp only [parsed, hknown]
      · intro f hf
        rw [← Option.some.inj (hknown.symm.trans hf)]
        exact hunread
    · simp [FileEntry.share, FileEntry.record, entryOf, hid, hpath]

/-- A run that resumes stages the same shares and puts no document. -/
theorem Resumes.staged (h : r'.Resumes r S.parse candidates)
    (hmeets : ∀ c ∈ candidates, S.Meets r.project.id r.project.rootPath c)
    (hprior : ∀ f ∈ r.prior, f.file.projectId = r.project.id ∧ (f.usages.isSome = true → S.Finds f))
    (hdone : ∀ c ∈ candidates, (r.outcomeOf S.parse c).isFailed = false) :
    (r'.entriesOf S.parse candidates).map (FileEntry.share r.project.id) =
        (r.entriesOf S.parse candidates).map (FileEntry.share r.project.id) ∧
      r'.documentsOf S.parse candidates = [] ∧
      r'.count S.parse Outcome.isIndexed candidates = 0 := by
  have houtcome {c : Candidate} (hc : c ∈ candidates) :=
    h.outcomeOf hc (hmeets c hc) hprior (hdone c hc)
  refine ⟨?_, List.flatMap_eq_nil_iff.mpr fun c hc => ?_, List.countP_eq_zero.mpr fun c hc => ?_⟩
  · unfold entriesOf
    rw [List.map_flatMap, List.map_flatMap]
    refine List.flatMap_congr fun c hc => ?_
    obtain ⟨hskipped, hskipped'⟩ | ⟨f, g, hentries, hunchanged, hshare⟩ := houtcome hc
    · rw [hskipped, hskipped']
      rfl
    · rw [hentries, hunchanged]
      exact congrArg ([·]) hshare
  · obtain ⟨-, hskipped⟩ | ⟨f, g, -, hunchanged, -⟩ := houtcome hc
    · rw [hskipped]
      rfl
    · rw [hunchanged]
      rfl
  · obtain ⟨-, hskipped⟩ | ⟨f, g, -, hunchanged, -⟩ := houtcome hc
    · simp [hskipped, Outcome.isIndexed]
    · simp [hunchanged, Outcome.isIndexed]

theorem Resumes.stale_eq (h : r'.Resumes r S.parse candidates) {s' : RunState}
    (hstaged : s'.staged.map (FileEntry.share r.project.id) =
      (r.entriesOf S.parse candidates).map (FileEntry.share r.project.id)) : r'.stale s' = [] := by
  refine List.eq_nil_iff_forall_not_mem.mpr fun id hid => ?_
  obtain ⟨⟨g, hg, hfile⟩, hgone⟩ := mem_stale.mp hid
  obtain ⟨f, hf, hdocument⟩ := h.known g hg
  have hshare : f.share r.project.id ∈ s'.staged.map (FileEntry.share r.project.id) :=
    hstaged ▸ List.mem_map_of_mem hf
  obtain ⟨f', hf', hsame⟩ := List.mem_map.mp hshare
  obtain ⟨hids, -⟩ := FileEntry.eq_of_document_eq hdocument
  exact hgone f' hf' ((FileEntry.id_of_share_eq hsame).trans (hids.symm.trans hfile))

end Run

namespace Engine

variable {S : Setting} {e e₁ e₂ e₃ : Engine} {docs : List Document} {entries entries' : List FileEntry}
  {tree : FileTree} {caller caller' : Caller} {now now' : Instant} {isFresh : Bool}
  {projectId : String} {figures figures' : RunFigures} {r r' : Run}
  {candidates candidates' : List Candidate} {skipped skipped' : Nat} {s s' : RunState}

/-- What an engine has that is opened over the index of another one: the same documents, none read. -/
structure Succeeds (S : Setting) (e e' : Engine) (docs : List Document)
    (entries entries' : List FileEntry) : Prop where
  agrees : e.Agrees S docs entries
  agrees' : e'.Agrees S docs entries'
  index : e'.index = e.index
  ignore : e'.ignore = e.ignore
  free : e'.locks = .empty
  unread : ∀ f ∈ entries', f.usages = none

theorem Agrees.succeeds (h : e.Agrees S docs entries) (minted : Nat) :
    ∃ e' entries', Engine.restore e.ignore (.new S.config S.tool) e.index minted true = .ok e' ∧
      e.Succeeds S e' docs entries entries' := by
  obtain ⟨projects, memory, hopened, -⟩ :=
    restore_eq_ok h.reachable h.keeps e.ignore (.new S.config S.tool) minted
  obtain ⟨entries', hagrees⟩ := h.restore hopened
  have hunread := unread_of_restore hopened hagrees.memory
  rw [refresh_eq] at hopened hagrees
  exact ⟨_, entries', hopened, h, hagrees, rfl, rfl, rfl, hunread⟩

theorem Succeeds.project? (h : e₁.Succeeds S e₂ docs entries entries') {p : Project}
    (hp : e₁.project? projectId = some p) :
    ∃ q, e₂.project? projectId = some q ∧ q.rootPath = p.rootPath := by
  obtain ⟨hp, hid⟩ := project?_eq_some hp
  obtain ⟨row, hrow, hplain⟩ := h.agrees.exists_row hp
  obtain ⟨q, hq, hplain'⟩ := h.agrees'.exists_project (h.index ▸ hrow)
  have hsame : q.plain = p.plain := hplain'.trans hplain
  have hroot : q.plain.rootPath = p.plain.rootPath := congrArg Project.rootPath hsame
  have hids : q.id = projectId := (congrArg Project.id hsame).trans hid
  exact ⟨q, find?_key_of_mem h.agrees'.ids hq hids, hroot⟩

theorem Succeeds.documents_perm (h : e₁.Succeeds S e₂ docs entries entries') (projectId : String) :
    ((e₂.projectFiles projectId).map FileEntry.document).Perm
      ((e₁.projectFiles projectId).map FileEntry.document) :=
  (h.agrees'.projectFiles_perm projectId).trans (h.agrees.projectFiles_perm projectId).symm

theorem Succeeds.starts_eq (h : e₁.Succeeds S e₂ docs entries entries')
    (hran : Ran e e₁ tree caller now isFresh projectId figures r candidates skipped s)
    (hstarts : e₂.Starts tree caller' now' false projectId r' candidates' skipped') :
    r'.project.id = r.project.id ∧ r'.ignore = r.ignore ∧ candidates' = candidates ∧
      skipped' = skipped := by
  obtain ⟨q, hq, hroot⟩ := h.project? hran.project
  obtain rfl := Option.some.inj (hstarts.known.symm.trans hq)
  obtain ⟨-, hid⟩ := project?_eq_some hstarts.known
  obtain ⟨-, hid'⟩ := project?_eq_some hran.starts.known
  obtain ⟨classifier, hrules, hfound⟩ := hran.starts.found
  obtain ⟨classifier', hrules', hfound'⟩ := hstarts.found
  have hroot : r'.project.rootPath = r.project.rootPath := hroot
  rw [hroot, h.ignore, hran.ignore] at hrules'
  obtain ⟨hignore, rfl⟩ := Prod.mk.inj (Except.ok.inj (hrules'.symm.trans hrules))
  rw [hroot] at hfound'
  obtain ⟨hcandidates, hskipped⟩ := Prod.mk.inj (Run.found_unique hfound' hfound)
  exact ⟨hid.trans hid'.symm, hignore, hcandidates, hskipped⟩

/-- The run after a restart resumes what the one before it has staged. -/
theorem Succeeds.resumes (h : e₁.Succeeds S e₂ docs entries entries')
    (hran : Ran e e₁ tree caller now isFresh projectId figures r candidates skipped s)
    (htallies : r.Tallies S.parse candidates skipped s)
    (hstarts : e₂.Starts tree caller' now' false projectId r' candidates' skipped') :
    r'.Resumes r S.parse candidates := by
  obtain ⟨hid, hignore, -, -⟩ := h.starts_eq hran hstarts
  have hstaged : (r'.prior.map FileEntry.document).Perm
      ((r.entriesOf S.parse candidates).map FileEntry.document) := by
    rw [hstarts.prior, ← htallies.staged]
    exact (h.documents_perm projectId).trans (hran.files_perm.map _)
  have hprior : r'.prior.Perm (entries'.filter (·.file.projectId == projectId)) := by
    rw [hstarts.prior]
    exact h.agrees'.memory.ofProject_perm projectId
  have hids : (r'.prior.map (·.file.id)).Nodup :=
    (hprior.map _).nodup_iff.mpr (h.agrees'.memory.distinct.sublist (List.filter_sublist.map _))
  refine ⟨hid, hignore, hstarts.fresh, fun c hc f hf => ?_, fun g hg => ?_⟩
  · have hmem : f ∈ r.entriesOf S.parse candidates := List.mem_flatMap.mpr ⟨c, hc, hf⟩
    obtain ⟨g, hg, hdocument⟩ := List.mem_map.mp (hstaged.mem_iff.mpr (List.mem_map_of_mem hmem))
    have hgid : g.file.id = r.idOf c :=
      (FileEntry.eq_of_document_eq hdocument).1.trans ((Run.id_of_outcomeOf r S.parse c).1 f hf)
    exact ⟨g, find?_key_of_mem hids hg hgid,
      h.unread g (List.mem_of_mem_filter (hprior.mem_iff.mp hg)), hdocument⟩
  · obtain ⟨f, hf, hdocument⟩ := List.mem_map.mp (hstaged.mem_iff.mp (List.mem_map_of_mem hg))
    exact ⟨f, hf, hdocument.symm⟩

theorem Ran.graph_eq (h : Ran e e₁ tree caller now isFresh projectId figures r candidates skipped s) :
    e₁.graph projectId = .ok (SymbolGraph.build
      ((s.staged.mergeSort FileEntry.byPath).map (FileEntry.record projectId))) := by
  have hfiles : e₁.projectFiles projectId = s.staged.mergeSort FileEntry.byPath := h.files
  unfold graph
  simp only [h.project, hfiles]

/-- The first run after a restart commits the project alone. -/
theorem Succeeds.tallies (h : e₁.Succeeds S e₂ docs entries entries')
    (hread : ∀ f ∈ r.prior, f.file.projectId = r.project.id ∧ (f.usages.isSome = true → S.Finds f))
    (hran : Ran e e₁ tree caller now isFresh projectId figures r candidates skipped s)
    (htallies : r.Tallies S.parse candidates skipped s) (hnone : s.failed = 0)
    (hcovers : S.Covers tree projectId) (hsteady : S.Steady caller')
    (hstarts : e₂.Starts tree caller' now' false projectId r' candidates' skipped')
    (hfilled : e₂.filled tree caller' r' candidates' skipped' = (s', .ok ())) :
    s'.index = { e₂.index with queue := some [.saveProject (r'.updatedProject tree now')] } ∧
      s'.indexed = 0 ∧ r'.stale s' = [] ∧
      s'.staged.map (FileEntry.share projectId) = s.staged.map (FileEntry.share projectId) := by
  obtain ⟨hid, -, rfl, rfl⟩ := h.starts_eq hran hstarts
  have hresumes := h.resumes hran htallies hstarts
  obtain ⟨-, hown⟩ := project?_eq_some hran.starts.known
  have hmeets := (hran.starts.meets hcovers).1
  obtain ⟨htallies', hindex⟩ :=
    tallies_of_filled hfilled h.agrees'.parser hsteady (hstarts.meets hcovers).1
  have hdone : ∀ c ∈ candidates', (r.outcomeOf S.parse c).isFailed = false := by
    have hcount := htallies.failed.symm.trans hnone
    exact fun c hc => by simpa using List.countP_eq_zero.mp hcount c hc
  obtain ⟨hshares, hdocuments, hindexed⟩ := hresumes.staged hmeets hread hdone
  rw [← htallies'.staged] at hshares
  have hstale := hresumes.stale_eq hshares
  rw [← htallies.staged, hown] at hshares
  refine ⟨?_, htallies'.indexed.trans hindexed, hstale, hshares⟩
  rw [hindex, hdocuments, hstarts.started]
  simp [Run.queued, Run.erased, hstarts.fresh, hstale]

theorem Agrees.saves (h : e.Agrees S docs entries) (hknown : ∃ p ∈ e.projects, p.id = projectId)
    {p : Project} (hid : p.id = projectId) (now : Instant) :
    ∃ index, ({ e.index with queue := some [.saveProject p] } : Index).commitUnless none now =
      (index, .ok ()) := by
  have hrow : e.index.database.hasProject p.id = true := (h.hasProject_iff _).mpr (hid ▸ hknown)
  have hrequire : Schema.newest.require "projects" = .ok () := by decide
  have hwrite : ∃ db, [WriteOp.saveProject p].foldlM (·.write now) e.index.database = .ok db := by
    rw [List.foldlM_cons]
    change ∃ db, (e.index.database.updateProject p >>= fun db => _) = .ok db
    unfold Database.updateProject
    rw [h.keeps.layout, hrequire, hrow]
    exact ⟨_, rfl⟩
  obtain ⟨db, hdb⟩ := hwrite
  unfold Index.commitUnless
  simp only [hdb]
  exact ⟨_, rfl⟩

theorem Succeeds.exists_run (h : e₁.Succeeds S e₂ docs entries entries')
    (hread : ∀ f ∈ r.prior, f.file.projectId = r.project.id ∧ (f.usages.isSome = true → S.Finds f))
    (hran : Ran e e₁ tree caller now isFresh projectId figures r candidates skipped s)
    (htallies : r.Tallies S.parse candidates skipped s) (hnone : s.failed = 0)
    (hcovers : S.Covers tree projectId) (now' : Instant) :
    ∃ e₃ figures', e₂.indexProject tree .patient now' projectId = (e₃, .ok figures') := by
  obtain ⟨q, hq, hroot⟩ := h.project? hran.project
  obtain ⟨hmem, hid⟩ := project?_eq_some hq
  obtain ⟨classifier, hrules, hfound⟩ := hran.starts.found
  have hroot : q.rootPath = r.project.rootPath := hroot
  rw [← hroot, ← hran.ignore, ← h.ignore] at hrules
  rw [← hroot] at hfound
  refine locked_of_free h.free fun locks => ?_
  obtain ⟨r', s', hstarts, hfilled, hcommit⟩ := run_patient (e := { e₂ with locks })
    h.agrees'.idle h.agrees'.reachable hq hrules (Run.discover_patient hfound) now' false
  obtain ⟨hindex, -⟩ := h.tallies hread hran htallies hnone hcovers S.steady_patient
    hstarts.of_locks hfilled
  obtain ⟨-, hid'⟩ := project?_eq_some hstarts.known
  obtain ⟨index, hsaved⟩ := h.agrees'.saves ⟨q, hmem, hid⟩ (p := r'.updatedProject tree now') hid' now'
  rw [hindex] at hcommit
  obtain ⟨e₃, hdone⟩ := hcommit index hsaved
  exact ⟨e₃, _, hdone⟩

/-- When indexing a project, from scratch or not, has succeeded and no file of it has failed, an engine
can be opened over the index that is left. Indexing the project on the same tree then succeeds for a
caller who waits; and for whomever it succeeds, it puts and deletes no document, since its queue is the
saved project alone, and afterwards the graph of the project is the one that it was before the restart. -/
theorem restart_keeps_graph (h : Reachable S e) (hcovers : S.Covers tree projectId)
    (hsteady : S.Steady caller)
    (hrun : e.indexProject tree caller now projectId = (e₁, .ok figures) ∨
      e.reindexProject tree caller now projectId = (e₁, .ok figures))
    (hnone : figures.filesFailed = 0) (minted : Nat) :
    ∃ e₂, restore e₁.ignore (.new S.config S.tool) e₁.index minted true = .ok e₂ ∧
      (∀ now', ∃ e₃ figures', e₂.indexProject tree .patient now' projectId = (e₃, .ok figures')) ∧
      ∀ {caller' now' e₃ figures'}, S.Steady caller' →
        e₂.indexProject tree caller' now' projectId = (e₃, .ok figures') →
        (∃ r candidates skipped s, Ran e₂ e₃ tree caller' now' false projectId figures' r candidates
            skipped s ∧
          s.index = { e₂.index with queue := some [.saveProject (r.updatedProject tree now')] }) ∧
        figures'.filesIndexed = 0 ∧ figures'.filesRemoved = 0 ∧
        e₃.index.database.documents = e₂.index.database.documents ∧
        ∃ graph, e₁.graph projectId = .ok graph ∧ e₃.graph projectId = .ok graph := by
  obtain ⟨isFresh, hrun⟩ := exists_run_of_ok hrun
  have hreachable := h.run hcovers hsteady now isFresh
  rw [hrun] at hreachable
  obtain ⟨docs, entries, hordered⟩ := h.arises.orderly_of_setting
  obtain ⟨r, candidates, skipped, s, hran⟩ := hordered.ran hcovers.naming hrun
  obtain ⟨htallies, -⟩ := hran.tallies h.arises.sound hcovers hsteady
  -- files that the first run took for read came from earlier runs, and what these found has to be right
  have hread : ∀ f ∈ r.prior, f.file.projectId = r.project.id ∧
      (f.usages.isSome = true → S.Finds f) := by
    obtain ⟨hprior, hknown⟩ := hordered.prior hran.starts
    exact fun f hf => ⟨(hknown f hf).1, h.arises.understands entries hordered.memory f
      (List.mem_of_mem_filter (hprior.mem_iff.mp hf))⟩
  have hfailed : s.failed = 0 := by
    rw [hran.figures] at hnone
    exact hnone
  obtain ⟨docs₁, entries₁, hagrees⟩ := hreachable.agrees
  obtain ⟨e₂, entries₂, hopened, hsucceeds⟩ := hagrees.succeeds minted
  refine ⟨e₂, hopened, fun now' => ?_, fun {caller' now' e₃ figures'} hsteady' hnext => ?_⟩
  · exact hsucceeds.exists_run hread hran htallies hfailed hcovers now'
  · obtain ⟨docs₂, entries₃, hordered₂⟩ :=
      (hreachable.reopened hopened).arises.orderly_of_setting
    obtain ⟨r', candidates', skipped', s', hran'⟩ := hordered₂.ran hcovers.naming hnext
    obtain ⟨hindex, hindexed, hstale, hshares⟩ := hsucceeds.tallies hread hran htallies hfailed hcovers
      hsteady' hran'.starts hran'.filled
    refine ⟨⟨r', candidates', skipped', s', hran', hindex⟩, ?_, ?_, hran'.documents_eq hindex, _,
      hran.graph_eq, ?_⟩
    · rw [hran'.figures]
      exact hindexed
    · rw [hran'.figures]
      exact congrArg List.length hstale
    · rw [hran'.graph_eq, FileEntry.records_eq hshares]

/-- The graph of the sample has its function, before and after a restart. -/
theorem sample_restart_keeps_graph : ∃ e e₂ e₃ figures graph, Reachable sampleSetting e ∧
    restore e.sampleFirst.1.ignore (.new .standard none) e.sampleFirst.1.index 0 true = .ok e₂ ∧
    e₂.indexProject (sampleTree "def f():\n") .patient ⟨40, 0, false⟩ sampleId = (e₃, .ok figures) ∧
    figures.filesIndexed = 0 ∧ e.sampleFirst.1.graph sampleId = .ok graph ∧ graph.nodes.length = 1 ∧
    e₃.graph sampleId = .ok graph := by
  obtain ⟨e, hreachable, hfirst, hgraph⟩ : ∃ e : Engine, Reachable sampleSetting e ∧
      e.sampleFirst.2.toOption.map (·.filesFailed) = some 0 ∧
      (e.sampleFirst.1.graph sampleId).toOption.map (·.nodes.length) = some 1 :=
    ⟨bareEngine, reachable_bareEngine, by decide +kernel⟩
  obtain ⟨figures, hfirst, hnone⟩ := exists_ok_of_map hfirst
  obtain ⟨graph, hgraph, hnodes⟩ := exists_ok_of_map hgraph
  have hran : e.sampleFirst = (e.sampleFirst.1, .ok figures) := Prod.ext rfl hfirst
  obtain ⟨e₂, hopened₂, hgoes, hkeeps⟩ := restart_keeps_graph
    (hreachable.addProject _ _ _ _ _ _) (covers_sampleTree (by simp [sampleTexts]))
    sampleSetting.steady_patient (.inl hran) hnone 0
  obtain ⟨e₃, figures', hnext⟩ := hgoes ⟨40, 0, false⟩
  obtain ⟨-, hindexed, -, -, graph', hbefore, hafter⟩ := hkeeps sampleSetting.steady_patient hnext
  obtain rfl : graph' = graph := Except.ok.inj (hbefore.symm.trans hgraph)
  exact ⟨e, e₂, e₃, figures', graph', hreachable, hopened₂, hnext, hindexed, hgraph, hnodes, hafter⟩

end Engine

end CodeAtlas
