import CodeAtlas.Proofs.Engine.Alike
import CodeAtlas.Proofs.Engine.ByWorkers
import CodeAtlas.Proofs.Engine.Reachable

/-!
# The order in which files are read

The order in which workers move decides in which order documents are queued, entries staged and errors
noted, and how far each worker gets before another one fails. Two runs that succeed have put the same
documents for the same candidates, so what they leave differs in the order of lists alone.
-/

namespace CodeAtlas

namespace Run

variable {r : Run} {answer : ParseRequest → Except TooLarge ParseResult}
  {candidates through through' : List Candidate}

theorem id_of_prior? {f : FileEntry} {id : String} (h : r.prior? id = some f) : f.file.id = id := by
  simpa using List.find?_some h

/-- What is staged for a candidate and what is queued for it are of its file. -/
theorem id_of_outcomeOf (r : Run) (answer : ParseRequest → Except TooLarge ParseResult)
    (c : Candidate) :
    (∀ f ∈ (r.outcomeOf answer c).entries r c, f.file.id = r.idOf c) ∧
      ∀ d ∈ (r.outcomeOf answer c).documents c, d.file.id = r.idOf c := by
  have hknown {f : FileEntry} (h : r.known? c = some f) : f.file.id = r.idOf c :=
    id_of_prior? (prior?_of_known? h).1
  have hprior (f : FileEntry)
      (hf : f ∈ if r.isFresh then [] else (r.prior? (r.idOf c)).toList) : f.file.id = r.idOf c := by
    split at hf
    · simp at hf
    · exact id_of_prior? (Option.mem_toList.mp hf)
  unfold outcomeOf
  rcases hseen : r.unparsed? c with _ | o
  · rw [Option.getD_none]
    unfold parsed
    split
    · exact ⟨hprior, by simp [Outcome.documents]⟩
    · split
      · rename_i f hold
        exact ⟨by simpa [Outcome.entries, entryOf] using hknown hold, by simp [Outcome.documents]⟩
      · exact ⟨by simp [Outcome.entries, entryOf, documentOf_id],
          by simp [Outcome.documents, FileEntry.withText, entryOf, documentOf_id]⟩
  · rw [Option.getD_some]
    obtain ⟨message, -, rfl⟩ | ⟨-, -, rfl⟩ | ⟨f, -, hold, -, rfl⟩ := unparsed?_cases hseen
    · exact ⟨hprior, by simp [Outcome.documents]⟩
    · exact ⟨by simp [Outcome.entries], by simp [Outcome.documents]⟩
    · exact ⟨by simpa [Outcome.entries] using hknown hold, by simp [Outcome.documents]⟩

/-- What each of some candidates gives, once at most and under its own identifier, has identifiers
that differ. -/
theorem nodup_ids_flatMap {β : Type} {gives : Candidate → List β} {id : β → String}
    (honce : ∀ c, (gives c).length ≤ 1) (hid : ∀ c, ∀ b ∈ gives c, id b = r.idOf c)
    (hdistinct : (candidates.map r.idOf).Nodup) : ((candidates.flatMap gives).map id).Nodup := by
  rw [List.map_flatMap]
  refine List.nodup_flatMap.mpr ⟨fun c _ => ?_, ?_⟩
  · have hlength : ((gives c).map id).length ≤ 1 := by simpa using honce c
    rcases hgives : (gives c).map id with _ | ⟨first, _ | ⟨second, rest⟩⟩
    · exact .nil
    · simp
    · simp [hgives] at hlength
  · refine (List.pairwise_map.mp hdistinct).imp fun {c c'} hne key hkey hkey' => hne ?_
    obtain ⟨b, hb, rfl⟩ := List.mem_map.mp hkey
    obtain ⟨b', hb', hsame⟩ := List.mem_map.mp hkey'
    rw [← hid c b hb, ← hsame, hid c' b' hb']

theorem nodup_documentsOf (hdistinct : (candidates.map r.idOf).Nodup) :
    ((r.documentsOf answer candidates).map (·.file.id)).Nodup := by
  refine nodup_ids_flatMap (fun c => ?_) (fun c => (id_of_outcomeOf r answer c).2) hdistinct
  cases r.outcomeOf answer c <;> simp [Outcome.documents]

theorem nodup_entriesOf (hdistinct : (candidates.map r.idOf).Nodup) :
    ((r.entriesOf answer candidates).map (·.file.id)).Nodup := by
  refine nodup_ids_flatMap (fun c => ?_) (fun c => (id_of_outcomeOf r answer c).1) hdistinct
  cases r.outcomeOf answer c with
  | failed message =>
      simp only [Outcome.entries]
      split
      · simp
      · cases r.prior? (r.idOf c) <;> simp
  | _ => simp [Outcome.entries]

theorem noteAll_alike (h : through.Perm through') (s : RunState) :
    (r.noteAll answer s through).Alike (r.noteAll answer s through') := by
  rw [noteAll_eq, noteAll_eq]
  have hcount (kind : Outcome → Bool) : r.count answer kind through = r.count answer kind through' :=
    h.countP_eq _
  exact ⟨(h.flatMap_right _).append_left _, (h.flatMap_right _).append_left _, by simp [hcount]⟩

end Run

namespace Engine

variable {e e₁ e₂ : Engine} {tree : FileTree} {caller : Caller} {now : Instant} {isFresh : Bool}
  {projectId : String} {answer : ParseRequest → Except TooLarge ParseResult}
  {figures₁ figures₂ : RunFigures} {limit limit' : Nat} {moves moves' : List Move}

/-- Different files of a run have different identifiers, and parsing them is a function of what is
asked. -/
structure Plain (e : Engine) (tree : FileTree) (caller : Caller) (now : Instant) (isFresh : Bool)
    (projectId : String) (answer : ParseRequest → Except TooLarge ParseResult) : Prop where
  proper : tree.Proper
  ids : ∀ r candidates skipped, e.Starts tree caller now isFresh projectId r candidates skipped →
    ∀ c ∈ candidates, ∀ c' ∈ candidates, c.relativePath ≠ c'.relativePath → r.idOf c ≠ r.idOf c'
  parses : ∀ r candidates skipped, e.Starts tree caller now isFresh projectId r candidates skipped →
    e.parser.Answers (candidates.map (·.request projectId)) answer

theorem runBy_eq_ok (h : e.runBy limit moves tree caller now isFresh projectId = (e₁, .ok figures₁)) :
    ∃ locks e₂, e.locks.acquire projectId = (locks, true) ∧ ({ e with locks } : Engine).runHeldBy
        (fun r candidates s => r.takeAllBy caller limit moves s candidates) tree caller now isFresh
          projectId = (e₂, .ok figures₁) ∧ e₁ = { e₂ with locks := e₂.locks.release projectId } := by
  obtain ⟨-, f, hfailed⟩ | ⟨locks, e₂, hlocks, hheld, rfl⟩ := locked_cases h
  · simp at hfailed
  · exact ⟨locks, e₂, hlocks, hheld, rfl⟩

end Engine

namespace Run

/-- The changes that a run has queued when it commits. -/
def queued (r : Run) (documents : List Document) (erased : List String) (updated : Project) :
    List WriteOp :=
  (if r.isFresh then [.deleteProjectDocuments r.project.id] else []) ++ documents.map .put ++
    (erased.map .deleteFile ++ [.saveProject updated])

variable {r : Run} {answer : ParseRequest → Except TooLarge ParseResult} {e : Engine}
  {caller : Caller} {limit : Nat} {moves : List Move} {candidates : List Candidate} {skipped : Nat}
  {updated : Project} {s : RunState} {index : Index} {now : Instant}

theorem foldl_queued_perm {documents documents' : List Document} (erased : List String)
    (hfiles : (documents.map (·.file.id)).Nodup) (h : documents.Perm documents')
    (rows : List DocumentRow) :
    ((r.queued documents erased updated).foldl (WriteOp.onRows now) rows).Perm
      ((r.queued documents' erased updated).foldl (WriteOp.onRows now) rows) := by
  simp only [queued, List.foldl_append]
  apply WriteOp.foldl_onRows_perm
  apply WriteOp.foldl_onRows_perm
  exact WriteOp.foldl_put_perm hfiles h (.refl _)

theorem foldl_queued_onProjects (documents documents' : List Document) (erased : List String)
    (rows : List ProjectRow) :
    (r.queued documents erased updated).foldl WriteOp.onProjects rows =
      (r.queued documents' erased updated).foldl WriteOp.onProjects rows := by
  unfold queued
  simp only [List.foldl_append, WriteOp.foldl_onProjects_put]

/-- What a run with workers has come to when it is committed. -/
structure Commits (r : Run) (answer : ParseRequest → Except TooLarge ParseResult) (e : Engine)
    (candidates : List Candidate) (skipped : Nat) (updated : Project) (now : Instant) (s : RunState)
    (db : Database) : Prop where
  noted : ∃ through : List Candidate, through.Perm candidates ∧
    s.Alike (r.noteAll answer (e.atWork r skipped) through)
  rows : ∃ documents : List Document, documents.Perm (r.documentsOf answer candidates) ∧
    db.rows = (r.queued documents (r.erased s) updated).foldl (WriteOp.onRows now)
      e.index.database.rows ∧
    db.projects = (r.queued documents (r.erased s) updated).foldl WriteOp.onProjects
      e.index.database.projects

theorem commits_of_fillBy
    (hanswers : e.parser.Answers (candidates.map (·.request r.project.id)) answer)
    (hwaits : ∀ path, caller.waits (.parse path) = true)
    (hfill : r.fillBy caller (fun s => r.takeAllBy caller limit moves s candidates)
      (e.begun skipped) updated = (s, .ok ()))
    (hcommit : s.index.commitUnless caller.refusal now = (index, .ok ())) :
    r.Commits answer e candidates skipped updated now s index.database := by
  obtain ⟨s₁, htake, rfl⟩ := fillBy_eq_ok hfill
  obtain ⟨through, documents, parser, hthrough, hdocuments, rfl⟩ :=
    Crew.gathers_of_takeAllBy (e.atWork r skipped) hanswers hwaits htake
  obtain ⟨f, hfailed, -⟩ | ⟨queue, db, -, hqueue, hwrites, rfl⟩ := Index.commit_cases hcommit
  · simp at hfailed
  refine ⟨⟨through, hthrough, .refl _, .refl _, rfl⟩, documents,
    hdocuments.trans (hthrough.flatMap_right _), ?_⟩
  have hops : queue = r.queued documents (r.erased { r.noteAll answer (e.atWork r skipped) through with
      parser, index := (e.atWork r skipped).index.enqueue (documents.map .put) }) updated := by
    simp only [Index.enqueue_enqueue] at hqueue
    simpa [Engine.atWork, Index.enqueue, queued] using hqueue.symm
  rw [hops] at hwrites
  exact Database.rows_writeAll hwrites

theorem Commits.staged_nodup {db : Database}
    (h : r.Commits answer e candidates skipped updated now s db)
    (hdistinct : (candidates.map r.idOf).Nodup) : (s.staged.map (·.file.id)).Nodup := by
  obtain ⟨through, hthrough, halike⟩ := h.noted
  have hids := halike.staged.map (·.file.id)
  rw [noteAll_eq] at hids
  refine hids.nodup_iff.mpr ?_
  have hnodup : ((r.entriesOf answer through).map (·.file.id)).Nodup :=
    nodup_entriesOf ((hthrough.map r.idOf).nodup_iff.mpr hdistinct)
  simpa [Engine.atWork, Engine.begun] using hnodup

theorem Commits.alike {s' : RunState} {db db' : Database}
    (h : r.Commits answer e candidates skipped updated now s db)
    (h' : r.Commits answer e candidates skipped updated now s' db')
    (hdistinct : (candidates.map r.idOf).Nodup) :
    s.Alike s' ∧ db.rows.Perm db'.rows ∧ db.projects = db'.projects := by
  obtain ⟨through, hthrough, halike⟩ := h.noted
  obtain ⟨through', hthrough', halike'⟩ := h'.noted
  obtain ⟨documents, hdocuments, hrows, hprojects⟩ := h.rows
  obtain ⟨documents', hdocuments', hrows', hprojects'⟩ := h'.rows
  have hnoted : (r.noteAll answer (e.atWork r skipped) through).Alike
      (r.noteAll answer (e.atWork r skipped) through') :=
    noteAll_alike (hthrough.trans hthrough'.symm) _
  have hsame : s.Alike s' := (halike.trans hnoted).trans halike'.symm
  have herased : r.erased s = r.erased s' := by
    unfold erased
    rw [hsame.stale_eq]
  have hfiles : (documents.map (·.file.id)).Nodup :=
    (hdocuments.map _).nodup_iff.mpr (nodup_documentsOf hdistinct)
  rw [hrows, hrows', hprojects, hprojects', herased]
  exact ⟨hsame, foldl_queued_perm _ hfiles (hdocuments.trans hdocuments'.symm) _,
    foldl_queued_onProjects _ _ _ _⟩

end Run

namespace Engine

variable {e e₁ e₂ : Engine} {tree : FileTree} {caller : Caller} {now : Instant} {isFresh : Bool}
  {projectId : String} {answer : ParseRequest → Except TooLarge ParseResult}
  {figures₁ figures₂ : RunFigures} {limit limit' : Nat} {moves moves' : List Move}
  {r : Run} {candidates : List Candidate} {skipped : Nat}

theorem Plain.distinct (h : e.Plain tree caller now isFresh projectId answer)
    (hstarts : e.Starts tree caller now isFresh projectId r candidates skipped) :
    (candidates.map r.idOf).Nodup := by
  obtain ⟨classifier, -, hdiscover⟩ := hstarts.found
  refine List.pairwise_map.mpr ((Run.distinct_of_discover h.proper hdiscover).imp_of_mem ?_)
  exact fun hc hc' hne => h.ids r candidates skipped hstarts _ hc _ hc' hne

theorem adopt_alike {s s' : RunState} {index index' : Index} (updated : Project)
    (hs : s.Alike s') (hstaged : (s.staged.map (·.file.id)).Nodup)
    (hrows : index.database.rows.Perm index'.database.rows)
    (hprojects : index.database.projects = index'.database.projects) :
    (e.adopt r { s with index } updated).Alike (e.adopt r { s' with index := index' } updated) :=
  ⟨hrows, hprojects, rfl, FileMemory.same_setAll hstaged hs.staged _⟩

theorem runHeldBy_alike (h : e.Plain tree caller now isFresh projectId answer)
    (hwaits : ∀ path, caller.waits (.parse path) = true)
    (h₁ : e.runHeldBy (fun r candidates s => r.takeAllBy caller limit moves s candidates) tree caller
      now isFresh projectId = (e₁, .ok figures₁))
    (h₂ : e.runHeldBy (fun r candidates s => r.takeAllBy caller limit' moves' s candidates) tree
      caller now isFresh projectId = (e₂, .ok figures₂)) :
    e₁.Alike e₂ ∧ figures₁.Alike figures₂ := by
  obtain ⟨r, candidates, skipped, s, index, hstarts, hfill, hcommit, rfl, rfl⟩ := runHeldBy_eq_ok h₁
  obtain ⟨r', candidates', skipped', s', index', hstarts', hfill', hcommit', rfl, rfl⟩ :=
    runHeldBy_eq_ok h₂
  obtain ⟨rfl, rfl, rfl⟩ := hstarts.unique hstarts'
  have hanswers := h.parses r candidates skipped hstarts
  have hdistinct := h.distinct hstarts
  rw [← (project?_eq_some hstarts.known).2] at hanswers
  have hcommits := Run.commits_of_fillBy hanswers hwaits hfill hcommit
  have hcommits' := Run.commits_of_fillBy hanswers hwaits hfill' hcommit'
  obtain ⟨hs, hrows, hprojects⟩ := hcommits.alike hcommits' hdistinct
  exact ⟨(adopt_alike _ hs (hcommits.staged_nodup hdistinct) hrows hprojects).refresh _,
    hs.figures r⟩

theorem Plain.of_locks (h : e.Plain tree caller now isFresh projectId answer) (locks : LockTable) :
    ({ e with locks } : Engine).Plain tree caller now isFresh projectId answer :=
  ⟨h.proper, fun r candidates skipped hstarts => h.ids r candidates skipped hstarts.of_locks,
    fun r candidates skipped hstarts => h.parses r candidates skipped hstarts.of_locks⟩

/-- A run that is committed has taken up each of its candidates exactly once, in whatever order its
workers moved and whether or not its caller has left. If the caller stays, nothing else depends on that
order: any other number of workers and any other order of their moves, with which the run succeeds too,
leave the same documents and projects in the index, the same stores and projects in memory, and the same
figures, up to the order of lists. -/
theorem runs_alike_in_any_order
    (h : e.runBy limit moves tree caller now isFresh projectId = (e₁, .ok figures₁)) :
    (∃ r candidates skipped, e.Starts tree caller now isFresh projectId r candidates skipped ∧
      ((Crew.start (e.atWork r skipped) candidates).run r caller limit moves).through.Perm
        candidates) ∧
    ∀ answer, e.Plain tree caller now isFresh projectId answer →
      (∀ stage, caller.waits stage = true) → ∀ limit' moves' e₂ figures₂,
        e.runBy limit' moves' tree caller now isFresh projectId = (e₂, .ok figures₂) →
          e₁.Alike e₂ ∧ figures₁.Alike figures₂ := by
  obtain ⟨locks, e₁', hlocks, hheld, rfl⟩ := runBy_eq_ok h
  refine ⟨?_, fun answer hplain hwaits limit' moves' e₂ figures₂ h' => ?_⟩
  · obtain ⟨r, candidates, skipped, s, index, hstarts, hfill, -⟩ := runHeldBy_eq_ok hheld
    obtain ⟨s₁, htake, -⟩ := Run.fillBy_eq_ok hfill
    exact ⟨r, candidates, skipped, hstarts.of_locks, Crew.through_perm htake⟩
  · obtain ⟨locks', e₂', hlocks', hheld', rfl⟩ := runBy_eq_ok h'
    obtain rfl : locks' = locks := (Prod.mk.inj (hlocks'.symm.trans hlocks)).1
    obtain ⟨halike, hfigures⟩ :=
      runHeldBy_alike (hplain.of_locks _) (fun path => hwaits (.parse path)) hheld hheld'
    exact ⟨⟨halike.documents, halike.kept, halike.projects, halike.memory⟩, hfigures⟩

/-- Where neither identifiers nor checksums collide, parsing is a function of what is asked. -/
theorem plain_of_covers {S : Setting} (hcovers : S.Covers tree projectId)
    (hparser : e.parser.Sound S) : e.Plain tree caller now isFresh projectId S.parse where
  proper := hcovers.proper
  ids r candidates skipped hstarts c hc c' hc' hne := by
    obtain ⟨hmeets, -⟩ := hstarts.meets hcovers
    exact Run.idOf_ne (hmeets c' hc') (hmeets c hc) hne
  parses r candidates skipped hstarts := by
    obtain ⟨hmeets, -⟩ := hstarts.meets hcovers
    rw [(project?_eq_some hstarts.known).2] at hmeets
    refine hparser.answers fun q hq => ?_
    obtain ⟨c, hc, rfl⟩ := List.mem_map.mp hq
    exact (hmeets c hc).asks

def pairTexts : List String := ["def f():\n", "def g():\n"]

def pairTree : FileTree :=
  { entries := [(["a.py"], .file (bytesOfText "def f():\n") ⟨5, 0, false⟩),
      (["b.py"], .file (bytesOfText "def g():\n") ⟨6, 0, false⟩)]
    current := [] }

def pairNames : List (String × String) := [("p", "a.py"), ("p", "b.py"), ("p", ".")]

def pairSetting : Setting where
  config := .standard
  tool := none
  contents := {content | content ∈ pairTexts.map bytesOfText}
  names := {name | name ∈ pairNames}
  checksum_injOn := by
    have hdistinct : ((pairTexts.map bytesOfText).map checksum).Nodup := by decide +kernel
    exact fun content hcontent other hother hsame =>
      List.inj_on_of_nodup_map hdistinct hcontent hother hsame
  fileId_injOn := by
    have hdistinct : (pairNames.map fun name => fileId name.1 name.2).Nodup := by decide +kernel
    exact fun name hname other hother hsame =>
      List.inj_on_of_nodup_map hdistinct hname hother hsame

theorem covers_pairTree : pairSetting.Covers pairTree "p" where
  proper := ⟨by simp [pairTree], by simp [pairTree, ProperName]⟩
  contents place content modified hfile := by
    have hbytes : ∀ content ∈ pairTexts.map bytesOfText,
      (decode content).bytes ∈ pairTexts.map bytesOfText := by decide +kernel
    have hcontent : content ∈ pairTexts.map bytesOfText := by
      simp only [pairTree, List.mem_cons, Prod.mk.injEq, FileNode.file.injEq, List.not_mem_nil,
        or_false] at hfile
      rcases hfile with ⟨-, rfl, -⟩ | ⟨-, rfl, -⟩ <;> simp [pairTexts]
    exact ⟨hcontent, hbytes content hcontent⟩
  names place content modified hfile rel hrel := by
    have hnames : ∀ entry ∈ pairTree.entries, ∀ rel ∈ entry.1.tails,
        ("p", Run.relativeText rel) ∈ pairNames := by decide +kernel
    exact hnames _ hfile rel ((List.mem_tails _ _).mpr hrel)

def pairCandidates : List Candidate :=
  [Run.candidateAt pairTree "/" [] ["a.py"] (bytesOfText "def f():\n") ⟨5, 0, false⟩,
    Run.candidateAt pairTree "/" [] ["b.py"] (bytesOfText "def g():\n") ⟨6, 0, false⟩]

theorem discover_pairTree :
    Run.discover pairTree .patient (.forRoot .bare none) "/" = .ok (pairCandidates, 0) := by
  have hbase : pairTree.placeOf false "/" = .ok [] := by decide +kernel
  have hnames : pairTree.names [] = ["a.py", "b.py"] := List.mergeSort_of_pairwise (by decide)
  have hnodes : pairTree.node? [] = some .directory ∧
      pairTree.node? ["a.py"] = some (.file (bytesOfText "def f():\n") ⟨5, 0, false⟩) ∧
      pairTree.node? ["b.py"] = some (.file (bytesOfText "def g():\n") ⟨6, 0, false⟩) := by
    decide +kernel
  have hroot : (Classifier.forRoot .bare none).skipsDir (Run.relativeText []) = false := by
    decide +kernel
  have hgiven (act : FileAct) (place : List String) : pairTree.refusal? act place = none := rfl
  have hlisted : pairTree.listed [] = ["a.py", "b.py"] := hnames
  have hwalk : pairTree.walk (fun rel => (Classifier.forRoot .bare none).skipsDir
      (Run.relativeText rel)) [] 3 [] = [[], ["a.py"], ["b.py"]] := by
    simp [FileTree.walk, hlisted, hnodes, hroot]
  have hfound : ((Classifier.forRoot .bare none).skipReason? (Run.relativeText ["a.py"])).isSome =
        false ∧
      ((Classifier.forRoot .bare none).skipReason? (Run.relativeText ["b.py"])).isSome = false := by
    decide +kernel
  have hvisited : Run.visited pairTree (.forRoot .bare none) [] = [[], ["a.py"], ["b.py"]] := hwalk
  have hunlisted (rel : List String) : Run.unlisted? pairTree (.forRoot .bare none) [] rel = none := by
    unfold Run.unlisted?
    rw [hgiven, ite_self]
  have hunreadable : Run.unreadable pairTree (.forRoot .bare none) [] = [] := by
    simp [Run.unreadable, hunlisted]
  rw [Run.discover_of_listed hbase (hunlisted []), Run.found, hvisited, hunreadable]
  simp [hnodes, Caller.patient, Run.candidate?, hfound, Run.isFile, pairCandidates]

/-- One worker, and two of which the second is through first; with the order of the documents. -/
def pairSchedules : List (Nat × List Move × List String) :=
  [(1, [.handOut, .work 0, .work 0, .work 0, .work 0,
      .handOut, .work 0, .work 0, .work 0, .work 0], ["a.py", "b.py"]),
    (2, [.handOut, .handOut, .work 0, .work 1, .work 1, .work 1, .work 0, .work 1, .work 0, .work 0],
      ["b.py", "a.py"])]

theorem runBy_pairTree : ∀ schedule ∈ pairSchedules,
    ∃ e' figures, sampleEngine.runBy schedule.1 schedule.2.1 pairTree .patient ⟨20, 0, false⟩ false
        "p" = (e', .ok figures) ∧
      e'.index.database.documents.map (·.file.relativePath) = schedule.2.2 := by
  have hsucceeds : ∀ schedule ∈ pairSchedules,
      (sampleEngine.runBy schedule.1 schedule.2.1 pairTree .patient ⟨20, 0, false⟩ false "p").2.isOk =
        true ∧
      (sampleEngine.runBy schedule.1 schedule.2.1 pairTree .patient ⟨20, 0, false⟩ false
        "p").1.index.database.documents.map (·.file.relativePath) = schedule.2.2 := by
    have hlocks : sampleEngine.locks.acquire "p" = (⟨["p"]⟩, true) := rfl
    have hproject : ({ sampleEngine with locks := ⟨["p"]⟩ } : Engine).project? "p" =
        some sampleProject := rfl
    have hroot : sampleProject.rootPath = "/" := rfl
    have hrules : Run.loadRules pairTree sampleEngine.ignore "/" =
        .ok (.bare, .forRoot .bare none) := rfl
    simp only [runBy, locked, hlocks, runHeldBy, hproject, hroot, hrules, discover_pairTree]
    rw [sampleEngine, Index.new_eq]
    decide +kernel
  intro schedule hschedule
  obtain ⟨hok, hpaths⟩ := hsucceeds schedule hschedule
  rcases hrun : sampleEngine.runBy schedule.1 schedule.2.1 pairTree .patient ⟨20, 0, false⟩ false "p"
    with ⟨e', f | figures⟩
  · simp [hrun, Except.isOk, Except.toBool] at hok
  · rw [hrun] at hpaths
    exact ⟨e', figures, rfl, hpaths⟩

/-- Two workers that overtake each other leave the rows in another order, and the same rows. -/
theorem pair_alike_in_both_orders :
    ∃ e₁ figures₁ e₂ figures₂ moves₁ moves₂,
      sampleEngine.runBy 1 moves₁ pairTree .patient ⟨20, 0, false⟩ false "p" =
        (e₁, .ok figures₁) ∧
      sampleEngine.runBy 2 moves₂ pairTree .patient ⟨20, 0, false⟩ false "p" =
        (e₂, .ok figures₂) ∧
      e₁.index.database.documents.map (·.file.relativePath) = ["a.py", "b.py"] ∧
      e₂.index.database.documents.map (·.file.relativePath) = ["b.py", "a.py"] ∧
      e₁.Alike e₂ ∧ figures₁.Alike figures₂ := by
  obtain ⟨e₁, figures₁, hfirst, horder⟩ := runBy_pairTree _ List.mem_cons_self
  obtain ⟨e₂, figures₂, hsecond, hcrossed⟩ :=
    runBy_pairTree _ (List.mem_cons_of_mem _ List.mem_cons_self)
  have hplain : sampleEngine.Plain pairTree .patient ⟨20, 0, false⟩ false "p" pairSetting.parse :=
    plain_of_covers covers_pairTree (Parser.sound_new pairSetting)
  exact ⟨e₁, figures₁, e₂, figures₂, _, _, hfirst, hsecond, horder, hcrossed,
    (runs_alike_in_any_order hfirst).2 _ hplain (fun _ => rfl) 2 _ e₂ figures₂ hsecond⟩

end Engine

end CodeAtlas
