import CodeAtlas.Proofs.Index.Listing

/-!
# The index as a plain map

What the index answers after any storage operations can be told from a plain map of documents by
their files, in which the changes of the writers whose commits succeeded are made one after the other.
The map and the rows are never compared cell by cell: both are tied to a list of documents, which the
rows keep and the map lists.
-/

namespace CodeAtlas

/-- Documents by the identifiers of their files. -/
abbrev Shelf := String → Option Document

namespace Shelf

def empty : Shelf := fun _ => none

def withoutProject (m : Shelf) (projectId : String) : Shelf :=
  fun id => (m id).filter (·.file.projectId != projectId)

/-- A change of the map. A document that is put without a time of indexing was indexed now. -/
def write (now : Instant) (m : Shelf) : WriteOp → Shelf
  | .put d => Function.update m d.file.id (some (Database.stamped now d))
  | .deleteFile id => Function.update m id none
  | .deleteProjectDocuments projectId => m.withoutProject projectId
  | .saveProject _ => m

/-- The map has exactly the documents of a list, under the identifiers of their files. -/
def Lists (m : Shelf) (docs : List Document) : Prop :=
  ∀ id d, m id = some d ↔ d ∈ docs ∧ d.file.id = id

variable {m : Shelf} {docs : List Document}

theorem lists_empty : empty.Lists [] := by
  intro id d
  simp [empty]

theorem Lists.withoutProject (h : m.Lists docs) (projectId : String) :
    (m.withoutProject projectId).Lists (docs.filter (·.file.projectId != projectId)) := by
  intro id d
  rw [Shelf.withoutProject, Option.filter_eq_some_iff, h, List.mem_filter, and_right_comm]

theorem Lists.remove (h : m.Lists docs) (id : String) :
    Lists (Function.update m id none) (docs.filter (·.file.id != id)) := by
  intro other e
  by_cases hother : other = id
  · subst hother
    simp
  · rw [Function.update_of_ne hother, h, List.mem_filter]
    constructor
    · rintro ⟨he, rfl⟩
      exact ⟨⟨he, by simpa using hother⟩, rfl⟩
    · rintro ⟨⟨he, -⟩, hid⟩
      exact ⟨he, hid⟩

theorem Lists.put (h : m.Lists docs) {id : String} {d : Document} (hid : d.file.id = id) :
    Lists (Function.update m id (some d)) (docs.filter (·.file.id != id) ++ [d]) := by
  intro other e
  by_cases hother : other = id
  · subst hother
    rw [Function.update_self, List.mem_append, List.mem_singleton, List.mem_filter]
    constructor
    · rintro ⟨⟩
      exact ⟨.inr rfl, hid⟩
    · rintro ⟨⟨-, hne⟩ | rfl, he⟩
      · simp [he] at hne
      · rfl
  · have hremoved := h.remove id other e
    rw [Function.update_of_ne hother] at hremoved ⊢
    rw [hremoved, List.mem_append, List.mem_singleton]
    constructor
    · rintro ⟨he, heid⟩
      exact ⟨.inl he, heid⟩
    · rintro ⟨he | rfl, heid⟩
      · exact ⟨he, heid⟩
      · exact absurd (heid.symm.trans hid) hother

theorem Lists.write (h : m.Lists docs) (now : Instant) (op : WriteOp) :
    (m.write now op).Lists (op.on now docs) := by
  cases op with
  | put d => exact h.put (Database.stamped_id now d)
  | deleteFile id => exact h.remove id
  | deleteProjectDocuments projectId => exact h.withoutProject projectId
  | saveProject p => exact h

theorem Lists.writeAll (h : m.Lists docs) (now : Instant) (queue : List WriteOp) :
    Lists (queue.foldl (Shelf.write now) m)
      (queue.foldl (WriteOp.on now) docs) := by
  induction queue generalizing m docs with
  | nil => exact h
  | cons op rest ih => exact ih (h.write now op)

end Shelf

/-- An operation on the index: on its projects, or by its writer. -/
inductive StorageAct where
  | createProject (live : Bool) (now : Instant) (project : Project)
  | updateProject (live : Bool) (project : Project)
  | deleteProject (live : Bool) (projectId : String)
  | openWriter
  | submit (op : WriteOp)
  | commit (refusal : Option Cause) (now : Instant)
  | rollback

/-- What an operation that may refuse leaves, and whether it refused. -/
def Index.orSame (ix : Index) : Except Fault Index → Index × Except Fault Unit
  | .ok ix' => (ix', .ok ())
  | .error f => (ix, .error f)

def Index.act (ix : Index) : StorageAct → Index × Except Fault Unit
  | .createProject live now p => ix.orSame (ix.createProject live now p)
  | .updateProject live p => ix.orSame (ix.updateProject live p)
  | .deleteProject live projectId => ix.orSame (ix.deleteProject live projectId)
  | .openWriter => ix.orSame ix.openWriter
  | .submit op => ix.orSame (ix.submit op)
  | .commit refusal now => ix.commitUnless refusal now
  | .rollback => ix.orSame ix.rollback

/-- The plain map with the changes that the writer has submitted and not committed. -/
structure Ledger where
  shelf : Shelf
  pending : List WriteOp

namespace Ledger

def act (l : Ledger) : StorageAct → Ledger
  | .createProject _ _ _ => l
  | .updateProject _ _ => l
  | .deleteProject _ projectId => { l with shelf := l.shelf.withoutProject projectId }
  | .openWriter => { l with pending := [] }
  | .submit op => { l with pending := l.pending ++ [op] }
  | .commit _ now => ⟨l.pending.foldl (Shelf.write now) l.shelf, []⟩
  | .rollback => { l with pending := [] }

end Ledger

def replayOne (state : Index × Ledger) (a : StorageAct) : Index × Ledger :=
  match state.1.act a with
  | (ix, .ok ()) => (ix, state.2.act a)
  | (ix, .error _) => (ix, state.2)

/-- Operations on a new index, and the ledger of those that succeed. -/
def replay (acts : List StorageAct) : Index × Ledger :=
  acts.foldl replayOne (.new, ⟨.empty, []⟩)

/-- The index has the ledger's changes queued and keeps documents that its map lists. -/
structure Index.Follows (ix : Index) (l : Ledger) (docs : List Document) : Prop where
  reachable : ix.isClosed = false
  queue : ix.queue = none ∨ ix.queue = some l.pending
  keeps : ix.database.Keeps docs
  lists : l.shelf.Lists docs

namespace Index

variable {ix ix' : Index} {l : Ledger} {docs : List Document}

theorem follows_new : Index.Follows .new ⟨.empty, []⟩ [] where
  reachable := by rw [new_eq]
  queue := by
    rw [new_eq]
    exact .inl rfl
  keeps := Database.keeps_new
  lists := Shelf.lists_empty

theorem Follows.createProject (h : ix.Follows l docs) {live : Bool} {now : Instant} {p : Project}
    (hdone : ix.createProject live now p = .ok ix') : ix'.Follows l docs := by
  obtain ⟨db, hdb, rfl⟩ := createProject_eq_ok hdone
  exact ⟨h.reachable, h.queue, h.keeps.createProject hdb, h.lists⟩

theorem Follows.updateProject (h : ix.Follows l docs) {live : Bool} {p : Project}
    (hdone : ix.updateProject live p = .ok ix') : ix'.Follows l docs := by
  obtain ⟨db, hdb, rfl⟩ := updateProject_eq_ok hdone
  exact ⟨h.reachable, h.queue, h.keeps.updateProject hdb, h.lists⟩

theorem Follows.deleteProject (h : ix.Follows l docs) {live : Bool} {projectId : String}
    (hdone : ix.deleteProject live projectId = .ok ix') :
    ix'.Follows { l with shelf := l.shelf.withoutProject projectId }
      (docs.filter (·.file.projectId != projectId)) := by
  obtain ⟨db, hdb, rfl⟩ := deleteProject_eq_ok hdone
  exact ⟨h.reachable, h.queue, (h.keeps.deleteProject hdb).2, h.lists.withoutProject projectId⟩

theorem Follows.openWriter (h : ix.Follows l docs) (hdone : ix.openWriter = .ok ix') :
    ix'.Follows { l with pending := [] } docs := by
  unfold Index.openWriter at hdone
  split at hdone
  · simp at hdone
  · split at hdone
    · simp at hdone
    · obtain rfl := Except.ok.inj hdone
      exact ⟨h.reachable, .inr rfl, h.keeps, h.lists⟩

theorem Follows.submit (h : ix.Follows l docs) {op : WriteOp} (hdone : ix.submit op = .ok ix') :
    ix'.Follows { l with pending := l.pending ++ [op] } docs := by
  unfold Index.submit at hdone
  split at hdone
  · simp at hdone
  · rename_i queue hqueue
    obtain rfl := Except.ok.inj hdone
    obtain rfl : queue = l.pending := by simpa [hqueue] using h.queue
    exact ⟨h.reachable, .inr rfl, h.keeps, h.lists⟩

theorem Follows.rollback (h : ix.Follows l docs) (hdone : ix.rollback = .ok ix') :
    ix'.Follows { l with pending := [] } docs := by
  unfold Index.rollback at hdone
  split at hdone
  · obtain rfl := Except.ok.inj hdone
    exact ⟨h.reachable, .inl rfl, h.keeps, h.lists⟩
  · simp at hdone

/-- A commit that succeeds makes all changes that are pending; one that fails makes none. -/
theorem Follows.commit (h : ix.Follows l docs) {refusal : Option Cause} {now : Instant}
    {result : Except Fault Unit} (hdone : ix.commitUnless refusal now = (ix', result)) :
    (∃ f, result = .error f ∧ ix'.Follows l docs) ∨
      result = .ok () ∧ ix'.Follows ⟨l.pending.foldl (Shelf.write now) l.shelf, []⟩
        (l.pending.foldl (WriteOp.on now) docs) := by
  obtain ⟨f, rfl, rfl⟩ | ⟨queue, db, rfl, hqueue, hdb, rfl⟩ := commit_cases hdone
  · exact .inl ⟨f, rfl, h.reachable, .inl rfl, h.keeps, h.lists⟩
  · obtain rfl : queue = l.pending := by simpa [hqueue] using h.queue
    exact .inr ⟨rfl, h.reachable, .inl rfl, (h.keeps.writeAll hdb).2, h.lists.writeAll now _⟩

theorem Follows.orSame (h : ix.Follows l docs) {a : StorageAct} {outcome : Except Fault Index}
    (hact : ix.act a = ix.orSame outcome)
    (hdone : ∀ ix', outcome = .ok ix' → ∃ docs', ix'.Follows (l.act a) docs') :
    ∃ docs', (replayOne (ix, l) a).1.Follows (replayOne (ix, l) a).2 docs' := by
  unfold replayOne
  simp only
  rw [hact]
  cases outcome with
  | ok ix' => exact hdone ix' rfl
  | error f => exact ⟨docs, h⟩

/-- Whatever the operation is and whether or not it succeeds, index and ledger stay together. -/
theorem Follows.replayOne (h : ix.Follows l docs) (a : StorageAct) :
    ∃ docs', (replayOne (ix, l) a).1.Follows (CodeAtlas.replayOne (ix, l) a).2 docs' := by
  cases a with
  | createProject live now p => exact h.orSame rfl fun ix' hdone => ⟨docs, h.createProject hdone⟩
  | updateProject live p => exact h.orSame rfl fun ix' hdone => ⟨docs, h.updateProject hdone⟩
  | deleteProject live projectId =>
      exact h.orSame rfl fun ix' hdone => ⟨_, h.deleteProject hdone⟩
  | openWriter => exact h.orSame rfl fun ix' hdone => ⟨docs, h.openWriter hdone⟩
  | submit op => exact h.orSame rfl fun ix' hdone => ⟨docs, h.submit hdone⟩
  | rollback => exact h.orSame rfl fun ix' hdone => ⟨docs, h.rollback hdone⟩
  | commit refusal now =>
      rcases hcommit : ix.commitUnless refusal now with ⟨ix', result⟩
      unfold CodeAtlas.replayOne
      simp only [act, hcommit]
      obtain ⟨f, rfl, hfailed⟩ | ⟨rfl, hdone⟩ := h.commit hcommit
      · exact ⟨docs, hfailed⟩
      · exact ⟨_, hdone⟩

theorem exists_follows_replay (acts : List StorageAct) :
    ∃ docs, (replay acts).1.Follows (replay acts).2 docs := by
  have hrun (state : Index × Ledger) (h : ∃ docs, state.1.Follows state.2 docs) :
      ∃ docs, (acts.foldl CodeAtlas.replayOne state).1.Follows
        (acts.foldl CodeAtlas.replayOne state).2 docs := by
    induction acts generalizing state with
    | nil => exact h
    | cons a rest ih =>
        obtain ⟨docs, hfollows⟩ := h
        exact ih _ (hfollows.replayOne a)
  exact hrun _ ⟨[], follows_new⟩

/-- After any operations the index answers from the documents of the plain map. They are listed by
project and path, counted, and searched for uses; tags without commas are listed as they were put. The
rows of symbols and references are those of the documents: none stays when its document has gone. -/
theorem replay_answers_from_shelf (acts : List StorageAct) :
    ∃ docs : List Document, (docs.map (·.file.id)).Nodup ∧ (replay acts).2.shelf.Lists docs ∧
      (replay acts).1.database.tables.Owned ∧
      (∀ projectId, ∃ listed, (replay acts).1.documents true projectId = .ok listed ∧
        listed.Perm ((docs.filter (·.file.projectId == projectId)).map Document.listed) ∧
        listed.Pairwise fun d e => d.file.relativePath ≤ e.file.relativePath) ∧
      (∀ s fileId, (∀ tag ∈ s.tags, ',' ∉ tag.toList) → s.tags ≠ [""] →
        Symbol.listed fileId s = { s with fileId }) ∧
      (replay acts).1.figures true =
        (if ∀ n < docs.length, isSigned64 ((docs.take (n + 1)).map (·.file.lineCount)).sum = true
          then .ok (figuresOf docs (replay acts).1.database)
          else .error ⟨["failed to read stats"], .overflow⟩) ∧
      ∀ q : ReferenceQuery, trim q.name ≠ "" →
        (usesIn docs q).length ≤ limitOrDefault q.limit →
          ∃ hits, (replay acts).1.searchReferences true q = .ok hits ∧
            (hits.map (·.use)).Perm (usesIn docs q) ∧
            ∀ i (hi : i < hits.length), (hits.get ⟨i, hi⟩).rank = i + 1 := by
  obtain ⟨docs, hfollows⟩ := exists_follows_replay acts
  have hopen := hfollows.reachable
  have hkeeps := hfollows.keeps
  refine ⟨docs, hkeeps.files, hfollows.lists, hkeeps.tables, ?_, ?_, figures_eq hopen hkeeps, ?_⟩
  · exact documents_perm hopen hkeeps
  · intro s fileId hfree hlone
    unfold Symbol.listed Symbol.stored
    rw [SymbolRow.storedTags_eq hfree hlone]
  · intro q hname hlimit
    exact searchReferences_perm hopen hkeeps hname hlimit

/-- A document with a comma in a tag, blanks around a name, as many lines as can be told, and no time
of indexing. -/
def awkwardDocument : Document where
  file := {
    id := "f", projectId := "p", path := "/p/a.py", relativePath := "a.py", fileType := .source
    language := .python, size := 0, lineCount := 9223372036854775807, lastModified := .zero
    lastIndexed := .zero, checksum := "", encoding := "" }
  content := ""
  symbols := [{
    id := "s", fileId := "f", name := " f ", kind := .function, first := ⟨1, 0⟩, last := ⟨1, 0⟩
    signature := "", scope := "", space := "", tags := ["a,b"] }]
  references := [{
    id := "r", symbolId := "s", fileId := "f", location := ⟨"f", ⟨1, 0⟩, ⟨1, 0⟩⟩, kind := .usage
    context := "" }]

/-- Two projects, and a writer that puts that document and another one of a single line. -/
def awkwardActs : List StorageAct :=
  let project : Project :=
    { id := "p", name := "sample", rootPath := "/p", description := "", indexed := false
      lastIndexed := .zero, repositoryKind := "filesystem", branch := "", remoteUrl := ""
      createdAt := ⟨10, 0, false⟩ }
  [.createProject true ⟨20, 0, false⟩ project,
    .createProject true ⟨20, 0, false⟩ { project with id := "q", rootPath := "/q" },
    .openWriter, .submit (.put awkwardDocument),
    .submit (.put { awkwardDocument with
      file := { awkwardDocument.file with id := "g", projectId := "q", lineCount := 1 } }),
    .commit none ⟨30, 0, false⟩]

/-- The document is listed with other tags and another time than it was put with, its use is not
found under the name of its symbol, and the lines cannot be summed up. -/
theorem awkward_document_not_preserved :
    (∃ d, (replay awkwardActs).1.documents true "p" = .ok [d] ∧
      d.symbols.map (·.tags) ≠ awkwardDocument.symbols.map (·.tags) ∧
      d.file.lastIndexed ≠ awkwardDocument.file.lastIndexed) ∧
    (replay awkwardActs).1.searchReferences true ⟨" f ", "", "p", 20⟩ = .ok [] ∧
    ∃ f, (replay awkwardActs).1.figures true = .error f := by
  have hanswers :
      ((replay awkwardActs).1.documents true "p").toOption.map
          (List.map fun d => (d.symbols.map (·.tags), d.file.lastIndexed)) =
        some [([["a", "b"]], ⟨30, 0, false⟩)] ∧
      ((replay awkwardActs).1.searchReferences true ⟨" f ", "", "p", 20⟩).toOption = some [] ∧
      ((replay awkwardActs).1.figures true).toOption = none := by
    rw [replay, new_eq]
    decide +kernel
  obtain ⟨hlisted, hfound, hfigures⟩ := hanswers
  refine ⟨?_, ?_, ?_⟩
  · cases hdocs : (replay awkwardActs).1.documents true "p" with
    | error f => simp [hdocs, Except.toOption] at hlisted
    | ok listed =>
        rw [hdocs] at hlisted
        obtain ⟨d, rfl, hd⟩ := List.map_eq_singleton_iff.mp (Option.some.inj hlisted)
        obtain ⟨htags, htime⟩ := Prod.mk.inj hd
        refine ⟨d, rfl, ?_, ?_⟩
        · rw [htags]
          decide
        · rw [htime]
          decide
  · cases hhits : (replay awkwardActs).1.searchReferences true ⟨" f ", "", "p", 20⟩ with
    | error f => simp [hhits, Except.toOption] at hfound
    | ok hits =>
        rw [hhits] at hfound
        rw [Option.some.inj hfound]
  · cases hlines : (replay awkwardActs).1.figures true with
    | error f => exact ⟨f, rfl⟩
    | ok figures => simp [hlines, Except.toOption] at hfigures

end Index

end CodeAtlas
