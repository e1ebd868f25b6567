import CodeAtlas.Proofs.Engine.Order

/-!
# Operations leave the other projects alone

An engine may be called by anybody, with any tree, its calls may fail wherever they do, and it may be
opened again at any time. If files with different names or in different projects have different
identifiers, then what is done to one project leaves all others as they are, in the index and in memory,
even if their roots are nested and share files.
-/

namespace CodeAtlas

/-- What the calls of an engine are given: a tree in which a project is indexed, the caller of a run, and
the parser with which the engine is opened. -/
structure Conditions where
  trees : FileTree → String → Prop
  callers : Caller → Prop
  parsers : Parser → Prop

/-- Any callers and parsers, and trees whose names come up. -/
def Naming.conditions (N : Naming) : Conditions := ⟨N.Covers, fun _ => True, fun _ => True⟩

/-- What an engine and its index have of a project. A row of a document has its symbols and
references. -/
structure Holding where
  project : Option Project
  rows : List ProjectRow
  documents : List DocumentRow
  files : List (String × IndexedFile)
  symbols : List (String × List Symbol)
  references : List (String × List Reference)
  usages : List (String × List Usage)

namespace Engine

/-- The engines that come up over an index that they alone write, however their calls end. -/
inductive Arises (W : Conditions) : Engine → Prop where
  | opened {ignore : IgnoreConfig} {parser : Parser} {minted : Nat} {live : Bool} {e : Engine}
      (hparser : W.parsers parser) (hopened : restore ignore parser .new minted live = .ok e) :
      Arises W e
  | addProject {e : Engine} (h : Arises W e) (tree : FileTree) (live : Bool) (now : Instant)
      (name path description : String) :
      Arises W (e.addProject tree live now name path description).1
  | indexProject {e : Engine} (h : Arises W e) {tree : FileTree} {caller : Caller}
      {projectId : String} (htree : W.trees tree projectId) (hcaller : W.callers caller)
      (now : Instant) : Arises W (e.indexProject tree caller now projectId).1
  | reindexProject {e : Engine} (h : Arises W e) {tree : FileTree} {caller : Caller}
      {projectId : String} (htree : W.trees tree projectId) (hcaller : W.callers caller)
      (now : Instant) : Arises W (e.reindexProject tree caller now projectId).1
  | removeProject {e : Engine} (h : Arises W e) (caller : Caller) (now : Instant)
      (projectId : String) : Arises W (e.removeProject caller now projectId).1
  | reopened {e e' : Engine} (h : Arises W e) {ignore : IgnoreConfig} {parser : Parser} {minted : Nat}
      {live : Bool} (hparser : W.parsers parser)
      (hopened : restore ignore parser e.index minted live = .ok e') : Arises W e'

variable {W : Conditions} {N : Naming} {e e' : Engine} {docs docs' : List Document}
  {entries entries' : List FileEntry} {id : String}

theorem orderly_new (N : Naming) (ignore : IgnoreConfig) (parser : Parser) :
    (⟨ignore, parser, .new, [], .empty, .empty, .zero, 0, 0⟩ : Engine).Orderly N [] [] where
  reachable := by rw [Index.new_eq]
  idle := by rw [Index.new_eq]
  keeps := Database.keeps_new
  projects := by
    rw [Index.new_eq]
    exact .nil
  memory := FileMemory.holds_empty
  documents := by simp
  entries := by simp

theorem Arises.orderly (h : Arises W e) (hnames : ∀ tree id, W.trees tree id → N.Covers tree id) :
    ∃ docs entries, e.Orderly N docs entries := by
  induction h with
  | @opened ignore parser minted live e hparser hopened =>
      exact ⟨[], (orderly_new N ignore parser).restore hopened⟩
  | addProject h tree live now name path description ih =>
      obtain ⟨docs, entries, hordered⟩ := ih
      exact ⟨docs, entries, (hordered.addProject tree live now name path description).1⟩
  | indexProject h htree hcaller now ih =>
      obtain ⟨docs, entries, hordered⟩ := ih
      obtain ⟨docs', entries', hordered', -⟩ := hordered.run (hnames _ _ htree) _ now false
      exact ⟨docs', entries', hordered'⟩
  | reindexProject h htree hcaller now ih =>
      obtain ⟨docs, entries, hordered⟩ := ih
      obtain ⟨docs', entries', hordered', -⟩ := hordered.run (hnames _ _ htree) _ now true
      exact ⟨docs', entries', hordered'⟩
  | removeProject h caller now projectId ih =>
      obtain ⟨docs, entries, hordered⟩ := ih
      obtain ⟨docs', entries', hordered', -⟩ := hordered.removeProject caller now projectId
      exact ⟨docs', entries', hordered'⟩
  | reopened h hparser hopened ih =>
      obtain ⟨docs, entries, hordered⟩ := ih
      exact ⟨docs, hordered.restore hopened⟩

theorem Arises.run (h : Arises W e) {tree : FileTree} {caller : Caller} {projectId : String}
    (htree : W.trees tree projectId) (hcaller : W.callers caller) (now : Instant) (isFresh : Bool) :
    Arises W (e.locked projectId fun e => e.runHeld tree caller now isFresh projectId).1 := by
  cases isFresh with
  | false => exact h.indexProject htree hcaller now
  | true => exact h.reindexProject htree hcaller now

def holding (e : Engine) (id : String) : Holding :=
  let ids := e.memory.idsOf id
  { project := e.project? id
    rows := e.index.database.projectsOf id
    documents := e.index.database.documentsOf id
    files := e.memory.files.entries.filter fun entry => ids.contains entry.1
    symbols := e.memory.symbols.entries.filter fun entry => ids.contains entry.1
    references := e.memory.references.entries.filter fun entry => ids.contains entry.1
    usages := e.memory.usages.entries.filter fun entry => ids.contains entry.1 }

theorem holding_eq (h : e.memory.Holds entries) (id : String) : e.holding id =
    { project := e.project? id
      rows := e.index.database.projectsOf id
      documents := e.index.database.documentsOf id
      files := (entriesOf entries id).map fun f => (f.file.id, f.file)
      symbols := (entriesOf entries id).map fun f => (f.file.id, f.symbols)
      references := (entriesOf entries id).map fun f => (f.file.id, f.references)
      usages := (entriesOf entries id).filterMap fun f =>
        f.usages.map fun usages => (f.file.id, usages) } := by
  have hown : ∀ f ∈ entries,
      (e.memory.idsOf id).contains f.file.id = (f.file.projectId == id) := by
    intro f hf
    rw [Bool.eq_iff_iff, List.contains_iff_mem, h.mem_idsOf hf, beq_iff_eq]
  have hstore {α : Type} (get : FileEntry → α) :
      (entries.map fun f => (f.file.id, get f)).filter
          (fun entry => (e.memory.idsOf id).contains entry.1) =
        (entriesOf entries id).map fun f => (f.file.id, get f) := by
    rw [List.filter_map]
    exact congrArg _ (List.filter_congr hown)
  have husages : (entries.filterMap fun f => f.usages.map fun usages => (f.file.id, usages)).filter
      (fun entry => (e.memory.idsOf id).contains entry.1) =
        (entriesOf entries id).filterMap fun f =>
          f.usages.map fun usages => (f.file.id, usages) := by
    unfold entriesOf
    rw [List.filter_filterMap, List.filterMap_filter]
    refine List.filterMap_congr fun f hf => ?_
    rw [← hown f hf]
    cases f.usages with
    | none => simp
    | some usages => simp only [Option.map_some, Option.filter_some]
  unfold holding
  simp only [h.files, h.symbols, h.references, h.usages, hstore, husages]

theorem SameProject.holding_eq (h : SameProject e e' entries entries' id)
    (hmemory : e.memory.Holds entries) (hmemory' : e'.memory.Holds entries') :
    e'.holding id = e.holding id := by
  rw [Engine.holding_eq hmemory, Engine.holding_eq hmemory', h.level.project, h.level.entries,
    h.share.projects, h.share.documents]

/-- In every engine that comes up, indexing a project, indexing it from scratch and removing it leave
what the engine and its index have of another project as it was, whatever comes of the call. -/
theorem other_projects_untouched (h : Arises N.conditions e) {p q : String} (hother : q ≠ p)
    {tree : FileTree} (hnames : N.Covers tree p) (caller : Caller) (now : Instant) :
    (e.indexProject tree caller now p).1.holding q = e.holding q ∧
      (e.reindexProject tree caller now p).1.holding q = e.holding q ∧
      (e.removeProject caller now p).1.holding q = e.holding q := by
  obtain ⟨docs, entries, hordered⟩ := h.orderly fun _ _ htree => htree
  have hsame {e' : Engine} (hspares : ∃ docs' entries', e'.Orderly N docs' entries' ∧
      ∀ id, id ≠ p → SameProject e e' entries entries' id) : e'.holding q = e.holding q := by
    obtain ⟨docs', entries', hordered', hspares⟩ := hspares
    exact (hspares q hother).holding_eq hordered.memory hordered'.memory
  exact ⟨hsame (hordered.run hnames caller now false), hsame (hordered.run hnames caller now true),
    hsame (hordered.removeProject caller now p)⟩

def outerId : String := (Uuid.ofCounter 1).toString

def innerId : String := (Uuid.ofCounter 2).toString

def nestedNames : List (String × String) :=
  [(outerId, "."), (outerId, "a.py"), (outerId, "sub/a.py"), (innerId, "."), (innerId, "a.py"),
    (innerId, "sub/a.py")]

def nestedNaming : Naming where
  names := {name | name ∈ nestedNames}
  fileId_injOn := by
    have hdistinct : (nestedNames.map fun name => fileId name.1 name.2).Nodup := by decide +kernel
    exact fun name hname other hother hsame =>
      List.inj_on_of_nodup_map hdistinct hname hother hsame

def nestedTree : FileTree where
  entries := [(["sub"], .directory), (["sub", "a.py"], .file (bytesOfText "def f():\n") ⟨5, 0, false⟩)]
  current := []

theorem covers_nestedTree {id : String} (hid : id = outerId ∨ id = innerId) :
    nestedNaming.Covers nestedTree id where
  proper := by
    refine ⟨by decide, ?_⟩
    simp [nestedTree, ProperName]
  names place content modified hfile rel hrel := by
    have hplace : place = ["sub", "a.py"] := by
      simp only [nestedTree, List.mem_cons, Prod.mk.injEq, reduceCtorEq, and_false,
        FileNode.file.injEq, List.not_mem_nil, or_false, false_or] at hfile
      exact hfile.1
    have hnames : ∀ id ∈ [outerId, innerId], ∀ rel ∈ ["sub", "a.py"].tails,
        (id, Run.relativeText rel) ∈ nestedNames := by decide +kernel
    rw [hplace] at hrel
    exact hnames id (by simpa using hid) rel ((List.mem_tails _ _).mpr hrel)

/-- A project and another one below it, both indexed. -/
def nestedRuns (e : Engine) : Engine :=
  let e := (e.addProject nestedTree true ⟨10, 0, false⟩ "outer" "/" "").1
  let e := (e.addProject nestedTree true ⟨10, 0, false⟩ "inner" "/sub" "").1
  let e := (e.indexProject nestedTree .patient ⟨20, 0, false⟩ outerId).1
  (e.indexProject nestedTree .patient ⟨20, 0, false⟩ innerId).1

theorem Arises.nestedRuns (h : Arises nestedNaming.conditions e) :
    Arises nestedNaming.conditions e.nestedRuns :=
  (((h.addProject _ _ _ _ _ _).addProject _ _ _ _ _ _).indexProject (covers_nestedTree (.inl rfl))
    trivial _).indexProject (covers_nestedTree (.inr rfl)) trivial _

/-- The outer project is removed, and its file stays in the inner one. -/
theorem inner_project_untouched : ∃ e, Arises nestedNaming.conditions e ∧
    (e.holding outerId).documents.length = 1 ∧ (e.holding innerId).documents.length = 1 ∧
    ((e.removeProject .patient ⟨30, 0, false⟩ outerId).1.holding outerId).documents = [] ∧
    (e.removeProject .patient ⟨30, 0, false⟩ outerId).1.holding innerId = e.holding innerId := by
  obtain ⟨e, harises, houter, hinner, hgone⟩ : ∃ e, Arises nestedNaming.conditions e ∧
      (e.holding outerId).documents.length = 1 ∧ (e.holding innerId).documents.length = 1 ∧
      ((e.removeProject .patient ⟨30, 0, false⟩ outerId).1.holding outerId).documents.length = 0 :=
    ⟨bareEngine.nestedRuns, .nestedRuns (.opened trivial restore_new), by decide +kernel⟩
  exact ⟨e, harises, houter, hinner, List.length_eq_zero_iff.mp hgone,
    (other_projects_untouched harises (by decide +kernel) (covers_nestedTree (.inl rfl)) .patient
      ⟨30, 0, false⟩).2.2⟩

end Engine

end CodeAtlas
