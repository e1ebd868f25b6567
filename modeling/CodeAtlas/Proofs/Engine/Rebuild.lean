import CodeAtlas.Proofs.Engine.Reachable
import Mathlib.Data.List.Perm.Basic

/-!
# Indexing once more and from scratch

Whatever an engine remembers of a project, a run in which no file fails leaves one document for each
candidate that fits, and that document depends on the name and the content of the file alone. So a run
that builds on earlier ones and a run from scratch leave the same documents.
-/

namespace CodeAtlas

def DocumentRow.document (row : DocumentRow) : Document :=
  ⟨row.file, row.content, row.symbols.map (·.symbol), row.references.map (·.reference)⟩

def Database.timelessOf (db : Database) (projectId : String) : List Document :=
  (db.documents.filter (·.file.projectId == projectId)).map fun row => row.document.timeless

def Document.stored (d : Document) : Document := { d with symbols := d.symbols.map Symbol.stored }

theorem DocumentRow.Keeps.document_eq {row : DocumentRow} {d : Document} (h : row.Keeps d) :
    row.document = d.stored := by
  have hreferences : row.references.map (·.reference) = d.references := by
    rw [h.references, List.map_map]
    exact List.map_id _
  unfold DocumentRow.document Document.stored
  rw [h.file, h.content, h.symbols, hreferences]

theorem Symbol.stored_eq_of_listed {fileId : String} {s : Symbol} (h : s.listed fileId = s) :
    s.stored = s := by
  have htags : SymbolRow.storedTags s.tags = s.tags := congrArg Symbol.tags h
  unfold Symbol.stored
  rw [htags]

namespace Setting

variable {S : Setting} {root : String} {d : Document}

/-- What was found in a file is kept as it was found. -/
theorem Explains.stored_eq (h : S.Explains root d) : d.stored = d := by
  have hlisted := List.map_inj_left.mp (h.listed_found.1.trans (List.map_id _).symm)
  have hstored : d.symbols.map Symbol.stored = d.symbols :=
    (List.map_congr_left fun s hs => Symbol.stored_eq_of_listed (hlisted s hs)).trans
      (List.map_id _)
  unfold Document.stored
  rw [hstored]

end Setting

theorem Run.discover_unique {tree : FileTree} {caller caller' : Caller} {classifier : Classifier}
    {root : String} {candidates candidates' : List Candidate} {skipped skipped' : Nat}
    (h : discover tree caller classifier root = .ok (candidates, skipped))
    (h' : discover tree caller' classifier root = .ok (candidates', skipped')) :
    candidates = candidates' :=
  congrArg Prod.fst (found_unique h h')

namespace Engine

variable {S : Setting} {e e' : Engine} {docs docs' : List Document} {entries : List FileEntry}
  {tree : FileTree} {caller : Caller} {now : Instant} {isFresh : Bool} {projectId : String}
  {r : Run} {candidates : List Candidate} {s : RunState}

/-- The rows of a settled project are those of the candidates that fit. -/
theorem Agrees.timelessOf_perm (h : e.Agrees S docs' entries)
    (hsettles : r.Settles S docs candidates s docs') (hnone : s.failed = 0)
    (hmeets : ∀ c ∈ candidates, S.Meets r.project.id r.project.rootPath c)
    (hdistinct : candidates.Pairwise fun c c' => c.relativePath ≠ c'.relativePath) :
    ((e.index.database.timelessOf r.project.id).map some).Perm
      ((candidates.filter (Candidate.fits r.ignore)).map (S.document? r.project.id)) := by
  have hrows := h.keeps.filter (p := (·.file.projectId == r.project.id))
    (q := (·.file.projectId == r.project.id)) fun row d hrow => by rw [hrow.file]
  have hkept := forall₂_map_eq hrows (f := fun row => row.document.timeless)
    (g := fun d => d.stored.timeless) fun row d hrow => by rw [hrow.document_eq]
  have hstored : ((docs'.filter (·.file.projectId == r.project.id)).map fun d =>
      d.stored.timeless) =
        (docs'.filter (·.file.projectId == r.project.id)).map Document.timeless := by
    refine List.map_congr_left fun d hd => ?_
    obtain ⟨hd, hown⟩ := List.mem_filter.mp hd
    rw [(hsettles.explained d hd (by simpa using hown)).stored_eq]
  unfold Database.timelessOf
  rw [hkept, hstored, List.map_map]
  exact hsettles.documents_perm hnone hmeets hdistinct

/-- A run in which no file fails leaves one document for each candidate that fits, whether or not it
starts from scratch. -/
theorem Reachable.documents_of_run (h : Reachable S e) (hcovers : S.Covers tree projectId)
    (hsteady : S.Steady caller) {figures : RunFigures}
    (hrun : e.locked projectId (fun e => e.runHeld tree caller now isFresh projectId) =
      (e', .ok figures))
    (hnone : figures.filesFailed = 0) :
    ∃ project ignore classifier candidates skipped, e.project? projectId = some project ∧
      Run.loadRules tree e.ignore project.rootPath = .ok (ignore, classifier) ∧
      Run.discover tree caller classifier project.rootPath = .ok (candidates, skipped) ∧
      ((e'.index.database.timelessOf projectId).map some).Perm
        ((candidates.filter (Candidate.fits ignore)).map (S.document? projectId)) := by
  obtain ⟨docs, entries, hagrees⟩ := h.agrees
  obtain ⟨-, f, hfailed⟩ | ⟨locks, e₁, -, hheld, rfl⟩ := locked_cases hrun
  · simp at hfailed
  have hlocked : ({ e with locks } : Engine).Agrees S docs entries :=
    hagrees.of_same hagrees.parser rfl rfl rfl
  cases runs_of_runHeld hheld with
  | @completed r candidates skipped s index hstarts hfilled hcommit =>
      obtain ⟨docs', hsettles, hafter⟩ :=
        hlocked.complete hstarts hcovers hsteady hfilled hcommit
      obtain ⟨hmeets, hdistinct⟩ := hstarts.meets hcovers
      obtain ⟨-, hid⟩ := project?_eq_some hstarts.known
      obtain ⟨classifier, hrules, hdiscover⟩ := hstarts.found
      have hperm := (hafter.refresh (caller.waits .figures)).timelessOf_perm hsettles hnone hmeets
        hdistinct
      rw [hid] at hperm
      exact ⟨r.project, r.ignore, classifier, candidates, skipped, hstarts.known, hrules, hdiscover,
        hperm⟩

/-- From one engine that comes up, indexing a project and indexing it from scratch leave the same
documents, if both succeed and no file fails: one for each file that is found, small enough and a
text. -/
theorem indexed_eq_reindexed (h : Reachable S e) (hcovers : S.Covers tree projectId)
    {caller₁ caller₂ : Caller} (hsteady₁ : S.Steady caller₁) (hsteady₂ : S.Steady caller₂)
    {now₁ now₂ : Instant} {e₁ e₂ : Engine} {figures₁ figures₂ : RunFigures}
    (hindex : e.indexProject tree caller₁ now₁ projectId = (e₁, .ok figures₁))
    (hreindex : e.reindexProject tree caller₂ now₂ projectId = (e₂, .ok figures₂))
    (hnone₁ : figures₁.filesFailed = 0) (hnone₂ : figures₂.filesFailed = 0) :
    (e₁.index.database.timelessOf projectId).Perm (e₂.index.database.timelessOf projectId) ∧
      ∃ project ignore classifier candidates skipped, e.project? projectId = some project ∧
        Run.loadRules tree e.ignore project.rootPath = .ok (ignore, classifier) ∧
        Run.discover tree caller₁ classifier project.rootPath = .ok (candidates, skipped) ∧
        (candidates.Pairwise fun c c' => c.relativePath ≠ c'.relativePath) ∧
        ((e₁.index.database.timelessOf projectId).map some).Perm
          ((candidates.filter (Candidate.fits ignore)).map (S.document? projectId)) := by
  obtain ⟨project, ignore, classifier, candidates, skipped, hproject, hrules, hdiscover, hperm⟩ :=
    h.documents_of_run hcovers hsteady₁ hindex hnone₁
  obtain ⟨project', ignore', classifier', candidates', skipped', hproject', hrules', hdiscover',
    hperm'⟩ := h.documents_of_run hcovers hsteady₂ hreindex hnone₂
  obtain rfl := Option.some.inj (hproject.symm.trans hproject')
  obtain ⟨rfl, rfl⟩ := Prod.mk.inj (Except.ok.inj (hrules.symm.trans hrules'))
  obtain rfl := Run.discover_unique hdiscover hdiscover'
  refine ⟨?_, project, ignore, classifier, candidates, skipped, hproject, hrules, hdiscover,
    Run.distinct_of_discover hcovers.proper hdiscover, hperm⟩
  exact (List.map_perm_map_iff (Option.some_injective _)).mp (hperm.trans hperm'.symm)

def findsSymbol (result : Except Fault RunFigures) : Bool :=
  match result with
  | .ok figures => figures.filesFailed == 0 && figures.symbols == 1
  | .error _ => false

theorem eq_ok_of_findsSymbol {result : Except Fault RunFigures} (h : findsSymbol result = true) :
    ∃ figures, result = .ok figures ∧ figures.filesFailed = 0 := by
  unfold findsSymbol at h
  split at h
  · rename_i figures
    simp only [Bool.and_eq_true, beq_iff_eq] at h
    exact ⟨figures, rfl, h.1⟩
  · simp at h

/-- The sample file gets a function after the first run. Both ways of indexing succeed without a file that
fails, and they leave the same document, the only one. -/
theorem sample_indexed_eq_reindexed :
    ∃ (e : Engine) (figures figures' : RunFigures), Reachable sampleSetting e ∧
      (e.indexProject (sampleTree "def f():\n") .patient ⟨30, 0, false⟩ sampleId).2 = .ok figures ∧
      figures.filesFailed = 0 ∧
      (e.reindexProject (sampleTree "def f():\n") .patient ⟨40, 0, false⟩ sampleId).2 = .ok figures' ∧
      figures'.filesFailed = 0 ∧
      ((e.indexProject (sampleTree "def f():\n") .patient ⟨30, 0, false⟩
          sampleId).1.index.database.timelessOf sampleId).length = 1 ∧
      ((e.indexProject (sampleTree "def f():\n") .patient ⟨30, 0, false⟩
          sampleId).1.index.database.timelessOf sampleId).Perm
        ((e.reindexProject (sampleTree "def f():\n") .patient ⟨40, 0, false⟩
          sampleId).1.index.database.timelessOf sampleId) := by
  obtain ⟨e, hreachable, hindexed, hreindexed, hone⟩ : ∃ e : Engine, Reachable sampleSetting e ∧
      findsSymbol (e.indexProject (sampleTree "def f():\n") .patient ⟨30, 0, false⟩
        sampleId).2 = true ∧
      findsSymbol (e.reindexProject (sampleTree "def f():\n") .patient ⟨40, 0, false⟩
        sampleId).2 = true ∧
      ((e.indexProject (sampleTree "def f():\n") .patient ⟨30, 0, false⟩
          sampleId).1.index.database.timelessOf sampleId).length = 1 :=
    ⟨bareEngine.sampleRuns, reachable_bareEngine.sampleRuns, by decide +kernel⟩
  obtain ⟨figures, hindex, hnone⟩ := eq_ok_of_findsSymbol hindexed
  obtain ⟨figures', hreindex, hnone'⟩ := eq_ok_of_findsSymbol hreindexed
  exact ⟨e, figures, figures', hreachable, hindex, hnone, hreindex, hnone', hone,
    (indexed_eq_reindexed hreachable (covers_sampleTree (by simp [sampleTexts]))
      sampleSetting.steady_patient sampleSetting.steady_patient (Prod.ext rfl hindex)
      (Prod.ext rfl hreindex) hnone hnone').1⟩

end Engine

end CodeAtlas
