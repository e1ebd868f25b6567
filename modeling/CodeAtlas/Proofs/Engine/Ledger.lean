import CodeAtlas.Proofs.Engine.Accounts
import CodeAtlas.Proofs.Engine.Found
import CodeAtlas.Proofs.Number

/-!
# What the runs of all projects reported

Of every project, the report of the last run that succeeded is kept in a book; a removal that succeeds
strikes it out. The files that the engine has of a project are those that its report is about, whichever
other calls have failed since: an engine that is opened again has them too, if the index has their
documents at that time. So the figures of the engine are the sums over the book. They are not if a removal
has failed between its two commits and the engine is opened again before another run.
-/

namespace CodeAtlas

/-- The figures of all projects are the sums of what was reported of them. -/
structure EngineFigures.Sums (figures : EngineFigures) (book : List RunFigures) : Prop where
  files : figures.files = total (book.map (·.files))
  lines : figures.lines = wrap64 (signedTotal (book.map (·.lines)))
  symbols : figures.symbols = total (book.map (·.symbols))
  references : figures.references = total (book.map (·.references))
  languages : ∀ name, countOf name figures.languages =
    total (book.map fun report => countOf name report.languages)
  fileTypes : ∀ name, countOf name figures.fileTypes =
    total (book.map fun report => countOf name report.fileTypes)

theorem Database.Keeps.listed_documentsOf {db : Database} {docs : List Document} (h : db.Keeps docs)
    (id : String) : (db.documentsOf id).map DocumentRow.listed =
      (docs.filter (·.file.projectId == id)).map Document.listed :=
  forall₂_map_eq (h.filter fun row d hrow => by rw [hrow.file]) fun row d hrow => hrow.listed_eq

namespace Engine

/-- The report of a run that succeeds takes the place of the one that its project had. -/
def entered (book : List RunFigures) : Except Fault RunFigures → List RunFigures
  | .ok report => report :: book.filter (·.projectId != report.projectId)
  | .error _ => book

def struck (book : List RunFigures) (projectId : String) : Except Fault Unit → List RunFigures
  | .ok () => book.filter (·.projectId != projectId)
  | .error _ => book

/-- The index has the files of the project as the engine has them. -/
def Stores (e : Engine) (id : String) : Prop :=
  ((e.projectFiles id).map FileEntry.document).Perm
    ((e.index.database.documentsOf id).map DocumentRow.listed)

/-- Engines with the last reports of their projects. An engine is opened again when the index has all
files as the engine has them. -/
inductive Booked (S : Setting) : Engine → List RunFigures → Prop where
  | opened {ignore : IgnoreConfig} {minted : Nat} {live : Bool} {e : Engine}
      (hopened : restore ignore (.new S.config S.tool) .new minted live = .ok e) : Booked S e []
  | addProject {e : Engine} {book : List RunFigures} (h : Booked S e book) (tree : FileTree)
      (live : Bool) (now : Instant) (name path description : String) :
      Booked S (e.addProject tree live now name path description).1 book
  | indexProject {e : Engine} {book : List RunFigures} (h : Booked S e book) {tree : FileTree}
      {caller : Caller} {projectId : String} (htree : S.Covers tree projectId)
      (hcaller : S.Steady caller) (now : Instant) :
      Booked S (e.indexProject tree caller now projectId).1
        (entered book (e.indexProject tree caller now projectId).2)
  | reindexProject {e : Engine} {book : List RunFigures} (h : Booked S e book) {tree : FileTree}
      {caller : Caller} {projectId : String} (htree : S.Covers tree projectId)
      (hcaller : S.Steady caller) (now : Instant) :
      Booked S (e.reindexProject tree caller now projectId).1
        (entered book (e.reindexProject tree caller now projectId).2)
  | removeProject {e : Engine} {book : List RunFigures} (h : Booked S e book) (caller : Caller)
      (now : Instant) (projectId : String) :
      Booked S (e.removeProject caller now projectId).1
        (struck book projectId (e.removeProject caller now projectId).2)
  | reopened {e e' : Engine} {book : List RunFigures} (h : Booked S e book)
      (hstores : ∀ id, e.Stores id) {ignore : IgnoreConfig} {minted : Nat} {live : Bool}
      (hopened : restore ignore (.new S.config S.tool) e.index minted live = .ok e') :
      Booked S e' book

/-- The files that the engine has are those that were reported. -/
structure Balanced (e : Engine) (entries : List FileEntry) (book : List RunFigures) : Prop where
  memory : e.memory.Holds entries
  distinct : (book.map (·.projectId)).Nodup
  reported : ∀ f ∈ entries, f.file.projectId ∈ book.map (·.projectId)
  totals : ∀ report ∈ book, Totals report (entriesOf entries report.projectId)

variable {S : Setting} {N : Naming} {e e' : Engine} {docs : List Document}
  {entries entries' : List FileEntry} {book : List RunFigures} {tree : FileTree} {caller : Caller}
  {now : Instant} {isFresh : Bool} {projectId : String}

theorem Booked.arises (h : Booked S e book) : Arises S.conditions e := by
  induction h with
  | opened hopened => exact .opened rfl hopened
  | addProject h tree live now name path description ih =>
      exact ih.addProject tree live now name path description
  | indexProject h htree hcaller now ih => exact ih.indexProject htree hcaller now
  | reindexProject h htree hcaller now ih => exact ih.reindexProject htree hcaller now
  | removeProject h caller now projectId ih => exact ih.removeProject caller now projectId
  | reopened h hstores hopened ih => exact ih.reopened rfl hopened

/-! ## Sums over the book -/

/-- Entries of known projects are those of one project after the other. -/
theorem perm_flatMap_entriesOf {ids : List String} (hids : ids.Nodup)
    (hown : ∀ f ∈ entries, f.file.projectId ∈ ids) :
    (ids.flatMap (entriesOf entries)).Perm entries := by
  induction ids generalizing entries with
  | nil => simp [List.eq_nil_iff_forall_not_mem.mpr fun f hf => List.not_mem_nil (hown f hf)]
  | cons id rest ih =>
      obtain ⟨hid, hrest⟩ := List.nodup_cons.mp hids
      have hothers : ∀ other ∈ rest,
          entriesOf (entries.filter (·.file.projectId != id)) other = entriesOf entries other :=
        fun other hother => by
          rw [entriesOf_others, if_neg (ne_of_mem_of_not_mem hother hid)]
      have hleft : (rest.flatMap (entriesOf (entries.filter (·.file.projectId != id)))).Perm
          (entries.filter (·.file.projectId != id)) := ih hrest fun f hf => by
        obtain ⟨hf, hne⟩ := List.mem_filter.mp hf
        exact (List.mem_cons.mp (hown f hf)).resolve_left (by simpa using hne)
      rw [List.flatMap_congr hothers] at hleft
      rw [List.flatMap_cons]
      exact (hleft.append_left _).trans (List.filter_append_perm _ _)

theorem Balanced.perm (h : e.Balanced entries book) :
    (book.flatMap fun report => entriesOf entries report.projectId).Perm entries := by
  have hperm := perm_flatMap_entriesOf h.distinct h.reported
  rwa [List.flatMap_map] at hperm

theorem Balanced.sum_map {M : Type} [AddCommMonoid M] (h : e.Balanced entries book)
    (amount : FileEntry → M) : (entries.map amount).sum =
      (book.map fun report => ((entriesOf entries report.projectId).map amount).sum).sum := by
  rw [← (h.perm.map amount).sum_eq, List.map_flatMap, List.flatMap_def, List.sum_flatten,
    List.map_map]
  rfl

theorem Balanced.total_eq (h : e.Balanced entries book) {amount : FileEntry → Nat}
    {figure : RunFigures → Nat} (hfigure : ∀ report ∈ book, figure report =
      total ((entriesOf entries report.projectId).map amount)) :
    total (entries.map amount) = total (book.map figure) := by
  rw [total_eq_sum, total_eq_sum, h.sum_map]
  refine congrArg List.sum (List.map_congr_left fun report hreport => ?_)
  rw [hfigure report hreport, total_eq_sum]

theorem Balanced.tally_eq (h : e.Balanced entries book) {nameOf : FileEntry → String}
    {counts : RunFigures → List (String × Nat)} (name : String)
    (hcounts : ∀ report ∈ book, countOf name (counts report) =
      ((entriesOf entries report.projectId).map nameOf).count name) :
    countOf name (tally (entries.map nameOf)) =
      total (book.map fun report => countOf name (counts report)) := by
  rw [countOf_tally, ← (h.perm.map nameOf).count_eq name, List.map_flatMap, List.count_flatMap,
    total_eq_sum]
  exact congrArg List.sum (List.map_congr_left fun report hreport => (hcounts report hreport).symm)

theorem figures_of_holds (h : e.memory.Holds entries) : e.figures =
    { projects := e.projects.length
      files := entries.length
      lines := wrap64 (signedTotal (entries.map (·.file.lineCount)))
      symbols := total (entries.map (·.symbols.length))
      references := total (entries.map (·.references.length))
      languages := tally (entries.map (·.file.language.name))
      fileTypes := tally (entries.map (·.file.fileType.name))
      lastUpdate := e.lastUpdate } := by
  have hsymbols : e.memory.symbols.values = entries.map (·.symbols) := by
    unfold Store.values
    rw [h.symbols, List.map_map]
    rfl
  have hreferences : e.memory.references.values = entries.map (·.references) := by
    unfold Store.values
    rw [h.references, List.map_map]
    rfl
  unfold figures
  rw [h.files, h.values_files, hsymbols, hreferences, List.length_map]
  simp only [List.map_map]
  rfl

theorem Balanced.sums (h : e.Balanced entries book) : e.figures.Sums book := by
  rw [figures_of_holds h.memory]
  refine ⟨?_, ?_, ?_, ?_, fun name => ?_, fun name => ?_⟩
  · have hcount : entries.length = total (entries.map fun _ => 1) := by
      simp [total_eq_sum]
    refine hcount.trans (h.total_eq fun report hreport => ?_)
    rw [(h.totals report hreport).files]
    simp [total_eq_sum]
  · -- the lines of each report have been wrapped, and those of the engine are wrapped once
    have hwrapped : book.map (·.lines) = (book.map fun report =>
        ((entriesOf entries report.projectId).map (·.file.lineCount)).sum).map wrap64 := by
      rw [List.map_map]
      refine List.map_congr_left fun report hreport => ?_
      rw [(h.totals report hreport).lines, signedTotal_eq_sum]
      rfl
    rw [hwrapped, signedTotal_eq_sum, signedTotal_eq_sum, wrap64_sum_wrap64, h.sum_map]
  · exact h.total_eq fun report hreport => (h.totals report hreport).symbols
  · exact h.total_eq fun report hreport => (h.totals report hreport).references
  · exact h.tally_eq name fun report hreport => (h.totals report hreport).languages name
  · exact h.tally_eq name fun report hreport => (h.totals report hreport).fileTypes name

/-! ## Keeping the book -/

theorem Balanced.of_memory (h : e.Balanced entries book) (hmemory : e'.memory = e.memory) :
    e'.Balanced entries book :=
  ⟨hmemory ▸ h.memory, h.distinct, h.reported, h.totals⟩

theorem mem_ids_filter {id gone : String} : id ∈ (book.filter (·.projectId != gone)).map (·.projectId) ↔
    id ∈ book.map (·.projectId) ∧ id ≠ gone := by
  simp only [List.mem_map, List.mem_filter, bne_iff_ne]
  constructor
  · rintro ⟨report, ⟨hreport, hne⟩, rfl⟩
    exact ⟨⟨report, hreport, rfl⟩, hne⟩
  · rintro ⟨⟨report, hreport, rfl⟩, hne⟩
    exact ⟨report, ⟨hreport, hne⟩, rfl⟩

/-- The book of the other projects is about their files. -/
theorem Balanced.totals_others (h : e.Balanced entries book) {gone : String} {report : RunFigures}
    (hreport : report ∈ book.filter (·.projectId != gone)) :
    report.projectId ≠ gone ∧ Totals report (entriesOf entries report.projectId) := by
  obtain ⟨hreport, hne⟩ := List.mem_filter.mp hreport
  exact ⟨by simpa using hne, h.totals report hreport⟩

theorem Balanced.runs (h : e.Balanced entries book) (hordered : e.Orderly N docs entries)
    (hcovers : N.Covers tree projectId) {result : Except Fault RunFigures}
    (hruns : e.Runs tree caller now isFresh projectId e' result) :
    ∃ entries', e'.Balanced entries' (entered book result) := by
  cases hruns with
  | refused => exact ⟨entries, h⟩
  | failed => exact ⟨entries, h.of_memory rfl⟩
  | @completed r candidates skipped s index hstarts hfilled hcommit =>
      obtain ⟨⟨docs', hordered'⟩, hspares⟩ := hordered.complete hstarts hcovers hfilled hcommit
      obtain ⟨puts, -, hyields⟩ := hordered.yields hstarts hfilled
      obtain ⟨-, hid⟩ := project?_eq_some hstarts.known
      -- the run has put what it staged in the place of the files that its project had
      have hstaged := entriesOf_of_set entries hyields.entries
      refine ⟨entriesAfter entries r s, Balanced.of_memory (e := e.adopt r { s with index }
        (r.updatedProject tree r.started)) ⟨hordered'.memory, ?_, ?_, ?_⟩ (by rw [refresh_eq])⟩
      · refine List.nodup_cons.mpr ⟨fun hmem => (mem_ids_filter.mp hmem).2 rfl, ?_⟩
        exact h.distinct.sublist (List.filter_sublist.map _)
      · intro f hf
        rcases List.mem_append.mp hf with hf | hf
        · obtain ⟨hf, hne⟩ := List.mem_filter.mp hf
          have hother : f.file.projectId ≠ r.project.id := by simpa using hne
          exact List.mem_cons_of_mem _ (mem_ids_filter.mpr ⟨h.reported f hf, hother⟩)
        · rw [hyields.entries f hf]
          exact List.mem_cons_self
      · intro report hreport
        rcases List.mem_cons.mp hreport with rfl | hreport
        · have hown : entriesOf (entriesAfter entries r s) (r.figures s).projectId = s.staged := hstaged
          rw [hown]
          exact totals_figures r s
        · obtain ⟨hne, htotals⟩ := h.totals_others hreport
          have hother : report.projectId ≠ projectId := fun hsame => hne (hsame.trans hid.symm)
          rwa [← (hspares _ hother).level.entries]

theorem Balanced.removes (h : e.Balanced entries book) {result : Except Fault Unit}
    (hremoves : e.Removes caller now projectId e' result) :
    ∃ entries', e'.Balanced entries' (struck book projectId result) := by
  cases hremoves with
  | refused => exact ⟨entries, h⟩
  | stopped => exact ⟨entries, h.of_memory rfl⟩
  | @completed cleared index hcleared hgone =>
      refine ⟨_, Balanced.of_memory (e := forget { e with index } projectId)
        ⟨h.memory.drop projectId, ?_, ?_, ?_⟩ (by rw [refresh_eq])⟩
      · exact h.distinct.sublist (List.filter_sublist.map _)
      · intro f hf
        obtain ⟨hf, hne⟩ := List.mem_filter.mp hf
        exact mem_ids_filter.mpr ⟨h.reported f hf, by simpa using hne⟩
      · intro report hreport
        obtain ⟨hne, htotals⟩ := h.totals_others hreport
        rwa [entriesOf_others, if_neg hne]

theorem Balanced.locked {α : Type} (h : e.Balanced entries book)
    (hordered : e.Orderly N docs entries) {enter : Except Fault α → List RunFigures}
    (hrefused : ∀ f, enter (.error f) = book) {call : Engine → Engine × Except Fault α}
    (hcall : ∀ {e₁ e₂ : Engine} {result : Except Fault α}, e₁.Balanced entries book →
      e₁.Orderly N docs entries → call e₁ = (e₂, result) →
      ∃ entries', e₂.Balanced entries' (enter result)) :
    ∃ entries', (e.locked projectId call).1.Balanced entries'
      (enter (e.locked projectId call).2) := by
  refine locked_preserves (P := fun e' result => ∃ entries', e'.Balanced entries' (enter result))
    (fun f => ?_) (fun locks => ?_) ?_
  · exact ⟨entries, (hrefused f).symm ▸ h⟩
  · have hlocked : ({ e with locks } : Engine).Balanced entries book := h.of_memory rfl
    exact hcall hlocked (hordered.of_same rfl rfl rfl) rfl
  · rintro locks e' result ⟨entries', hbalanced⟩
    exact ⟨entries', hbalanced.of_memory rfl⟩

theorem Balanced.run (h : e.Balanced entries book) (hordered : e.Orderly N docs entries)
    (hcovers : N.Covers tree projectId) (caller : Caller) (now : Instant) (isFresh : Bool) :
    ∃ entries', (e.locked projectId fun e => e.runHeld tree caller now isFresh projectId).1.Balanced
      entries' (entered book
        (e.locked projectId fun e => e.runHeld tree caller now isFresh projectId).2) :=
  h.locked hordered (fun _ => rfl) fun hlocked hordered hrun =>
    hlocked.runs hordered hcovers (runs_of_runHeld hrun)

theorem Orderly.holds_of_restore (h : e.Orderly N docs entries) {ignore : IgnoreConfig}
    {parser : Parser} {minted : Nat} {live : Bool}
    (hopened : Engine.restore ignore parser e.index minted live = .ok e') :
    ∃ entries', e'.memory.Holds entries' ∧
      (entries'.map FileEntry.document).Perm (docs.map Document.listed) := by
  obtain rfl := live_of_restore h.reachable hopened
  obtain ⟨projects, memory, hrestore, -, entries', hmemory, hfiles⟩ :=
    restore_eq_ok h.reachable h.keeps ignore parser minted
  obtain rfl := Except.ok.inj (hrestore.symm.trans hopened)
  exact ⟨entries', by rwa [refresh_eq], hfiles⟩

theorem perm_of_projects {documents documents' : List Document}
    (h : ∀ id, (documents.filter (·.file.projectId == id)).Perm
      (documents'.filter (·.file.projectId == id))) : documents.Perm documents' := by
  refine List.perm_iff_count.mpr fun d => ?_
  have hcount (documents : List Document) : documents.count d =
      (documents.filter (·.file.projectId == d.file.projectId)).count d :=
    (List.count_filter (by simp)).symm
  rw [hcount, (h _).count_eq d, ← hcount]

/-- If the index has the files of all projects as the engine has them, then it has no others. -/
theorem Orderly.documents_perm (h : e.Orderly N docs entries) (hstores : ∀ id, e.Stores id) :
    (entries.map FileEntry.document).Perm (docs.map Document.listed) := by
  refine perm_of_projects fun id => ?_
  have hfiles := (h.memory.ofProject_perm id).map FileEntry.document
  rw [List.filter_map, List.filter_map]
  exact hfiles.symm.trans ((hstores id).trans (.of_eq (h.keeps.listed_documentsOf id)))

/-- An engine that is opened again has what was reported if the index has it. -/
theorem Balanced.reopened (h : e.Balanced entries book) (hordered : e.Orderly N docs entries)
    (hstores : ∀ id, e.Stores id) {ignore : IgnoreConfig} {parser : Parser} {minted : Nat} {live : Bool}
    (hopened : Engine.restore ignore parser e.index minted live = .ok e') :
    ∃ entries', e'.Balanced entries' book := by
  obtain ⟨entries', hmemory, hfiles⟩ := hordered.holds_of_restore hopened
  have hsame := (hordered.documents_perm hstores).trans hfiles.symm
  refine ⟨entries', hmemory, h.distinct, fun f hf => ?_, fun report hreport => ?_⟩
  · obtain ⟨g, hg, hdocument⟩ :=
      List.mem_map.mp (hsame.mem_iff.mpr (List.mem_map_of_mem hf))
    have hproject : g.file.projectId = f.file.projectId :=
      congrArg (fun d : Document => d.file.projectId) hdocument
    exact hproject ▸ h.reported g hg
  · refine (h.totals report hreport).of_documents ?_
    have howned := hsame.filter (·.file.projectId == report.projectId)
    rwa [List.filter_map, List.filter_map] at howned

theorem Booked.orderly (h : Booked S e book) (hmemory : e.memory.Holds entries) :
    ∃ docs, e.Orderly S.naming docs entries := by
  obtain ⟨docs, entries', hordered⟩ := h.arises.orderly_of_setting
  obtain rfl := hmemory.unique hordered.memory
  exact ⟨docs, hordered⟩

theorem Booked.balanced (h : Booked S e book) : ∃ entries, e.Balanced entries book := by
  induction h with
  | @opened ignore minted live e hopened =>
      obtain ⟨entries, hmemory, hnone⟩ :=
        (orderly_new S.naming ignore (.new S.config S.tool)).holds_of_restore hopened
      obtain rfl : entries = [] := by simpa using hnone
      exact ⟨[], hmemory, .nil, by simp, by simp⟩
  | addProject h tree live now name path description ih =>
      obtain ⟨entries, hbalanced⟩ := ih
      obtain ⟨docs, hordered⟩ := h.orderly hbalanced.memory
      exact ⟨entries, (hordered.addProject tree live now name path description).1.memory,
        hbalanced.distinct, hbalanced.reported, hbalanced.totals⟩
  | indexProject h htree hcaller now ih =>
      obtain ⟨entries, hbalanced⟩ := ih
      obtain ⟨docs, hordered⟩ := h.orderly hbalanced.memory
      exact hbalanced.run hordered htree.naming _ now false
  | reindexProject h htree hcaller now ih =>
      obtain ⟨entries, hbalanced⟩ := ih
      obtain ⟨docs, hordered⟩ := h.orderly hbalanced.memory
      exact hbalanced.run hordered htree.naming _ now true
  | removeProject h caller now projectId ih =>
      obtain ⟨entries, hbalanced⟩ := ih
      obtain ⟨docs, hordered⟩ := h.orderly hbalanced.memory
      exact hbalanced.locked hordered (fun _ => rfl) fun hlocked _ hrun =>
        hlocked.removes (removes_of_removeHeld hrun)
  | reopened h hstores hopened ih =>
      obtain ⟨entries, hbalanced⟩ := ih
      obtain ⟨docs, hordered⟩ := h.orderly hbalanced.memory
      exact hbalanced.reopened hordered hstores hopened

theorem Agrees.stores (h : e.Agrees S docs entries) (id : String) : e.Stores id :=
  (h.projectFiles_perm id).trans (.of_eq (h.keeps.listed_documentsOf id).symm)

/-- As long as no removal fails between its two commits, there is a book. -/
theorem Reachable.exists_booked (h : Reachable S e) : ∃ book, Booked S e book := by
  induction h with
  | opened hopened => exact ⟨[], .opened hopened⟩
  | addProject h tree live now name path description ih =>
      obtain ⟨book, hbooked⟩ := ih
      exact ⟨book, hbooked.addProject tree live now name path description⟩
  | indexProject h hcovers hsteady now ih =>
      obtain ⟨book, hbooked⟩ := ih
      exact ⟨_, hbooked.indexProject hcovers hsteady now⟩
  | reindexProject h hcovers hsteady now ih =>
      obtain ⟨book, hbooked⟩ := ih
      exact ⟨_, hbooked.reindexProject hcovers hsteady now⟩
  | removeProject h hdone ih =>
      obtain ⟨book, hbooked⟩ := ih
      exact ⟨_, hbooked.removeProject _ _ _⟩
  | reopened h hopened ih =>
      obtain ⟨book, hbooked⟩ := ih
      obtain ⟨docs, entries, hagrees⟩ := h.agrees
      exact ⟨book, hbooked.reopened hagrees.stores hopened⟩

/-- What a run reports accounts for all files that it has visited and for all that the index and the
engine have of the project after it, if they had the same files before. And the figures of an engine are
the sums of what the last runs of its projects reported, provided that whenever it was opened again, the
index had the files as the engine had them; which it has if no removal fails between its two commits. -/
theorem reports_account_for_files (h : Arises S.conditions e) :
    (∀ {tree : FileTree} {caller : Caller} {now : Instant} {isFresh : Bool} {projectId : String}
      {e' : Engine} {report : RunFigures}, S.Covers tree projectId → S.Steady caller →
      e.Reflects projectId →
      (isFresh = false ∧ e.indexProject tree caller now projectId = (e', .ok report) ∨
        isFresh = true ∧ e.reindexProject tree caller now projectId = (e', .ok report)) →
      ∃ r candidates skipped s,
        Ran e e' tree caller now isFresh projectId report r candidates skipped s ∧
          Accounts S.parse e e' tree projectId report r candidates) ∧
    (∀ {book : List RunFigures}, Booked S e book → e.figures.Sums book) ∧
    (Reachable S e → ∃ book, Booked S e book) := by
  refine ⟨fun {tree caller now isFresh projectId e' report} hcovers hsteady hreflects hrun => ?_,
    fun hbooked => ?_, Reachable.exists_booked⟩
  · have hlocked : (e.locked projectId fun e => e.runHeld tree caller now isFresh projectId) =
        (e', .ok report) := by
      obtain ⟨rfl, hrun⟩ | ⟨rfl, hrun⟩ := hrun <;> exact hrun
    obtain ⟨docs, entries, hordered⟩ := h.orderly_of_setting
    obtain ⟨r, candidates, skipped, s, hran⟩ := hordered.ran hcovers.naming hlocked
    obtain ⟨docs', entries', hordered', -⟩ := hordered.run hcovers.naming caller now isFresh
    rw [hlocked] at hordered'
    exact ⟨r, candidates, skipped, s, hran,
      hran.accounts hordered' h.sound hcovers hsteady hreflects⟩
  · obtain ⟨entries, hbalanced⟩ := hbooked.balanced
    exact hbalanced.sums

def sampleAdded (e : Engine) : Engine :=
  (e.addProject (sampleTree "\n") true ⟨10, 0, false⟩ "sample" "/" "").1

theorem sample_report_accounts : ∃ (e : Engine) (report : RunFigures),
    Booked sampleSetting e.sampleFirst.1 [report] ∧ report.files = 1 ∧
    (e.sampleFirst.1.index.database.documentsOf sampleId).length = 1 ∧
    e.sampleFirst.1.figures.Sums [report] := by
  obtain ⟨e, hopened, hheld, hkept, hfirst⟩ : ∃ e : Engine, Booked sampleSetting e [] ∧
      (e.sampleAdded.projectFiles sampleId).map (·.file.id) = [] ∧
      (e.sampleAdded.index.database.documentsOf sampleId).map (·.file.id) = [] ∧
      e.sampleFirst.2.toOption.map (·.files) = some 1 :=
    ⟨bareEngine, .opened restore_new, by decide +kernel⟩
  obtain ⟨report, hfirst, hfiles⟩ := exists_ok_of_map hfirst
  have hcovers : sampleSetting.Covers (sampleTree "def f():\n") sampleId :=
    covers_sampleTree (by simp [sampleTexts])
  have hadded : Booked sampleSetting e.sampleAdded [] := .addProject hopened _ _ _ _ _ _
  have hreflects : e.sampleAdded.Reflects sampleId := by
    unfold Reflects
    rw [hheld, hkept]
  have hbooked : Booked sampleSetting e.sampleFirst.1 (entered [] e.sampleFirst.2) :=
    hadded.indexProject hcovers sampleSetting.steady_patient _
  rw [hfirst] at hbooked
  have hran : e.sampleFirst = (e.sampleFirst.1, .ok report) := Prod.ext rfl hfirst
  obtain ⟨r, candidates, skipped, s, -, haccounts⟩ := (reports_account_for_files hadded.arises).1
    hcovers sampleSetting.steady_patient hreflects (.inl ⟨rfl, hran⟩)
  exact ⟨e, report, hbooked, hfiles, haccounts.documents.symm.trans hfiles,
    (reports_account_for_files hbooked.arises).2.1 hbooked⟩

/-- The engine that is opened after a removal of the sample that failed between its two commits. -/
def sampleReopened (e : Engine) : Except Fault Engine :=
  restore .bare (.new .standard none)
    (e.sampleFirst.1.removeProject leavesHalfway ⟨30, 0, false⟩ sampleId).1.index 1 true

/-- One file of the sample has been reported, and the sample has not been removed, but the engine that is
opened again has no file of it. -/
theorem left_removal_breaks_sums :
    (restore .bare (.new .standard none) .new 0 true >>= fun e => e.sampleReopened.map fun e' =>
      (e.sampleFirst.2.toOption.map (·.files),
        (e.sampleFirst.1.removeProject leavesHalfway ⟨30, 0, false⟩ sampleId).2.isOk,
        e'.projects.map (·.id), e'.figures.files)).toOption =
      some (some 1, false, [sampleId], 0) := by
  rw [restore_new]
  decide +kernel

end Engine

end CodeAtlas
