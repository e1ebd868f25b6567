import CodeAtlas.Proofs.Engine.Memory
import CodeAtlas.Proofs.Engine.Settle

/-!
# Engines over an index in order

An engine that is opened over an index in order takes over its projects and, project by project, its
documents. No document is taken over twice, since files and projects have identifiers of their own, and
none is left out, since each has its project.
-/

namespace CodeAtlas

def Project.plain (p : Project) : Project :=
  { p with lastIndexed := p.lastIndexed.plain, createdAt := p.createdAt.plain }

theorem mapM_eq_ok {ε α β : Type} {read : α → Except ε β} {f : α → β} {l : List α}
    (h : ∀ a ∈ l, read a = .ok (f a)) : l.mapM read = .ok (l.map f) := by
  induction l with
  | nil => rfl
  | cons a l ih =>
      rw [List.mapM_cons, h a List.mem_cons_self, ih fun b hb => h b (List.mem_cons_of_mem a hb)]
      rfl

theorem FileEntry.document_ofDocument (d : Document) :
    (FileEntry.ofDocument d.listed).document = d.listed := rfl

theorem FileEntry.map_document_ofDocument {l : List Document}
    (h : ∀ d ∈ l, ∃ e : Document, d = e.listed) :
    (l.map FileEntry.ofDocument).map FileEntry.document = l := by
  rw [List.map_map]
  refine (List.map_congr_left fun d hd => ?_).trans (List.map_id _)
  obtain ⟨e, rfl⟩ := h d hd
  exact document_ofDocument e

theorem mem_listing {docs : List Document} {projectId : String} {d : Document} :
    d ∈ listing docs projectId ↔ ∃ e ∈ docs, e.file.projectId = projectId ∧ d = e.listed := by
  rw [(listing_perm docs projectId).mem_iff, List.mem_map]
  constructor
  · rintro ⟨e, he, rfl⟩
    obtain ⟨he, hown⟩ := List.mem_filter.mp he
    exact ⟨e, he, by simpa using hown, rfl⟩
  · rintro ⟨e, he, hown, rfl⟩
    exact ⟨e, List.mem_filter.mpr ⟨he, by simpa using hown⟩, rfl⟩

namespace Index

variable {ix : Index} {docs : List Document}

theorem projects_perm (hopen : ix.isClosed = false) (hkeeps : ix.database.Keeps docs) :
    ∃ projects, ix.projects true = .ok projects ∧
      projects.Perm (ix.database.projects.map (·.project.plain)) := by
  have hread (row : ProjectRow) (hrow : row ∈ ix.database.projects) :
      readProject row = .ok row.project.plain := by
    unfold readProject
    rw [Database.readable_of_sound (hkeeps.projects.sound row hrow)]
    rfl
  refine ⟨?projects, ?eq, ?perm⟩
  case eq =>
    unfold Index.projects
    rw [reach_eq_ok hopen, hkeeps.layout, Schema.newest_require (by decide)]
    simp only
    change List.mapM readProject _ = _
    exact mapM_eq_ok fun row hrow => hread row (List.mem_mergeSort.mp hrow)
  case perm => exact (List.mergeSort_perm _ _).map _

end Index

namespace Engine

variable {ix : Index} {docs : List Document} {projects : List Project}

def restored (docs : List Document) (projects : List Project) : List FileEntry :=
  projects.flatMap fun p => (listing docs p.id).map FileEntry.ofDocument

/-- Every document of the projects is taken over once. -/
theorem restored_perm (docs : List Document) (hids : (projects.map (·.id)).Nodup) :
    ((restored docs projects).map FileEntry.document).Perm
      ((docs.filter fun d => projects.any (·.id == d.file.projectId)).map Document.listed) := by
  induction projects with
  | nil => simp [restored]
  | cons p rest ih =>
      obtain ⟨hp, hrest⟩ := List.nodup_cons.mp hids
      have hfirst : ((listing docs p.id).map FileEntry.ofDocument).map FileEntry.document =
          listing docs p.id := FileEntry.map_document_ofDocument fun d hd => by
        obtain ⟨e, -, -, rfl⟩ := mem_listing.mp hd
        exact ⟨e, rfl⟩
      have hown : (docs.filter fun d => (p :: rest).any (·.id == d.file.projectId)).filter
          (·.file.projectId == p.id) = docs.filter (·.file.projectId == p.id) := by
        rw [List.filter_filter]
        refine List.filter_congr fun d _ => ?_
        by_cases hd : d.file.projectId = p.id
        · simp [hd]
        · simp [hd]
      have hothers : (docs.filter fun d => (p :: rest).any (·.id == d.file.projectId)).filter
          (fun d => !(d.file.projectId == p.id)) =
            docs.filter fun d => rest.any (·.id == d.file.projectId) := by
        rw [List.filter_filter]
        refine List.filter_congr fun d _ => ?_
        by_cases hd : d.file.projectId = p.id
        · have hnone : rest.any (·.id == p.id) = false := by
            rw [List.any_eq_false]
            intro q hq hqp
            exact hp (List.mem_map.mpr ⟨q, hq, by simpa using hqp⟩)
          simp only [hd, beq_self_eq_true, Bool.not_true, Bool.false_and]
          exact hnone.symm
        · have hfalse : (d.file.projectId == p.id) = false := by simpa using hd
          have hfalse' : (p.id == d.file.projectId) = false := by simpa using Ne.symm hd
          rw [List.any_cons, hfalse, hfalse', Bool.false_or, Bool.not_false, Bool.true_and]
      have hsplit := List.filter_append_perm (fun d => d.file.projectId == p.id)
        (docs.filter fun d => (p :: rest).any (·.id == d.file.projectId))
      rw [hown, hothers] at hsplit
      unfold restored at ih ⊢
      rw [List.flatMap_cons, List.map_append, hfirst]
      refine .trans ?_ (hsplit.map Document.listed)
      rw [List.map_append]
      exact (listing_perm docs p.id).append (ih hrest)

theorem restored_distinct (hfiles : (docs.map (·.file.id)).Nodup)
    (hids : (projects.map (·.id)).Nodup) : ((restored docs projects).map (·.file.id)).Nodup := by
  have hsame := (restored_perm docs hids).map fun d => d.file.id
  rw [List.map_map, List.map_map] at hsame
  exact hsame.nodup_iff.mpr (hfiles.sublist (List.filter_sublist.map _))

theorem restoredMemory_holds (hopen : ix.isClosed = false) (hkeeps : ix.database.Keeps docs)
    (hids : (projects.map (·.id)).Nodup) :
    ∃ m, restoredMemory ix true projects = .ok m ∧ m.Holds (restored docs projects) := by
  have hfold {m : FileMemory} {entries : List FileEntry} (hholds : m.Holds entries)
      (hdistinct : ((entries ++ restored docs projects).map (·.file.id)).Nodup) :
      ∃ m', (projects.foldlM (fun memory p => do
        let documents ← inContext s!"project {p.name}" (ix.documents true p.id)
        return memory.setAll (documents.map FileEntry.ofDocument)) m : Except Fault _) = .ok m' ∧
          m'.Holds (entries ++ restored docs projects) := by
    clear hids
    induction projects generalizing m entries with
    | nil => exact ⟨m, rfl, by simpa [restored] using hholds⟩
    | cons p rest ih =>
        have hnext : entries ++ restored docs (p :: rest) =
            (entries ++ (listing docs p.id).map FileEntry.ofDocument) ++ restored docs rest := by
          simp [restored]
        rw [hnext] at hdistinct ⊢
        rw [List.foldlM_cons, Index.documents_eq hopen hkeeps]
        refine ih (hholds.setAll ?_) hdistinct
        rw [List.map_append] at hdistinct
        exact hdistinct.of_append_left
  have hdistinct := restored_distinct hkeeps.files hids
  exact hfold FileMemory.holds_empty hdistinct

/-- A look at the figures of the index changes the time of the last update at most. -/
theorem refresh_eq (e : Engine) (live : Bool) :
    e.refresh live = { e with lastUpdate := (e.refresh live).lastUpdate } := by
  unfold refresh
  split
  · split <;> rfl
  · rfl

/-- An engine over an index in order holds its projects and its documents. -/
theorem restore_eq_ok (hopen : ix.isClosed = false) (hkeeps : ix.database.Keeps docs)
    (ignore : IgnoreConfig) (parser : Parser) (minted : Nat) :
    ∃ projects memory, restore ignore parser ix minted true = .ok ((⟨ignore, parser, ix, projects,
        memory, .empty, .zero, 0, minted⟩ : Engine).refresh true) ∧
      projects.Perm (ix.database.projects.map (·.project.plain)) ∧
      ∃ entries, memory.Holds entries ∧
        (entries.map FileEntry.document).Perm (docs.map Document.listed) := by
  obtain ⟨projects, hprojects, hperm⟩ := Index.projects_perm hopen hkeeps
  have hids : (projects.map (·.id)).Nodup := by
    have hsame := hperm.map (·.id)
    rw [List.map_map] at hsame
    exact hsame.nodup_iff.mpr hkeeps.projects.ids
  obtain ⟨m, hmemory, hholds⟩ := restoredMemory_holds hopen hkeeps hids
  refine ⟨projects, m, ?_, hperm, _, hholds, ?_⟩
  · unfold restore
    rw [hprojects]
    simp only [inContext, bind, Except.bind, hmemory]
    rfl
  · have hall : docs.filter (fun d => projects.any (·.id == d.file.projectId)) = docs := by
      refine List.filter_eq_self.mpr fun d hd => ?_
      obtain ⟨row, hrow, hid⟩ := List.any_eq_true.mp (hkeeps.owned d hd)
      have hmem := hperm.mem_iff.mpr (List.mem_map_of_mem hrow)
      exact List.any_eq_true.mpr ⟨_, hmem, hid⟩
    have hsame := restored_perm docs hids
    rwa [hall] at hsame

theorem live_of_restore {ignore : IgnoreConfig} {parser : Parser} {minted : Nat} {live : Bool}
    {e : Engine} (hopen : ix.isClosed = false)
    (h : restore ignore parser ix minted live = .ok e) : live = true := by
  cases live with
  | true => rfl
  | false =>
      have hfails : ix.projects false = .error (.of .canceled) := by
        unfold Index.projects Index.reach
        rw [hopen]
        rfl
      unfold restore at h
      rw [hfails] at h
      simp [inContext, bind, Except.bind] at h

end Engine

end CodeAtlas
