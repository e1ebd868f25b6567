import CodeAtlas.Engine.Run
import CodeAtlas.Proofs.Engine.Restore
import CodeAtlas.Proofs.Index.Queued
import CodeAtlas.Proofs.List.Basic

/-!
# Engines that differ in the order of lists

The stores of an engine are looked into by identifiers, figures count, and the index tells documents by
their files. Two engines whose lists are the same in another order are then the same for everybody who
asks them.
-/

namespace CodeAtlas

namespace Store

variable {α : Type}

theorem get?_set (s : Store α) (id key : String) (a : α) :
    (s.set id a).get? key = if key = id then some a else s.get? key := by
  have hentries : (s.set id a).entries = s.entries.filter (·.1 != id) ++ [(id, a)] := rfl
  unfold get?
  rw [hentries, List.find?_append, List.find?_filter]
  by_cases hkey : key = id
  · have hnone : s.entries.find? (fun entry => (entry.1 != id) = true ∧ (entry.1 == key) = true) =
        none := by
      refine List.find?_eq_none.mpr fun entry _ hboth => ?_
      simp [hkey] at hboth
    rw [hnone, if_pos hkey]
    simp [hkey]
  · have hsame : (fun entry : String × α =>
        decide ((entry.1 != id) = true ∧ (entry.1 == key) = true)) = fun entry => entry.1 == key := by
      funext entry
      by_cases hentry : entry.1 = key
      · simp [hentry, hkey]
      · simp [hentry]
    rw [hsame, if_neg hkey]
    simp [Ne.symm hkey]

end Store

namespace FileMemory

/-- The stores hold the same under each identifier. -/
structure Same (m m' : FileMemory) : Prop where
  files : ∀ id, m.files.get? id = m'.files.get? id
  symbols : ∀ id, m.symbols.get? id = m'.symbols.get? id
  references : ∀ id, m.references.get? id = m'.references.get? id
  usages : ∀ id, m.usages.get? id = m'.usages.get? id

variable {m m' m'' : FileMemory} {f g : FileEntry} {entries entries' : List FileEntry}

theorem Same.refl (m : FileMemory) : m.Same m := ⟨fun _ => rfl, fun _ => rfl, fun _ => rfl, fun _ => rfl⟩

theorem Same.trans (h : m.Same m') (h' : m'.Same m'') : m.Same m'' :=
  ⟨fun id => (h.files id).trans (h'.files id), fun id => (h.symbols id).trans (h'.symbols id),
    fun id => (h.references id).trans (h'.references id), fun id => (h.usages id).trans (h'.usages id)⟩

theorem Same.symm (h : m.Same m') : m'.Same m :=
  ⟨fun id => (h.files id).symm, fun id => (h.symbols id).symm, fun id => (h.references id).symm,
    fun id => (h.usages id).symm⟩

theorem usages_set (m : FileMemory) (f : FileEntry) (id : String) :
    (m.set f).usages.get? id =
      if id = f.file.id ∧ f.usages.isSome = true then f.usages else m.usages.get? id := by
  unfold FileMemory.set
  cases hread : f.usages with
  | none => simp
  | some usages => simp [Store.get?_set]

theorem Same.set (h : m.Same m') (f : FileEntry) : (m.set f).Same (m'.set f) where
  files id := by simp only [FileMemory.set, Store.get?_set, h.files]
  symbols id := by simp only [FileMemory.set, Store.get?_set, h.symbols]
  references id := by simp only [FileMemory.set, Store.get?_set, h.references]
  usages id := by rw [usages_set, usages_set, h.usages]

theorem Same.setAll (h : m.Same m') (entries : List FileEntry) :
    (m.setAll entries).Same (m'.setAll entries) := by
  induction entries generalizing m m' with
  | nil => exact h
  | cons f rest ih => exact ih (h.set f)

/-- Entries of different files may be set in any order. -/
theorem same_set_set (m : FileMemory) (hne : f.file.id ≠ g.file.id) :
    ((m.set f).set g).Same ((m.set g).set f) := by
  have hcommute {α : Type} (s : Store α) (a b : α) (id : String) :
      ((s.set f.file.id a).set g.file.id b).get? id =
        ((s.set g.file.id b).set f.file.id a).get? id := by
    simp only [Store.get?_set]
    by_cases hf : id = f.file.id
    · rw [if_pos hf, if_pos hf, if_neg fun hg => hne (hf.symm.trans hg)]
    · simp only [if_neg hf]
  refine ⟨hcommute m.files _ _, hcommute m.symbols _ _, hcommute m.references _ _, fun id => ?_⟩
  simp only [usages_set]
  by_cases hf : id = f.file.id
  · have hg : id ≠ g.file.id := fun hg => hne (hf.symm.trans hg)
    simp [hf ▸ hg, hf]
  · simp [hf]

theorem same_setAll (hdistinct : (entries.map (·.file.id)).Nodup) (h : entries.Perm entries')
    (m : FileMemory) : (m.setAll entries).Same (m.setAll entries') := by
  induction h generalizing m with
  | nil => exact .refl m
  | cons f _ ih =>
      rw [List.map_cons, List.nodup_cons] at hdistinct
      exact ih hdistinct.2 (m.set f)
  | swap f g rest =>
      have hne : g.file.id ≠ f.file.id := fun hsame => by simp [hsame] at hdistinct
      exact (same_set_set m hne).setAll rest
  | trans first _ ih ih' =>
      exact (ih hdistinct m).trans (ih' ((first.map (·.file.id)).nodup_iff.mp hdistinct) m)

end FileMemory

/-! ## Figures -/

theorem tally_perm {names names' : List String} (h : names.Perm names') :
    (tally names).Perm (tally names') := by
  have hnames : names.eraseDups.Perm names'.eraseDups := by
    refine (List.perm_ext_iff_of_nodup (nodup_eraseDups _) (nodup_eraseDups _)).mpr fun name => ?_
    rw [List.mem_eraseDups, List.mem_eraseDups, h.mem_iff]
  unfold tally
  have hcounts : names'.eraseDups.map (fun name => (name, names'.count name)) =
      names'.eraseDups.map fun name => (name, names.count name) :=
    List.map_congr_left fun name _ => by rw [h.count_eq]
  rw [hcounts]
  exact hnames.map _

theorem signedTotal_perm {numbers numbers' : List Int} (h : numbers.Perm numbers') :
    signedTotal numbers = signedTotal numbers' :=
  h.foldl_op_eq

/-- The figures differ in the order of what they list. -/
structure RunFigures.Alike (f g : RunFigures) : Prop where
  counts : { f with languages := [], fileTypes := [], errors := [] } =
    { g with languages := [], fileTypes := [], errors := [] }
  languages : f.languages.Perm g.languages
  fileTypes : f.fileTypes.Perm g.fileTypes
  errors : f.errors.Perm g.errors

/-- What a run has gathered differs in the order of lists. -/
structure RunState.Alike (s s' : RunState) : Prop where
  staged : s.staged.Perm s'.staged
  errors : s.errors.Perm s'.errors
  counts : (s.indexed, s.unchanged, s.skipped, s.failed) =
    (s'.indexed, s'.unchanged, s'.skipped, s'.failed)

theorem RunState.Alike.symm {s s' : RunState} (h : s.Alike s') : s'.Alike s :=
  ⟨h.staged.symm, h.errors.symm, h.counts.symm⟩

theorem RunState.Alike.trans {s s' s'' : RunState} (h : s.Alike s') (h' : s'.Alike s'') :
    s.Alike s'' :=
  ⟨h.staged.trans h'.staged, h.errors.trans h'.errors, h.counts.trans h'.counts⟩

theorem RunState.Alike.stale_eq {s s' : RunState} (h : s.Alike s') (r : Run) :
    r.stale s = r.stale s' := by
  unfold Run.stale
  simp only [h.staged.any_eq]

theorem RunState.Alike.figures {s s' : RunState} (h : s.Alike s') (r : Run) :
    (r.figures s).Alike (r.figures s') where
  counts := by
    have hcounts := h.counts
    simp only [Prod.mk.injEq] at hcounts
    obtain ⟨hindexed, hunchanged, hskipped, hfailed⟩ := hcounts
    simp only [Run.figures, h.stale_eq r, h.staged.length_eq, hindexed, hunchanged, hskipped,
      hfailed, signedTotal_perm (h.staged.map _), total_perm (h.staged.map _)]
  languages := tally_perm (h.staged.map _)
  fileTypes := tally_perm (h.staged.map _)
  errors := h.errors

/-- The index keeps the same documents and projects, and the stores and projects in memory are the
same. -/
structure Engine.Alike (e e' : Engine) : Prop where
  documents : e.index.database.rows.Perm e'.index.database.rows
  kept : e.index.database.projects = e'.index.database.projects
  projects : e.projects = e'.projects
  memory : e.memory.Same e'.memory

theorem Engine.Alike.refresh {e e' : Engine} (h : e.Alike e') (live : Bool) :
    (e.refresh live).Alike (e'.refresh live) := by
  rw [refresh_eq e, refresh_eq e']
  exact ⟨h.documents, h.kept, h.projects, h.memory⟩

end CodeAtlas
