import CodeAtlas.Proofs.Engine.Alike
import CodeAtlas.Proofs.Engine.Alone

/-!
# Engines that hold the same of a project

Two engines are level at a project if they hold the same project under its identifier and the same
entries of its files. What one job does to its project leaves all others where they are; and engines that
are level everywhere hold the same altogether.
-/

namespace CodeAtlas

theorem FileMemory.Holds.same {m m' : FileMemory} {entries entries' : List FileEntry}
    (h : m.Holds entries) (h' : m'.Holds entries') (hperm : entries.Perm entries') : m.Same m' := by
  have hsame {α : Type} {s s' : Store α} {pairs pairs' : List (String × α)} (hs : s.entries = pairs)
      (hs' : s'.entries = pairs') (hpairs : pairs.Perm pairs') (id : String) :
      s.get? id = s'.get? id := by
    refine Option.ext fun a => ?_
    rw [Store.get?_eq_some_iff, Store.get?_eq_some_iff, hs, hs', hpairs.mem_iff]
  exact ⟨hsame h.files h'.files (hperm.map _), hsame h.symbols h'.symbols (hperm.map _),
    hsame h.references h'.references (hperm.map _), hsame h.usages h'.usages (hperm.filterMap _)⟩

namespace Engine

/-- The entries of a project. -/
def entriesOf (entries : List FileEntry) (id : String) : List FileEntry :=
  entries.filter (·.file.projectId == id)

theorem entriesOf_append (entries more : List FileEntry) (id : String) :
    entriesOf (entries ++ more) id = entriesOf entries id ++ entriesOf more id :=
  List.filter_append _ _

theorem entriesOf_others (entries : List FileEntry) (gone id : String) :
    entriesOf (entries.filter (·.file.projectId != gone)) id =
      if id = gone then [] else entriesOf entries id := by
  unfold entriesOf
  rw [List.filter_filter]
  by_cases hid : id = gone
  · subst hid
    rw [if_pos rfl]
    exact List.filter_eq_nil_iff.mpr fun f _ => by simp
  · rw [if_neg hid]
    refine List.filter_congr fun f _ => ?_
    by_cases hown : f.file.projectId = id
    · simp [hown, hid]
    · simp [hown]

theorem perm_of_entriesOf {entries entries' : List FileEntry}
    (h : ∀ id, entriesOf entries id = entriesOf entries' id) : entries.Perm entries' := by
  refine List.perm_iff_count.mpr fun f => ?_
  have hcount (entries : List FileEntry) :
      entries.count f = (entriesOf entries f.file.projectId).count f :=
    (List.count_filter (by simp)).symm
  rw [hcount, h, ← hcount]

theorem find?_setProject (projects : List Project) (p : Project) (id : String) :
    (setProject projects p).find? (·.id == id) =
      if id = p.id then some p else projects.find? (·.id == id) := by
  unfold setProject
  by_cases hany : projects.any (·.id == p.id) = true
  · let replace (q : Project) : Project := if q.id == p.id then p else q
    have hids : ((·.id == id) ∘ replace : Project → Bool) = (·.id == id) := by
      funext q
      by_cases hq : q.id = p.id <;> simp [replace, hq]
    rw [if_pos hany, List.find?_map]
    change ((projects.find? ((·.id == id) ∘ replace)).map replace) = _
    rw [hids]
    cases hfound : projects.find? (·.id == id) with
    | none =>
        have hne : id ≠ p.id := by
          rintro rfl
          obtain ⟨q, hq, hid⟩ := List.any_eq_true.mp hany
          exact List.find?_eq_none.mp hfound q hq hid
        rw [if_neg hne]
        rfl
    | some q =>
        have hq : q.id = id := by simpa using List.find?_some hfound
        by_cases hid : id = p.id <;> simp [replace, hq, hid]
  · rw [if_neg hany, List.find?_append]
    by_cases hid : id = p.id
    · have hnone : projects.find? (·.id == id) = none := by
        rw [List.find?_eq_none, hid]
        exact fun q hq hqid => hany (List.any_eq_true.mpr ⟨q, hq, hqid⟩)
      rw [hnone, if_pos hid]
      simp [hid]
    · simp [hid, Ne.symm hid]

theorem find?_others (projects : List Project) (gone id : String) :
    (projects.filter (·.id != gone)).find? (·.id == id) =
      if id = gone then none else projects.find? (·.id == id) := by
  rw [List.find?_filter]
  by_cases hid : id = gone
  · rw [if_pos hid, List.find?_eq_none]
    exact fun q _ => by simp [hid]
  · rw [if_neg hid]
    congr 1
    funext q
    by_cases hq : q.id = id
    · simp [hq, hid]
    · simp [hq]

/-- The engines hold the same of a project. -/
structure Level (e e' : Engine) (entries entries' : List FileEntry) (id : String) : Prop where
  project : e.project? id = e'.project? id
  entries : entriesOf entries id = entriesOf entries' id

variable {e e' : Engine} {entries entries' : List FileEntry} {id : String}

theorem Level.symm (h : Level e e' entries entries' id) : Level e' e entries' entries id :=
  ⟨h.project.symm, h.entries.symm⟩

theorem Level.trans {e'' : Engine} {entries'' : List FileEntry} (h : Level e e' entries entries' id)
    (h' : Level e' e'' entries' entries'' id) : Level e e'' entries entries'' id :=
  ⟨h.project.trans h'.project, h.entries.trans h'.entries⟩

theorem Level.projectFiles (h : Level e e' entries entries' id) (hmemory : e.memory.Holds entries)
    (hmemory' : e'.memory.Holds entries') : e.projectFiles id = e'.projectFiles id := by
  unfold Engine.projectFiles
  rw [hmemory.ofProject_eq, hmemory'.ofProject_eq]
  exact congrArg (List.mergeSort · _) h.entries

/-- An engine in which a project has been put in the place of the one that was there, and what was staged
in the place of its entries, is level with the old one elsewhere. -/
theorem Level.of_set {p : Project} {own : String} {staged : List FileEntry} (hp : p.id = own)
    (hprojects : e'.projects = setProject e.projects p)
    (hstaged : ∀ f ∈ staged, f.file.projectId = own) (hid : id ≠ own) :
    Level e e' entries (entries.filter (·.file.projectId != own) ++ staged) id := by
  constructor
  · unfold project?
    rw [hprojects, find?_setProject, if_neg (hp ▸ hid)]
  · have hnone : entriesOf staged id = [] := by
      refine List.filter_eq_nil_iff.mpr fun f hf => ?_
      simpa [hstaged f hf] using hid.symm
    rw [entriesOf_append, entriesOf_others, if_neg hid, hnone, List.append_nil]

theorem project?_of_set {p : Project} {own : String} (hp : p.id = own)
    (hprojects : e'.projects = setProject e.projects p) : e'.project? own = some p := by
  unfold project?
  rw [hprojects, find?_setProject, if_pos hp.symm]

theorem entriesOf_of_set {own : String} {staged : List FileEntry} (entries : List FileEntry)
    (hstaged : ∀ f ∈ staged, f.file.projectId = own) :
    entriesOf (entries.filter (·.file.projectId != own) ++ staged) own = staged := by
  have hall : entriesOf staged own = staged :=
    List.filter_eq_self.mpr fun f hf => by simpa using hstaged f hf
  rw [entriesOf_append, entriesOf_others, if_pos rfl, hall, List.nil_append]

/-- An engine from which a project has been dropped is level with the old one elsewhere. -/
theorem Level.of_drop {gone : String} (hprojects : e'.projects = e.projects.filter (·.id != gone))
    (hid : id ≠ gone) : Level e e' entries (entries.filter (·.file.projectId != gone)) id := by
  constructor
  · unfold project?
    rw [hprojects, find?_others, if_neg hid]
  · rw [entriesOf_others, if_neg hid]

theorem project?_of_drop {gone : String}
    (hprojects : e'.projects = e.projects.filter (·.id != gone)) : e'.project? gone = none := by
  unfold project?
  rw [hprojects, find?_others, if_pos rfl]

/-- A run finds the same in engines that are level at its project. -/
theorem Level.starts {tree : FileTree} {caller : Caller} {now : Instant} {isFresh : Bool} {r : Run}
    {candidates : List Candidate} {skipped : Nat} (h : Level e e' entries entries' id)
    (hmemory : e.memory.Holds entries) (hmemory' : e'.memory.Holds entries')
    (hignore : e'.ignore = e.ignore)
    (hstarts : e.Starts tree caller now isFresh id r candidates skipped) :
    e'.Starts tree caller now isFresh id r candidates skipped := by
  refine ⟨hstarts.fresh, hstarts.started, ?_, ?_, ?_⟩
  · rw [← h.project, hstarts.known]
  · rw [← h.projectFiles hmemory hmemory', hstarts.prior]
  · rw [hignore]
    exact hstarts.found

end Engine

end CodeAtlas
