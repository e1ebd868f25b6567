import CodeAtlas.Engine.Memory
import Mathlib.Data.List.Nodup

/-!
# The stores of files as one list

The stores are set and erased together, one identifier at a time, so that they hold a list of entries:
the files, symbols and references of all of them, and the usages of those that have been read. What a
project has, what setting adds and what forgetting takes away are then told by that list.
-/

namespace CodeAtlas

theorem find?_key_of_mem {α : Type} {key : α → String} {l : List α} {a : α} {k : String}
    (hkeys : (l.map key).Nodup) (ha : a ∈ l) (hkey : key a = k) : l.find? (key · == k) = some a := by
  obtain ⟨b, hfound⟩ := Option.isSome_iff_exists.mp
    (List.find?_isSome.mpr ⟨a, ha, beq_iff_eq.mpr hkey⟩ : (l.find? (key · == k)).isSome = true)
  have hb : key b = k := by simpa using List.find?_some hfound
  rw [hfound, List.inj_on_of_nodup_map hkeys (List.mem_of_find?_eq_some hfound) ha (hb.trans hkey.symm)]

namespace Store

variable {α : Type} {s : Store α} {id : String} {a : α}

@[simp]
theorem entries_filter (s : Store α) (stays : String × α → Bool) :
    (s.filter stays).entries = s.entries.filter stays := rfl

@[simp]
theorem entries_erase (s : Store α) (id : String) :
    (s.erase id).entries = s.entries.filter (·.1 != id) := rfl

theorem get?_eq_some_iff : s.get? id = some a ↔ (id, a) ∈ s.entries := by
  unfold get?
  constructor
  · intro h
    obtain ⟨entry, hfind, rfl⟩ := Option.map_eq_some_iff.mp h
    have hkey : entry.1 = id := by simpa using List.find?_some hfind
    rw [← hkey]
    exact List.mem_of_find?_eq_some hfind
  · intro h
    rw [find?_key_of_mem s.distinct h rfl]
    rfl

theorem get?_eq_none (h : id ∉ s.keys) : s.get? id = none := by
  cases hget : s.get? id with
  | none => rfl
  | some a => exact absurd (List.mem_map.mpr ⟨_, get?_eq_some_iff.mp hget, rfl⟩) h

theorem entries_set (h : id ∉ s.keys) : (s.set id a).entries = s.entries ++ [(id, a)] := by
  have hkept : s.entries.filter (·.1 != id) = s.entries := by
    refine List.filter_eq_self.mpr fun entry hentry => ?_
    simp only [bne_iff_ne]
    rintro rfl
    exact h (List.mem_map_of_mem hentry)
  change (s.erase id).entries ++ [(id, a)] = _
  rw [entries_erase, hkept]

theorem entries_eraseAll (ids : List String) (s : Store α) :
    (ids.foldl erase s).entries = s.entries.filter fun entry => !ids.contains entry.1 := by
  induction ids generalizing s with
  | nil => simp
  | cons id rest ih =>
      rw [List.foldl_cons, ih, entries_erase, List.filter_filter]
      refine List.filter_congr fun entry _ => ?_
      rw [List.contains_cons, Bool.not_or, Bool.and_comm]
      rfl

end Store

namespace FileMemory

/-- The stores hold the entries, in the order of the list. -/
structure Holds (m : FileMemory) (entries : List FileEntry) : Prop where
  files : m.files.entries = entries.map fun f => (f.file.id, f.file)
  symbols : m.symbols.entries = entries.map fun f => (f.file.id, f.symbols)
  references : m.references.entries = entries.map fun f => (f.file.id, f.references)
  usages : m.usages.entries = entries.filterMap fun f => f.usages.map fun usages =>
    (f.file.id, usages)

theorem holds_empty : empty.Holds [] := ⟨rfl, rfl, rfl, rfl⟩

variable {m : FileMemory} {entries : List FileEntry} {f : FileEntry} {projectId : String}

theorem Holds.distinct (h : m.Holds entries) : (entries.map (·.file.id)).Nodup := by
  have hkeys := m.files.distinct
  rw [h.files, List.map_map] at hkeys
  exact hkeys

theorem Holds.keys_files (h : m.Holds entries) : m.files.keys = entries.map (·.file.id) := by
  unfold Store.keys
  rw [h.files, List.map_map]
  rfl

theorem Holds.keys_symbols (h : m.Holds entries) : m.symbols.keys = entries.map (·.file.id) := by
  unfold Store.keys
  rw [h.symbols, List.map_map]
  rfl

theorem Holds.keys_references (h : m.Holds entries) :
    m.references.keys = entries.map (·.file.id) := by
  unfold Store.keys
  rw [h.references, List.map_map]
  rfl

theorem Holds.values_files (h : m.Holds entries) : m.files.values = entries.map (·.file) := by
  unfold Store.values
  rw [h.files, List.map_map]
  rfl

/-- Usages are held of entries that have been read. -/
theorem Holds.mem_keys_usages (h : m.Holds entries) {id : String} :
    id ∈ m.usages.keys ↔ ∃ f ∈ entries, f.file.id = id ∧ f.usages.isSome = true := by
  unfold Store.keys
  rw [h.usages, List.mem_map]
  constructor
  · rintro ⟨entry, hentry, rfl⟩
    obtain ⟨f, hf, hread⟩ := List.mem_filterMap.mp hentry
    obtain ⟨usages, husages, rfl⟩ := Option.map_eq_some_iff.mp hread
    exact ⟨f, hf, rfl, by rw [husages]; rfl⟩
  · rintro ⟨f, hf, rfl, hread⟩
    obtain ⟨usages, husages⟩ := Option.isSome_iff_exists.mp hread
    exact ⟨(f.file.id, usages), List.mem_filterMap.mpr ⟨f, hf, by rw [husages]; rfl⟩, rfl⟩

theorem Holds.entry_eq (h : m.Holds entries) (hf : f ∈ entries) : m.entry f.file = f := by
  have hsymbols : m.symbols.get? f.file.id = some f.symbols := by
    rw [Store.get?_eq_some_iff, h.symbols]
    exact List.mem_map.mpr ⟨f, hf, rfl⟩
  have hreferences : m.references.get? f.file.id = some f.references := by
    rw [Store.get?_eq_some_iff, h.references]
    exact List.mem_map.mpr ⟨f, hf, rfl⟩
  have husages : m.usages.get? f.file.id = f.usages := by
    cases hread : f.usages with
    | none =>
        refine Store.get?_eq_none fun hkey => ?_
        obtain ⟨g, hg, hid, hsome⟩ := h.mem_keys_usages.mp hkey
        rw [List.inj_on_of_nodup_map h.distinct hg hf hid, hread] at hsome
        simp at hsome
    | some usages =>
        rw [Store.get?_eq_some_iff, h.usages]
        exact List.mem_filterMap.mpr ⟨f, hf, by rw [hread]; rfl⟩
  unfold entry
  rw [hsymbols, hreferences, husages]
  rfl

theorem Holds.ofProject_eq (h : m.Holds entries) (projectId : String) : m.ofProject projectId =
    (entries.filter (·.file.projectId == projectId)).mergeSort fun f g =>
      f.file.relativePath ≤ g.file.relativePath := by
  have hsorted := List.map_mergeSort (f := fun f : FileEntry => f.file)
    (l := entries.filter (·.file.projectId == projectId))
    (r := fun f g => f.file.relativePath ≤ g.file.relativePath)
    (s := fun f g => f.relativePath ≤ g.relativePath) fun f _ g _ => rfl
  have howned : (entries.map (·.file)).filter (·.projectId == projectId) =
      (entries.filter (·.file.projectId == projectId)).map (·.file) := List.filter_map
  unfold ofProject
  rw [h.values_files, howned, ← hsorted, List.map_map]
  refine (List.map_congr_left fun f hf => ?_).trans (List.map_id _)
  exact h.entry_eq (List.mem_of_mem_filter (List.mem_mergeSort.mp hf))

theorem Holds.ofProject_perm (h : m.Holds entries) (projectId : String) :
    (m.ofProject projectId).Perm (entries.filter (·.file.projectId == projectId)) := by
  rw [h.ofProject_eq]
  exact List.mergeSort_perm _ _

theorem Holds.set (h : m.Holds entries) (hnew : f.file.id ∉ entries.map (·.file.id)) :
    (m.set f).Holds (entries ++ [f]) where
  files := by
    rw [FileMemory.set, Store.entries_set (by rwa [h.keys_files]), h.files, List.map_append]
    rfl
  symbols := by
    rw [FileMemory.set, Store.entries_set (by rwa [h.keys_symbols]), h.symbols, List.map_append]
    rfl
  references := by
    rw [FileMemory.set, Store.entries_set (by rwa [h.keys_references]), h.references,
      List.map_append]
    rfl
  usages := by
    have hunread : f.file.id ∉ m.usages.keys := fun hkey => by
      obtain ⟨g, hg, hid, -⟩ := h.mem_keys_usages.mp hkey
      exact hnew (List.mem_map.mpr ⟨g, hg, hid⟩)
    rw [List.filterMap_append, ← h.usages, FileMemory.set]
    cases hread : f.usages with
    | none => simp [hread]
    | some usages => simp [hread, Store.entries_set hunread]

theorem Holds.setAll (h : m.Holds entries) {new : List FileEntry}
    (hnew : ((entries ++ new).map (·.file.id)).Nodup) : (m.setAll new).Holds (entries ++ new) := by
  induction new generalizing m entries with
  | nil => rwa [List.append_nil]
  | cons f rest ih =>
      have happend : entries ++ f :: rest = (entries ++ [f]) ++ rest := by simp
      rw [happend] at hnew ⊢
      refine ih (h.set fun hmem => ?_) hnew
      rw [List.append_assoc, List.map_append, List.nodup_append] at hnew
      exact hnew.2.2 _ hmem f.file.id (by simp) rfl

theorem Holds.idsOf_eq (h : m.Holds entries) (projectId : String) : m.idsOf projectId =
    (entries.filter (·.file.projectId == projectId)).map (·.file.id) := by
  unfold idsOf Store.keys
  rw [Store.entries_filter, h.files, List.filter_map, List.map_map]
  rfl

theorem Holds.mem_idsOf (h : m.Holds entries) (hf : f ∈ entries) :
    f.file.id ∈ m.idsOf projectId ↔ f.file.projectId = projectId := by
  rw [h.idsOf_eq, List.mem_map]
  constructor
  · rintro ⟨g, hg, hid⟩
    obtain ⟨hg, hown⟩ := List.mem_filter.mp hg
    rw [← List.inj_on_of_nodup_map h.distinct hg hf hid]
    simpa using hown
  · intro hown
    exact ⟨f, List.mem_filter.mpr ⟨hf, by simpa using hown⟩, rfl⟩

theorem Holds.drop (h : m.Holds entries) (projectId : String) :
    (m.drop projectId).Holds (entries.filter (·.file.projectId != projectId)) := by
  have hids : ∀ f ∈ entries,
      (!(m.idsOf projectId).contains f.file.id) = (f.file.projectId != projectId) := by
    intro f hf
    by_cases hown : f.file.projectId = projectId
    · simp [(h.mem_idsOf hf).mpr hown, hown]
    · simp [mt (h.mem_idsOf hf).mp hown, hown]
  constructor
  · unfold FileMemory.drop
    rw [Store.entries_filter, h.files, List.filter_map]
    rfl
  · unfold FileMemory.drop
    rw [Store.entries_eraseAll, h.symbols, List.filter_map]
    exact congrArg _ (List.filter_congr hids)
  · unfold FileMemory.drop
    rw [Store.entries_eraseAll, h.references, List.filter_map]
    exact congrArg _ (List.filter_congr hids)
  · unfold FileMemory.drop
    rw [Store.entries_eraseAll, h.usages, List.filter_filterMap, List.filterMap_filter]
    refine List.filterMap_congr fun f hf => ?_
    rw [← hids f hf]
    cases f.usages with
    | none => simp
    | some usages =>
        simp only [Option.map_some, Option.filter_some]

end FileMemory

end CodeAtlas
