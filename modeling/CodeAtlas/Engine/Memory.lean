import CodeAtlas.Graph.Build
import CodeAtlas.Index.Document

/-!
What the engine holds in memory of files: a store for the files and one for each kind of thing found in
them.
-/

namespace CodeAtlas

/-- Values under identifiers, what was set last at the end. -/
structure Store (α : Type) where
  entries : List (String × α)
  distinct : (entries.map (·.1)).Nodup

namespace Store

variable {α : Type}

def empty : Store α := ⟨[], .nil⟩

instance : Inhabited (Store α) := ⟨empty⟩

def keys (s : Store α) : List String := s.entries.map (·.1)

def values (s : Store α) : List α := s.entries.map (·.2)

def get? (s : Store α) (id : String) : Option α := (s.entries.find? (·.1 == id)).map (·.2)

def filter (s : Store α) (stays : String × α → Bool) : Store α where
  entries := s.entries.filter stays
  distinct := s.distinct.sublist (List.filter_sublist.map _)

def erase (s : Store α) (id : String) : Store α := s.filter (·.1 != id)

def set (s : Store α) (id : String) (a : α) : Store α where
  entries := (s.erase id).entries ++ [(id, a)]
  distinct := by
    rw [List.map_append, List.nodup_append]
    refine ⟨(s.erase id).distinct, by simp, ?_⟩
    rintro key hkey other hother rfl
    obtain ⟨entry, hentry, rfl⟩ := List.mem_map.mp hkey
    have hne := (List.mem_filter.mp hentry).2
    simp only [List.map_cons, List.map_nil, List.mem_singleton] at hother
    simp [hother] at hne

end Store

/-- What is known of a file.  Usages are not stored in the index, so there are none until this engine has
read the file. -/
structure FileEntry where
  file : IndexedFile
  symbols : List Symbol
  references : List Reference
  usages : Option (List Usage)
  deriving DecidableEq, Repr, Inhabited

namespace FileEntry

def ofDocument (d : Document) : FileEntry := ⟨d.file, d.symbols, d.references, none⟩

def record (projectId : String) (f : FileEntry) : FileRecord :=
  ⟨f.file.id, projectId, f.symbols, f.references, f.usages.getD []⟩

end FileEntry

structure FileMemory where
  files : Store IndexedFile
  symbols : Store (List Symbol)
  references : Store (List Reference)
  usages : Store (List Usage)
  deriving Inhabited

namespace FileMemory

def empty : FileMemory := ⟨.empty, .empty, .empty, .empty⟩

def entry (m : FileMemory) (f : IndexedFile) : FileEntry :=
  ⟨f, (m.symbols.get? f.id).getD [], (m.references.get? f.id).getD [], m.usages.get? f.id⟩

def ofProject (m : FileMemory) (projectId : String) : List FileEntry :=
  ((m.files.values.filter (·.projectId == projectId)).mergeSort
    fun f g => f.relativePath ≤ g.relativePath).map m.entry

def set (m : FileMemory) (f : FileEntry) : FileMemory where
  files := m.files.set f.file.id f.file
  symbols := m.symbols.set f.file.id f.symbols
  references := m.references.set f.file.id f.references
  usages :=
    match f.usages with
    | some usages => m.usages.set f.file.id usages
    | none => m.usages

def setAll (m : FileMemory) (entries : List FileEntry) : FileMemory := entries.foldl set m

def idsOf (m : FileMemory) (projectId : String) : List String :=
  (m.files.filter (·.2.projectId == projectId)).keys

def drop (m : FileMemory) (projectId : String) : FileMemory :=
  let ids := m.idsOf projectId
  { files := m.files.filter (·.2.projectId != projectId)
    symbols := ids.foldl .erase m.symbols
    references := ids.foldl .erase m.references
    usages := ids.foldl .erase m.usages }

end FileMemory

end CodeAtlas
