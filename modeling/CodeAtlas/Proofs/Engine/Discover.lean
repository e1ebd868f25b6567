import CodeAtlas.Engine.Run
import CodeAtlas.Proofs.Extract.Parsing
import Mathlib.Data.List.Nodup

/-!
# The files of a run

A walk comes to each place of a tree at most once, and the text of a place tells the place, so the
candidates of a run have different relative paths. What a candidate's document should be depends on its
name and its content alone, not on what the system refuses.
-/

namespace CodeAtlas

def ProperName (name : String) : Prop := name ≠ "" ∧ name ≠ "." ∧ '/' ∉ name.toList

/-- A tree as a file system has it: one node at each place, with proper names on the way. -/
structure FileTree.Proper (t : FileTree) : Prop where
  places : (t.entries.map (·.1)).Nodup
  parts : ∀ entry ∈ t.entries, ∀ part ∈ entry.1, ProperName part

theorem Run.parts_relativeText {rel : List String} (hrel : ∀ part ∈ rel, ProperName part)
    (hsome : rel ≠ []) : Path.parts (Run.relativeText rel) = rel := by
  unfold Run.relativeText
  rw [if_neg (by simpa using hsome)]
  exact splitText_intercalate hsome fun part hpart => (hrel part hpart).2.2

theorem Run.relativeText_inj {rel rel' : List String} (hrel : ∀ part ∈ rel, ProperName part)
    (hrel' : ∀ part ∈ rel', ProperName part)
    (h : Run.relativeText rel = Run.relativeText rel') : rel = rel' := by
  have hroot {parts : List String} (hparts : ∀ part ∈ parts, ProperName part)
      (hsome : parts ≠ []) : Run.relativeText parts ≠ "." := by
    intro hdot
    have hdots := Run.parts_relativeText hparts hsome
    rw [hdot] at hdots
    have hmem : "." ∈ parts := by
      rw [← hdots]
      decide
    exact (hparts "." hmem).2.1 rfl
  by_cases hnone : rel = []
  · by_cases hnone' : rel' = []
    · rw [hnone, hnone']
    · rw [hnone] at h
      exact absurd h.symm (hroot hrel' hnone')
  · by_cases hnone' : rel' = []
    · rw [hnone'] at h
      exact absurd h (hroot hrel hnone)
    · rw [← Run.parts_relativeText hrel hnone, h, Run.parts_relativeText hrel' hnone']

namespace FileTree

variable {t : FileTree} {skips : List String → Bool} {base : List String}

def nameIn? (dir : List String) (entry : List String × FileNode) : Option String :=
  if entry.1.dropLast == dir then entry.1.getLast? else none

theorem eq_append_of_nameIn? {dir : List String} {entry : List String × FileNode} {name : String}
    (h : nameIn? dir entry = some name) : entry.1 = dir ++ [name] := by
  unfold nameIn? at h
  split at h
  · rename_i hdir
    rw [← beq_iff_eq.mp hdir]
    exact (List.dropLast_append_getLast? name h).symm
  · simp at h

theorem mem_names {dir : List String} {name : String} (h : name ∈ t.names dir) :
    ∃ entry ∈ t.entries, entry.1 = dir ++ [name] := by
  obtain ⟨entry, hentry, hname⟩ := List.mem_filterMap.mp (List.mem_mergeSort.mp h)
  exact ⟨entry, hentry, eq_append_of_nameIn? hname⟩

/-- A directory that refuses to be listed gives some of its names or none. -/
theorem listed_sublist (t : FileTree) (dir : List String) : (t.listed dir).Sublist (t.names dir) := by
  unfold listed
  split
  · exact List.filter_sublist
  · exact List.Sublist.refl _

theorem Proper.names_nodup (h : t.Proper) (dir : List String) : (t.names dir).Nodup := by
  have hplaces := List.pairwise_map.mp h.places
  have hnames := hplaces.filterMap (nameIn? dir) (S := fun name name' => name ≠ name')
    fun entry entry' hne name hname name' hname' heq => by
      rw [eq_append_of_nameIn? hname, eq_append_of_nameIn? hname', heq] at hne
      exact hne rfl
  exact (List.mergeSort_perm _ _).nodup_iff.mpr hnames

theorem Proper.properName (h : t.Proper) {dir : List String} {name : String}
    (hname : name ∈ t.names dir) : ProperName name := by
  obtain ⟨entry, hentry, heq⟩ := mem_names hname
  refine h.parts entry hentry name ?_
  rw [heq]
  exact List.mem_append_right _ List.mem_cons_self

theorem prefix_of_mem_walk {fuel : Nat} {rel place : List String}
    (h : place ∈ t.walk skips base fuel rel) : rel <+: place := by
  induction fuel generalizing rel with
  | zero => simp [walk] at h
  | succ fuel ih =>
      rw [walk] at h
      rcases List.mem_cons.mp h with rfl | h
      · exact List.prefix_rfl
      · split at h
        · split at h
          · simp at h
          · obtain ⟨name, -, h⟩ := List.mem_flatMap.mp h
            exact (List.prefix_append rel [name]).trans (ih h)
        · simp at h

theorem Proper.walk_nodup (h : t.Proper) (fuel : Nat) (rel : List String) :
    (t.walk skips base fuel rel).Nodup := by
  induction fuel generalizing rel with
  | zero => simp [walk]
  | succ fuel ih =>
      rw [walk, List.nodup_cons]
      split
      · split
        · exact ⟨by simp, .nil⟩
        · refine ⟨?_, ?_⟩
          · intro hmem
            obtain ⟨name, -, hmem⟩ := List.mem_flatMap.mp hmem
            have hlength := (prefix_of_mem_walk hmem).length_le
            simp only [List.length_append, List.length_singleton] at hlength
            omega
          · refine List.nodup_flatMap.mpr ⟨fun name _ => ih _, ?_⟩
            refine ((h.names_nodup _).sublist (t.listed_sublist _)).imp fun hne place hplace hplace' => hne ?_
            have hprefix := prefix_of_mem_walk hplace
            have hprefix' := prefix_of_mem_walk hplace'
            have heq := List.prefix_of_prefix_length_le hprefix hprefix' (by simp)
            simpa using heq.eq_of_length (by simp)
      · exact ⟨by simp, .nil⟩

theorem Proper.walk_proper (h : t.Proper) {fuel : Nat} {rel place : List String}
    (hrel : ∀ part ∈ rel, ProperName part) (hplace : place ∈ t.walk skips base fuel rel) :
    ∀ part ∈ place, ProperName part := by
  induction fuel generalizing rel with
  | zero => simp [walk] at hplace
  | succ fuel ih =>
      rw [walk] at hplace
      rcases List.mem_cons.mp hplace with rfl | hplace
      · exact hrel
      · split at hplace
        · split at hplace
          · simp at hplace
          · obtain ⟨name, hname, hplace⟩ := List.mem_flatMap.mp hplace
            refine ih (List.forall_mem_append.mpr ⟨hrel, ?_⟩) hplace
            exact List.forall_mem_singleton.mpr (h.properName ((t.listed_sublist _).subset hname))
        · simp at hplace

end FileTree

namespace Candidate

/-- The candidate with what its place decides. -/
def placed (c : Candidate) (root : String) (rel : List String) : Candidate :=
  let text := Run.relativeText rel
  { c with
    path := if rel.isEmpty then root else Path.join root text
    relativePath := text
    language := detectLanguage text
    fileType := detectFileType text }

/-- The file of a candidate besides its times. -/
def file (c : Candidate) (projectId : String) : IndexedFile :=
  let d := decode c.content
  { id := fileId projectId c.relativePath, projectId, path := c.path
    relativePath := c.relativePath, fileType := c.fileType, language := c.language
    size := c.content.length, lineCount := countLines d.bytes, lastModified := .zero
    lastIndexed := .zero, checksum := checksum c.content, encoding := d.encoding.name }

def request (c : Candidate) (projectId : String) : ParseRequest :=
  ⟨fileId projectId c.relativePath, c.relativePath, (decode c.content).bytes, c.language⟩

theorem candidate?_eq_some {tree : FileTree} {classifier : Classifier} {root : String}
    {base rel : List String} {c : Candidate}
    (h : Run.candidate? tree classifier root base rel = some c) :
    tree.node? (base ++ rel) = some (.file c.content c.modified) ∧
      c = Run.candidateAt tree root base rel c.content c.modified := by
  unfold Run.candidate? at h
  split at h
  · rename_i hnode
    split at h
    · simp at h
    · obtain rfl := Option.some.inj h
      exact ⟨hnode, rfl⟩
  · simp at h

theorem placed_of_candidate? {tree : FileTree} {classifier : Classifier} {root : String}
    {base rel : List String} {c : Candidate}
    (h : Run.candidate? tree classifier root base rel = some c) : c = c.placed root rel := by
  rw [(candidate?_eq_some h).2]
  rfl

end Candidate

def Document.timeless (d : Document) : Document :=
  { d with file := { d.file with lastModified := .zero, lastIndexed := .zero } }

namespace Setting

/-- The document of a candidate besides its times, if its content can be parsed. -/
def document? (S : Setting) (projectId : String) (c : Candidate) : Option Document :=
  match S.parse (c.request projectId) with
  | .ok result => some
      ⟨c.file projectId, (decode c.content).text, result.found.symbols, result.found.references⟩
  | .error _ => none

/-- The tree holds contents and, in the project, files that come up. -/
structure Covers (S : Setting) (tree : FileTree) (projectId : String) : Prop where
  proper : tree.Proper
  contents : ∀ place content modified, (place, .file content modified) ∈ tree.entries →
    content ∈ S.contents ∧ (decode content).bytes ∈ S.contents
  names : ∀ place content modified, (place, .file content modified) ∈ tree.entries →
    ∀ rel, rel <:+ place → (projectId, Run.relativeText rel) ∈ S.names

/-- The candidate stands somewhere below the root, and its content and file come up. -/
structure Meets (S : Setting) (projectId root : String) (c : Candidate) : Prop where
  place : ∃ rel, (∀ part ∈ rel, ProperName part) ∧ c = c.placed root rel
  name : (projectId, c.relativePath) ∈ S.names
  content : c.content ∈ S.contents
  bytes : (decode c.content).bytes ∈ S.contents

variable {S : Setting} {projectId projectId' root : String} {c c' : Candidate}

theorem Meets.asks (h : S.Meets projectId root c) : S.Asks (c.request projectId) := by
  obtain ⟨rel, -, hplace⟩ := h.place
  refine ⟨projectId, h.name, rfl, ?_, h.bytes⟩
  rw [hplace]
  rfl

/-- Name and content decide the document. -/
theorem Meets.document?_eq (h : S.Meets projectId root c) (h' : S.Meets projectId root c')
    (hfile : fileId projectId c.relativePath = fileId projectId c'.relativePath)
    (hsum : checksum c.content = checksum c'.content) :
    S.document? projectId c = S.document? projectId c' := by
  have hnames := S.fileId_injOn h.name h'.name hfile
  have hpath : c.relativePath = c'.relativePath := congrArg Prod.snd hnames
  have hcontent := S.checksum_injOn h.content h'.content hsum
  obtain ⟨rel, hrel, hplace⟩ := h.place
  obtain ⟨rel', hrel', hplace'⟩ := h'.place
  have hsame : rel = rel' := by
    refine Run.relativeText_inj hrel hrel' ?_
    rw [hplace, hplace'] at hpath
    exact hpath
  have hrequest : c.request projectId = c'.request projectId := by
    rw [hplace, hplace']
    simp only [Candidate.request, Candidate.placed, hsame, hcontent]
  have hfileOf : c.file projectId = c'.file projectId := by
    rw [hplace, hplace']
    simp only [Candidate.file, Candidate.placed, hsame, hcontent]
  unfold document?
  rw [hrequest, hfileOf, hcontent]

end Setting

theorem FileTree.mem_entries_of_node? {t : FileTree} {place : List String} {node : FileNode}
    (hplace : place ≠ []) (h : t.node? place = some node) : (place, node) ∈ t.entries := by
  rw [node?, if_neg (by simpa using hplace)] at h
  obtain ⟨⟨place', node⟩, hfind, rfl⟩ := Option.map_eq_some_iff.mp h
  have hsame : place' = place := by simpa using List.find?_some hfind
  rw [← hsame]
  exact List.mem_of_find?_eq_some hfind

theorem FileTree.mem_of_node? {t : FileTree} {place : List String} {content : List UInt8}
    {modified : Instant} (h : t.node? place = some (.file content modified)) :
    (place, .file content modified) ∈ t.entries := by
  refine mem_entries_of_node? ?_ h
  rintro rfl
  cases h

namespace Run

variable {tree : FileTree} {caller : Caller} {classifier : Classifier} {root : String}
  {candidates : List Candidate} {skipped : Nat}

theorem nil_mem_visited {base : List String} : [] ∈ visited tree classifier base := by
  unfold visited
  rw [FileTree.walk]
  exact List.mem_cons_self

/-- Below a root that can be listed, only the caller can keep a walk from its end. -/
theorem discover_of_listed {base : List String} (hbase : tree.placeOf false root = .ok base)
    (hlisted : unlisted? tree classifier base [] = none) :
    discover tree caller classifier root =
      if (visited tree classifier base).all fun rel => caller.waits (.walk (relativeText rel)) then
        .ok (found tree classifier root base)
      else .error ⟨["failed to discover files"], .canceled⟩ := by
  unfold discover
  rw [hbase]
  dsimp only
  rw [hlisted]
  cases caller.waits (.walk (relativeText [])) <;> rfl

/-- A walk that comes to its end has listed the root. -/
theorem found_of_discover {walked : List Candidate × Nat}
    (h : discover tree caller classifier root = .ok walked) :
    ∃ base, tree.placeOf false root = .ok base ∧ unlisted? tree classifier base [] = none ∧
      walked = found tree classifier root base := by
  unfold discover at h
  split at h
  · simp at h
  · rename_i base hbase
    split at h
    · simp at h
    · rename_i hroot
      split at h
      · rename_i hwaits
        have hwait := List.all_eq_true.mp hwaits [] nil_mem_visited
        refine ⟨base, hbase, ?_, (Except.ok.inj h).symm⟩
        exact Option.eq_none_iff_forall_not_mem.mpr fun refusal => hroot refusal hwait
      · simp at h

/-- What is found does not depend on the caller, as long as he waits. -/
theorem eq_of_discover (h : discover tree caller classifier root = .ok (candidates, skipped)) :
    ∃ base, tree.placeOf false root = .ok base ∧
      candidates = (visited tree classifier base).filterMap (candidate? tree classifier root base) := by
  obtain ⟨base, hbase, -, hfound⟩ := found_of_discover h
  exact ⟨base, hbase, congrArg Prod.fst hfound⟩

theorem found_unique {caller' : Caller} {walked walked' : List Candidate × Nat}
    (h : discover tree caller classifier root = .ok walked)
    (h' : discover tree caller' classifier root = .ok walked') : walked = walked' := by
  obtain ⟨base, hbase, -, hfound⟩ := found_of_discover h
  obtain ⟨base', hbase', -, hfound'⟩ := found_of_discover h'
  obtain rfl := Except.ok.inj (hbase.symm.trans hbase')
  exact hfound.trans hfound'.symm

theorem mem_visited {base rel : List String} (hproper : tree.Proper)
    (h : rel ∈ visited tree classifier base) : ∀ part ∈ rel, ProperName part :=
  hproper.walk_proper (List.forall_mem_nil _) h

theorem meets_of_discover {S : Setting} {projectId : String} (hcovers : S.Covers tree projectId)
    (h : discover tree caller classifier root = .ok (candidates, skipped)) {c : Candidate}
    (hc : c ∈ candidates) : S.Meets projectId root c := by
  obtain ⟨base, -, rfl⟩ := eq_of_discover h
  obtain ⟨rel, hrel, hcandidate⟩ := List.mem_filterMap.mp hc
  have hentry := FileTree.mem_of_node? (Candidate.candidate?_eq_some hcandidate).1
  obtain ⟨hcontent, hbytes⟩ := hcovers.contents _ _ _ hentry
  have hplace := Candidate.placed_of_candidate? hcandidate
  refine ⟨⟨rel, mem_visited hcovers.proper hrel, hplace⟩, ?_, hcontent, hbytes⟩
  rw [hplace]
  exact hcovers.names _ _ _ hentry rel (List.suffix_append base rel)

/-- No two candidates have the same relative path. -/
theorem distinct_of_discover (hproper : tree.Proper)
    (h : discover tree caller classifier root = .ok (candidates, skipped)) :
    candidates.Pairwise fun c c' => c.relativePath ≠ c'.relativePath := by
  obtain ⟨base, -, rfl⟩ := eq_of_discover h
  have hplaces : (visited tree classifier base).Pairwise fun rel rel' =>
      Run.relativeText rel ≠ Run.relativeText rel' := by
    refine List.Pairwise.imp_of_mem (fun hrel hrel' hne htext => hne ?_) (hproper.walk_nodup _ _)
    exact relativeText_inj (mem_visited hproper hrel) (mem_visited hproper hrel') htext
  refine hplaces.filterMap _ fun rel rel' hne c hc c' hc' => ?_
  rw [Candidate.placed_of_candidate? hc, Candidate.placed_of_candidate? hc']
  exact hne

end Run

end CodeAtlas
