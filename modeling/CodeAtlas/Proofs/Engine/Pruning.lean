import CodeAtlas.Proofs.Engine.Discover
import Mathlib.Data.List.Infix
import Mathlib.Data.List.Perm.Subperm

/-!
# Directories that are not entered

A walk does not enter a directory that is to be skipped. What stands below it would not be accepted
either, for its name shows in the paths of all that is there: so the files that are found are those of the
whole tree that are accepted.
-/

namespace CodeAtlas

theorem Path.lastPart_eq {text name : String} (front : List Char)
    (htext : text.toList = front ++ name.toList) (hname : '/' ∉ name.toList)
    (hfront : ∀ c ∈ front.getLast?, c = '/') : lastPart text = name := by
  have hchars : ∀ c ∈ name.toList.reverse, (c != '/') = true := by
    intro c hc
    rw [bne_iff_ne]
    rintro rfl
    exact hname (List.mem_reverse.mp hc)
  have hstop : front.reverse.takeWhile (· != '/') = [] := by
    rw [← List.head?_reverse] at hfront
    cases hback : front.reverse with
    | nil => rfl
    | cons c back =>
        have hslash : c = '/' := hfront c (by rw [hback]; rfl)
        rw [List.takeWhile_cons_of_neg (by simp [hslash])]
  rw [lastPart, htext, List.reverse_append, List.takeWhile_append_of_pos hchars, hstop, List.append_nil,
    List.reverse_reverse, String.ofList_toList]

namespace Classifier

/-- What is ignored as a directory is ignored with all that is below it, as gitignore has it for rules that take
nothing back in. -/
def ReachesBelow (c : Classifier) : Prop :=
  ∀ dir rest, c.ignores (dir ++ "/") = true → c.ignores (dir ++ "/" ++ rest) = true

theorem reachesBelow_of_patterns {config : IgnoreConfig} (h : config.patterns = []) : (new config).ReachesBelow := by
  intro dir rest hdir
  simp [new, h, IgnoreRule.ofLines, IgnoreRule.ignores] at hdir

variable {config : IgnoreConfig} {dir rest : List String} {name : String}

theorem partsReason?_cons (hrest : rest ≠ []) : partsReason? config (name :: rest) =
    if isHidden name then some .hidden
    else if config.ignoreDirs.contains name then some .ignoredDirectory
    else partsReason? config rest := by
  obtain ⟨next, rest, rfl⟩ := List.exists_cons_of_ne_nil hrest
  rfl

/-- A name that keeps a walk out of a directory shows in all paths below it. -/
theorem isSome_partsReason? (hrest : rest ≠ [])
    (hname : (isHidden name || config.ignoreDirs.contains name) = true) :
    (partsReason? config (dir ++ name :: rest)).isSome = true := by
  induction dir with
  | nil =>
      rw [List.nil_append, partsReason?_cons hrest]
      rcases Bool.or_eq_true_iff.mp hname with hhidden | hignored
      · rw [if_pos hhidden]
        rfl
      · rw [if_pos hignored]
        split <;> rfl
  | cons part dir ih =>
      rw [List.cons_append,
        partsReason?_cons (List.append_ne_nil_of_right_ne_nil dir (List.cons_ne_nil name rest))]
      split
      · rfl
      · split
        · rfl
        · exact ih

theorem isSome_skipReason?_of_parts {c : Classifier} {path : String}
    (h : (partsReason? c.config (Path.parts path)).isSome = true) :
    (c.skipReason? path).isSome = true := by
  obtain ⟨reason, hreason⟩ := Option.isSome_iff_exists.mp h
  rw [skipReason?, hreason]
  rfl

theorem isSome_skipReason?_of_ignores {c : Classifier} {path : String}
    (h : c.ignores path = true) : (c.skipReason? path).isSome = true := by
  unfold skipReason?
  rw [if_pos h]
  split
  · rfl
  · split
    · rfl
    · split <;> rfl

end Classifier

namespace Run

variable {classifier : Classifier} {dir rest : List String}

theorem relativeText_append (hdir : dir ≠ []) (hrest : rest ≠ []) :
    relativeText (dir ++ rest) = relativeText dir ++ "/" ++ Path.joinParts rest := by
  have happend : dir ++ rest ≠ [] := List.append_ne_nil_of_left_ne_nil hdir rest
  unfold relativeText
  rw [if_neg (by simpa using happend), if_neg (by simpa using hdir)]
  exact String.intercalate_append_of_ne_nil hdir hrest

theorem lastPart_relativeText {name : String} (hname : '/' ∉ name.toList) (dir : List String) :
    Path.lastPart (relativeText (dir ++ [name])) = name := by
  have hsingle : Path.joinParts [name] = name := String.intercalate_singleton
  by_cases hdir : dir = []
  · have htext : relativeText ([] ++ [name]) = name := hsingle
    rw [hdir, htext]
    exact Path.lastPart_eq [] rfl hname nofun
  · refine Path.lastPart_eq (relativeText dir ++ "/").toList ?_ hname ?_
    · rw [relativeText_append hdir (List.cons_ne_nil name []), hsingle, String.toList_append]
    · simp

/-- What stands below a directory that is to be skipped is not accepted. -/
theorem isSome_skipReason?_of_skipsDir (hreach : classifier.ReachesBelow)
    (hproper : ∀ part ∈ dir ++ rest, ProperName part) (hrest : rest ≠ [])
    (hskips : classifier.skipsDir (relativeText dir) = true) :
    (classifier.skipReason? (relativeText (dir ++ rest))).isSome = true := by
  unfold Classifier.skipsDir at hskips
  split at hskips
  · cases hskips
  · next hroot =>
    have hdir : dir ≠ [] := by
      rintro rfl
      exact hroot rfl
    have hparts := parts_relativeText hproper (List.append_ne_nil_of_right_ne_nil dir hrest)
    obtain ⟨above, name, rfl⟩ := (List.eq_nil_or_concat' dir).resolve_left hdir
    have hname : '/' ∉ name.toList := (hproper name (by simp)).2.2
    rw [lastPart_relativeText hname, Bool.or_eq_true] at hskips
    rcases hskips with hskips | hskips
    · refine Classifier.isSome_skipReason?_of_parts ?_
      rw [hparts, List.append_assoc, List.singleton_append]
      exact Classifier.isSome_partsReason? hrest hskips
    · refine Classifier.isSome_skipReason?_of_ignores ?_
      rw [relativeText_append hdir hrest]
      exact hreach _ _ hskips

end Run

namespace FileTree

variable {t : FileTree} {base rel : List String}

/-- Whatever stands somewhere stands in a directory, and that in another one, up to the root. -/
def Connected (t : FileTree) : Prop :=
  ∀ above rest node, rest ≠ [] → t.node? (above ++ rest) = some node → t.node? above = some .directory

theorem connected_of_entries (h : ∀ entry ∈ t.entries, ∀ above ∈ entry.1.inits, above ≠ entry.1 →
    t.node? above = some .directory) : t.Connected := by
  intro above rest node hrest hnode
  have hentry := mem_entries_of_node? (List.append_ne_nil_of_right_ne_nil above hrest) hnode
  refine h _ hentry above ((List.mem_inits above _).mpr (List.prefix_append above rest)) ?_
  simpa using hrest

theorem mem_names_of_node? {dir : List String} {name : String} {node : FileNode}
    (h : t.node? (dir ++ [name]) = some node) : name ∈ t.names dir := by
  have hentry := mem_entries_of_node? (List.append_ne_nil_of_right_ne_nil dir (List.cons_ne_nil name [])) h
  refine List.mem_mergeSort.mpr (List.mem_filterMap.mpr ⟨_, hentry, ?_⟩)
  simp

theorem Connected.exists_node? (h : t.Connected) {above rest : List String} {node : FileNode}
    (hnode : t.node? (above ++ rest) = some node) : ∃ node, t.node? above = some node := by
  by_cases hrest : rest = []
  · rw [hrest, List.append_nil] at hnode
    exact ⟨node, hnode⟩
  · exact ⟨.directory, h above rest node hrest hnode⟩

/-- The directories on the way from a base to a place give the names on the way. -/
def Shows (t : FileTree) (base rel : List String) : Prop :=
  ∀ above name rest, rel = above ++ name :: rest → name ∈ t.listed (base ++ above)

theorem shows_nil (t : FileTree) (base : List String) : t.Shows base [] := by
  intro above name rest h
  simp at h

theorem Shows.append {name : String} (h : t.Shows base rel) (hname : name ∈ t.listed (base ++ rel)) :
    t.Shows base (rel ++ [name]) := by
  intro above other rest hsplit
  by_cases hrest : rest = []
  · subst hrest
    obtain ⟨rfl, hother⟩ := List.append_inj' hsplit rfl
    obtain rfl : name = other := by simpa using hother
    exact hname
  · obtain ⟨front, last, rfl⟩ := List.eq_nil_or_concat rest |>.resolve_left hrest
    have hsplit : rel ++ [name] = (above ++ other :: front) ++ [last] := by simpa using hsplit
    exact h above other front (List.append_inj' hsplit rfl).1

/-- Where no directory refuses to be listed, each gives the names of what stands in it. -/
theorem Connected.shows (h : t.Connected) (hlisted : ∀ dir, t.refusal? .list dir = none)
    {node : FileNode} (hnode : t.node? (base ++ rel) = some node) : t.Shows base rel := by
  rintro above name rest rfl
  have hsplit : t.node? (base ++ above ++ [name] ++ rest) = some node := by simpa using hnode
  obtain ⟨node', hnode'⟩ := h.exists_node? hsplit
  unfold listed
  rw [hlisted]
  exact mem_names_of_node? hnode'

/-- A walk that enters all directories comes to all that they show below the base. -/
theorem Connected.mem_walk (h : t.Connected) {names : List String} {node : FileNode} {fuel : Nat}
    (hnode : t.node? (base ++ rel ++ names) = some node) (hfuel : names.length < fuel)
    (hshows : t.Shows (base ++ rel) names) :
    rel ++ names ∈ t.walk (fun _ => false) base fuel rel := by
  induction names generalizing rel fuel with
  | nil =>
      obtain ⟨fuel, rfl⟩ := Nat.exists_eq_add_one_of_ne_zero (Nat.ne_of_gt hfuel)
      rw [List.append_nil, walk]
      exact List.mem_cons_self
  | cons name names ih =>
      obtain ⟨fuel, rfl⟩ := Nat.exists_eq_add_one_of_ne_zero (Nat.ne_zero_of_lt hfuel)
      have hdir := h (base ++ rel) _ node (List.cons_ne_nil name names) hnode
      have hname : name ∈ t.listed (base ++ rel) := by
        simpa using hshows [] name names rfl
      have hrest : t.node? (base ++ (rel ++ [name]) ++ names) = some node := by
        simpa using hnode
      have hbelow : t.Shows (base ++ (rel ++ [name])) names := by
        rintro above other rest rfl
        simpa using hshows (name :: above) other rest rfl
      rw [List.append_cons, walk, hdir]
      refine List.mem_cons_of_mem _ (List.mem_flatMap.mpr ⟨name, hname, ?_⟩)
      exact ih hrest (Nat.lt_of_succ_lt_succ hfuel) hbelow

/-- A walk comes only to places that are shown on the way. -/
theorem shows_of_mem_walk {skips : List String → Bool} {fuel : Nat} {place : List String}
    (hrel : t.Shows base rel) (h : place ∈ t.walk skips base fuel rel) : t.Shows base place := by
  induction fuel generalizing rel with
  | zero => simp [walk] at h
  | succ fuel ih =>
      rw [walk] at h
      rcases List.mem_cons.mp h with rfl | h
      · exact hrel
      · split at h
        · split at h
          · simp at h
          · obtain ⟨name, hname, h⟩ := List.mem_flatMap.mp h
            exact ih (hrel.append hname) h
        · simp at h

/-- The places on the way to a node are entries of their own, so there are enough of them for a walk to
come to it. -/
theorem Connected.length_le (h : t.Connected) {node : FileNode}
    (hnode : t.node? (base ++ rel) = some node) : rel.length ≤ t.entries.length := by
  let ways := (List.range rel.length).map fun k => base ++ rel.take (k + 1)
  have hdistinct : ways.Nodup := by
    refine List.Nodup.map_on (fun k hk l hl heq => ?_) List.nodup_range
    have hlength := congrArg List.length heq
    simp only [List.length_append, List.length_take] at hlength
    rw [List.mem_range] at hk hl
    omega
  have hentries : ways ⊆ t.entries.map (·.1) := by
    intro way hway
    obtain ⟨k, hk, rfl⟩ := List.mem_map.mp hway
    rw [List.mem_range] at hk
    have hsplit : t.node? (base ++ rel.take (k + 1) ++ rel.drop (k + 1)) = some node := by
      rwa [List.append_assoc, List.take_append_drop]
    obtain ⟨node', hnode'⟩ := h.exists_node? hsplit
    have hplace : base ++ rel.take (k + 1) ≠ [] := by
      rw [← List.length_pos_iff, List.length_append, List.length_take]
      omega
    exact List.mem_map_of_mem (mem_entries_of_node? hplace hnode')
  have hlength := (hdistinct.subperm hentries).length_le
  rwa [List.length_map, List.length_map, List.length_range] at hlength

/-- Where nothing is to be found below a directory, it does not matter whether it is entered. -/
theorem Proper.filterMap_walk {α : Type} {skips : List String → Bool} {f : List String → Option α}
    (h : t.Proper) (hrel : ∀ part ∈ rel, ProperName part)
    (hf : ∀ dir rest, (∀ part ∈ dir ++ rest, ProperName part) → rest ≠ [] → skips dir = true →
      f (dir ++ rest) = none) (fuel : Nat) :
    (t.walk skips base fuel rel).filterMap f =
      (t.walk (fun _ => false) base fuel rel).filterMap f := by
  induction fuel generalizing rel with
  | zero => rfl
  | succ fuel ih =>
      have hnext {name : String} (hname : name ∈ t.listed (base ++ rel)) :
          ∀ part ∈ rel ++ [name], ProperName part :=
        List.forall_mem_append.mpr
          ⟨hrel, List.forall_mem_singleton.mpr (h.properName ((t.listed_sublist _).subset hname))⟩
      have hcons {below below' : List (List String)} (heq : below.filterMap f = below'.filterMap f) :
          (rel :: below).filterMap f = (rel :: below').filterMap f := by
        rw [List.filterMap_cons, List.filterMap_cons, heq]
      rw [walk, walk]
      refine hcons ?_
      split
      · rw [if_neg Bool.false_ne_true, List.filterMap_flatMap]
        split
        · next hskips =>
          rw [List.filterMap_nil, eq_comm, List.flatMap_eq_nil_iff]
          intro name hname
          refine List.filterMap_eq_nil_iff.mpr fun place hplace => ?_
          have hproper := h.walk_proper (hnext hname) hplace
          obtain ⟨more, rfl⟩ := prefix_of_mem_walk hplace
          rw [← List.append_cons] at hproper ⊢
          exact hf rel _ hproper (List.cons_ne_nil name more) hskips
        · rw [List.filterMap_flatMap]
          exact List.flatMap_congr fun name hname => ih (hnext hname)
      · rfl

end FileTree

namespace Run

variable {tree : FileTree} {caller : Caller} {classifier : Classifier} {root : String}

/-- What is found in a whole tree below a base: each regular file that is accepted, once. Only what
stands in directories that refuse to be listed is missing. -/
structure Finds (tree : FileTree) (classifier : Classifier) (root : String) (base : List String)
    (candidates : List Candidate) : Prop where
  eq_whole : candidates =
    (tree.walk (fun _ => false) base (tree.entries.length + 1) []).filterMap
      (candidate? tree classifier root base)
  mem_iff_shown : ∀ c, c ∈ candidates ↔ ∃ rel content modified, tree.Shows base rel ∧
    tree.node? (base ++ rel) = some (.file content modified) ∧
      classifier.skipReason? (relativeText rel) = none ∧
        c = candidateAt tree root base rel content modified
  mem_iff : (∀ dir, tree.refusal? .list dir = none) → ∀ c, c ∈ candidates ↔ ∃ rel content modified,
    tree.node? (base ++ rel) = some (.file content modified) ∧
      classifier.skipReason? (relativeText rel) = none ∧
        c = candidateAt tree root base rel content modified
  distinct : candidates.Pairwise fun c c' => c.relativePath ≠ c'.relativePath

theorem candidate?_eq_some_iff {base rel : List String} {c : Candidate} :
    candidate? tree classifier root base rel = some c ↔ ∃ content modified,
      tree.node? (base ++ rel) = some (.file content modified) ∧
        classifier.skipReason? (relativeText rel) = none ∧
          c = candidateAt tree root base rel content modified := by
  unfold candidate?
  split
  · next content modified hnode =>
    rw [Option.ite_none_left_eq_some, Bool.not_eq_true, Option.isSome_eq_false_iff,
      Option.isNone_iff_eq_none, Option.some.injEq]
    constructor
    · rintro ⟨haccepted, rfl⟩
      exact ⟨content, modified, hnode, haccepted, rfl⟩
    · rintro ⟨content', modified', hnode', haccepted, rfl⟩
      obtain ⟨rfl, rfl⟩ := FileNode.file.inj (Option.some.inj (hnode.symm.trans hnode'))
      exact ⟨haccepted, rfl⟩
  · next hother =>
    refine ⟨nofun, ?_⟩
    rintro ⟨content, modified, hnode, -⟩
    exact absurd hnode (hother content modified)

theorem candidate?_of_skipReason? {base rel : List String}
    (h : (classifier.skipReason? (relativeText rel)).isSome = true) :
    candidate? tree classifier root base rel = none := by
  refine Option.eq_none_iff_forall_ne_some.mpr fun c hc => ?_
  obtain ⟨_, _, -, haccepted, -⟩ := candidate?_eq_some_iff.mp hc
  rw [haccepted] at h
  cases h

theorem mem_whole_iff (hconnected : tree.Connected) {base : List String} {c : Candidate} :
    c ∈ (tree.walk (fun _ => false) base (tree.entries.length + 1) []).filterMap
        (candidate? tree classifier root base) ↔
      ∃ rel content modified, tree.Shows base rel ∧
        tree.node? (base ++ rel) = some (.file content modified) ∧
          classifier.skipReason? (relativeText rel) = none ∧
            c = candidateAt tree root base rel content modified := by
  rw [List.mem_filterMap]
  simp only [candidate?_eq_some_iff]
  constructor
  · rintro ⟨rel, hwalk, content, modified, hfound⟩
    exact ⟨rel, content, modified, FileTree.shows_of_mem_walk (tree.shows_nil base) hwalk, hfound⟩
  · rintro ⟨rel, content, modified, hshows, hnode, hfound⟩
    have hdepth := hconnected.length_le hnode
    have hplace : tree.node? (base ++ [] ++ rel) = some (.file content modified) := by
      rwa [List.append_nil]
    have hwalk := hconnected.mem_walk hplace (Nat.lt_succ_of_le hdepth) (by rwa [List.append_nil])
    exact ⟨rel, hwalk, content, modified, hnode, hfound⟩

/-- A walk that does not enter the directories that are to be skipped finds the files of the whole tree
that are accepted. -/
theorem pruning_loses_no_file (hproper : tree.Proper) (hconnected : tree.Connected)
    (hreach : classifier.ReachesBelow) (caller : Caller) (root : String) :
    (∀ candidates skipped, discover tree caller classifier root = .ok (candidates, skipped) →
      ∃ base, tree.placeOf false root = .ok base ∧ Finds tree classifier root base candidates) ∧
    ∀ base, tree.placeOf false root = .ok base → tree.refusal? .list base = none →
      (∀ path, caller.waits (.walk path) = true) →
        ∃ found, discover tree caller classifier root = .ok found := by
  refine ⟨fun candidates skipped hfound => ?_, fun base hbase hlisted hwaits => ?_⟩
  · obtain ⟨base, hbase, hcandidates⟩ := eq_of_discover hfound
    have hwhole : candidates =
        (tree.walk (fun _ => false) base (tree.entries.length + 1) []).filterMap
          (candidate? tree classifier root base) := by
      rw [hcandidates]
      refine hproper.filterMap_walk (List.forall_mem_nil _) (fun dir rest hparts hrest hskips => ?_) _
      exact candidate?_of_skipReason? (isSome_skipReason?_of_skipsDir hreach hparts hrest hskips)
    have hshown : ∀ c, c ∈ candidates ↔ ∃ rel content modified, tree.Shows base rel ∧
        tree.node? (base ++ rel) = some (.file content modified) ∧
          classifier.skipReason? (relativeText rel) = none ∧
            c = candidateAt tree root base rel content modified := by
      intro c
      rw [hwhole, mem_whole_iff hconnected]
    refine ⟨base, hbase, hwhole, hshown, fun hlisted c => ?_, distinct_of_discover hproper hfound⟩
    rw [hshown]
    constructor
    · rintro ⟨rel, content, modified, -, hfile⟩
      exact ⟨rel, content, modified, hfile⟩
    · rintro ⟨rel, content, modified, hnode, hfile⟩
      exact ⟨rel, content, modified, hconnected.shows hlisted hnode, hnode, hfile⟩
  · have hroot : unlisted? tree classifier base [] = none := by
      unfold unlisted?
      rw [List.append_nil, hlisted, ite_self]
    rw [discover_of_listed hbase hroot, if_pos (List.all_eq_true.mpr fun _ _ => hwaits _)]
    exact ⟨_, rfl⟩

/-- A project with a file of its own and one in a directory that is to be skipped. -/
def vendorTree : FileTree :=
  { entries := [(["p"], .directory), (["p", "a.go"], .file (bytesOfText "package a\n") ⟨5, 0, false⟩),
      (["p", "vendor"], .directory),
      (["p", "vendor", "b.go"], .file (bytesOfText "package b\n") ⟨6, 0, false⟩)]
    current := [] }

def vendorClassifier : Classifier := .new { IgnoreConfig.bare with ignoreDirs := ["vendor"] }

theorem only_own_file_found : ∃ candidates skipped,
    discover vendorTree .patient vendorClassifier "/p" = .ok (candidates, skipped) ∧
      ∀ c, c ∈ candidates ↔ c = candidateAt vendorTree "/p" ["p"] ["a.go"] (bytesOfText "package a\n")
        ⟨5, 0, false⟩ := by
  have hproper : vendorTree.Proper := ⟨by decide, by simp [vendorTree, ProperName]⟩
  have hconnected : vendorTree.Connected := FileTree.connected_of_entries (by decide +kernel)
  have hbase : vendorTree.placeOf false "/p" = .ok ["p"] := by decide +kernel
  have hreach : vendorClassifier.ReachesBelow := Classifier.reachesBelow_of_patterns rfl
  have hlisted (dir : List String) : vendorTree.refusal? .list dir = none := rfl
  obtain ⟨hfinds, hruns⟩ := pruning_loses_no_file hproper hconnected hreach .patient "/p"
  obtain ⟨⟨candidates, skipped⟩, hfound⟩ := hruns ["p"] hbase (hlisted ["p"]) fun _ => rfl
  obtain ⟨base, hbase', hfinds⟩ := hfinds candidates skipped hfound
  obtain rfl := Except.ok.inj (hbase.symm.trans hbase')
  refine ⟨candidates, skipped, hfound, fun c => (hfinds.mem_iff hlisted c).trans ⟨?_, ?_⟩⟩
  · rintro ⟨rel, content, modified, hnode, haccepted, rfl⟩
    have hentry := FileTree.mem_of_node? hnode
    simp only [vendorTree, List.mem_cons, List.not_mem_nil, or_false, Prod.mk.injEq,
      List.singleton_append, List.cons.injEq, true_and, reduceCtorEq, and_false, false_or,
      FileNode.file.injEq] at hentry
    rcases hentry with ⟨rfl, rfl, rfl⟩ | ⟨rfl, rfl, rfl⟩
    · rfl
    · have hbelow : vendorClassifier.skipReason? (relativeText ["vendor", "b.go"]) =
          some .ignoredDirectory := by
        decide +kernel
      rw [hbelow] at haccepted
      cases haccepted
  · rintro rfl
    exact ⟨["a.go"], _, _, by decide +kernel, by decide +kernel, rfl⟩

end Run

end CodeAtlas
