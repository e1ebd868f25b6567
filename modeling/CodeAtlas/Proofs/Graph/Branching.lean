import CodeAtlas.Proofs.Graph.Apart
import CodeAtlas.Proofs.Graph.Passes
import CodeAtlas.Proofs.List.Basic
import CodeAtlas.Proofs.Pattern.Spans
import CodeAtlas.Proofs.Text.Words
import Mathlib.Data.Finset.Card

/-!
# Lines on which symbols branch

What is called the complexity of a symbol counts lines: those on which one of its usages stands next to a word
that branches or repeats. A line counts once, however many usages it has, and whether a name means anything does
not matter. So only which usages there are decides the figure. Lines may as well be kept in sets by symbol while
the edges of the usages are made, and be counted when all of them are there, in any order of the sets.
-/

namespace CodeAtlas

/-! ## Words that branch or repeat -/

section Words

variable {word text : String} {words : List String}

/-- A word of a text stands there as a whole. -/
theorem mem_plainWords_iff (hsome : word ≠ "") (hword : word.toList.all isWordChar = true) :
    word ∈ plainWords text ↔ Pattern.Whole word.toList text.toList := by
  have hplain : word ∈ plainWords text ↔ word.toList ∈ text.toList.splitOnP fun c => !isWordChar c := by
    rw [plainWords, splitOn_eq_splitOnP]
    constructor
    · intro hmem
      obtain ⟨part, hpart, rfl⟩ := List.mem_map.mp hmem
      rw [String.toList_ofList]
      exact (List.mem_filter.mp hpart).1
    · intro hpart
      exact List.mem_map.mpr ⟨word.toList, List.mem_filter.mpr ⟨hpart, by simpa using hsome⟩, String.ofList_toList⟩
  have hnone (o : Option Char) : (∀ c ∈ o, (!isWordChar c) = true) ↔ o.any isWordChar = false := by
    cases o <;> simp
  rw [hplain, mem_splitOnP_iff, Pattern.Whole]
  simp only [hnone]
  exact and_iff_right fun c hc => by simp [List.all_eq_true.mp hword c hc]

theorem any_plainWords_iff (hwords : ∀ w ∈ words, w ≠ "" ∧ w.toList.all isWordChar = true) :
    (plainWords text).any words.contains = true ↔ ∃ w ∈ words, Pattern.Whole w.toList text.toList := by
  rw [List.any_eq_true]
  constructor
  · rintro ⟨w, hw, hknown⟩
    have hmem : w ∈ words := List.contains_iff_mem.mp hknown
    exact ⟨w, hmem, (mem_plainWords_iff (hwords w hmem).1 (hwords w hmem).2).mp hw⟩
  · rintro ⟨w, hmem, hwhole⟩
    exact ⟨w, (mem_plainWords_iff (hwords w hmem).1 (hwords w hmem).2).mpr hwhole, List.contains_iff_mem.mpr hmem⟩

end Words

def conditionalPattern : Pattern :=
  .alt (.wholeText ["if", "elif", "else if", "switch", "case", "match"]) (.char (.single '?'))

def loopPattern : Pattern := .wholeText ["for", "while", "loop", "foreach", "do"]

instance (t : List Char) : Decidable (Pattern.Bordered t) :=
  inferInstanceAs (Decidable (_ ∧ _))

theorem isLoop_eq (context : String) : isLoop context = loopPattern.matchesText context := by
  rw [Bool.eq_iff_iff, isLoop, any_plainWords_iff (by decide), loopPattern, Pattern.wholeText_iff (by decide)]
  rfl

/-- Where two words stand as a whole with a space between them, so does the second. -/
theorem whole_if_of_whole_else_if {xs : List Char} (h : Pattern.Whole "else if".toList xs) :
    Pattern.Whole "if".toList xs := by
  obtain ⟨before, after, rfl, -, hafter⟩ := h
  refine ⟨before ++ "else ".toList, after, by simp, ?_, hafter⟩
  rw [List.getLast?_append_of_ne_nil _ (by decide)]
  decide

theorem isConditional_eq (context : String) : isConditional context = conditionalPattern.matchesText context := by
  rw [Bool.eq_iff_iff, isConditional, Bool.or_eq_true, any_plainWords_iff (by decide),
    List.contains_iff_mem, conditionalPattern, Pattern.matchesText_alt, Pattern.wholeText_iff (by decide), Pattern.matchesText_single]
  refine or_congr_left ?_
  simp only [conditionalWords, List.mem_cons, exists_eq_or_imp, List.not_mem_nil, or_false]
  constructor
  · rintro (hif | helif | hrest)
    exacts [.inl hif, .inr (.inl helif), .inr (.inr (.inr hrest))]
  · rintro (hif | helif | helse | hrest)
    exacts [.inl hif, .inr (.inl helif), .inl (whole_if_of_whole_else_if helse), .inr (.inr hrest)]

/-! ## Nodes and their complexities -/

namespace SymbolGraph

@[simp]
theorem nodes_addLink (g : SymbolGraph) (l : Link) : (g.addLink l).1.nodes = g.nodes := by
  rcases addLink_cases g l with ⟨-, -, -, heq⟩ | ⟨-, heq⟩ | ⟨-, heq⟩ <;> rw [heq]

theorem nodes_foldl {α : Type} {step : SymbolGraph → α → SymbolGraph} (hstep : ∀ g x, (step g x).nodes = g.nodes)
    (xs : List α) (g : SymbolGraph) : (xs.foldl step g).nodes = g.nodes :=
  List.foldlRecOn xs step (motive := fun g' => g'.nodes = g.nodes) rfl fun g' h x _ => (hstep g' x).trans h

/-- The complexities of the nodes, each under its identifier. -/
def complexities (g : SymbolGraph) : List (String × Int) :=
  g.nodes.map fun n => (n.symbolId, n.figures.complexity)

end SymbolGraph

namespace Build

open SymbolGraph

variable {files : List FileRecord} {f : FileRecord} {s : Symbol} {g : SymbolGraph}

@[simp]
theorem nodes_addLinks (g : SymbolGraph) (links : List Link) : (addLinks g links).nodes = g.nodes :=
  nodes_foldl nodes_addLink links g

@[simp]
theorem nodes_addMentionedBases (f : FileRecord) (s : Symbol) (g : SymbolGraph) :
    (addMentionedBases f s g).nodes = g.nodes := by
  unfold addMentionedBases
  split
  · rfl
  · refine nodes_foldl (fun g t => ?_) f.symbols g
    split
    · rfl
    · split
      · exact nodes_addLink g _
      · rfl

theorem nodes_addDeclaration (files : List FileRecord) (f : FileRecord) (g : SymbolGraph) (s : Symbol) :
    (addDeclaration files f g s).nodes = g.nodes := by
  unfold addDeclaration
  cases s.kind <;> simp

/-- Only the branches of a file change what nodes say. -/
theorem nodes_addFile (files : List FileRecord) (g : SymbolGraph) (f : FileRecord) :
    (addFile files g f).nodes = (addBranches g (branches f)).nodes := by
  have hdeclared := nodes_foldl (nodes_addDeclaration files f) f.symbols
    (addBranches (addLinks g (f.usages.filterMap (ofUsage? files f))) (branches f))
  rw [addFile, countDangling, hdeclared, addBranches, nodes_addLinks, addBranches]

/-- A complexity with the branches under its identifier counted. -/
def withBranches (branches : List (String × Int)) (c : String × Int) : String × Int :=
  (c.1, c.2 + (branches.countP (·.1 == c.1) : Nat))

theorem complexities_addBranches (g : SymbolGraph) (branches : List (String × Int)) :
    (addBranches g branches).complexities = g.complexities.map (withBranches branches) := by
  simp [complexities, addBranches, withBranches, Function.comp_def]

theorem complexities_addFiles (files added : List FileRecord) (g : SymbolGraph) :
    (added.foldl (addFile files) g).complexities =
      g.complexities.map (withBranches (added.flatMap branches)) := by
  induction added generalizing g with
  | nil =>
      have hsame : withBranches [] = id := funext fun c => by simp [withBranches]
      rw [List.foldl_nil, List.flatMap_nil, hsame, List.map_id]
  | cons f rest ih =>
      have hfile : (addFile files g f).complexities = (addBranches g (branches f)).complexities := by
        rw [complexities, complexities, nodes_addFile]
      rw [List.foldl_cons, ih, hfile, complexities_addBranches, List.map_map, List.flatMap_cons]
      refine List.map_congr_left fun c _ => ?_
      simp [withBranches, List.countP_append, Int.add_assoc]

theorem nodes_foldl_addNode {nodes : List Node} (hnew : (nodes.map (·.symbolId)).Nodup)
    (hnone : ∀ n ∈ nodes, g.hasNode n.symbolId = false) : (nodes.foldl addNode g).nodes = g.nodes ++ nodes := by
  induction nodes generalizing g with
  | nil => simp
  | cons n rest ih =>
      obtain ⟨hn, hrest⟩ := List.nodup_cons.mp hnew
      obtain ⟨hfirst, hothers⟩ := List.forall_mem_cons.mp hnone
      have hadded : g.addNode n = { g with nodes := g.nodes ++ [n] } := by
        rw [addNode, hfirst]
        rfl
      have hstill : ∀ m ∈ rest, (g.addNode n).hasNode m.symbolId = false := by
        intro m hm
        rw [Bool.eq_false_iff, Ne, hasNode_addNode, not_or]
        exact ⟨by simp [hothers m hm], fun heq => hn (List.mem_map.mpr ⟨m, hm, heq⟩)⟩
      rw [List.foldl_cons, ih hrest hstill, hadded, List.append_assoc, List.singleton_append]

/-- Symbols with identifiers of their own each become one node. -/
theorem nodes_addNodes (hids : ((files.flatMap (·.symbols)).map (·.id)).Nodup) :
    (addNodes files .empty).nodes = (declarations files).map fun d => d.1.nodeOf d.2 := by
  have hnodes : (files.flatMap fun f => f.symbols.map f.nodeOf) =
      (declarations files).map fun d => d.1.nodeOf d.2 := by
    simp [declarations, List.map_flatMap, Function.comp_def]
  have hnew : (((declarations files).map fun d => d.1.nodeOf d.2).map (·.symbolId)).Nodup := by
    rw [List.map_map]
    simpa [declarations, List.map_flatMap, Function.comp_def, FileRecord.nodeOf] using hids
  rw [addNodes_eq_foldl, hnodes, nodes_foldl_addNode hnew fun n _ => rfl]
  rfl

theorem complexities_build (hids : ((files.flatMap (·.symbols)).map (·.id)).Nodup) :
    (build files).complexities =
      (declarations files).map fun d => withBranches (files.flatMap branches) (d.2.id, 1) := by
  have hcomputed : (build files).complexities =
      (files.foldl (addFile files) (addNodes files .empty)).complexities := by
    simp [complexities, build, computeFigures, Function.comp_def]
  rw [hcomputed, complexities_addFiles, complexities, nodes_addNodes hids, List.map_map, List.map_map]
  rfl

/-! ## Lines -/

/-- A usage makes a symbol branch: it is no import, the symbol can be called and is the innermost around it, among
those that can be called if the usage is a call, and a word next to it branches or repeats. -/
structure Branches (f : FileRecord) (s : Symbol) (u : Usage) : Prop where
  notImport : u.kind ≠ .importing
  callable : s.kind.isCallable = true
  source : enclosing? f.symbols u.location.first (u.kind == .call) = some s
  context : conditionalPattern.matchesText u.context = true ∨ loopPattern.matchesText u.context = true

theorem branches_iff {u : Usage} : Branches f s u ↔ u.kind ≠ .importing ∧ s.kind.isCallable = true ∧
    enclosing? f.symbols u.location.first (u.kind == .call) = some s ∧
    (conditionalPattern.matchesText u.context = true ∨ loopPattern.matchesText u.context = true) :=
  ⟨fun h => ⟨h.notImport, h.callable, h.source, h.context⟩, fun ⟨a, b, c, d⟩ => ⟨a, b, c, d⟩⟩

instance (f : FileRecord) (s : Symbol) (u : Usage) : Decidable (Branches f s u) :=
  decidable_of_iff' _ branches_iff

def branchLines (f : FileRecord) (s : Symbol) : Finset Int :=
  ((f.usages.filter fun u => decide (Branches f s u)).map (·.location.first.line)).toFinset

theorem mem_branchLines {line : Int} :
    line ∈ branchLines f s ↔ ∃ u ∈ f.usages, Branches f s u ∧ u.location.first.line = line := by
  simp [branchLines, and_assoc]

theorem branch?_eq_some_iff {u : Usage} {b : String × Int} : branch? f u = some b ↔
    ∃ s, Branches f s u ∧ (s.id, u.location.first.line) = b := by
  constructor
  · intro h
    obtain ⟨s, hsource, hline⟩ := Option.bind_eq_some_iff.mp h
    unfold sourceOf? at hsource
    split at hsource
    · cases hsource
    · rename_i himport
      split at hline
      · rename_i hcounts
        rw [Bool.and_eq_true, Bool.or_eq_true, isConditional_eq, isLoop_eq] at hcounts
        exact ⟨s, ⟨by simpa using himport, hcounts.1, hsource, hcounts.2⟩, Option.some.inj hline⟩
      · cases hline
  · rintro ⟨s, h, rfl⟩
    have hsource : sourceOf? f u = some s := by
      rw [sourceOf?, if_neg (by simpa using h.notImport)]
      exact h.source
    have hcounts : (s.kind.isCallable && (isConditional u.context || isLoop u.context)) = true := by
      rw [Bool.and_eq_true, Bool.or_eq_true, isConditional_eq, isLoop_eq]
      exact ⟨h.callable, h.context⟩
    rw [branch?, hsource, Option.bind_eq_bind, Option.bind_some, if_pos hcounts]

section Distinct

variable (hids : ((files.flatMap (·.symbols)).map (·.id)).Nodup)
include hids

theorem mem_branches_iff (hf : f ∈ files) (hs : s ∈ f.symbols) {line : Int} :
    (s.id, line) ∈ branches f ↔ line ∈ branchLines f s := by
  rw [mem_branchLines, branches, List.mem_eraseDups, List.mem_filterMap]
  refine exists_congr fun u => and_congr_right fun _ => ?_
  rw [branch?_eq_some_iff]
  constructor
  · rintro ⟨t, h, heq⟩
    obtain ⟨hid, hline⟩ := Prod.mk.inj heq
    have hsame := declarations_inj hids (mem_declarations.mpr ⟨hf, mem_of_enclosing? h.source⟩)
      (mem_declarations.mpr ⟨hf, hs⟩) hid
    obtain rfl : t = s := congrArg Prod.snd hsame
    exact ⟨h, hline⟩
  · rintro ⟨h, rfl⟩
    exact ⟨s, h, rfl⟩

theorem countP_branches_eq_card (hf : f ∈ files) (hs : s ∈ f.symbols) :
    (branches f).countP (·.1 == s.id) = (branchLines f s).card := by
  have hnodup : (((branches f).filter (·.1 == s.id)).map (·.2)).Nodup :=
    nodup_map_snd_filter (nodup_eraseDups _)
  have hlines : (((branches f).filter (·.1 == s.id)).map (·.2)).toFinset = branchLines f s := by
    ext line
    rw [← mem_branches_iff hids hf hs]
    simp
  rw [← hlines, List.toFinset_card_of_nodup hnodup, List.length_map, List.countP_eq_length_filter]

/-- No other file has branches of the symbol. -/
theorem countP_branches_files (hf : f ∈ files) (hs : s ∈ f.symbols) :
    (files.flatMap branches).countP (·.1 == s.id) = (branchLines f s).card := by
  rw [← countP_branches_eq_card hids hf hs]
  obtain ⟨front, back, rfl⟩ := List.append_of_mem hf
  have hperm : (front ++ f :: back).Perm (f :: (front ++ back)) := List.perm_middle
  have hapart := ((hperm.flatMap_right (·.symbols)).map (·.id)).nodup_iff.mp hids
  rw [List.flatMap_cons, List.map_append] at hapart
  have hnone : ((front ++ back).flatMap branches).countP (·.1 == s.id) = 0 := by
    rw [List.countP_eq_zero]
    intro b hb hid
    obtain ⟨other, hother, hbranch⟩ := List.mem_flatMap.mp hb
    obtain ⟨t, ht, htid⟩ := source_of_mem_branches hbranch
    have htmem : t.id ∈ ((front ++ back).flatMap (·.symbols)).map (·.id) :=
      List.mem_map_of_mem (List.mem_flatMap.mpr ⟨other, hother, ht⟩)
    exact (List.nodup_append.mp hapart).2.2 s.id (List.mem_map_of_mem hs) t.id htmem
      ((beq_iff_eq.mp hid).symm.trans htid.symm)
  rw [(hperm.flatMap_right branches).countP_eq, List.flatMap_cons, List.countP_append, hnone, Nat.add_zero]

theorem complexities_eq : (build files).complexities =
    (declarations files).map fun d => (d.2.id, 1 + ((branchLines d.1 d.2).card : Int)) := by
  rw [complexities_build hids]
  refine List.map_congr_left fun d hd => ?_
  obtain ⟨hf, hs⟩ := mem_declarations.mp hd
  rw [withBranches, countP_branches_files hids hf hs]

end Distinct

/-- A file told again: the usages may come in another order, and may come again. -/
structure Retold (f f' : FileRecord) : Prop where
  symbols : f'.symbols = f.symbols
  usages : ∀ u, u ∈ f'.usages ↔ u ∈ f.usages

theorem Retold.branchLines_eq {f' : FileRecord} (h : Retold f f') : branchLines f' s = branchLines f s := by
  ext line
  rw [mem_branchLines, mem_branchLines]
  refine exists_congr fun u => and_congr (h.usages u) (and_congr_left fun _ => ?_)
  rw [branches_iff, branches_iff, h.symbols]

theorem Retold.declarations {files' : List FileRecord} (hretold : List.Forall₂ Retold files files') :
    files'.flatMap (·.symbols) = files.flatMap (·.symbols) ∧
      ((declarations files').map fun d => (d.2.id, 1 + ((branchLines d.1 d.2).card : Int))) =
        (declarations files).map fun d => (d.2.id, 1 + ((branchLines d.1 d.2).card : Int)) := by
  induction hretold with
  | nil => exact ⟨rfl, rfl⟩
  | @cons f f' rest rest' h _ ih =>
      refine ⟨by rw [List.flatMap_cons, List.flatMap_cons, h.symbols, ih.1], ?_⟩
      have hfirst (f : FileRecord) (rest : List FileRecord) :
          Build.declarations (f :: rest) = f.symbols.map (f, ·) ++ Build.declarations rest := List.flatMap_cons
      rw [hfirst, hfirst, List.map_append, List.map_append, ih.2, h.symbols, List.map_map, List.map_map]
      simp only [Function.comp_def, h.branchLines_eq]

theorem Retold.complexities_eq {files' : List FileRecord} (hretold : List.Forall₂ Retold files files')
    (hids : ((files.flatMap (·.symbols)).map (·.id)).Nodup) :
    (build files').complexities = (build files).complexities := by
  obtain ⟨hsymbols, hlines⟩ := Retold.declarations hretold
  rw [Build.complexities_eq hids, Build.complexities_eq (hsymbols ▸ hids), hlines]

/-! ## Lines in sets -/

/-- A usage is looked at: its line is noted if its source branches there, and its edge is added if its name means
anything. -/
def visitUsage (files : List FileRecord) (f : FileRecord)
    (state : SymbolGraph × Std.HashMap String (Std.HashSet Int)) (u : Usage) :
    SymbolGraph × Std.HashMap String (Std.HashSet Int) :=
  match sourceOf? f u with
  | none => state
  | some source =>
      let lines := if source.kind.isCallable &&
          (conditionalPattern.matchesText u.context || loopPattern.matchesText u.context) then
        note state.2 (source.id, u.location.first.line) else state.2
      match ofUsage? files f u with
      | none => (state.1, lines)
      | some l => ((state.1.addLink l).1, lines)

/-- Every node with the identifier becomes more complex by this much. -/
def raise (g : SymbolGraph) (id : String) (n : Nat) : SymbolGraph :=
  { g with nodes := g.nodes.map fun m =>
      if m.symbolId = id then
        { m with figures := { m.figures with complexity := m.figures.complexity + n } }
      else m }

/-- The nodes become more complex by the lines of their sets, one set after the other. -/
def raiseAll (lines : Std.HashMap String (Std.HashSet Int)) (ids : List String) (g : SymbolGraph) : SymbolGraph :=
  ids.foldl (fun g id => raise g id (lines.getD id ∅).size) g

theorem visitUsage_eq (files : List FileRecord) (f : FileRecord)
    (state : SymbolGraph × Std.HashMap String (Std.HashSet Int)) (u : Usage) : visitUsage files f state u =
      (addLinks state.1 (ofUsage? files f u).toList, (branch? f u).toList.foldl note state.2) := by
  unfold visitUsage
  cases hsource : sourceOf? f u with
  | none =>
      have hlink : ofUsage? files f u = none := by simp [ofUsage?, hsource]
      have hbranch : branch? f u = none := by simp [branch?, hsource]
      rw [hlink, hbranch]
      rfl
  | some source =>
      have hbranch : branch? f u = if source.kind.isCallable &&
          (conditionalPattern.matchesText u.context || loopPattern.matchesText u.context) then
            some (source.id, u.location.first.line) else none := by
        simp [branch?, hsource, isConditional_eq, isLoop_eq]
      rw [hbranch]
      dsimp only
      generalize (source.kind.isCallable &&
        (conditionalPattern.matchesText u.context || loopPattern.matchesText u.context)) = counts
      cases ofUsage? files f u <;> cases counts <;> rfl

theorem foldl_visitUsage (files : List FileRecord) (f : FileRecord) (usages : List Usage) (g : SymbolGraph)
    (lines : Std.HashMap String (Std.HashSet Int)) : usages.foldl (visitUsage files f) (g, lines) =
      (addLinks g (usages.filterMap (ofUsage? files f)), (usages.filterMap (branch? f)).foldl note lines) := by
  induction usages generalizing g lines with
  | nil => rfl
  | cons u rest ih =>
      rw [List.foldl_cons, visitUsage_eq, ih, List.filterMap_cons, List.filterMap_cons]
      cases ofUsage? files f u <;> cases branch? f u <;> rfl

theorem raiseAll_eq (lines : Std.HashMap String (Std.HashSet Int)) (ids : List String) (g : SymbolGraph) :
    raiseAll lines ids g = { g with nodes := g.nodes.map fun m => { m with figures := { m.figures with
      complexity := m.figures.complexity + (ids.count m.symbolId * (lines.getD m.symbolId ∅).size : Nat) } } } := by
  induction ids generalizing g with
  | nil => simp [raiseAll]
  | cons id rest ih =>
      have hrest : raiseAll lines (id :: rest) g = raiseAll lines rest (raise g id (lines.getD id ∅).size) := rfl
      rw [hrest, ih, raise]
      simp only [List.map_map]
      congr 1
      refine List.map_congr_left fun m _ => ?_
      by_cases hid : m.symbolId = id
      · simp [hid, Nat.add_mul, Int.add_assoc, Int.add_comm]
      · simp [hid, Ne.symm hid]

theorem raiseAll_foldl_note {ids : List String} {pairs : List (String × Int)}
    (hids : ids.Perm (pairs.foldl note (∅ : Std.HashMap String (Std.HashSet Int))).keys) (g : SymbolGraph) :
    raiseAll (pairs.foldl note ∅) ids g = addBranches g pairs.eraseDups := by
  have hnodup : ids.Nodup := hids.nodup_iff.mpr Std.HashMap.nodup_keys
  have hcount (id : String) :
      ids.count id * (pairs.eraseDups.countP (·.1 == id)) = pairs.eraseDups.countP (·.1 == id) := by
    by_cases hmem : id ∈ ids
    · rw [List.count_eq_one_of_mem hnodup hmem, Nat.one_mul]
    · rw [hids.mem_iff, Std.HashMap.mem_keys, mem_foldl_note] at hmem
      have hnone : pairs.eraseDups.countP (·.1 == id) = 0 := by
        rw [List.countP_eq_zero]
        intro pair hpair hid
        have hfirst : pair.1 = id := beq_iff_eq.mp hid
        exact hmem (.inr (List.mem_map.mpr ⟨pair, List.mem_eraseDups.mp hpair, hfirst⟩))
      rw [hnone, Nat.mul_zero]
  simp only [raiseAll_eq, size_getD_foldl_note, hcount]
  rfl

/-- The complexity of a symbol is one more than the number of its lines, whatever its usages mean. Telling
usages in another order or more than once changes nothing, and it is the same to note lines in sets while edges
are added and to count the sets afterwards, in any order. -/
theorem complexity_counts_branch_lines (hids : ((files.flatMap (·.symbols)).map (·.id)).Nodup) :
    (build files).complexities =
      ((declarations files).map fun d => (d.2.id, 1 + ((branchLines d.1 d.2).card : Int))) ∧
    (∀ f s line, line ∈ branchLines f s ↔ ∃ u ∈ f.usages, Branches f s u ∧ u.location.first.line = line) ∧
    (∀ files', List.Forall₂ Retold files files' → (build files').complexities = (build files).complexities) ∧
    ∀ (f : FileRecord) (g : SymbolGraph) (ids : List String),
      let visited := f.usages.foldl (visitUsage files f) (g, ∅)
      ids.Perm visited.2.keys → raiseAll visited.2 ids visited.1 =
        addBranches (addLinks g (f.usages.filterMap (ofUsage? files f))) (branches f) := by
  refine ⟨complexities_eq hids, fun f s line => mem_branchLines, fun files' hretold => ?_, fun f g ids => ?_⟩
  · exact Retold.complexities_eq hretold hids
  · intro visited hkeys
    have hvisited : visited = _ := foldl_visitUsage files f f.usages g ∅
    rw [hvisited] at hkeys ⊢
    exact raiseAll_foldl_note hkeys _

/-- A function with a variable in it. -/
def branchyFunction : Symbol := ⟨"m", "f", "main", .function, ⟨1, 0⟩, ⟨9, 1⟩, "", "", "", []⟩

def branchyVariable : Symbol := ⟨"x", "f", "x", .var, ⟨2, 2⟩, ⟨2, 20⟩, "", "", "", []⟩

/-- Two names on one line of which nothing is known, a loop, an import, a word that only contains another, and a
choice within the variable. -/
def branchyUsages : List Usage :=
  [⟨"a", ⟨"f", ⟨3, 4⟩, ⟨3, 5⟩⟩, .call, "if a() ? b : c"⟩,
    ⟨"b", ⟨"f", ⟨3, 9⟩, ⟨3, 10⟩⟩, .reference, "if a() ? b : c"⟩,
    ⟨"main", ⟨"f", ⟨5, 6⟩, ⟨5, 10⟩⟩, .call, "for { main() }"⟩,
    ⟨"p", ⟨"f", ⟨6, 0⟩, ⟨6, 1⟩⟩, .importing, "if p"⟩,
    ⟨"x", ⟨"f", ⟨7, 9⟩, ⟨7, 10⟩⟩, .reference, "notify(x)"⟩,
    ⟨"y", ⟨"f", ⟨2, 9⟩, ⟨2, 10⟩⟩, .reference, "x = y ? 1 : 2"⟩]

def branchy (usages : List Usage) : FileRecord := ⟨"f", "p", [branchyFunction, branchyVariable], [], usages⟩

theorem branchy_function_counts_two_lines :
    (([branchy branchyUsages].flatMap (·.symbols)).map (·.id)).Nodup ∧
      List.Forall₂ Retold [branchy branchyUsages] [branchy (branchyUsages.reverse ++ branchyUsages)] ∧
      (build [branchy (branchyUsages.reverse ++ branchyUsages)]).complexities = [("m", 3), ("x", 1)] := by
  have hids : (([branchy branchyUsages].flatMap (·.symbols)).map (·.id)).Nodup := by decide
  have hretold : List.Forall₂ Retold [branchy branchyUsages] [branchy (branchyUsages.reverse ++ branchyUsages)] :=
    .cons ⟨rfl, fun u => by simp [branchy]⟩ .nil
  obtain ⟨hcounts, -, hagain, -⟩ := complexity_counts_branch_lines hids
  have hcard {s : Symbol} (hs : s ∈ (branchy branchyUsages).symbols) :=
    countP_branches_eq_card hids List.mem_cons_self hs
  have hfunction : (branchLines (branchy branchyUsages) branchyFunction).card = 2 :=
    (hcard List.mem_cons_self).symm.trans (by decide)
  have hvariable : (branchLines (branchy branchyUsages) branchyVariable).card = 0 :=
    (hcard (List.mem_cons_of_mem _ List.mem_cons_self)).symm.trans (by decide)
  refine ⟨hids, hretold, ?_⟩
  have hdeclared : declarations [branchy branchyUsages] =
      [(branchy branchyUsages, branchyFunction), (branchy branchyUsages, branchyVariable)] := rfl
  rw [hagain _ hretold, hcounts, hdeclared, List.map_cons, List.map_cons, List.map_nil, hfunction, hvariable]
  rfl

end Build

end CodeAtlas
