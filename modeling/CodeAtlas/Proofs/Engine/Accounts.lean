import CodeAtlas.Proofs.Engine.Again
import Mathlib.Algebra.BigOperators.Group.List.Lemmas

/-!
# What a run reports

Each file that a walk comes to is counted once: it is not accepted, or it is too large or binary, or it
comes out as indexed, unchanged or failed. The files of a project after a run are those that were staged:
one for each that was indexed or is unchanged, and one for each that failed and was known before. If the
index had just the files of memory before the run, then it has just the staged ones after it.
-/

namespace CodeAtlas

/-! ## Totals -/

theorem total_eq_sum (counts : List Nat) : total counts = counts.sum := List.sum_eq_foldl.symm

theorem signedTotal_eq_sum (numbers : List Int) : signedTotal numbers = numbers.sum :=
  List.sum_eq_foldl.symm

/-- What is counted under a name. -/
def countOf (name : String) (counts : List (String × Nat)) : Nat := (counts.lookup name).getD 0

theorem countOf_tally (name : String) (names : List String) :
    countOf name (tally names) = names.count name := by
  have hlookup (keys : List String) : (keys.map fun key => (key, names.count key)).lookup name =
      if name ∈ keys then some (names.count name) else none := by
    induction keys with
    | nil => rfl
    | cons key rest ih =>
        rw [List.map_cons, List.lookup_cons, ih]
        by_cases hkey : name = key
        · simp [hkey]
        · simp [hkey, beq_false_of_ne hkey]
  unfold countOf tally
  rw [hlookup]
  split
  · rfl
  · rename_i hnone
    exact (List.count_eq_zero.mpr fun hname => hnone (List.mem_eraseDups.mpr hname)).symm

theorem total_tally (names : List String) : total ((tally names).map Prod.snd) = names.length := by
  have hkeys : names.eraseDups.Perm names.dedup :=
    (List.perm_ext_iff_of_nodup (nodup_eraseDups _) (List.nodup_dedup _)).mpr fun name => by
      rw [List.mem_eraseDups, List.mem_dedup]
  rw [total_eq_sum]
  unfold tally
  rw [List.map_map, (hkeys.map _).sum_eq]
  exact List.sum_map_count_dedup_eq_length names

namespace Run

variable {S : Setting} {r : Run} {answer : ParseRequest → Except TooLarge ParseResult}
  {candidates : List Candidate} {skipped : Nat} {s : RunState} {now : Instant}

/-! ## Candidates -/

theorem count_cons (r : Run) (answer : ParseRequest → Except TooLarge ParseResult)
    (kind : Outcome → Bool) (c : Candidate) (rest : List Candidate) :
    r.count answer kind (c :: rest) =
      (kind (r.outcomeOf answer c)).toNat + r.count answer kind rest := by
  unfold count
  rw [List.countP_cons, Nat.add_comm]
  cases kind (r.outcomeOf answer c) <;> rfl

/-- Each candidate comes out in one way. -/
theorem count_all (r : Run) (answer : ParseRequest → Except TooLarge ParseResult)
    (candidates : List Candidate) :
    r.count answer Outcome.isIndexed candidates + r.count answer Outcome.isUnchanged candidates +
      r.count answer Outcome.isFailed candidates + r.count answer Outcome.isSkipped candidates =
        candidates.length := by
  induction candidates with
  | nil => rfl
  | cons c rest ih =>
      have hone : ∀ o : Outcome, o.isIndexed.toNat + o.isUnchanged.toNat + o.isFailed.toNat +
          o.isSkipped.toNat = 1 := fun o => by cases o <;> rfl
      have hway := hone (r.outcomeOf answer c)
      rw [count_cons, count_cons, count_cons, count_cons, List.length_cons]
      omega

/-- The file could not be read, and its previous version is kept. -/
def keepsOld (r : Run) (answer : ParseRequest → Except TooLarge ParseResult) (c : Candidate) : Bool :=
  (r.outcomeOf answer c).isFailed && !r.isFresh && (r.prior? (r.idOf c)).isSome

theorem length_entries (r : Run) (answer : ParseRequest → Except TooLarge ParseResult)
    (c : Candidate) : ((r.outcomeOf answer c).entries r c).length =
      (r.outcomeOf answer c).isIndexed.toNat + (r.outcomeOf answer c).isUnchanged.toNat +
        (r.keepsOld answer c).toNat := by
  unfold keepsOld
  cases r.outcomeOf answer c with
  | failed message =>
      simp only [Outcome.entries, Outcome.isIndexed, Outcome.isUnchanged, Outcome.isFailed]
      cases r.isFresh with
      | true => rfl
      | false => cases r.prior? (r.idOf c) <;> rfl
  | _ => rfl

theorem length_entriesOf (r : Run) (answer : ParseRequest → Except TooLarge ParseResult)
    (candidates : List Candidate) : (r.entriesOf answer candidates).length =
      r.count answer Outcome.isIndexed candidates + r.count answer Outcome.isUnchanged candidates +
        candidates.countP (r.keepsOld answer) := by
  induction candidates with
  | nil => rfl
  | cons c rest ih =>
      have hlength : (r.entriesOf answer (c :: rest)).length =
          ((r.outcomeOf answer c).entries r c).length + (r.entriesOf answer rest).length :=
        List.length_append
      have hkept : (c :: rest).countP (r.keepsOld answer) =
          (r.keepsOld answer c).toNat + rest.countP (r.keepsOld answer) := by
        rw [List.countP_cons, Nat.add_comm]
        cases r.keepsOld answer c <;> rfl
      rw [hlength, length_entries, ih, count_cons, count_cons, hkept]
      omega

theorem length_filterMap_le_countP {α β : Type} {f : α → Option β} {p : α → Bool}
    (hf : ∀ a b, f a = some b → p a = true) (l : List α) : (l.filterMap f).length ≤ l.countP p := by
  induction l with
  | nil => simp
  | cons a rest ih =>
      rw [List.countP_cons]
      cases ha : f a with
      | none =>
          rw [List.filterMap_cons_none ha]
          omega
      | some b =>
          rw [List.filterMap_cons_some ha, List.length_cons, if_pos (hf a b ha)]
          omega

/-- A walk counts what it does not accept and what it cannot read. -/
theorem visited_of_discover {tree : FileTree} {caller : Caller} {classifier : Classifier}
    {root : String} (h : discover tree caller classifier root = .ok (candidates, skipped)) :
    ∃ base, tree.placeOf false root = .ok base ∧ skipped + candidates.length =
      ((visited tree classifier base).filter fun rel => isFile (tree.node? (base ++ rel))).length +
        (unreadable tree classifier base).length := by
  obtain ⟨base, hbase, -, hfound⟩ := found_of_discover h
  obtain ⟨rfl, rfl⟩ := Prod.mk.inj hfound
  have hfiles := length_filterMap_le_countP (p := fun rel => isFile (tree.node? (base ++ rel)))
    (f := candidate? tree classifier root base)
    (fun rel c hc => by
      rw [(Candidate.candidate?_eq_some hc).1]
      rfl) (visited tree classifier base)
  rw [List.countP_eq_length_filter] at hfiles
  refine ⟨base, hbase, ?_⟩
  omega

end Run

namespace WriteOp

variable {now : Instant} {rows : List DocumentRow}

theorem foldl_deleteFile_onRows (ids : List String) (rows : List DocumentRow) :
    (ids.map deleteFile).foldl (onRows now) rows =
      rows.filter fun row => !ids.contains row.file.id := by
  induction ids generalizing rows with
  | nil => simp
  | cons id rest ih =>
      rw [List.map_cons, List.foldl_cons, ih, onRows, List.filter_filter]
      refine List.filter_congr fun row _ => ?_
      rw [List.contains_cons, Bool.not_or, Bool.and_comm]
      rfl

end WriteOp

namespace Run

variable {r : Run} {answer : ParseRequest → Except TooLarge ParseResult} {c : Candidate}
  {candidates : List Candidate} {s : RunState} {puts : List Document} {erased : List String}
  {updated : Project} {now : Instant} {db db' : Database} {id : String}

/-- The documents of a project after a run: those that it put, and, unless it was a fresh one, those that
were there; but for those that it erased. -/
theorem mem_ids_of_queued (h : (r.queued puts erased updated).foldlM (·.write now) db = .ok db')
    (hown : ∀ d ∈ puts, d.file.projectId = r.project.id)
    (hfiles : (puts.map (·.file.id)).Nodup) :
    id ∈ (db'.documentsOf r.project.id).map (·.file.id) ↔
      ((r.isFresh = false ∧ id ∈ (db.documentsOf r.project.id).map (·.file.id)) ∨
        id ∈ puts.map (·.file.id)) ∧ id ∉ erased := by
  have hids (db : Database) : (db.documentsOf r.project.id).map (·.file.id) =
      (db.rows.filter (·.file.projectId == r.project.id)).map (·.file.id) := by
    unfold Database.documentsOf Database.rows
    rw [List.filter_map, List.map_map]
    rfl
  have hclear (rows : List DocumentRow) :
      (if r.isFresh then [WriteOp.deleteProjectDocuments r.project.id] else []).foldl
        (WriteOp.onRows now) rows =
      rows.filter fun row => !(r.isFresh && row.file.projectId == r.project.id) := by
    cases r.isFresh with
    | true => rfl
    | false => simp
  rw [hids, hids, (Database.rows_writeAll h).1]
  unfold queued
  rw [List.foldl_append, List.foldl_append, List.foldl_append, hclear, WriteOp.foldl_put hfiles,
    WriteOp.foldl_deleteFile_onRows]
  have hput (d : Document) : (DocumentRow.ofDocument (Database.stamped now d)).file.id = d.file.id ∧
      (DocumentRow.ofDocument (Database.stamped now d)).file.projectId = d.file.projectId :=
    ⟨Database.stamped_id now d, Database.stamped_projectId now d⟩
  simp only [List.foldl_cons, List.foldl_nil, WriteOp.onRows, List.mem_map, List.mem_filter,
    List.mem_append, Bool.not_eq_true', List.contains_eq_mem, decide_eq_false_iff_not, beq_iff_eq]
  constructor
  · rintro ⟨row, ⟨⟨⟨⟨hrow, hstays⟩, -⟩ | ⟨d, hd, rfl⟩, hleft⟩, hmine⟩, rfl⟩
    · refine ⟨.inl ⟨?_, row, ⟨hrow, hmine⟩, rfl⟩, hleft⟩
      simpa [hmine] using hstays
    · exact ⟨.inr ⟨d, hd, (hput d).1.symm⟩, hleft⟩
  · rintro ⟨hthere, hleft⟩
    -- a document that is put takes the place of the one that was there
    by_cases hnew : ∃ d ∈ puts, d.file.id = id
    · obtain ⟨d, hd, rfl⟩ := hnew
      rw [← (hput d).1] at hleft
      exact ⟨_, ⟨⟨.inr ⟨d, hd, rfl⟩, hleft⟩, (hput d).2.trans (hown d hd)⟩, (hput d).1⟩
    · obtain ⟨hfresh, row, ⟨hrow, hmine⟩, rfl⟩ := hthere.resolve_right hnew
      exact ⟨row, ⟨⟨.inl ⟨⟨hrow, by simp [hfresh]⟩, hnew⟩, hleft⟩, hmine⟩, rfl⟩

theorem Judges.put {o : Outcome} (h : r.Judges answer c o) {d : Document} (hd : d ∈ o.documents c) :
    d.file.projectId = r.project.id ∧ ∃ f ∈ o.entries r c, f.file.id = d.file.id := by
  cases h with
  | indexed hopens hknown hanswer =>
      obtain rfl := List.mem_singleton.mp hd
      exact ⟨rfl, _, List.mem_singleton_self _, rfl⟩
  | _ => simp [Outcome.documents] at hd

theorem Judges.origin {o : Outcome} (h : r.Judges answer c o) {f : FileEntry}
    (hf : f ∈ o.entries r c) : (∃ d ∈ o.documents c, d.file.id = f.file.id) ∨
      r.isFresh = false ∧ ∃ g ∈ r.prior, g.file.id = f.file.id := by
  cases h with
  | skipped => simp [Outcome.entries] at hf
  | kept hopens hknown =>
      obtain rfl := List.mem_singleton.mp hf
      obtain ⟨hprior, hfresh, -⟩ := prior?_of_known? hknown
      exact .inr ⟨hfresh, f, List.mem_of_find?_eq_some hprior, rfl⟩
  | refused | failed =>
      obtain ⟨hfresh, hprior⟩ := prior_of_failed hf
      exact .inr ⟨hfresh, f, hprior, rfl⟩
  | reread hopens hknown =>
      obtain rfl := List.mem_singleton.mp hf
      obtain ⟨hprior, hfresh, -⟩ := prior?_of_known? hknown
      exact .inr ⟨hfresh, _, List.mem_of_find?_eq_some hprior, rfl⟩
  | indexed =>
      obtain rfl := List.mem_singleton.mp hf
      exact .inl ⟨_, List.mem_singleton_self _, rfl⟩

/-- If the index had the files that were known before, then it has those that are staged afterwards. -/
theorem mem_ids_of_staged (h : (r.queued (r.documentsOf answer candidates) (r.erased s)
      updated).foldlM (·.write now) db = .ok db')
    (hdistinct : (candidates.map r.idOf).Nodup) (hstaged : s.staged = r.entriesOf answer candidates)
    (id : String) (hprior : (∃ f ∈ r.prior, f.file.id = id) ↔
      id ∈ (db.documentsOf r.project.id).map (·.file.id)) :
    id ∈ (db'.documentsOf r.project.id).map (·.file.id) ↔ ∃ f ∈ s.staged, f.file.id = id := by
  have hput : ∀ d ∈ r.documentsOf answer candidates, d.file.projectId = r.project.id ∧
      ∃ f ∈ s.staged, f.file.id = d.file.id := by
    intro d hd
    obtain ⟨c, hc, hd⟩ := List.mem_flatMap.mp hd
    obtain ⟨hown, f, hf, hid⟩ := (r.judges_outcomeOf answer c).put hd
    exact ⟨hown, f, hstaged ▸ List.mem_flatMap.mpr ⟨c, hc, hf⟩, hid⟩
  rw [mem_ids_of_queued h (fun d hd => (hput d hd).1) (nodup_documentsOf hdistinct), ← hprior,
    mem_erased, mem_stale, List.mem_map]
  constructor
  · rintro ⟨⟨hfresh, hknown⟩ | ⟨d, hd, rfl⟩, hleft⟩
    · by_contra hgone
      push Not at hgone
      exact hleft ⟨hfresh, hknown, hgone⟩
    · exact (hput d hd).2
  · rintro ⟨f, hf, rfl⟩
    refine ⟨?_, fun ⟨_, _, hgone⟩ => hgone f hf rfl⟩
    rw [hstaged] at hf
    obtain ⟨c, hc, hf⟩ := List.mem_flatMap.mp hf
    obtain ⟨d, hd, hid⟩ | hknown := (r.judges_outcomeOf answer c).origin hf
    · exact .inr ⟨d, List.mem_flatMap.mpr ⟨c, hc, hd⟩, hid⟩
    · exact .inl hknown

end Run

namespace Engine

/-- The engine's files of the project are those of its documents in the index. -/
def Reflects (e : Engine) (id : String) : Prop :=
  ((e.projectFiles id).map (·.file.id)).Perm ((e.index.database.documentsOf id).map (·.file.id))

/-- The figures are those of the files. -/
structure Totals (figures : RunFigures) (held : List FileEntry) : Prop where
  files : figures.files = held.length
  lines : figures.lines = wrap64 (signedTotal (held.map (·.file.lineCount)))
  symbols : figures.symbols = total (held.map (·.symbols.length))
  references : figures.references = total (held.map (·.references.length))
  languages : ∀ name, countOf name figures.languages =
    (held.map (·.file.language.name)).count name
  fileTypes : ∀ name, countOf name figures.fileTypes =
    (held.map (·.file.fileType.name)).count name

/-- What a run reports is true of what it came to, and of what the engine and the index have after it. -/
structure Accounts (answer : ParseRequest → Except TooLarge ParseResult) (e e' : Engine)
    (tree : FileTree) (projectId : String) (figures : RunFigures) (r : Run)
    (candidates : List Candidate) : Prop where
  visited : ∃ classifier base,
    Run.loadRules tree e.ignore r.project.rootPath = .ok (r.ignore, classifier) ∧
    tree.placeOf false r.project.rootPath = .ok base ∧
    figures.filesIndexed + figures.filesUnchanged + figures.filesFailed + figures.filesSkipped =
      ((Run.visited tree classifier base).filter fun rel =>
        Run.isFile (tree.node? (base ++ rel))).length + (Run.unreadable tree classifier base).length
  documents : figures.files = (e'.index.database.documentsOf projectId).length
  files : figures.files = figures.filesIndexed + figures.filesUnchanged +
    candidates.countP (r.keepsOld answer)
  fresh : r.isFresh = true → candidates.countP (r.keepsOld answer) = 0
  removed : figures.filesRemoved = ((e.projectFiles projectId).countP fun f =>
    !(e'.projectFiles projectId).any (·.file.id == f.file.id))
  totals : Totals figures (e'.projectFiles projectId)
  languages : total (figures.languages.map Prod.snd) = figures.files
  fileTypes : total (figures.fileTypes.map Prod.snd) = figures.files
  reflects : e'.Reflects projectId

variable {S : Setting} {N : Naming} {e e' : Engine} {docs : List Document} {entries : List FileEntry}
  {tree : FileTree} {caller : Caller} {now : Instant} {isFresh : Bool} {projectId : String}
  {figures : RunFigures} {r : Run} {candidates : List Candidate} {skipped : Nat} {s : RunState}

/-- Figures depend on nothing of the files but what their documents have. -/
theorem Totals.of_documents {held held' : List FileEntry} (h : Totals figures held)
    (hsame : (held.map FileEntry.document).Perm (held'.map FileEntry.document)) :
    Totals figures held' := by
  have hmap {α : Type} (get : FileEntry → α) (read : Document → α)
      (hread : ∀ f, read (FileEntry.document f) = get f) : (held.map get).Perm (held'.map get) := by
    obtain rfl : read ∘ FileEntry.document = get := funext hread
    rw [← List.map_map, ← List.map_map]
    exact hsame.map read
  have hlines := hmap (·.file.lineCount) (·.file.lineCount) fun _ => rfl
  have hsymbols := hmap (·.symbols.length) (·.symbols.length) fun _ => rfl
  have hreferences := hmap (·.references.length) (·.references.length) fun _ => rfl
  have hlanguages := hmap (·.file.language.name) (·.file.language.name) fun _ => rfl
  have hfileTypes := hmap (·.file.fileType.name) (·.file.fileType.name) fun _ => rfl
  constructor
  · rw [h.files]
    simpa using hsame.length_eq
  · rw [h.lines, signedTotal_eq_sum, signedTotal_eq_sum, hlines.sum_eq]
  · rw [h.symbols, total_eq_sum, total_eq_sum, hsymbols.sum_eq]
  · rw [h.references, total_eq_sum, total_eq_sum, hreferences.sum_eq]
  · exact fun name => (h.languages name).trans (hlanguages.count_eq name)
  · exact fun name => (h.fileTypes name).trans (hfileTypes.count_eq name)

theorem totals_figures (r : Run) (s : RunState) : Totals (r.figures s) s.staged :=
  ⟨rfl, rfl, rfl, rfl, fun name => countOf_tally name _, fun name => countOf_tally name _⟩

theorem Orderly.rows_distinct (h : e.Orderly N docs entries) (id : String) :
    ((e.index.database.documentsOf id).map (·.file.id)).Nodup := by
  have hids := forall₂_map_eq h.keeps.rows (f := (·.file.id)) (g := (·.file.id))
    fun row d hrow => congrArg IndexedFile.id hrow.file
  have hdistinct := h.keeps.files
  rw [← hids] at hdistinct
  exact hdistinct.sublist (List.filter_sublist.map _)

theorem Ran.reflects (h : Ran e e' tree caller now isFresh projectId figures r candidates skipped s)
    (hordered : e'.Orderly N docs entries) (hsound : e.parser.Sound S)
    (hcovers : S.Covers tree projectId) (hsteady : S.Steady caller) (hreflects : e.Reflects projectId) :
    e'.Reflects projectId := by
  obtain ⟨htallies, hindex⟩ := h.tallies hsound hcovers hsteady
  obtain ⟨ops, hops, hwritten⟩ := h.commits
  have hids := (h.starts.named hcovers.naming).ids
  obtain ⟨-, hid⟩ := project?_eq_some h.starts.known
  obtain rfl : ops = _ := Option.some.inj (congrArg Index.queue (hops.symm.trans hindex))
  have hstaged : (s.staged.map (·.file.id)).Nodup := htallies.staged ▸ Run.nodup_entriesOf hids
  unfold Reflects
  refine (h.files_perm.map _).trans ?_
  refine (List.perm_ext_iff_of_nodup hstaged (hordered.rows_distinct projectId)).mpr fun id => ?_
  have hsame := Run.mem_ids_of_staged hwritten hids htallies.staged id
  rw [hid, h.starts.prior] at hsame
  rw [hsame, List.mem_map]
  rw [← hreflects.mem_iff, List.mem_map]

theorem length_stale (h : s.staged.Perm (e'.projectFiles projectId))
    (hprior : r.prior = e.projectFiles projectId) : (r.stale s).length =
      (e.projectFiles projectId).countP fun f =>
        !(e'.projectFiles projectId).any (·.file.id == f.file.id) := by
  unfold Run.stale
  rw [(List.mergeSort_perm _ _).length_eq, ← List.countP_eq_length_filter, List.countP_map, hprior]
  refine List.countP_congr fun f _ => ?_
  simp only [Function.comp_apply, Bool.not_eq_true', List.any_eq_false, h.mem_iff]

/-- What a run reports accounts for all that it has come to. -/
theorem Ran.accounts (h : Ran e e' tree caller now isFresh projectId figures r candidates skipped s)
    (hordered : e'.Orderly N docs entries) (hsound : e.parser.Sound S)
    (hcovers : S.Covers tree projectId) (hsteady : S.Steady caller) (hreflects : e.Reflects projectId) :
    Accounts S.parse e e' tree projectId figures r candidates := by
  obtain ⟨htallies, -⟩ := h.tallies hsound hcovers hsteady
  obtain ⟨classifier, hrules, hdiscover⟩ := h.starts.found
  obtain ⟨base, hbase, hvisited⟩ := Run.visited_of_discover hdiscover
  have hreflects' := h.reflects hordered hsound hcovers hsteady hreflects
  have hindexed : figures.filesIndexed = r.count S.parse Outcome.isIndexed candidates := by
    rw [h.figures, ← htallies.indexed]
    rfl
  have hunchanged : figures.filesUnchanged = r.count S.parse Outcome.isUnchanged candidates := by
    rw [h.figures, ← htallies.unchanged]
    rfl
  have hfailed : figures.filesFailed = r.count S.parse Outcome.isFailed candidates := by
    rw [h.figures, ← htallies.failed]
    rfl
  have hskipped : figures.filesSkipped = skipped + r.count S.parse Outcome.isSkipped candidates := by
    rw [h.figures, ← htallies.skipped]
    rfl
  have hfiles : figures.files = s.staged.length := by
    rw [h.figures]
    rfl
  refine ⟨⟨classifier, base, ?_, hbase, ?_⟩, ?_, ?_, ?_, ?_, ?_, ?_, ?_, hreflects'⟩
  · exact hrules
  · rw [← hvisited, hindexed, hunchanged, hfailed, hskipped, ← Run.count_all r S.parse candidates]
    omega
  · rw [hfiles, ← h.files_perm.length_eq]
    simpa using hreflects'.length_eq
  · rw [hfiles, htallies.staged, hindexed, hunchanged, Run.length_entriesOf]
  · intro hfresh
    exact List.countP_eq_zero.mpr fun c _ => by simp [Run.keepsOld, hfresh]
  · rw [h.figures]
    exact length_stale h.files_perm.symm h.starts.prior
  · rw [h.figures]
    exact (totals_figures r s).of_documents (h.files_perm.symm.map _)
  · rw [h.figures]
    exact (total_tally _).trans (List.length_map _)
  · rw [h.figures]
    exact (total_tally _).trans (List.length_map _)

end Engine

end CodeAtlas
