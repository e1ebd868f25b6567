import CodeAtlas.Proofs.Engine.Neighbours
import CodeAtlas.Proofs.Engine.Tallies

/-!
# Indexing once more

What a run has staged for a candidate, the next one finds as what is known of it, and stages it again: an
entry that was read is kept, whether it was new or not; a file that could not be read fails again and keeps
the version that it had, if any; what was skipped is skipped again. So a run on the same tree after one
that succeeded writes and deletes nothing, however often it or calls for other projects have failed in
between.
-/

namespace CodeAtlas

/-- What comes of a candidate the next time. -/
def Outcome.again : Outcome → Outcome
  | indexed f => unchanged f
  | o => o

namespace Run

variable {r r' : Run} {answer : ParseRequest → Except TooLarge ParseResult} {c : Candidate}
  {candidates : List Candidate}

theorem toList_head?_entries (r : Run) (c : Candidate) (o : Outcome) :
    (o.entries r c).head?.toList = o.entries r c := by
  cases o with
  | failed message =>
      simp only [Outcome.entries]
      split
      · rfl
      · cases r.prior? (r.idOf c) <;> rfl
  | _ => rfl

/-- A run of the same project that starts with what another one has staged. -/
structure Follows (r' r : Run) (answer : ParseRequest → Except TooLarge ParseResult)
    (candidates : List Candidate) : Prop where
  id : r'.project.id = r.project.id
  ignore : r'.ignore = r.ignore
  fresh : r'.isFresh = false
  prior : r'.prior.Perm (r.entriesOf answer candidates)

theorem Follows.prior? (h : r'.Follows r answer candidates)
    (hdistinct : (candidates.map r.idOf).Nodup) (hc : c ∈ candidates) :
    r'.prior? (r.idOf c) = ((r.outcomeOf answer c).entries r c).head? := by
  have hids : (r'.prior.map (·.file.id)).Nodup :=
    (h.prior.map _).nodup_iff.mpr (nodup_entriesOf hdistinct)
  have hid := (id_of_outcomeOf r answer c).1
  cases hentries : (r.outcomeOf answer c).entries r c with
  | nil =>
      -- an entry with the identifier of the candidate would have been staged for it
      refine List.find?_eq_none.mpr fun g hg hsame => ?_
      obtain ⟨c', hc', hgives⟩ := List.mem_flatMap.mp (h.prior.mem_iff.mp hg)
      have hgid := (id_of_outcomeOf r answer c').1 g hgives
      have hcandidate := List.inj_on_of_nodup_map hdistinct hc' hc
        (hgid.symm.trans (beq_iff_eq.mp hsame))
      rw [hcandidate, hentries] at hgives
      simp at hgives
  | cons f rest =>
      have hstaged : f ∈ (r.outcomeOf answer c).entries r c := by simp [hentries]
      have hf : f ∈ r'.prior := h.prior.mem_iff.mpr (List.mem_flatMap.mpr ⟨c, hc, hstaged⟩)
      have hfid := hid f hstaged
      exact find?_key_of_mem hids hf hfid

/-- Each candidate comes out as before, but for those that were new. -/
theorem Follows.outcomeOf (h : r'.Follows r answer candidates)
    (hdistinct : (candidates.map r.idOf).Nodup) (hc : c ∈ candidates) :
    r'.outcomeOf answer c = (r.outcomeOf answer c).again := by
  have hprior := h.prior? hdistinct hc
  have hidOf : r'.idOf c = r.idOf c := by
    unfold idOf
    rw [h.id]
  have hrequest : c.request r'.project.id = c.request r.project.id := by rw [h.id]
  have hread {f : FileEntry} (hopens : c.Opens r.ignore) (hfound : r'.prior? (r.idOf c) = some f)
      (hsum : f.file.checksum = checksum c.content) (hused : f.usages.isSome = true) :
      r'.outcomeOf answer c = .unchanged f := by
    rw [← h.ignore] at hopens
    rw [← hidOf] at hfound
    exact outcomeOf_of_read hopens (known?_eq_some h.fresh hfound hsum) hused
  generalize hout : r.outcomeOf answer c = o at hprior
  cases hout ▸ r.judges_outcomeOf answer c with
  | refused hrefused =>
      exact r'.outcomeOf_of_unparsed? answer (unparsed?_of_refused (h.ignore ▸ hrefused))
  | skipped hgiven hfits =>
      exact r'.outcomeOf_of_unparsed? answer
        (unparsed?_of_skipped (h.ignore ▸ hgiven) (h.ignore ▸ hfits))
  | kept hopens hknown hused =>
      exact hread hopens hprior (prior?_of_known? hknown).2.2 hused
  | reread hopens hknown hunread hanswer =>
      exact hread hopens hprior (prior?_of_known? hknown).2.2 rfl
  | indexed hopens hknown hanswer => exact hread hopens hprior rfl rfl
  | @failed e hopens hunread hanswer =>
      -- what was known of the file has stayed, so it is as unread as it was, and the parser is asked again
      have hunread' : ∀ f, r'.known? c = some f → f.usages = none := by
        intro f hknown
        obtain ⟨hfound, -, hsum⟩ := prior?_of_known? hknown
        rw [hidOf, hprior] at hfound
        by_cases hfresh : r.isFresh = true
        · simp [Outcome.entries, hfresh] at hfound
        · have hold : r.prior? (r.idOf c) = some f := by
            simpa [Outcome.entries, hfresh] using hfound
          exact hunread f (known?_eq_some (by simpa using hfresh) hold hsum)
      rw [outcomeOf_of_unread (h.ignore ▸ hopens) hunread', hrequest, hanswer]
      rfl

theorem Follows.entries (h : r'.Follows r answer candidates)
    (hdistinct : (candidates.map r.idOf).Nodup) (hc : c ∈ candidates) :
    (r'.outcomeOf answer c).entries r' c = (r.outcomeOf answer c).entries r c := by
  have hprior := h.prior? hdistinct hc
  have hidOf : r'.idOf c = r.idOf c := by
    unfold idOf
    rw [h.id]
  rw [h.outcomeOf hdistinct hc]
  cases hout : r.outcomeOf answer c with
  | failed message =>
      rw [hout] at hprior
      have hagain : ((Outcome.failed message).again).entries r' c = (r'.prior? (r'.idOf c)).toList := by
        simp [Outcome.again, Outcome.entries, h.fresh]
      rw [hagain, hidOf, hprior, toList_head?_entries]
  | _ => rfl

theorem Follows.entriesOf_eq (h : r'.Follows r answer candidates)
    (hdistinct : (candidates.map r.idOf).Nodup) :
    r'.entriesOf answer candidates = r.entriesOf answer candidates :=
  List.flatMap_congr fun _ hc => h.entries hdistinct hc

theorem Follows.documentsOf_eq (h : r'.Follows r answer candidates)
    (hdistinct : (candidates.map r.idOf).Nodup) : r'.documentsOf answer candidates = [] := by
  refine List.flatMap_eq_nil_iff.mpr fun c hc => ?_
  rw [h.outcomeOf hdistinct hc]
  cases r.outcomeOf answer c <;> rfl

theorem Follows.errorsOf_eq (h : r'.Follows r answer candidates)
    (hdistinct : (candidates.map r.idOf).Nodup) :
    r'.errorsOf answer candidates = r.errorsOf answer candidates := by
  refine List.flatMap_congr fun c hc => ?_
  rw [h.outcomeOf hdistinct hc]
  cases r.outcomeOf answer c <;> rfl

theorem Follows.count_eq (h : r'.Follows r answer candidates)
    (hdistinct : (candidates.map r.idOf).Nodup) (kind : Outcome → Bool) :
    r'.count answer kind candidates = r.count answer (kind ∘ Outcome.again) candidates := by
  refine List.countP_congr fun c hc => ?_
  rw [h.outcomeOf hdistinct hc]
  rfl

theorem Follows.count_same (h : r'.Follows r answer candidates)
    (hdistinct : (candidates.map r.idOf).Nodup) {kind : Outcome → Bool}
    (hkind : ∀ o : Outcome, kind o.again = kind o) :
    r'.count answer kind candidates = r.count answer kind candidates := by
  rw [h.count_eq hdistinct]
  exact List.countP_congr fun c _ => by simp [hkind]

theorem count_unchanged_again (r : Run) (answer : ParseRequest → Except TooLarge ParseResult)
    (candidates : List Candidate) :
    r.count answer (Outcome.isUnchanged ∘ Outcome.again) candidates =
      r.count answer Outcome.isIndexed candidates + r.count answer Outcome.isUnchanged candidates := by
  induction candidates with
  | nil => rfl
  | cons c rest ih =>
      unfold count at ih ⊢
      rw [List.countP_cons, List.countP_cons, List.countP_cons, ih]
      cases r.outcomeOf answer c <;>
        simp [Outcome.again, Outcome.isUnchanged, Outcome.isIndexed] <;> omega

end Run

/-- Trees, callers and parsers under which parsing is a function of the file. -/
def Setting.conditions (S : Setting) : Conditions :=
  ⟨S.Covers, S.Steady, fun parser => parser = .new S.config S.tool⟩

namespace Engine

variable {S : Setting} {W : Conditions} {N : Naming} {e e' : Engine} {docs : List Document}
  {entries : List FileEntry} {tree : FileTree} {caller caller' : Caller} {now now' : Instant}
  {isFresh : Bool} {projectId id : String} {figures figures' : RunFigures} {r r' : Run}
  {candidates candidates' : List Candidate} {skipped skipped' : Nat} {s s' : RunState}

theorem Arises.orderly_of_setting (h : Arises S.conditions e) :
    ∃ docs entries, e.Orderly S.naming docs entries :=
  h.orderly fun _ _ htree => Setting.Covers.naming htree

/-! ## What the parser remembers -/

theorem sound_of_runs (hsound : e.parser.Sound S) (hcovers : S.Covers tree projectId)
    (hsteady : S.Steady caller) {result : Except Fault RunFigures}
    (hruns : e.Runs tree caller now isFresh projectId e' result) : e'.parser.Sound S := by
  have hfilled {r : Run} {candidates : List Candidate} {skipped : Nat}
      (hstarts : e.Starts tree caller now isFresh projectId r candidates skipped) :
      (e.filled tree caller r candidates skipped).1.parser.Sound S :=
    Run.fill_sound (s := ⟨{ e.index with queue := some [] }, e.parser, [], 0, 0, skipped, 0, []⟩)
      hsound hsteady (hstarts.meets hcovers).1 (r.updatedProject tree r.started)
  cases hruns with
  | refused => exact hsound
  | failed hstarts => exact hfilled hstarts
  | completed hstarts hdone =>
      have hparser := hfilled hstarts
      rw [hdone] at hparser
      rw [refresh_eq]
      exact hparser.invalidateAll _

theorem sound_of_removes (hsound : e.parser.Sound S) {result : Except Fault Unit}
    (hremoves : e.Removes caller now projectId e' result) : e'.parser.Sound S := by
  cases hremoves with
  | refused => exact hsound
  | stopped => exact hsound
  | completed =>
      rw [refresh_eq]
      exact hsound.invalidateAll _

theorem sound_locked {α : Type} (hsound : e.parser.Sound S)
    {call : Engine → Engine × Except Fault α}
    (hcall : ∀ {e₁ : Engine}, e₁.parser.Sound S → (call e₁).1.parser.Sound S) :
    (e.locked projectId call).1.parser.Sound S := by
  refine locked_preserves (P := fun e' _ => e'.parser.Sound S) (fun _ => hsound) (fun locks => ?_)
    fun _ _ _ hparser => hparser
  have hlocked : ({ e with locks } : Engine).parser.Sound S := hsound
  exact hcall hlocked

theorem parser_addProject (e : Engine) (tree : FileTree) (live : Bool) (now : Instant)
    (name path description : String) :
    (e.addProject tree live now name path description).1.parser = e.parser := by
  unfold addProject
  simp only
  split
  · rfl
  · split
    · rfl
    · split
      · rfl
      · split <;> rfl

/-- As long as parsing is a function of the file, what the parser remembers is right. -/
theorem Arises.sound (h : Arises S.conditions e) : e.parser.Sound S := by
  -- an engine that is opened, be it again, has a parser that remembers nothing
  have hopened {ignore : IgnoreConfig} {parser : Parser} {index : Index} {minted : Nat} {live : Bool}
      {e : Engine} (hparser : parser = .new S.config S.tool)
      (hopened : restore ignore parser index minted live = .ok e) : e.parser.Sound S := by
    obtain ⟨projects, -, hopened⟩ := bind_eq_ok_iff.mp hopened
    obtain ⟨memory, -, hopened⟩ := bind_eq_ok_iff.mp hopened
    obtain rfl := Except.ok.inj hopened
    rw [refresh_eq]
    exact hparser ▸ Parser.sound_new S
  induction h with
  | opened hparser hrestored => exact hopened hparser hrestored
  | addProject h tree live now name path description ih =>
      rw [parser_addProject]
      exact ih
  | indexProject h htree hcaller now ih =>
      exact sound_locked ih fun hsound => sound_of_runs hsound htree hcaller (runs_of_runHeld rfl)
  | reindexProject h htree hcaller now ih =>
      exact sound_locked ih fun hsound => sound_of_runs hsound htree hcaller (runs_of_runHeld rfl)
  | removeProject h caller now projectId ih =>
      exact sound_locked ih fun hsound => sound_of_removes hsound (removes_of_removeHeld rfl)
  | reopened h hparser hrestored => exact hopened hparser hrestored

/-! ## Between two runs -/

/-- Calls after which a project is as it was: those for other projects, and its own that fail. -/
inductive Bides (W : Conditions) (id : String) (e : Engine) : Engine → Prop where
  | refl : Bides W id e e
  | addProject {e' : Engine} (h : Bides W id e e') (tree : FileTree) (live : Bool) (now : Instant)
      (name path description : String) :
      Bides W id e (e'.addProject tree live now name path description).1
  | indexProject {e' : Engine} (h : Bides W id e e') {tree : FileTree} {caller : Caller}
      {projectId : String} {now : Instant} (htree : W.trees tree projectId)
      (hcaller : W.callers caller)
      (hown : projectId = id → ∃ f, (e'.indexProject tree caller now projectId).2 = .error f) :
      Bides W id e (e'.indexProject tree caller now projectId).1
  | reindexProject {e' : Engine} (h : Bides W id e e') {tree : FileTree} {caller : Caller}
      {projectId : String} {now : Instant} (htree : W.trees tree projectId)
      (hcaller : W.callers caller)
      (hown : projectId = id → ∃ f, (e'.reindexProject tree caller now projectId).2 = .error f) :
      Bides W id e (e'.reindexProject tree caller now projectId).1
  | removeProject {e' : Engine} (h : Bides W id e e') {caller : Caller} {now : Instant}
      {projectId : String}
      (hown : projectId = id → ∃ f, (e'.removeProject caller now projectId).2 = .error f) :
      Bides W id e (e'.removeProject caller now projectId).1

theorem Bides.arises (h : Bides W id e e') (harises : Arises W e) : Arises W e' := by
  induction h with
  | refl => exact harises
  | addProject h tree live now name path description ih =>
      exact ih.addProject tree live now name path description
  | indexProject h htree hcaller hown ih => exact ih.indexProject htree hcaller _
  | reindexProject h htree hcaller hown ih => exact ih.reindexProject htree hcaller _
  | removeProject h hown ih => exact ih.removeProject _ _ _

theorem ignore_of_runs {result : Except Fault RunFigures}
    (h : e.Runs tree caller now isFresh projectId e' result) : e'.ignore = e.ignore := by
  cases h with
  | refused => rfl
  | failed => rfl
  | completed =>
      rw [refresh_eq]
      rfl

theorem ignore_of_removes {result : Except Fault Unit}
    (h : e.Removes caller now projectId e' result) : e'.ignore = e.ignore := by
  cases h with
  | refused => rfl
  | stopped => rfl
  | completed =>
      rw [refresh_eq]
      rfl

theorem ignore_locked {α : Type} {call : Engine → Engine × Except Fault α}
    (hcall : ∀ e₁ : Engine, (call e₁).1.ignore = e₁.ignore) :
    (e.locked projectId call).1.ignore = e.ignore :=
  locked_preserves (P := fun e' _ => e'.ignore = e.ignore) (fun _ => rfl)
    (fun locks => hcall { e with locks }) fun _ _ _ hignore => hignore

theorem ignore_addProject (e : Engine) (tree : FileTree) (live : Bool) (now : Instant)
    (name path description : String) :
    (e.addProject tree live now name path description).1.ignore = e.ignore := by
  unfold addProject
  simp only
  split
  · rfl
  · split
    · rfl
    · split
      · rfl
      · split <;> rfl

/-- What a run of a project goes by: the rules, the project and its files. -/
structure SameGround (e e' : Engine) (id : String) : Prop where
  ignore : e'.ignore = e.ignore
  project : e'.project? id = e.project? id
  files : e'.projectFiles id = e.projectFiles id

theorem SameGround.trans {e'' : Engine} (h : SameGround e e' id) (h' : SameGround e' e'' id) :
    SameGround e e'' id :=
  ⟨h'.ignore.trans h.ignore, h'.project.trans h.project, h'.files.trans h.files⟩

/-- A call that fails leaves alone what runs go by if it does so under the lock. -/
theorem SameGround.of_error {α : Type} {call : Engine → Engine × Except Fault α} {f : Fault}
    (hcall : ∀ {e₁ e₂ : Engine}, call e₁ = (e₂, .error f) → SameGround e₁ e₂ id)
    (h : (e.locked projectId call).2 = .error f) : SameGround e (e.locked projectId call).1 id := by
  refine locked_preserves (P := fun e' result => result = .error f → SameGround e e' id)
    (fun _ _ => ⟨rfl, rfl, rfl⟩) (fun locks hfailed => ?_) ?_ h
  · have hsame := hcall (Prod.ext rfl hfailed)
    exact ⟨hsame.ignore, hsame.project, hsame.files⟩
  · intro locks e' result hsame hfailed
    exact ⟨(hsame hfailed).ignore, (hsame hfailed).project, (hsame hfailed).files⟩

theorem SameGround.of_spared (hordered : e.Orderly N docs entries)
    (hspared : ∃ docs' entries', e'.Orderly N docs' entries' ∧
      ∀ id, id ≠ projectId → SameProject e e' entries entries' id)
    (hignore : e'.ignore = e.ignore) (hother : projectId ≠ id) : SameGround e e' id := by
  obtain ⟨docs', entries', hordered', hsame⟩ := hspared
  have hlevel := (hsame id hother.symm).level
  exact ⟨hignore, hlevel.project.symm,
    (hlevel.projectFiles hordered.memory hordered'.memory).symm⟩

theorem SameGround.addProject (hordered : e.Orderly N docs entries) {p : Project}
    (hknown : e.project? id = some p) (tree : FileTree) (live : Bool) (now : Instant)
    (name path description : String) :
    SameGround e (e.addProject tree live now name path description).1 id := by
  obtain ⟨hordered', -, hprojects⟩ := hordered.addProject tree live now name path description
  refine ⟨ignore_addProject .., (hprojects id p hknown).trans hknown.symm, ?_⟩
  exact (Level.projectFiles ⟨hknown.trans (hprojects id p hknown).symm, rfl⟩ hordered.memory
    hordered'.memory).symm

theorem SameGround.run (hordered : e.Orderly N docs entries) (hcovers : N.Covers tree projectId)
    (hown : projectId = id → ∃ f, (e.locked projectId fun e =>
      e.runHeld tree caller now isFresh projectId).2 = .error f) :
    SameGround e (e.locked projectId fun e => e.runHeld tree caller now isFresh projectId).1 id := by
  by_cases hother : projectId = id
  · obtain ⟨f, hfailed⟩ := hown hother
    exact .of_error (fun hrun => by cases runs_of_runHeld hrun <;> exact ⟨rfl, rfl, rfl⟩) hfailed
  · exact .of_spared hordered (hordered.run hcovers caller now isFresh)
      (ignore_locked fun e₁ => ignore_of_runs (runs_of_runHeld rfl)) hother

theorem SameGround.removeProject (hordered : e.Orderly N docs entries)
    (hown : projectId = id → ∃ f, (e.removeProject caller now projectId).2 = .error f) :
    SameGround e (e.removeProject caller now projectId).1 id := by
  by_cases hother : projectId = id
  · obtain ⟨f, hfailed⟩ := hown hother
    exact .of_error (fun hrun => by cases removes_of_removeHeld hrun <;> exact ⟨rfl, rfl, rfl⟩) hfailed
  · exact .of_spared hordered (hordered.removeProject caller now projectId)
      (ignore_locked fun e₁ => ignore_of_removes (removes_of_removeHeld rfl)) hother

/-- Until the next run of a project that succeeds, what it goes by stays as it is. -/
theorem Bides.sameGround (h : Bides W id e e') (harises : Arises W e)
    (hnames : ∀ tree id, W.trees tree id → N.Covers tree id) {p : Project}
    (hknown : e.project? id = some p) : SameGround e e' id := by
  induction h with
  | refl => exact ⟨rfl, rfl, rfl⟩
  | addProject h tree live now name path description ih =>
      obtain ⟨docs, entries, hordered⟩ := (h.arises harises).orderly hnames
      exact ih.trans (.addProject hordered (ih.project.trans hknown) tree live now name path description)
  | indexProject h htree hcaller hown ih =>
      obtain ⟨docs, entries, hordered⟩ := (h.arises harises).orderly hnames
      exact ih.trans (.run hordered (hnames _ _ htree) hown)
  | reindexProject h htree hcaller hown ih =>
      obtain ⟨docs, entries, hordered⟩ := (h.arises harises).orderly hnames
      exact ih.trans (.run hordered (hnames _ _ htree) hown)
  | removeProject h hown ih =>
      obtain ⟨docs, entries, hordered⟩ := (h.arises harises).orderly hnames
      exact ih.trans (.removeProject hordered hown)

/-! ## The next run -/

theorem Ran.tallies (h : Ran e e' tree caller now isFresh projectId figures r candidates skipped s)
    (hsound : e.parser.Sound S) (hcovers : S.Covers tree projectId) (hsteady : S.Steady caller) :
    r.Tallies S.parse candidates skipped s ∧ s.index = { e.index with
      queue := some (r.queued (r.documentsOf S.parse candidates) (r.erased s)
        (r.updatedProject tree r.started)) } :=
  tallies_of_filled h.filled hsound hsteady (h.starts.meets hcovers).1

/-- On the same ground, the next run finds the same candidates and what was staged for them. -/
theorem Ran.follows (h : Ran e e' tree caller now isFresh projectId figures r candidates skipped s)
    (htallies : r.Tallies S.parse candidates skipped s) {e'' : Engine}
    (hground : SameGround e' e'' projectId)
    (hstarts : e''.Starts tree caller' now' false projectId r' candidates' skipped') :
    r'.Follows r S.parse candidates ∧ candidates' = candidates ∧ skipped' = skipped := by
  have hproject : r'.project = r.updatedProject tree now :=
    Option.some.inj ((hstarts.known.symm.trans hground.project).trans h.project)
  -- a run changes neither the root of its project nor the rules, so the walks are the same
  obtain ⟨classifier, hrules, hfound⟩ := h.starts.found
  obtain ⟨classifier', hrules', hfound'⟩ := hstarts.found
  have hroot : r'.project.rootPath = r.project.rootPath := by rw [hproject]; rfl
  rw [hroot, hground.ignore, h.ignore] at hrules'
  obtain ⟨hignore, rfl⟩ := Prod.mk.inj (Except.ok.inj (hrules'.symm.trans hrules))
  rw [hroot] at hfound'
  obtain ⟨hcandidates, hskipped⟩ := Prod.mk.inj (Run.found_unique hfound' hfound)
  refine ⟨⟨by rw [hproject]; rfl, hignore, hstarts.fresh, ?_⟩, hcandidates, hskipped⟩
  rw [hstarts.prior, hground.files, ← htallies.staged]
  exact h.files_perm

theorem figures_of_follows (hfollows : r'.Follows r S.parse candidates)
    (hids : (candidates.map r.idOf).Nodup) (htallies : r.Tallies S.parse candidates skipped s)
    (htallies' : r'.Tallies S.parse candidates skipped s') :
    r'.figures s' = { r.figures s with
      filesIndexed := 0
      filesUnchanged := (r.figures s).filesIndexed + (r.figures s).filesUnchanged
      filesRemoved := 0 } ∧ r'.stale s' = [] := by
  have hstaged : s'.staged = s.staged := by
    rw [htallies'.staged, htallies.staged, hfollows.entriesOf_eq hids]
  have hindexed : s'.indexed = 0 := by
    rw [htallies'.indexed, hfollows.count_eq hids]
    refine List.countP_eq_zero.mpr fun c _ => ?_
    cases r.outcomeOf S.parse c <;> simp [Outcome.again, Outcome.isIndexed]
  have hunchanged : s'.unchanged = s.indexed + s.unchanged := by
    rw [htallies'.unchanged, hfollows.count_eq hids, Run.count_unchanged_again, htallies.indexed,
      htallies.unchanged]
  have hskipped : s'.skipped = s.skipped := by
    rw [htallies'.skipped, htallies.skipped, hfollows.count_same hids fun o => by cases o <;> rfl]
  have hfailed : s'.failed = s.failed := by
    rw [htallies'.failed, htallies.failed, hfollows.count_same hids fun o => by cases o <;> rfl]
  have herrors : s'.errors = s.errors := by
    rw [htallies'.errors, htallies.errors, hfollows.errorsOf_eq hids]
  have hstale : r'.stale s' = [] := by
    refine List.eq_nil_iff_forall_not_mem.mpr fun id hid => ?_
    obtain ⟨⟨f, hf, hfile⟩, hgone⟩ := Run.mem_stale.mp hid
    rw [hstaged, htallies.staged] at hgone
    exact hgone f (hfollows.prior.mem_iff.mp hf) hfile
  refine ⟨?_, hstale⟩
  unfold Run.figures
  rw [hstaged, hindexed, hunchanged, hskipped, hfailed, herrors, hstale, hfollows.id]
  rfl

theorem documents_of_saveProject {db db' : Database} {p : Project}
    (h : [WriteOp.saveProject p].foldlM (·.write now) db = .ok db') : db'.documents = db.documents := by
  rw [List.foldlM_cons] at h
  obtain ⟨db₁, hwrite, hrest⟩ := bind_eq_ok_iff.mp h
  obtain rfl := Except.ok.inj hrest
  obtain rfl := Database.updateProject_eq_ok (show db.updateProject p = .ok db₁ from hwrite)
  rfl

theorem Ran.documents_eq
    (h : Ran e e' tree caller now isFresh projectId figures r candidates skipped s) {p : Project}
    (hqueue : s.index = { e.index with queue := some [.saveProject p] }) :
    e'.index.database.documents = e.index.database.documents := by
  obtain ⟨ops, hops, hwritten⟩ := h.commits
  have hsame : some ops = some [.saveProject p] := congrArg Index.queue (hops.symm.trans hqueue)
  rw [Option.some.inj hsame] at hwritten
  exact documents_of_saveProject hwritten

/-- If indexing a project, from scratch or not, has succeeded, then the next time that indexing it on the
same tree succeeds, it puts and deletes no document: its queue is the saved project alone. It reports
the same figures, but that nothing is new or removed, and all documents of the index stay. -/
theorem next_run_writes_nothing (h : Arises S.conditions e) (htree : S.Covers tree projectId)
    (hcaller : S.Steady caller) (hcaller' : S.Steady caller') {e₁ e₂ e₃ : Engine}
    (hfirst : e.indexProject tree caller now projectId = (e₁, .ok figures) ∨
      e.reindexProject tree caller now projectId = (e₁, .ok figures))
    (hbides : Bides S.conditions projectId e₁ e₂)
    (hnext : e₂.indexProject tree caller' now' projectId = (e₃, .ok figures')) :
    (∃ r candidates skipped s, Ran e₂ e₃ tree caller' now' false projectId figures' r candidates
        skipped s ∧
      s.index = { e₂.index with queue := some [.saveProject (r.updatedProject tree now')] }) ∧
    figures' = { figures with
      filesIndexed := 0
      filesUnchanged := figures.filesIndexed + figures.filesUnchanged
      filesRemoved := 0 } ∧
    e₃.index.database.documents = e₂.index.database.documents := by
  obtain ⟨isFresh, hrun⟩ := exists_run_of_ok hfirst
  have harises := h.run htree hcaller now isFresh
  rw [hrun] at harises
  obtain ⟨docs, entries, hordered⟩ := h.orderly_of_setting
  obtain ⟨r, candidates, skipped, s, hran⟩ := hordered.ran htree.naming hrun
  obtain ⟨htallies, -⟩ := hran.tallies h.sound htree hcaller
  have harises₂ := hbides.arises harises
  obtain ⟨docs₂, entries₂, hordered₂⟩ := harises₂.orderly_of_setting
  obtain ⟨r', candidates', skipped', s', hran'⟩ := hordered₂.ran htree.naming hnext
  obtain ⟨htallies', hindex⟩ := hran'.tallies harises₂.sound htree hcaller'
  have hground := hbides.sameGround harises (fun _ _ htree => Setting.Covers.naming htree) hran.project
  obtain ⟨hfollows, rfl, rfl⟩ := hran.follows htallies hground hran'.starts
  have hids := (hran.starts.named htree.naming).ids
  obtain ⟨hfigures, hstale⟩ := figures_of_follows hfollows hids htallies htallies'
  have hqueue : s'.index = { e₂.index with
      queue := some [.saveProject (r'.updatedProject tree now')] } := by
    rw [hindex, hfollows.documentsOf_eq hids, hran'.starts.started]
    simp [Run.queued, Run.erased, hfollows.fresh, hstale]
  refine ⟨⟨r', candidates', skipped', s', hran', hqueue⟩, ?_, hran'.documents_eq hqueue⟩
  rw [hran'.figures, hran.figures, hfigures]

def sampleFirst (e : Engine) : Engine × Except Fault RunFigures :=
  (e.addProject (sampleTree "\n") true ⟨10, 0, false⟩ "sample" "/" "").1.indexProject
    (sampleTree "def f():\n") .patient ⟨20, 0, false⟩ sampleId

/-- A caller who has left asks for another version of the sample. -/
def sampleLeft (e : Engine) : Engine × Except Fault RunFigures :=
  e.sampleFirst.1.indexProject (sampleTree "\n") .gone ⟨30, 0, false⟩ sampleId

def sampleNext (e : Engine) : Engine × Except Fault RunFigures :=
  e.sampleLeft.1.indexProject (sampleTree "def f():\n") .patient ⟨40, 0, false⟩ sampleId

theorem sample_next_run_writes_nothing : ∃ e figures, Arises sampleSetting.conditions e ∧
    e.sampleFirst.2 = .ok figures ∧ figures.filesIndexed = 1 ∧
    e.sampleNext.2 = .ok { figures with filesIndexed := 0, filesUnchanged := 1, filesRemoved := 0 } ∧
    e.sampleNext.1.index.database.documents = e.sampleLeft.1.index.database.documents := by
  obtain ⟨e, harises, hfirst, hleft, hnext⟩ : ∃ e : Engine, Arises sampleSetting.conditions e ∧
      (e.sampleFirst.2.toOption.map fun figures =>
        (figures.filesIndexed, figures.filesUnchanged)) = some (1, 0) ∧
      e.sampleLeft.2.isOk = false ∧ e.sampleNext.2.isOk = true :=
    ⟨bareEngine, .opened rfl restore_new, by decide +kernel⟩
  obtain ⟨figures, hfirst, hcounts⟩ := exists_ok_of_map hfirst
  obtain ⟨hindexed, hunchanged⟩ := Prod.mk.inj hcounts
  have hfails := exists_error_of_isOk hleft
  obtain ⟨figures', hnext⟩ := exists_ok_of_isOk hnext
  have hcovers : ∀ text ∈ sampleTexts, sampleSetting.Covers (sampleTree text) sampleId :=
    fun text => covers_sampleTree
  have hran : e.sampleFirst = (e.sampleFirst.1, .ok figures) := Prod.ext rfl hfirst
  have hran' : e.sampleNext = (e.sampleNext.1, .ok figures') := Prod.ext rfl hnext
  have hbides : Bides sampleSetting.conditions sampleId e.sampleFirst.1 e.sampleLeft.1 :=
    .indexProject .refl (hcovers "\n" (by simp [sampleTexts]))
      (Setting.steady_of_waits fun _ hwaits => hwaits) fun _ => hfails
  have hsame := next_run_writes_nothing (harises.addProject _ _ _ _ _ _)
    (hcovers _ (by simp [sampleTexts])) sampleSetting.steady_patient sampleSetting.steady_patient
    (.inl hran) hbides hran'
  refine ⟨e, figures, harises, hfirst, hindexed, ?_, hsame.2.2⟩
  rw [hnext, hsame.2.1, hindexed, hunchanged]

end Engine

end CodeAtlas
