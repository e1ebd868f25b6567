import CodeAtlas.Proofs.Engine.Errands
import CodeAtlas.Proofs.Engine.Yield

/-!
# What a run comes to, candidate by candidate

What comes of a candidate is decided by its content, by what is known of it and by what parsing finds, in
one of six ways. A run that takes up all its candidates stages, queues and counts what comes of them,
one after the other.
-/

namespace CodeAtlas

namespace Run

variable {S : Setting} {r : Run} {caller : Caller} {s s' : RunState} {c : Candidate}
  {candidates : List Candidate} {answer : ParseRequest → Except TooLarge ParseResult}
  {o : Outcome}

/-- The ways in which a candidate comes out. -/
inductive Judges (r : Run) (answer : ParseRequest → Except TooLarge ParseResult) (c : Candidate) :
    Outcome → Prop where
  | refused {message : String} (hrefused : c.refusal? r.ignore = some message) :
      Judges r answer c (.failed message)
  | skipped (hgiven : c.refusal? r.ignore = none) (hfits : c.fits r.ignore = false) :
      Judges r answer c .skipped
  | kept {f : FileEntry} (hopens : c.Opens r.ignore) (hknown : r.known? c = some f)
      (hread : f.usages.isSome = true) : Judges r answer c (.unchanged f)
  | failed {e : TooLarge} (hopens : c.Opens r.ignore)
      (hunread : ∀ f, r.known? c = some f → f.usages = none)
      (hanswer : answer (c.request r.project.id) = .error e) : Judges r answer c (.failed e.message)
  | reread {f : FileEntry} {result : ParseResult} (hopens : c.Opens r.ignore)
      (hknown : r.known? c = some f) (hunread : f.usages = none)
      (hanswer : answer (c.request r.project.id) = .ok result) :
      Judges r answer c (.unchanged (entryOf f.file result.found))
  | indexed {result : ParseResult} (hopens : c.Opens r.ignore) (hknown : r.known? c = none)
      (hanswer : answer (c.request r.project.id) = .ok result) :
      Judges r answer c (.indexed (entryOf (r.documentOf c result.found).file result.found))

/-- A file that is known and has been read is not read again. -/
theorem outcomeOf_of_read {f : FileEntry} (hopens : c.Opens r.ignore)
    (hknown : r.known? c = some f) (hread : f.usages.isSome = true) :
    r.outcomeOf answer c = .unchanged f := by
  obtain ⟨file, symbols, references, _ | usages⟩ := f
  · simp at hread
  · rw [outcomeOf, unparsed?_of_opens hopens]
    simp [recalled?, hknown]

theorem outcomeOf_of_unread (hopens : c.Opens r.ignore)
    (hunread : ∀ f, r.known? c = some f → f.usages = none) :
    r.outcomeOf answer c = r.parsed c (answer (c.request r.project.id)) := by
  rw [outcomeOf, unparsed?_of_opens hopens]
  unfold recalled?
  rcases hknown : r.known? c with _ | ⟨file, symbols, references, _ | usages⟩
  · rfl
  · rfl
  · simpa using hunread _ hknown

theorem judges_parsed (hopens : c.Opens r.ignore)
    (hunread : ∀ f, r.known? c = some f → f.usages = none) :
    r.Judges answer c (r.parsed c (answer (c.request r.project.id))) := by
  rcases hanswer : answer (c.request r.project.id) with e | result
  · exact .failed hopens hunread hanswer
  · rcases hknown : r.known? c with _ | f
    · simp only [parsed, hknown]
      exact .indexed hopens hknown hanswer
    · simp only [parsed, hknown]
      exact .reread hopens hknown (hunread f hknown) hanswer

theorem judges_outcomeOf (r : Run) (answer : ParseRequest → Except TooLarge ParseResult)
    (c : Candidate) : r.Judges answer c (r.outcomeOf answer c) := by
  cases hgiven : c.refusal? r.ignore with
  | some message =>
      rw [r.outcomeOf_of_unparsed? answer (unparsed?_of_refused hgiven)]
      exact .refused hgiven
  | none =>
      by_cases hfits : c.fits r.ignore = true
      · have hopens : c.Opens r.ignore := ⟨hgiven, hfits⟩
        by_cases hread : ∃ f, r.known? c = some f ∧ f.usages.isSome = true
        · obtain ⟨f, hknown, hused⟩ := hread
          rw [outcomeOf_of_read hopens hknown hused]
          exact .kept hopens hknown hused
        · have hunread : ∀ f, r.known? c = some f → f.usages = none := by
            intro f hknown
            by_contra hused
            exact hread ⟨f, hknown, Option.isSome_iff_ne_none.mpr hused⟩
          rw [outcomeOf_of_unread hopens hunread]
          exact judges_parsed hopens hunread
      · have hunfit : c.fits r.ignore = false := by simpa using hfits
        rw [r.outcomeOf_of_unparsed? answer (unparsed?_of_skipped hgiven hunfit)]
        exact .skipped hgiven hunfit

/-- A file that could not be read leaves nothing but what was known of it. -/
theorem prior_of_failed {message : String} {f : FileEntry}
    (hf : f ∈ (Outcome.failed message).entries r c) : r.isFresh = false ∧ f ∈ r.prior := by
  simp only [Outcome.entries] at hf
  split at hf
  · simp at hf
  · rename_i hfresh
    exact ⟨by simpa using hfresh, List.mem_of_find?_eq_some (Option.mem_toList.mp hf)⟩

theorem known?_eq_some {f : FileEntry} (hfresh : r.isFresh = false)
    (hprior : r.prior? (r.idOf c) = some f) (hsum : f.file.checksum = checksum c.content) :
    r.known? c = some f := by
  unfold known?
  have hid : r.prior? (fileId r.project.id c.relativePath) = some f := hprior
  rw [hid]
  simp [hfresh, hsum]

theorem conclude_eq_ok (h : r.conclude caller s c o = (s', .ok ())) :
    s' = { r.note s c o with index := s.index.enqueue ((o.documents c).map .put) } := by
  cases o with
  | indexed f =>
      unfold conclude at h
      dsimp only at h
      split at h
      · rename_i s₁ chore hsubmit
        obtain ⟨rfl, -⟩ := Prod.mk.inj h
        rw [(advance_submit hsubmit).2]
        simp [note_eq, Outcome.documents]
      · simp at h
  | _ =>
      obtain ⟨rfl, -⟩ := Prod.mk.inj h
      simp [note_eq, Outcome.documents]

/-- What a run has counted and staged for its candidates. -/
structure Tallies (r : Run) (answer : ParseRequest → Except TooLarge ParseResult)
    (candidates : List Candidate) (skipped : Nat) (s : RunState) : Prop where
  staged : s.staged = r.entriesOf answer candidates
  errors : s.errors = r.errorsOf answer candidates
  indexed : s.indexed = r.count answer Outcome.isIndexed candidates
  unchanged : s.unchanged = r.count answer Outcome.isUnchanged candidates
  skipped : s.skipped = skipped + r.count answer Outcome.isSkipped candidates
  failed : s.failed = r.count answer Outcome.isFailed candidates

theorem takeAll_notes (h : r.takeAll caller s candidates = (s', .ok ())) (hparser : s.parser.Sound S)
    (hsteady : S.Steady caller)
    (hmeets : ∀ c ∈ candidates, S.Meets r.project.id r.project.rootPath c) :
    ∃ parser, parser.Sound S ∧ s' = (r.noteAll S.parse s candidates).over
      (s.index.enqueue ((r.documentsOf S.parse candidates).map .put)) parser := by
  induction candidates generalizing s with
  | nil =>
      unfold takeAll at h
      obtain ⟨rfl, -⟩ := Prod.mk.inj h
      exact ⟨s.parser, hparser, by simp [documentsOf, noteAll, RunState.over]⟩
  | cons c rest ih =>
      unfold takeAll at h
      split at h
      · rename_i s₁ htake
        have hwaits := (takes_of_take htake).1
        obtain ⟨parser, hsound, hconclude⟩ :=
          take_conclude hparser hsteady (hmeets c List.mem_cons_self) hwaits
        rw [hconclude] at htake
        have hfirst := conclude_eq_ok htake
        have hsound₁ : s₁.parser.Sound S := by
          rw [hfirst, note_eq]
          exact hsound
        obtain ⟨parser', hsound', hrest⟩ :=
          ih h hsound₁ fun c hc => hmeets c (List.mem_cons_of_mem _ hc)
        refine ⟨parser', hsound', ?_⟩
        have hdocuments : r.documentsOf S.parse (c :: rest) =
            (r.outcomeOf S.parse c).documents c ++ r.documentsOf S.parse rest := rfl
        have hnotes : r.noteAll S.parse s (c :: rest) =
            r.noteAll S.parse (r.note s c (r.outcomeOf S.parse c)) rest := rfl
        rw [hrest, hfirst, hdocuments, hnotes, List.map_append, ← Index.enqueue_enqueue]
        simp only [noteAll_eq, note_eq, RunState.over]
      · rename_i hfailed
        exact absurd h (hfailed s')

end Run

namespace Engine

variable {S : Setting} {e : Engine} {tree : FileTree} {caller : Caller} {now : Instant}
  {isFresh : Bool} {projectId : String} {r : Run} {candidates : List Candidate} {skipped : Nat}
  {s : RunState}

/-- A run that has filled its queue has counted and staged what came of its candidates, and queued the
documents of those that are new. -/
theorem tallies_of_filled (hfilled : e.filled tree caller r candidates skipped = (s, .ok ()))
    (hparser : e.parser.Sound S) (hsteady : S.Steady caller)
    (hmeets : ∀ c ∈ candidates, S.Meets r.project.id r.project.rootPath c) :
    r.Tallies S.parse candidates skipped s ∧ s.index = { e.index with
      queue := some (r.queued (r.documentsOf S.parse candidates) (r.erased s)
        (r.updatedProject tree r.started)) } := by
  obtain ⟨s₁, htake, rfl⟩ := Run.fillBy_eq_ok (e := e) (r := r) hfilled
  obtain ⟨parser, -, rfl⟩ := Run.takeAll_notes htake hparser hsteady hmeets
  constructor
  · rw [Run.noteAll_eq]
    constructor <;> simp [RunState.over, atWork, begun]
  · simp only [RunState.over, atWork, begun, Index.enqueue_enqueue]
    simp only [Index.enqueue, Option.map_some, Run.queued, List.append_assoc]
    rfl

end Engine

end CodeAtlas
