import CodeAtlas.Proofs.Engine.Effects
import CodeAtlas.Proofs.Engine.Settle
import CodeAtlas.Proofs.Index.Queued

/-!
# The errands of a run

A run with an open writer has one errand after the other: it clears its project, takes up a candidate,
erases a stale file, saves the project. Doing the next errand and then all that are left is the same as
doing all of them. What an errand does to the run itself, and which changes it queues, depends neither
on the index nor on what the parser remembers, so that a run that got somewhere in one engine gets there
in another one, too.
-/

namespace CodeAtlas

/-- What a run has found before it opens the writer, and the project as it will be saved. -/
structure Plan where
  run : Run
  candidates : List Candidate
  skipped : Nat
  updated : Project

/-- What a run with an open writer does next. -/
inductive Errand where
  | clear
  | take (left : List Candidate)
  | erase (ids : List String)
  | save
  | commit

/-- The same state over another index and another parser. -/
def RunState.over (s : RunState) (index : Index) (parser : Parser) : RunState :=
  { s with index, parser }

namespace Plan

/-- The state of the run when it has opened the writer. -/
def begun (p : Plan) (index : Index) (parser : Parser) : RunState :=
  ⟨index, parser, [], 0, 0, p.skipped, 0, []⟩

/-- Queues a change and goes on. -/
def queueThen (live : Bool) (op : WriteOp) (next : Except Fault Errand) (s : RunState) :
    RunState × Except Fault Errand :=
  match Run.queue live s op with
  | (s, .ok ()) => (s, next)
  | (s, .error f) => (s, .error f)

variable (p : Plan) (caller : Caller)

/-- Does an errand, and says what the next one is. -/
def proceed (s : RunState) : Errand → RunState × Except Fault Errand
  | .clear =>
      if p.run.isFresh then
        queueThen (caller.waits .clear) (.deleteProjectDocuments p.run.project.id)
          (.ok (.take p.candidates)) s
      else (s, .ok (.take p.candidates))
  | .take [] =>
      (s, if caller.waits .allTaken then .ok (.erase (p.run.erased s))
        else .error (.of .canceled))
  | .take (c :: left) =>
      match p.run.take caller s c with
      | (s, .ok ()) => (s, .ok (.take left))
      | (s, .error f) => (s, .error f)
  | .erase [] => (s, .ok .save)
  | .erase (id :: ids) => queueThen (caller.waits (.erase id)) (.deleteFile id) (.ok (.erase ids)) s
  | .save =>
      queueThen (caller.waits .save) (.saveProject p.updated)
        (if caller.waits .commit then .ok .commit else .error (.of .canceled)) s
  | .commit => (s, .ok .commit)

/-- Saves the project. -/
def finishSave (s : RunState) : RunState × Except Fault Unit :=
  match Run.queue (caller.waits .save) s (.saveProject p.updated) with
  | (s, .ok ()) => (s, if caller.waits .commit then .ok () else .error (.of .canceled))
  | (s, .error f) => (s, .error f)

/-- Erases the files that are left, and goes on. -/
def finishErase (s : RunState) (ids : List String) : RunState × Except Fault Unit :=
  match Run.eraseAll caller s ids with
  | (s, .ok ()) => p.finishSave caller s
  | (s, .error f) => (s, .error f)

/-- Takes up the candidates that are left, and goes on. -/
def finishTake (s : RunState) (left : List Candidate) : RunState × Except Fault Unit :=
  match p.run.takeAll caller s left with
  | (s, .ok ()) => p.finishErase caller s (p.run.erased s)
  | (s, .error f) => (s, .error f)

/-- Does all errands from the given one on. -/
def finish (s : RunState) : Errand → RunState × Except Fault Unit
  | .clear => p.run.fill caller s p.candidates p.updated
  | .take left => p.finishTake caller s left
  | .erase ids => p.finishErase caller s ids
  | .save => p.finishSave caller s
  | .commit => (s, .ok ())

variable {p caller} {s : RunState}

theorem queueThen_eq_ok {live : Bool} {op : WriteOp} {answer : Except Fault Errand} {s' : RunState}
    {next : Errand} (h : queueThen live op answer s = (s', .ok next)) :
    answer = .ok next ∧ Run.queue live s op = (s', .ok ()) := by
  unfold queueThen at h
  split at h
  · rename_i s₁ hqueued
    obtain ⟨rfl, rfl⟩ := Prod.mk.inj h
    exact ⟨rfl, hqueued⟩
  · simp at h

/-- What each queued change and the next candidate preserve, an errand preserves. -/
theorem proceed_preserves {P : RunState → Prop} {errand : Errand}
    (hqueue : ∀ live op, P (Run.queue live s op).1)
    (htake : ∀ c left, errand = .take (c :: left) → P (p.run.take caller s c).1) (h : P s) :
    P (p.proceed caller s errand).1 := by
  have hthen (live : Bool) (op : WriteOp) (next : Except Fault Errand) :
      P (queueThen live op next s).1 := by
    have hqueued := hqueue live op
    unfold queueThen
    split <;> simp_all
  cases errand with
  | clear =>
      unfold proceed
      dsimp only
      split
      · exact hthen _ _ _
      · exact h
  | take left =>
      cases left with
      | nil => exact h
      | cons c left =>
          have htaken := htake c left rfl
          unfold proceed
          dsimp only
          split <;> simp_all
  | erase ids =>
      cases ids with
      | nil => exact h
      | cons id ids => exact hthen _ _ _
  | save => exact hthen _ _ _
  | commit => exact h

theorem proceed_extends (p : Plan) (caller : Caller) (s : RunState) (errand : Errand) :
    s.index.Extends (p.proceed caller s errand).1.index :=
  proceed_preserves (P := fun s' => s.index.Extends s'.index)
    (fun live op => Run.queue_extends live s op) (fun c _ _ => Run.take_extends p.run caller s c)
    (.refl _)

theorem finishTake_eq (p : Plan) (caller : Caller) (s : RunState) (left : List Candidate) :
    p.finishTake caller s left =
      match p.run.takeAll caller s left with
      | (s, .error f) => (s, .error f)
      | (s, .ok ()) =>
          match Run.eraseAll caller s (if p.run.isFresh then [] else p.run.stale s) with
          | (s, .error f) => (s, .error f)
          | (s, .ok ()) =>
              match Run.queue (caller.waits .save) s (.saveProject p.updated) with
              | (s, .error f) => (s, .error f)
              | (s, .ok ()) =>
                  (s, if caller.waits .commit then .ok () else .error (.of .canceled)) := by
  unfold finishTake
  rcases p.run.takeAll caller s left with ⟨s, f | ⟨⟩⟩
  · rfl
  · dsimp only
    unfold finishErase Run.erased
    rcases Run.eraseAll caller s _ with ⟨s, f | ⟨⟩⟩
    · rfl
    · dsimp only
      unfold finishSave
      rcases Run.queue _ s _ with ⟨s, f | ⟨⟩⟩ <;> rfl

theorem fill_eq (p : Plan) (caller : Caller) (s : RunState) :
    p.run.fill caller s p.candidates p.updated =
      match p.proceed caller s .clear with
      | (s, .ok errand) => p.finish caller s errand
      | (s, .error f) => (s, .error f) := by
  have hrest (s : RunState) := (finishTake_eq p caller s p.candidates).symm
  unfold Run.fill proceed queueThen
  by_cases hfresh : p.run.isFresh = true
  · simp only [if_pos hfresh] at hrest ⊢
    rcases Run.queue _ s _ with ⟨s, f | ⟨⟨⟩⟩⟩
    · rfl
    · exact hrest s
  · simp only [if_neg hfresh] at hrest ⊢
    exact hrest s

/-- Doing the next errand and then all others is doing all of them. -/
theorem finish_eq (p : Plan) (caller : Caller) (s : RunState) (errand : Errand) :
    p.finish caller s errand =
      match p.proceed caller s errand with
      | (s, .ok errand) => p.finish caller s errand
      | (s, .error f) => (s, .error f) := by
  cases errand with
  | clear => exact fill_eq p caller s
  | take left =>
      cases left with
      | nil =>
          simp only [finish, finishTake, Run.takeAll, proceed]
          by_cases hwaits : caller.waits .allTaken = true <;> simp [hwaits]
      | cons c left =>
          simp only [finish, finishTake, Run.takeAll, proceed]
          rcases p.run.take caller s c with ⟨s, f | ⟨⟩⟩ <;> rfl
  | erase ids =>
      cases ids with
      | nil => rfl
      | cons id ids =>
          simp only [finish, finishErase, Run.eraseAll, proceed, queueThen]
          rcases Run.queue _ s _ with ⟨s, f | ⟨⟩⟩ <;> rfl
  | save =>
      simp only [finish, finishSave, proceed, queueThen]
      rcases Run.queue _ s _ with ⟨s, f | ⟨⟩⟩
      · rfl
      · by_cases hwaits : caller.waits .commit = true <;> simp [hwaits]
  | commit => rfl

end Plan

/-! ## Errands over another index -/

namespace Run

variable {S : Setting} {r : Run} {caller : Caller} {s s' : RunState} {c : Candidate}

theorem queue_over {live : Bool} {op : WriteOp} (h : queue live s op = (s', .ok ()))
    {index : Index} (hopen : index.queue.isSome = true) (parser : Parser) :
    queue live (s.over index parser) op = (s'.over (index.enqueue [op]) parser, .ok ()) := by
  obtain ⟨ops, hops⟩ := Option.isSome_iff_exists.mp hopen
  have hlive : live = true := by
    by_contra hleft
    simp [queue, hleft] at h
  rw [queue_eq_ok h]
  simp [queue, hlive, RunState.over, Index.submit, Index.enqueue, hops]

theorem advance_submit_over {waits : Stage → Bool} {f : FileEntry} {chore : Option Chore}
    (h : r.advance waits s c (.submit f) = (s', .ok chore)) {index : Index}
    (hopen : index.queue.isSome = true) (parser : Parser) :
    r.advance waits (s.over index parser) c (.submit f) =
      (s'.over (index.enqueue [.put (f.withText (decode c.content).text)]) parser, .ok chore) := by
  obtain ⟨ops, hops⟩ := Option.isSome_iff_exists.mp hopen
  have hlive : waits (.submit c.relativePath) = true := by
    by_contra hleft
    simp [advance, hleft, inContext] at h
  obtain ⟨rfl, rfl⟩ := advance_submit h
  simp [advance, hlive, RunState.over, Index.submit, Index.enqueue, hops, inContext]

/-- Notes what came of a candidate; the document of a new file is queued before. -/
def conclude (r : Run) (caller : Caller) (s : RunState) (c : Candidate) :
    Outcome → RunState × Except Fault Unit
  | .indexed f =>
      match r.advance caller.waits s c (.submit f) with
      | (s, .ok _) => (r.note s c (.indexed f), .ok ())
      | (s, .error fault) => (s, .error fault)
  | o => (r.note s c o, .ok ())

theorem conclude_over {o : Outcome} (h : r.conclude caller s c o = (s', .ok ()))
    (hown : ∀ f, o = .indexed f → f.file.projectId = r.project.id) :
    ∃ ops, s'.index = s.index.enqueue ops ∧ (∀ op ∈ ops, op.Concerns r.project.id) ∧
      s'.parser = s.parser ∧ ∀ index parser, index.queue.isSome = true →
        r.conclude caller (s.over index parser) c o =
          (s'.over (index.enqueue ops) parser, .ok ()) := by
  cases o with
  | indexed f =>
      unfold conclude at h ⊢
      dsimp only at h ⊢
      split at h
      · rename_i s₁ chore hsubmit
        obtain ⟨rfl, -⟩ := Prod.mk.inj h
        refine ⟨[.put (f.withText (decode c.content).text)], ?_, ?_, ?_, fun index parser hopen => ?_⟩
        · rw [note_eq, (advance_submit hsubmit).2]
        · intro op hop
          rw [List.mem_singleton.mp hop]
          exact hown f rfl
        · rw [note_eq, (advance_submit hsubmit).2]
        · rw [advance_submit_over hsubmit hopen]
          rfl
      · simp at h
  | _ =>
      obtain ⟨rfl, -⟩ := Prod.mk.inj h
      refine ⟨[], by rw [note_eq, Index.enqueue_nil], by simp, by rw [note_eq],
        fun index parser _ => ?_⟩
      rw [Index.enqueue_nil]
      rfl

theorem ne_indexed_of_unparsed? {o : Outcome} (h : r.unparsed? c = some o) (f : FileEntry) :
    o ≠ .indexed f := by
  obtain ⟨message, -, rfl⟩ | ⟨-, -, rfl⟩ | ⟨g, -, -, -, rfl⟩ := unparsed?_cases h
  · simp
  · simp
  · simp

theorem projectId_of_outcomeOf {answer : ParseRequest → Except TooLarge ParseResult} {f : FileEntry}
    (h : r.outcomeOf answer c = .indexed f) : f.file.projectId = r.project.id := by
  unfold outcomeOf at h
  rcases hseen : r.unparsed? c with _ | o
  · rw [hseen, Option.getD_none] at h
    unfold parsed at h
    split at h
    · simp at h
    · split at h
      · simp at h
      · rw [← Outcome.indexed.inj h]
        rfl
  · rw [hseen, Option.getD_some] at h
    exact absurd h (ne_indexed_of_unparsed? hseen f)

/-- What comes of a candidate is decided by its file; the index and the memory of the parser have no
part in it. -/
theorem take_conclude (hparser : s.parser.Sound S) (hsteady : S.Steady caller)
    (hmeets : S.Meets r.project.id r.project.rootPath c)
    (hwaits : caller.waits (.take c.relativePath) = true) :
    ∃ parser, parser.Sound S ∧
      r.take caller s c = r.conclude caller (s.over s.index parser) c (r.outcomeOf S.parse c) := by
  rw [take_eq, if_pos hwaits]
  unfold outcomeOf
  rcases hseen : r.unparsed? c with _ | o
  · obtain ⟨hanswer, hsound⟩ := hparser.parse hmeets.asks (hsteady _ hmeets.asks hwaits)
    have hpath : (c.request r.project.id).path = c.relativePath := rfl
    rw [hpath] at hanswer hsound
    refine ⟨_, hsound, ?_⟩
    simp only [hanswer, Option.getD_none]
    rcases r.parsed c _ with _ | _ | _ | _ <;> rfl
  · refine ⟨s.parser, hparser, ?_⟩
    cases o with
    | indexed f => exact absurd rfl (ne_indexed_of_unparsed? hseen f)
    | _ => rfl

theorem take_over (h : r.take caller s c = (s', .ok ())) (hparser : s.parser.Sound S)
    (hsteady : S.Steady caller) (hmeets : S.Meets r.project.id r.project.rootPath c) :
    ∃ ops, s'.index = s.index.enqueue ops ∧ (∀ op ∈ ops, op.Concerns r.project.id) ∧
      s'.parser.Sound S ∧ ∀ index parser, index.queue.isSome = true → parser.Sound S →
        ∃ parser', parser'.Sound S ∧ r.take caller (s.over index parser) c =
          (s'.over (index.enqueue ops) parser', .ok ()) := by
  have hwaits : caller.waits (.take c.relativePath) = true := (takes_of_take h).1
  obtain ⟨parser₁, hsound₁, htake⟩ := take_conclude hparser hsteady hmeets hwaits
  rw [htake] at h
  obtain ⟨ops, hindex, hconcerns, hsame, hconclude⟩ :=
    conclude_over h fun f => projectId_of_outcomeOf
  refine ⟨ops, hindex, hconcerns, by rwa [hsame], fun index parser hopen hsound => ?_⟩
  have hover : (s.over index parser).parser.Sound S := hsound
  obtain ⟨parser₂, hsound₂, htake₂⟩ := take_conclude hover hsteady hmeets hwaits
  refine ⟨parser₂, hsound₂, ?_⟩
  rw [htake₂]
  exact hconclude index parser₂ hopen

end Run

namespace Plan

variable {S : Setting} {p : Plan} {caller : Caller} {s s' : RunState} {errand next : Errand}

/-- The candidates that are left are some of those that were found. -/
def Within (p : Plan) : Errand → Prop
  | .take left => left ⊆ p.candidates
  | _ => True

/-- An errand of one engine comes to the same end in another one, with the same changes. -/
structure Portable (S : Setting) (projectId : String)
    (errand : RunState → RunState × Except Fault Errand) (s s' : RunState) (next : Errand) : Prop where
  sound : s'.parser.Sound S
  ported : ∃ ops, s'.index = s.index.enqueue ops ∧ (∀ op ∈ ops, op.Concerns projectId) ∧
    ∀ index parser, index.queue.isSome = true → parser.Sound S → ∃ parser', parser'.Sound S ∧
      errand (s.over index parser) = (s'.over (index.enqueue ops) parser', .ok next)

theorem portable_idle {projectId : String} {answer : RunState → Errand} (hparser : s.parser.Sound S)
    (hsame : ∀ index parser, answer (s.over index parser) = next) :
    Portable S projectId (fun s => (s, .ok (answer s))) s s next := by
  refine ⟨hparser, [], (Index.enqueue_nil _).symm, by simp,
    fun index parser _ hsound => ⟨parser, hsound, ?_⟩⟩
  rw [Index.enqueue_nil, hsame]

theorem portable_queueThen {projectId : String} {live : Bool} {op : WriteOp}
    {answer : Except Fault Errand} (h : queueThen live op answer s = (s', .ok next))
    (hparser : s.parser.Sound S) (hconcerns : op.Concerns projectId) :
    answer = .ok next ∧ Portable S projectId (queueThen live op answer) s s' next := by
  obtain ⟨rfl, hqueued⟩ := queueThen_eq_ok h
  have hs' := Run.queue_eq_ok hqueued
  refine ⟨rfl, by rwa [hs'], [op], by rw [hs'], by simpa using hconcerns,
    fun index parser hopen hsound => ⟨parser, hsound, ?_⟩⟩
  unfold queueThen
  rw [Run.queue_over hqueued hopen]

/-- What is right of a plan: its candidates are below the root of the project that will be saved. -/
structure Fits (p : Plan) (S : Setting) : Prop where
  meets : ∀ c ∈ p.candidates, S.Meets p.run.project.id p.run.project.rootPath c
  updated : p.updated.id = p.run.project.id

theorem proceed_portable (h : p.proceed caller s errand = (s', .ok next)) (hfits : p.Fits S)
    (hwithin : p.Within errand) (hparser : s.parser.Sound S) (hsteady : S.Steady caller) :
    p.Within next ∧ Portable S p.run.project.id (p.proceed caller · errand) s s' next := by
  unfold proceed at h ⊢
  split at h
  · split at h
    · rename_i hfresh
      obtain ⟨hnext, hportable⟩ := portable_queueThen h hparser rfl
      obtain rfl := Except.ok.inj hnext
      simp only [if_pos hfresh]
      exact ⟨List.Subset.refl _, hportable⟩
    · rename_i hfresh
      obtain ⟨rfl, hnext⟩ := Prod.mk.inj h
      obtain rfl := Except.ok.inj hnext
      simp only [if_neg hfresh]
      exact ⟨List.Subset.refl _, portable_idle hparser fun _ _ => rfl⟩
  · split at h
    · rename_i hwaits
      obtain ⟨rfl, hnext⟩ := Prod.mk.inj h
      obtain rfl := Except.ok.inj hnext
      simp only [if_pos hwaits]
      exact ⟨trivial, portable_idle hparser fun _ _ => rfl⟩
    · simp at h
  · rename_i c left
    split at h
    · rename_i s₁ htake
      obtain ⟨rfl, hnext⟩ := Prod.mk.inj h
      obtain rfl := Except.ok.inj hnext
      obtain ⟨ops, hindex, hconcerns, hsound, hover⟩ :=
        Run.take_over htake hparser hsteady (hfits.meets c (hwithin List.mem_cons_self))
      refine ⟨fun c' hc' => hwithin (List.mem_cons_of_mem c hc'), hsound, ops, hindex, hconcerns,
        fun index parser hopen hparser' => ?_⟩
      obtain ⟨parser', hsound', htake'⟩ := hover index parser hopen hparser'
      exact ⟨parser', hsound', by rw [htake']⟩
    · simp at h
  · obtain ⟨rfl, hnext⟩ := Prod.mk.inj h
    obtain rfl := Except.ok.inj hnext
    exact ⟨trivial, portable_idle hparser fun _ _ => rfl⟩
  · obtain ⟨hnext, hportable⟩ := portable_queueThen h hparser trivial
    obtain rfl := Except.ok.inj hnext
    exact ⟨trivial, hportable⟩
  · obtain ⟨hnext, hportable⟩ := portable_queueThen h hparser hfits.updated
    split at hnext
    · obtain rfl := Except.ok.inj hnext
      exact ⟨trivial, hportable⟩
    · simp at hnext
  · obtain ⟨rfl, hnext⟩ := Prod.mk.inj h
    obtain rfl := Except.ok.inj hnext
    exact ⟨trivial, portable_idle hparser fun _ _ => rfl⟩

/-- A run has come so far: it has queued changes for its project, and over any other index all its
errands come to what those come to that are left, once these changes have been queued. -/
structure Halfway (p : Plan) (S : Setting) (caller : Caller) (queue : List WriteOp) (s : RunState)
    (errand : Errand) : Prop where
  within : p.Within errand
  concerns : ∀ op ∈ queue, op.Concerns p.run.project.id
  fill : ∀ index parser, index.queue = some [] → parser.Sound S → ∃ parser', parser'.Sound S ∧
    p.run.fill caller (p.begun index parser) p.candidates p.updated =
      p.finish caller (s.over { index with queue := some queue } parser') errand

theorem halfway_begun (p : Plan) (S : Setting) (caller : Caller) (index : Index) (parser : Parser) :
    p.Halfway S caller [] (p.begun index parser) .clear := by
  refine ⟨trivial, by simp, fun index' parser' hqueue hsound => ⟨parser', hsound, ?_⟩⟩
  have hopened : ({ index' with queue := some [] } : Index) = index' := by rw [← hqueue]
  rw [hopened]
  rfl

theorem Halfway.over {queue : List WriteOp} (h : p.Halfway S caller queue s errand) (index : Index)
    (parser : Parser) : p.Halfway S caller queue (s.over index parser) errand :=
  ⟨h.within, h.concerns, h.fill⟩

theorem Halfway.proceed {queue : List WriteOp} (h : p.Halfway S caller queue s errand)
    (hnext : p.proceed caller s errand = (s', .ok next)) (hfits : p.Fits S)
    (hparser : s.parser.Sound S) (hsteady : S.Steady caller) :
    s'.parser.Sound S ∧ ∃ ops, s'.index = s.index.enqueue ops ∧
      p.Halfway S caller (queue ++ ops) s' next := by
  obtain ⟨hwithin, hsound, ops, hindex, hconcerns, hover⟩ :=
    proceed_portable hnext hfits h.within hparser hsteady
  refine ⟨hsound, ops, hindex, hwithin, ?_, fun index parser hqueue hparser' => ?_⟩
  · intro op hop
    exact (List.mem_append.mp hop).elim (h.concerns op) (hconcerns op)
  · obtain ⟨parser₁, hsound₁, hfill⟩ := h.fill index parser hqueue hparser'
    obtain ⟨parser₂, hsound₂, hproceed⟩ :=
      hover { index with queue := some queue } parser₁ rfl hsound₁
    refine ⟨parser₂, hsound₂, ?_⟩
    rw [hfill, finish_eq, hproceed]
    rfl

end Plan

end CodeAtlas
