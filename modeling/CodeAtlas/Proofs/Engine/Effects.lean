import CodeAtlas.Proofs.Engine.Crew
import CodeAtlas.Proofs.Extract.Recall
import Mathlib.Data.List.Perm.Basic

/-!
# What workers do together

What comes of a candidate is decided by the run, the candidate and the answer that parsing it has. As
long as nobody fails or leaves, each candidate waits, is with one worker, or is through, and the state
of the run is made up of what came of those that are through and of the documents that were queued. So
in the end the order of the moves shows in the order of lists alone.
-/

namespace CodeAtlas

/-- Parsing is a function of what is asked: a request has its answer whatever was asked before. -/
def Parser.Answers (p : Parser) (requests : List ParseRequest)
    (answer : ParseRequest → Except TooLarge ParseResult) : Prop :=
  ∀ asked : List ParseRequest, (∀ q ∈ asked, q ∈ requests) → ∀ q ∈ requests,
    ((p.after (asked.map (.parse true))).parse true q).1.map Prod.fst = answer q

/-- A parser whose memory is right answers what is found in the file. -/
theorem Parser.Sound.answers {S : Setting} {p : Parser} (h : p.Sound S)
    {requests : List ParseRequest} (hrequests : ∀ q ∈ requests, S.Asks q) :
    p.Answers requests S.parse := by
  intro asked hasked q hq
  have hsound : (p.after (asked.map (.parse true))).Sound S := by
    refine List.foldlRecOn (motive := fun p : Parser => p.Sound S) _ _ h fun p hp call hcall => ?_
    obtain ⟨q', hq', rfl⟩ := List.mem_map.mp hcall
    exact (hp.parse (hrequests q' (hasked q' hq')) rfl).2
  exact (hsound.parse (hrequests q hq) rfl).1

namespace Outcome

def isSkipped : Outcome → Bool
  | skipped => true
  | _ => false

def isFailed : Outcome → Bool
  | failed _ => true
  | _ => false

def isUnchanged : Outcome → Bool
  | unchanged _ => true
  | _ => false

def isIndexed : Outcome → Bool
  | indexed _ => true
  | _ => false

/-- What is staged. -/
def entries (r : Run) (c : Candidate) : Outcome → List FileEntry
  | skipped => []
  | failed _ => if r.isFresh then [] else (r.prior? (r.idOf c)).toList
  | unchanged f => [f]
  | indexed f => [f]

def errors (c : Candidate) : Outcome → List String
  | failed message => [c.relativePath ++ ": " ++ message]
  | _ => []

def documents (c : Candidate) : Outcome → List Document
  | indexed f => [f.withText (decode c.content).text]
  | _ => []

end Outcome

namespace Run

variable (r : Run) (answer : ParseRequest → Except TooLarge ParseResult)

def outcomeOf (c : Candidate) : Outcome :=
  (r.unparsed? c).getD (r.parsed c (answer (c.request r.project.id)))

theorem outcomeOf_of_unparsed? {c : Candidate} {o : Outcome} (h : r.unparsed? c = some o) :
    r.outcomeOf answer c = o := by
  simp [outcomeOf, h]

def noteAll (s : RunState) (candidates : List Candidate) : RunState :=
  candidates.foldl (fun s c => r.note s c (r.outcomeOf answer c)) s

def documentsOf (candidates : List Candidate) : List Document :=
  candidates.flatMap fun c => (r.outcomeOf answer c).documents c

def entriesOf (candidates : List Candidate) : List FileEntry :=
  candidates.flatMap fun c => (r.outcomeOf answer c).entries r c

def errorsOf (candidates : List Candidate) : List String :=
  candidates.flatMap fun c => (r.outcomeOf answer c).errors c

/-- The number of candidates of which a kind of outcome comes. -/
def count (kind : Outcome → Bool) (candidates : List Candidate) : Nat :=
  candidates.countP fun c => kind (r.outcomeOf answer c)

variable {r answer} {s : RunState} {c : Candidate}

theorem note_eq (r : Run) (s : RunState) (c : Candidate) (o : Outcome) :
    r.note s c o = { s with
      staged := s.staged ++ o.entries r c
      errors := s.errors ++ o.errors c
      indexed := s.indexed + o.isIndexed.toNat
      unchanged := s.unchanged + o.isUnchanged.toNat
      skipped := s.skipped + o.isSkipped.toNat
      failed := s.failed + o.isFailed.toNat } := by
  cases o with
  | skipped => simp [note, Outcome.entries, Outcome.errors, Outcome.isIndexed, Outcome.isUnchanged,
      Outcome.isSkipped, Outcome.isFailed]
  | unchanged f => simp [note, Outcome.entries, Outcome.errors, Outcome.isIndexed,
      Outcome.isUnchanged, Outcome.isSkipped, Outcome.isFailed]
  | indexed f => simp [note, Outcome.entries, Outcome.errors, Outcome.isIndexed,
      Outcome.isUnchanged, Outcome.isSkipped, Outcome.isFailed]
  | failed message =>
      simp only [note, fail, Outcome.entries, Outcome.errors, Outcome.isIndexed,
        Outcome.isUnchanged, Outcome.isSkipped, Outcome.isFailed, Bool.toNat_true, Bool.toNat_false,
        Nat.add_zero]
      split <;> simp

theorem noteAll_eq (r : Run) (answer : ParseRequest → Except TooLarge ParseResult) (s : RunState)
    (candidates : List Candidate) :
    r.noteAll answer s candidates = { s with
      staged := s.staged ++ r.entriesOf answer candidates
      errors := s.errors ++ r.errorsOf answer candidates
      indexed := s.indexed + r.count answer Outcome.isIndexed candidates
      unchanged := s.unchanged + r.count answer Outcome.isUnchanged candidates
      skipped := s.skipped + r.count answer Outcome.isSkipped candidates
      failed := s.failed + r.count answer Outcome.isFailed candidates } := by
  induction candidates generalizing s with
  | nil => simp [noteAll, entriesOf, errorsOf, count]
  | cons c rest ih =>
      have hcount (kind : Outcome → Bool) (n : Nat) :
          n + (kind (r.outcomeOf answer c)).toNat + r.count answer kind rest =
            n + r.count answer kind (c :: rest) := by
        unfold count
        rw [List.countP_cons, Nat.add_assoc]
        cases kind (r.outcomeOf answer c) <;> simp [Nat.add_comm]
      have hfirst : r.noteAll answer s (c :: rest) =
          r.noteAll answer (r.note s c (r.outcomeOf answer c)) rest := rfl
      rw [hfirst, ih, note_eq]
      simp only [hcount, entriesOf, errorsOf, List.flatMap_cons, List.append_assoc]

/-- What a worker is about to do is right for its candidate. -/
def Due (r : Run) (answer : ParseRequest → Except TooLarge ParseResult) (c : Candidate) : Chore → Prop
  | .read => True
  | .parse => r.unparsed? c = none
  | .submit f => r.outcomeOf answer c = .indexed f
  | .note o => r.outcomeOf answer c = o

end Run

/-- What a worker has queued. -/
def Worker.queued (w : Worker) : List Document :=
  match w.chore with
  | .note o => o.documents w.candidate
  | _ => []

namespace Crew

variable {r : Run} {answer : ParseRequest → Except TooLarge ParseResult} {caller : Caller}
  {limit : Nat} {k k' : Crew}

/-- What a move does while nobody fails or leaves. -/
inductive Steps (r : Run) (caller : Caller) (k : Crew) : Crew → Prop where
  | idle : Steps r caller k k
  | handedOut {c : Candidate} {rest : List Candidate} (hwaiting : k.waiting = c :: rest) :
      Steps r caller k { k with waiting := rest, workers := k.workers ++ [⟨c, .read⟩] }
  | advanced {w : Worker} {others workers : List Worker} {s : RunState} {chore : Chore}
      (hworkers : k.workers.Perm (w :: others))
      (hadvance : r.advance caller.waits k.state w.candidate w.chore = (s, .ok (some chore)))
      (hafter : workers.Perm ({ w with chore } :: others)) :
      Steps r caller k { k with state := s, workers }
  | finished {w : Worker} {others : List Worker} {s : RunState}
      (hworkers : k.workers.Perm (w :: others))
      (hadvance : r.advance caller.waits k.state w.candidate w.chore = (s, .ok none)) :
      Steps r caller k
        { k with state := s, workers := others, through := k.through ++ [w.candidate] }

theorem waits_of_calm (h : k.calm = true) : k.waits caller = caller.waits :=
  funext fun stage => by simp [waits, h]

theorem calm_iff : k.calm = true ↔ k.fault? = none ∧ k.deserted = false := by
  simp [calm]

/-- A crew in which nobody has failed or left was one before, too. -/
theorem steps_of_calm {m : Move} (h : (k.step r caller limit m).calm = true) :
    k.calm = true ∧ k.Steps r caller (k.step r caller limit m) := by
  cases m with
  | handOut =>
      simp only [step] at h ⊢
      split
      · exact ⟨by simpa [*] using h, .idle⟩
      · rename_i c rest hwaiting
        simp only [hwaiting] at h
        split
        · rename_i hroom
          rw [if_pos hroom] at h
          exact ⟨h, .handedOut hwaiting⟩
        · rename_i hroom
          rw [if_neg hroom] at h
          exact ⟨h, .idle⟩
  | desert => simp [step, calm] at h
  | stop =>
      simp only [step] at h ⊢
      by_cases hcalm : k.calm = true
      · rw [if_pos hcalm]
        exact ⟨hcalm, .idle⟩
      · rw [if_neg hcalm] at h
        exact absurd h hcalm
  | work i =>
      simp only [step, work] at h ⊢
      rcases hget : k.workers[i]? with _ | w
      · rw [hget] at h
        exact ⟨h, .idle⟩
      · rw [hget] at h
        obtain ⟨hi, hw⟩ := List.getElem?_eq_some_iff.mp hget
        have hworkers : k.workers.Perm (w :: k.workers.eraseIdx i) := by
          rw [← hw]
          exact (List.getElem_cons_eraseIdx_perm hi).symm
        simp only at h ⊢
        rcases hadvance : r.advance (k.waits caller) k.state w.candidate w.chore with
          ⟨s, f | _ | chore⟩
        · rw [hadvance] at h
          obtain ⟨hnone, -⟩ := calm_iff.mp h
          simp at hnone
        · rw [hadvance] at h
          have hcalm : k.calm = true := h
          rw [waits_of_calm hcalm] at hadvance
          exact ⟨hcalm, .finished hworkers hadvance⟩
        · rw [hadvance] at h
          have hcalm : k.calm = true := h
          rw [waits_of_calm hcalm] at hadvance
          exact ⟨hcalm, .advanced hworkers hadvance (List.set_perm_cons_eraseIdx hi _)⟩

/-- What holds of a crew at its start and is kept by each step holds as long as nobody fails or
leaves. -/
theorem run_preserves {P : Crew → Prop}
    (hsteps : ∀ k k', k.calm = true → k.Steps r caller k' → P k → P k') {moves : List Move}
    (hstart : P k) (h : (k.run r caller limit moves).calm = true) :
    P (k.run r caller limit moves) := by
  induction moves using List.reverseRecOn with
  | nil => exact hstart
  | append_singleton moves m ih =>
      rw [run_append] at h ⊢
      obtain ⟨hcalm, hstep⟩ := steps_of_calm h
      exact hsteps _ _ hcalm hstep (ih hcalm)

/-! ## Every candidate is taken up once -/

/-- Each of the candidates waits, is with a worker, or is through. -/
def Shares (candidates : List Candidate) (k : Crew) : Prop :=
  candidates.Perm (k.waiting ++ k.workers.map (·.candidate) ++ k.through)

theorem Shares.steps {candidates : List Candidate} (h : k.Shares candidates)
    (hsteps : k.Steps r caller k') : k'.Shares candidates := by
  unfold Shares at h ⊢
  cases hsteps with
  | idle => exact h
  | @handedOut c rest hwaiting =>
      rw [hwaiting] at h
      have hmoved : (c :: (rest ++ k.workers.map (·.candidate) ++ k.through)).Perm
          (rest ++ k.workers.map (·.candidate) ++ c :: k.through) := List.perm_middle.symm
      exact h.trans (by simpa using hmoved)
  | @advanced w others workers s chore hworkers _ hafter =>
      have hsame : (k.workers.map (·.candidate)).Perm (workers.map (·.candidate)) :=
        (hworkers.map (·.candidate)).trans (hafter.map (·.candidate)).symm
      exact h.trans ((hsame.append_left k.waiting).append_right k.through)
  | @finished w others s hworkers _ =>
      have hleft := ((hworkers.map (·.candidate)).append_left k.waiting).append_right k.through
      have hlast := (List.perm_append_singleton w.candidate (others.map (·.candidate))).symm
      have hmoved : ([w.candidate] ++ k.through).Perm (k.through ++ [w.candidate]) :=
        List.perm_append_comm
      refine (h.trans hleft).trans (((hlast.append_left k.waiting).append_right k.through).trans ?_)
      simpa using hmoved.append_left (k.waiting ++ others.map (·.candidate))

/-- A crew that hands back no fault has nobody left who failed or waits. -/
theorem outcome_eq_ok {s : RunState} (h : k.outcome caller = (s, .ok ())) :
    k.calm = true ∧ k.waiting = [] ∧ k.workers = [] ∧ k.state = s := by
  unfold outcome at h
  obtain ⟨hs, h⟩ := Prod.mk.inj h
  split at h
  · simp at h
  · split at h
    · rename_i hdone
      simp only [waits, Bool.and_eq_true, List.isEmpty_iff] at hdone
      exact ⟨hdone.1.1.2, hdone.1.2, hdone.2, hs⟩
    · simp at h

/-- Whoever the caller is, and in whatever order the workers move: candidates are all taken up exactly
once, or the run fails. -/
theorem through_perm {s s' : RunState} {candidates : List Candidate} {moves : List Move}
    (h : r.takeAllBy caller limit moves s candidates = (s', .ok ())) :
    (((start s candidates).run r caller limit moves).through).Perm candidates := by
  obtain ⟨hcalm, hwaiting, hworkers, -⟩ := outcome_eq_ok h
  have hshares := run_preserves (P := Shares candidates) (fun _ _ _ hsteps hk => hk.steps hsteps)
    (k := start s candidates) (by simp [Shares, start]) hcalm
  unfold Shares at hshares
  rw [hwaiting, hworkers] at hshares
  exact hshares.symm

/-! ## What the candidates leave together -/

/-- The state of the run is made up of what came of the candidates that are through, of documents that
were queued for them or by the workers, and of what the parser was asked for some candidates. -/
structure Gathers (r : Run) (answer : ParseRequest → Except TooLarge ParseResult)
    (s₀ : RunState) (candidates : List Candidate) (k : Crew) : Prop where
  shares : k.Shares candidates
  due : ∀ w ∈ k.workers, r.Due answer w.candidate w.chore
  state : ∃ asked : List Candidate, ∃ documents : List Document,
    (∀ c ∈ asked, c ∈ candidates) ∧
    documents.Perm (r.documentsOf answer k.through ++ k.workers.flatMap Worker.queued) ∧
    k.state = { r.noteAll answer s₀ k.through with
      parser := s₀.parser.after (asked.map fun c => .parse true (c.request r.project.id))
      index := s₀.index.enqueue (documents.map .put) }

theorem documents_of_unparsed? {c : Candidate} {o : Outcome} (h : r.unparsed? c = some o) :
    o.documents c = [] := by
  obtain ⟨message, -, rfl⟩ | ⟨-, -, rfl⟩ | ⟨f, -, -, -, rfl⟩ := Run.unparsed?_cases h
  · rfl
  · rfl
  · rfl

/-- What a worker queues in a step is added to what has been queued. -/
theorem queued_perm {w w' : Worker} {others workers : List Worker}
    {documents noted : List Document} (hworkers : k.workers.Perm (w :: others))
    (hafter : workers.Perm (w' :: others)) (hbefore : w.queued = [])
    (h : documents.Perm (noted ++ k.workers.flatMap Worker.queued)) :
    (documents ++ w'.queued).Perm (noted ++ workers.flatMap Worker.queued) := by
  have hothers : (k.workers.flatMap Worker.queued).Perm (others.flatMap Worker.queued) := by
    simpa [hbefore] using hworkers.flatMap_right Worker.queued
  have hnew : (others.flatMap Worker.queued ++ w'.queued).Perm (workers.flatMap Worker.queued) :=
    List.perm_append_comm.trans (by simpa using (hafter.flatMap_right Worker.queued).symm)
  calc
    (documents ++ w'.queued).Perm (noted ++ k.workers.flatMap Worker.queued ++ w'.queued) :=
      h.append_right _
    List.Perm _ (noted ++ others.flatMap Worker.queued ++ w'.queued) :=
      (hothers.append_left noted).append_right _
    _ = noted ++ (others.flatMap Worker.queued ++ w'.queued) := List.append_assoc ..
    List.Perm _ (noted ++ workers.flatMap Worker.queued) := hnew.append_left noted

section

variable {s₀ s : RunState} {candidates : List Candidate} {w : Worker}
  {others workers : List Worker} {chore : Chore}

theorem Gathers.candidate_mem (h : k.Gathers r answer s₀ candidates) (hw : w ∈ k.workers) :
    w.candidate ∈ candidates := by
  have hmem : w.candidate ∈ k.workers.map (·.candidate) := List.mem_map_of_mem hw
  exact h.shares.mem_iff.mpr (by simp [hmem])

/-- The workers are right again when the one that moved is. -/
theorem Gathers.due_of_perm (h : k.Gathers r answer s₀ candidates)
    (hworkers : k.workers.Perm (w :: others)) (hafter : workers.Perm ({ w with chore } :: others))
    (hdue : r.Due answer w.candidate chore) : ∀ w ∈ workers, r.Due answer w.candidate w.chore := by
  intro v hv
  rcases List.mem_cons.mp (hafter.mem_iff.mp hv) with rfl | hother
  · exact hdue
  · exact h.due v (hworkers.mem_iff.mpr (List.mem_cons_of_mem w hother))

theorem Gathers.read (h : k.Gathers r answer s₀ candidates)
    (hworkers : k.workers.Perm (w :: others)) (hafter : workers.Perm ({ w with chore } :: others))
    (hshares : ({ k with state := s, workers } : Crew).Shares candidates)
    (hadvance : r.advance caller.waits k.state w.candidate .read = (s, .ok (some chore)))
    (hchore : w.chore = .read) :
    ({ k with state := s, workers } : Crew).Gathers r answer s₀ candidates := by
  have hbefore : w.queued = [] := by simp [Worker.queued, hchore]
  simp only [Run.advance] at hadvance
  split at hadvance
  · obtain ⟨rfl, hchore'⟩ := Prod.mk.inj hadvance
    obtain rfl := Option.some.inj (Except.ok.inj hchore')
    obtain ⟨asked, documents, hasked, hdocuments, hstate⟩ := h.state
    have hqueued := queued_perm hworkers hafter hbefore hdocuments
    rcases hseen : r.unparsed? w.candidate with _ | o
    · rw [hseen] at hafter hqueued
      refine ⟨hshares, h.due_of_perm hworkers hafter hseen, asked, documents, hasked, ?_, hstate⟩
      simpa [Worker.queued] using hqueued
    · rw [hseen] at hafter hqueued
      have hnone := documents_of_unparsed? hseen
      have hdue := r.outcomeOf_of_unparsed? answer hseen
      refine ⟨hshares, h.due_of_perm hworkers hafter hdue, asked, documents, hasked, ?_, hstate⟩
      simpa [Worker.queued, hnone] using hqueued
  · simp at hadvance

theorem Gathers.parse (h : k.Gathers r answer s₀ candidates)
    (hanswers : s₀.parser.Answers (candidates.map (·.request r.project.id)) answer)
    (hwaits : ∀ path, caller.waits (.parse path) = true)
    (hworkers : k.workers.Perm (w :: others)) (hafter : workers.Perm ({ w with chore } :: others))
    (hshares : ({ k with state := s, workers } : Crew).Shares candidates)
    (hadvance : r.advance caller.waits k.state w.candidate .parse = (s, .ok (some chore)))
    (hchore : w.chore = .parse) :
    ({ k with state := s, workers } : Crew).Gathers r answer s₀ candidates := by
  have hmem : w ∈ k.workers := hworkers.mem_iff.mpr List.mem_cons_self
  have hunseen : r.unparsed? w.candidate = none := by simpa [hchore, Run.Due] using h.due w hmem
  have hbefore : w.queued = [] := by simp [Worker.queued, hchore]
  obtain ⟨asked, documents, hasked, hdocuments, hstate⟩ := h.state
  have hparser := congrArg RunState.parser hstate
  simp only at hparser
  have hanswer : (k.state.parser.parse true (w.candidate.request r.project.id)).1.map Prod.fst =
      answer (w.candidate.request r.project.id) := by
    have hrequests := hanswers (asked.map (·.request r.project.id))
      (fun q hq => by
        obtain ⟨c, hc, rfl⟩ := List.mem_map.mp hq
        exact List.mem_map_of_mem (hasked c hc))
      _ (List.mem_map_of_mem (h.candidate_mem hmem))
    rw [hparser]
    simpa [List.map_map, Function.comp_def] using hrequests
  have houtcome : r.outcomeOf answer w.candidate =
      r.parsed w.candidate (answer (w.candidate.request r.project.id)) := by
    simp [Run.outcomeOf, hunseen]
  simp only [Run.advance, hwaits, hanswer] at hadvance
  obtain ⟨rfl, hchore'⟩ := Prod.mk.inj hadvance
  obtain rfl := Option.some.inj (Except.ok.inj hchore')
  have hqueued := queued_perm hworkers hafter hbefore hdocuments
  rw [← houtcome] at hafter hqueued
  refine ⟨hshares, h.due_of_perm hworkers hafter ?_, asked ++ [w.candidate], documents, ?_, ?_, ?_⟩
  · rcases houtcomes : r.outcomeOf answer w.candidate with _ | _ | _ | f <;> exact houtcomes
  · intro c hc
    rcases List.mem_append.mp hc with hc | hc
    · exact hasked c hc
    · rw [List.mem_singleton.mp hc]
      exact h.candidate_mem hmem
  · rcases houtcomes : r.outcomeOf answer w.candidate with _ | _ | _ | f <;>
      simpa [houtcomes, Worker.queued, Outcome.documents] using hqueued
  · rw [List.map_append, List.map_singleton, Parser.after_append, ← hparser]
    simp only [hstate]
    rfl

theorem Gathers.submit (h : k.Gathers r answer s₀ candidates)
    (hworkers : k.workers.Perm (w :: others)) (hafter : workers.Perm ({ w with chore } :: others))
    (hshares : ({ k with state := s, workers } : Crew).Shares candidates) {f : FileEntry}
    (hadvance : r.advance caller.waits k.state w.candidate (.submit f) = (s, .ok (some chore)))
    (hchore : w.chore = .submit f) :
    ({ k with state := s, workers } : Crew).Gathers r answer s₀ candidates := by
  have hmem : w ∈ k.workers := hworkers.mem_iff.mpr List.mem_cons_self
  have hdue : r.outcomeOf answer w.candidate = .indexed f := by
    simpa [hchore, Run.Due] using h.due w hmem
  have hbefore : w.queued = [] := by simp [Worker.queued, hchore]
  obtain ⟨hchore', rfl⟩ := Run.advance_submit hadvance
  obtain rfl := Option.some.inj hchore'
  obtain ⟨asked, documents, hasked, hdocuments, hstate⟩ := h.state
  refine ⟨hshares, h.due_of_perm hworkers hafter hdue, asked,
    documents ++ [f.withText (decode w.candidate.content).text], hasked,
    queued_perm hworkers hafter hbefore hdocuments, ?_⟩
  have hindex := congrArg RunState.index hstate
  simp only at hindex
  rw [hindex, Index.enqueue_enqueue, hstate, List.map_append, List.map_singleton]

theorem Gathers.finish (h : k.Gathers r answer s₀ candidates)
    (hworkers : k.workers.Perm (w :: others))
    (hshares : ({ k with
      state := s, workers := others, through := k.through ++ [w.candidate] } : Crew).Shares
      candidates)
    (hadvance : r.advance caller.waits k.state w.candidate w.chore = (s, .ok none)) :
    ({ k with
      state := s, workers := others, through := k.through ++ [w.candidate] } : Crew).Gathers r answer
      s₀ candidates := by
  have hmem : w ∈ k.workers := hworkers.mem_iff.mpr List.mem_cons_self
  have hdue := h.due w hmem
  rcases w with ⟨c, _ | _ | f | o⟩
  · simp only [Run.advance] at hadvance
    split at hadvance <;> simp at hadvance
  · simp [Run.advance] at hadvance
  · exact absurd (Run.advance_submit hadvance).1 (by simp)
  · obtain ⟨rfl, -⟩ := Prod.mk.inj hadvance
    obtain ⟨asked, documents, hasked, hdocuments, hstate⟩ := h.state
    have houtcome : r.outcomeOf answer c = o := hdue
    refine ⟨hshares, fun v hv => h.due v (hworkers.mem_iff.mpr (List.mem_cons_of_mem _ hv)), asked,
      documents, hasked, ?_, ?_⟩
    · have hothers : (k.workers.flatMap Worker.queued).Perm
          (o.documents c ++ others.flatMap Worker.queued) := by
        simpa [Worker.queued] using hworkers.flatMap_right Worker.queued
      refine hdocuments.trans ((hothers.append_left _).trans ?_)
      simp [Run.documentsOf, houtcome]
    · have hlast : r.noteAll answer s₀ (k.through ++ [c]) =
          r.note (r.noteAll answer s₀ k.through) c o := by
        simp [Run.noteAll, houtcome]
      rw [hlast, Run.note_eq, hstate, Run.note_eq]

theorem Gathers.steps (h : k.Gathers r answer s₀ candidates)
    (hanswers : s₀.parser.Answers (candidates.map (·.request r.project.id)) answer)
    (hwaits : ∀ path, caller.waits (.parse path) = true) (hsteps : k.Steps r caller k') :
    k'.Gathers r answer s₀ candidates := by
  have hshares := h.shares.steps hsteps
  cases hsteps with
  | idle => exact h
  | @handedOut c rest hwaiting =>
      obtain ⟨asked, documents, hasked, hdocuments, hstate⟩ := h.state
      refine ⟨hshares, fun w hw => ?_, asked, documents, hasked, ?_, hstate⟩
      · rcases List.mem_append.mp hw with hw | hw
        · exact h.due w hw
        · rw [List.mem_singleton.mp hw]
          exact trivial
      · simpa [Worker.queued] using hdocuments
  | @advanced w others workers s chore hworkers hadvance hafter =>
      rcases hchore : w.chore with _ | _ | f | o
      all_goals rw [hchore] at hadvance
      · exact h.read hworkers hafter hshares hadvance hchore
      · exact h.parse hanswers hwaits hworkers hafter hshares hadvance hchore
      · exact h.submit hworkers hafter hshares hadvance hchore
      · simp [Run.advance] at hadvance
  | finished hworkers hadvance => exact h.finish hworkers hshares hadvance

/-- What a crew hands back that is through: what came of all candidates, in some order, and their
documents in another one. -/
theorem gathers_of_takeAllBy {moves : List Move} (s₀ : RunState)
    (hanswers : s₀.parser.Answers (candidates.map (·.request r.project.id)) answer)
    (hwaits : ∀ path, caller.waits (.parse path) = true)
    (h : r.takeAllBy caller limit moves s₀ candidates = (s, .ok ())) :
    ∃ (through : List Candidate) (documents : List Document) (parser : Parser),
      through.Perm candidates ∧ documents.Perm (r.documentsOf answer through) ∧
      s = { r.noteAll answer s₀ through with
        parser, index := s₀.index.enqueue (documents.map .put) } := by
  obtain ⟨hcalm, -, hworkers, hs⟩ := outcome_eq_ok h
  have hstart : (start s₀ candidates).Gathers r answer s₀ candidates := by
    refine ⟨by simp [Shares, start], by simp [start], [], [], by simp, ?_, ?_⟩
    · simp [start, Run.documentsOf]
    · simp [start, Run.noteAll, Parser.after]
  have hgathers := run_preserves (P := Gathers r answer s₀ candidates)
    (fun _ _ _ hsteps hk => hk.steps hanswers hwaits hsteps) hstart hcalm
  obtain ⟨asked, documents, -, hdocuments, hstate⟩ := hgathers.state
  rw [hworkers, List.flatMap_nil, List.append_nil] at hdocuments
  exact ⟨_, documents, _, through_perm h, hdocuments, hs.symm.trans hstate⟩

end

end Crew

end CodeAtlas
