import CodeAtlas.Proofs.Index.Writers
import Mathlib.Data.List.Infix

/-!
# Accepted changes are committed once and in order, or not at all

Whatever the order in which callers, workers and who opens writers take their steps, the committed tables
only ever become what all changes that a writer has accepted make of them, one after the other in the
order of their acceptance; where one of these fails, or the disk refuses, or the writer is rolled back,
they stay as they were.
-/

namespace CodeAtlas

/-- The end of a transaction in which all accepted changes have been made: the committed tables and the
answer. -/
def settle (clock : Nat → Instant) (before : Database) (accepted : List Ticket)
    (request : WriterRequest) (refusal : Option Cause) : Database × Except Fault Unit :=
  match request, applyAll clock before accepted, refusal with
  | .commit, .error f, _ => (before, .error (f.within "index write failed"))
  | .commit, .ok _, some cause => (before, .error ⟨["failed to commit index"], cause⟩)
  | .commit, .ok db, none => (db, .ok ())
  | _, _, some cause => (before, .error (.of cause))
  | _, _, none => (before, .ok ())

/-- When all changes are made at one time, a transaction ends as the commit of an index with these
changes in its queue does. -/
theorem settle_commit (now : Instant) (ix : Index) (accepted : List Ticket) (refusal : Option Cause) :
    ({ ix with queue := some (accepted.map Ticket.op) } : Index).commitUnless refusal now =
      ({ ix with
          database := (settle (fun _ => now) ix.database accepted .commit refusal).1, queue := none },
        (settle (fun _ => now) ix.database accepted .commit refusal).2) := by
  have happlied : (accepted.map Ticket.op).foldlM (·.write now) ix.database =
      applyAll (fun _ => now) ix.database accepted := by
    unfold applyAll
    rw [List.foldlM_map]
  unfold Index.commitUnless settle
  simp only [happlied]
  cases applyAll (fun _ => now) ix.database accepted with
  | error f => rfl
  | ok db => cases refusal <;> rfl

def WriterStep.caller : WriterStep → Option Nat
  | .enter n | .send n | .giveUp n _ | .leave n | .finish n _ | .release n => some n
  | .acquire | .begin .. | .call .. | .takeUp _ | .handle _ => none

namespace Writers

/-- What all who use writers can rely on. -/
structure Dependable (clock : Nat → Instant) (first : Database) (m : Writers) : Prop where
  /-- There is a token in the slot for each writer that is open, and for at most one. -/
  slot : m.slot = m.writers.countP (·.stage.hasToken) ∧ m.slot ≤ 1
  /-- A writer has accepted what was submitted without a failure, and nothing else. -/
  accepted : ∀ (i : Nat) (w : Writer), m.writers[i]? = some w → ∀ t, t ∈ w.accepted ↔ m.Sent i t
  /-- It has accepted nothing twice. -/
  once : ∀ (i : Nat) (w : Writer), m.writers[i]? = some w → (w.accepted.map Ticket.call).Nodup
  /-- Its worker makes the changes in the order of their acceptance, up to the first that fails. -/
  inOrder : ∀ (i : Nat) (w : Writer), m.writers[i]? = some w →
    w.handled <+: w.accepted ∧ w.state = applyAll clock w.base w.handled
  /-- Nobody sends into a queue that has been closed. -/
  sends : ∀ (n : Nat) (c : WriterCall) (w : Writer), m.calls[n]? = some c →
    m.writers[c.writer]? = some w → c.phase = .inside → w.stage = .accepting
  /-- A commit or a rollback that was not too late has ended the transaction when it returns. -/
  answers : ∀ (n : Nat) (c : WriterCall) (answer : Except Fault Unit), m.calls[n]? = some c →
    c.request.isEnd = true → c.phase = .returned answer →
    answer = closedAnswer ∨ ∃ e ∈ m.ends, e.call = n ∧ e.answer = answer
  /-- After a commit without a failure the committed tables are what all accepted changes made of those
  before it. -/
  commits : ∀ (n : Nat) (c : WriterCall) (w : Writer), m.calls[n]? = some c →
    m.writers[c.writer]? = some w → c.request = .commit → c.phase = .returned (.ok ()) →
    ∃ e ∈ m.ends, e.call = n ∧ w.handled = w.accepted ∧
      applyAll clock e.before w.accepted = .ok e.after
  /-- Every transaction ends once the worker is through, and with all accepted changes or with none. -/
  settles : ∀ e ∈ m.ends, ∃ c w refusal, m.calls[e.call]? = some c ∧
    m.writers[c.writer]? = some w ∧ (c.phase = .ended e.answer ∨ c.phase = .returned e.answer) ∧
    w.handled = w.accepted ∧ (e.after, e.answer) = settle clock e.before w.accepted c.request refusal
  /-- Nothing else changes the committed tables. -/
  chained : Chained first m.ends m.committed
  /-- Who marked a writer is answered once the worker has gone on. -/
  returns : ∀ (n : Nat) (c : WriterCall), m.calls[n]? = some c → c.phase = .draining →
    ∃ steps answer, (m.run clock steps).calls[n]? = some { c with phase := .returned answer }
  /-- Who uses a writer that has been marked changes nothing and is told so. -/
  late : ∀ (n : Nat) (c : WriterCall), m.calls[n]? = some c → c.late = true →
    (c.phase = .returned closedAnswer ∨ c.phase = .waiting ∧
      (m.step clock (.enter n)).calls[n]? = some { c with phase := .returned closedAnswer }) ∧
    ∀ s : WriterStep, s.caller = some n → ∃ calls, m.step clock s = { m with calls }

variable {clock : Nat → Instant} {first : Database} {m m' : Writers} {i n : Nat}
  {c : WriterCall} {w w' : Writer} {phase : CallPhase}

theorem Sound.mem_accepted_iff (h : m.Sound clock first) (hw : m.writers[i]? = some w) (t : Ticket) :
    t ∈ w.accepted ↔ m.Sent i t := by
  refine ⟨h.sent i w hw t, ?_⟩
  rintro ⟨c, hc, rfl, hrequest, hphase⟩
  obtain ⟨-, -, hstate⟩ := h.call_writer hc hw
  rw [hrequest] at hstate
  obtain hphase | hphase := hphase <;> rw [hphase] at hstate
  · cases hstate with
    | leaving hop _ hsent =>
        cases hop
        exact hsent rfl
  · generalize hanswer : Except.ok () = answer at hstate
    cases hstate with
    | submitted hop hsent =>
        cases hop
        exact hsent hanswer.symm
    | closed hend => cases hend
    | refused => cases hanswer

theorem Sound.answer_of_end (h : m.Sound clock first) (hc : m.calls[n]? = some c)
    (hrequest : c.request.isEnd = true) {answer : Except Fault Unit}
    (hphase : c.phase = .returned answer) :
    answer = closedAnswer ∨ ∃ e ∈ m.ends, e.call = n ∧ e.answer = answer := by
  obtain ⟨w, -, -, -, hstate⟩ := h.admitted n c hc
  rw [hphase] at hstate
  cases hstate with
  | submitted hop hsent =>
      rw [hop] at hrequest
      cases hrequest
  | closed _ he hcall => exact .inr ⟨_, he, hcall, rfl⟩
  | refused => exact .inl rfl

theorem ending_eq_settle (hstate : applyAll clock w.base w.accepted = w.state) (n : Nat)
    (request : WriterRequest) (refusal : Option Cause) :
    ((w.ending n request w.base refusal).after, (w.ending n request w.base refusal).answer) =
      settle clock w.base w.accepted request refusal := by
  unfold Writer.ending settle
  rw [hstate]
  cases request <;> cases w.state <;> cases refusal <;> rfl

theorem Sound.settles (h : m.Sound clock first) {e : WriterEnd} (he : e ∈ m.ends) :
    ∃ c w refusal, m.calls[e.call]? = some c ∧ m.writers[c.writer]? = some w ∧
      (c.phase = .ended e.answer ∨ c.phase = .returned e.answer) ∧ w.handled = w.accepted ∧
      (e.after, e.answer) = settle clock e.before w.accepted c.request refusal := by
  obtain ⟨c, w, refusal, hc, hw, hover, hphase, hbase, hend⟩ := h.ended e he
  have horderly := h.orderly _ w hw
  have hhandled : w.handled = w.accepted := by
    obtain ⟨hqueue, hhand⟩ := horderly.drained hover
    exact horderly.handled_eq (by simp [Writer.isDrained, hqueue, hhand])
  refine ⟨c, w, refusal, hc, hw, hphase, hhandled, ?_⟩
  have hsettle := ending_eq_settle (hhandled ▸ horderly.state) e.call c.request refusal
  rw [hbase, ← hend] at hsettle
  exact hsettle

theorem settle_eq_ok {before after : Database} {accepted : List Ticket} {refusal : Option Cause}
    (h : (after, .ok ()) = settle clock before accepted .commit refusal) :
    applyAll clock before accepted = .ok after := by
  unfold settle at h
  cases happlied : applyAll clock before accepted with
  | error f => simp [happlied] at h
  | ok db => cases refusal <;> simp_all

theorem Sound.commits (h : m.Sound clock first) (hc : m.calls[n]? = some c)
    (hw : m.writers[c.writer]? = some w) (hrequest : c.request = .commit)
    (hphase : c.phase = .returned (.ok ())) :
    ∃ e ∈ m.ends, e.call = n ∧ w.handled = w.accepted ∧
      applyAll clock e.before w.accepted = .ok e.after := by
  obtain hclosed | ⟨e, he, rfl, hanswer⟩ := h.answer_of_end hc (by rw [hrequest]; rfl) hphase
  · cases hclosed
  · obtain ⟨d, x, refusal, hd, hx, -, hhandled, hsettle⟩ := h.settles he
    obtain rfl := Option.some.inj (hc.symm.trans hd)
    obtain rfl := Option.some.inj (hw.symm.trans hx)
    rw [hrequest, hanswer] at hsettle
    exact ⟨e, he, rfl, hhandled, settle_eq_ok hsettle⟩

theorem Sound.late_enter (h : m.Sound clock first) (hc : m.calls[n]? = some c)
    (hlate : c.late = true) (hphase : c.phase = .waiting) :
    m.enter n = { m with calls := m.calls.set n { c with phase := .returned closedAnswer } } := by
  obtain ⟨w, hw, -, hmarked, -⟩ := h.admitted n c hc
  unfold enter
  rw [withCall_eq hc hw]
  simp only [hphase, (hmarked hlate).1, if_true, update, set_of_getElem? hw]

theorem Sound.late_step (h : m.Sound clock first) (hc : m.calls[n]? = some c)
    (hlate : c.late = true) {s : WriterStep} (hs : s.caller = some n) :
    ∃ calls, m.step clock s = { m with calls } := by
  obtain ⟨w, hw, -, hmarked, -⟩ := h.admitted n c hc
  have hphase := (hmarked hlate).2
  cases s with
  | acquire | «begin» | call | takeUp | handle => cases hs
  | enter k =>
      obtain rfl := Option.some.inj hs
      obtain hphase | hphase := hphase
      · exact ⟨_, h.late_enter hc hlate hphase⟩
      · refine ⟨m.calls, ?_⟩
        simp only [Writers.step, enter, withCall_eq hc hw, hphase]
  | send k | giveUp k | leave k | finish k | release k =>
      obtain rfl := Option.some.inj hs
      refine ⟨m.calls, ?_⟩
      obtain hphase | hphase := hphase <;>
        simp only [Writers.step, send, giveUp, leave, finish, release, withCall_eq hc hw, hphase]

theorem setWriter_setWriter (m : Writers) (i : Nat) (w w' : Writer) :
    (m.setWriter i w).setWriter i w' = m.setWriter i w' := by
  simp [setWriter]

theorem exists_drained_of_hand (clock : Nat → Instant) {queue : List Ticket} :
    ∀ {w : Writer}, w.queue = queue → w.hand = none → ∀ {m : Writers}, m.writers[i]? = some w →
      ∃ steps w', m.run clock steps = m.setWriter i w' ∧ w'.isDrained = true := by
  induction queue with
  | nil =>
      intro w hqueue hhand m hw
      exact ⟨[], w, by simp [run, setWriter, set_of_getElem? hw], by simp [Writer.isDrained, hqueue, hhand]⟩
  | cons t rest ih =>
      intro w hqueue hhand m hw
      let taken : Writer := { w with hand := some t, queue := rest }
      have htakeUp : m.takeUp i = m.setWriter i taken := by
        simp only [takeUp, withWriter_eq hw, hhand, hqueue, taken]
      have htaken : (m.setWriter i taken).writers[i]? = some taken := getElem?_set_of_getElem? hw taken
      have hhandle : (m.setWriter i taken).handle clock i = m.setWriter i (taken.handle clock t) := by
        simp only [handle, withWriter_eq htaken, setWriter_setWriter, taken]
      obtain ⟨steps, w', hrun, hdrained⟩ :=
        ih (w := taken.handle clock t) rfl rfl (m := m.setWriter i (taken.handle clock t))
          (getElem?_set_of_getElem? hw _)
      refine ⟨.takeUp i :: .handle i :: steps, w', ?_, hdrained⟩
      change ((m.takeUp i).handle clock i).run clock steps = _
      rw [htakeUp, hhandle, hrun, setWriter_setWriter]

theorem exists_drained (clock : Nat → Instant) (hw : m.writers[i]? = some w) :
    ∃ steps w', m.run clock steps = m.setWriter i w' ∧ w'.isDrained = true := by
  cases hhand : w.hand with
  | none => exact exists_drained_of_hand clock rfl hhand hw
  | some t =>
      have hhandle : m.handle clock i = m.setWriter i (w.handle clock t) := by
        simp only [handle, withWriter_eq hw, hhand]
      obtain ⟨steps, w', hrun, hdrained⟩ := exists_drained_of_hand clock rfl
        (show (w.handle clock t).hand = none from rfl) (m := m.setWriter i (w.handle clock t))
        (getElem?_set_of_getElem? hw _)
      refine ⟨.handle i :: steps, w', ?_, hdrained⟩
      change (m.handle clock i).run clock steps = _
      rw [hhandle, hrun, setWriter_setWriter]

theorem Sound.returns (h : m.Sound clock first) (hc : m.calls[n]? = some c)
    (hphase : c.phase = .draining) :
    ∃ steps answer, (m.run clock steps).calls[n]? = some { c with phase := .returned answer } := by
  obtain ⟨w, hw, -⟩ := h.admitted n c hc
  obtain ⟨steps, w', hrun, hdrained⟩ := exists_drained clock hw
  have hw' : (m.setWriter c.writer w').writers[c.writer]? = some w' := getElem?_set_of_getElem? hw w'
  have hc' : (m.setWriter c.writer w').calls[n]? = some c := hc
  refine ⟨steps ++ [.finish n none, .release n],
    (w'.ending n c.request m.committed none).answer, ?_⟩
  rw [run_append, hrun]
  have hfinish : ((m.setWriter c.writer w').finish n none).calls[n]? =
      some { c with phase := .ended (w'.ending n c.request m.committed none).answer } := by
    simp only [finish, withCall_eq hc' hw', hphase, hdrained, if_true]
    exact getElem?_set_of_getElem? hc _
  have hended : ((m.setWriter c.writer w').finish n none).writers[c.writer]? =
      some { w' with stage := .ended } := by
    simp only [finish, withCall_eq hc' hw', hphase, hdrained, if_true]
    exact getElem?_set_of_getElem? hw' _
  change (((m.setWriter c.writer w').finish n none).release n).calls[n]? = _
  unfold release
  rw [withCall_eq hfinish hended]
  exact getElem?_set_of_getElem? hfinish _

theorem Sound.dependable (h : m.Sound clock first) : m.Dependable clock first where
  slot := ⟨h.slot, h.single⟩
  accepted _ _ hw := h.mem_accepted_iff hw
  once := h.distinct
  inOrder i w hw := by
    have horderly := h.orderly i w hw
    refine ⟨?_, horderly.state.symm⟩
    rw [← horderly.order, List.append_assoc]
    exact List.prefix_append _ _
  sends _ _ _ hc hw := h.accepting_of_inside hc hw
  answers _ _ _ hc hrequest hphase := h.answer_of_end hc hrequest hphase
  commits _ _ _ hc hw hrequest hphase := h.commits hc hw hrequest hphase
  settles _ he := h.settles he
  chained := h.chained
  returns _ _ hc := h.returns hc
  late n c hc hlate := by
    obtain ⟨w, -, -, hmarked, -⟩ := h.admitted n c hc
    refine ⟨?_, fun s hs => h.late_step hc hlate hs⟩
    refine (hmarked hlate).2.symm.imp_right fun hphase => ⟨hphase, ?_⟩
    change (m.enter n).calls[n]? = _
    rw [h.late_enter hc hlate hphase]
    exact getElem?_set_of_getElem? hc _

/-- In whatever order steps are taken, all who use writers can rely on them. -/
theorem run_dependable (clock : Nat → Instant) (db : Database) (steps : List WriterStep) :
    ((start db).run clock steps).Dependable clock db :=
  ((sound_start clock db).run steps).dependable

def unindexed : Project :=
  { id := "p", name := "sample", rootPath := "/p", description := "", indexed := false
    lastIndexed := .zero, repositoryKind := "filesystem", branch := "", remoteUrl := ""
    createdAt := .zero }

/-- A table of projects with one project. -/
def oneProject : Database :=
  { Database.empty with schema := ⟨[("projects", true)], [], []⟩, projects := [⟨unindexed, []⟩] }

/-- Two callers save the project while a third one commits; the commit has to wait for both. -/
def savingTwice : List WriterStep :=
  [.acquire, .begin 0 false, .call 0 (.submit (.saveProject { unindexed with branch := "main" })),
    .call 0 (.submit (.saveProject { unindexed with indexed := true })), .call 0 .commit, .enter 1, .enter 0,
    .send 1, .enter 2, .takeUp 0, .send 0, .leave 0, .leave 1, .enter 2, .handle 0, .takeUp 0, .handle 0,
    .finish 2 none, .release 2]

/-- Both changes have been accepted and are committed in the order in which they were sent. -/
theorem saved_twice_committed :
    let m := (start oneProject).run (fun _ => .zero) savingTwice
    m.calls.map (·.phase) = .replicate 3 (.returned (.ok ())) ∧
    m.committed.projects.map (·.project) = [{ unindexed with branch := "main" }] ∧
    ∃ w, m.writers[0]? = some w ∧ w.accepted.map (·.call) = [1, 0] ∧
      (∀ t, t ∈ w.accepted ↔ m.Sent 0 t) ∧
      ∃ e ∈ m.ends, e.call = 2 ∧ applyAll (fun _ => .zero) e.before w.accepted = .ok e.after := by
  intro m
  have hdependable : m.Dependable (fun _ => .zero) oneProject := run_dependable _ _ savingTwice
  obtain ⟨w, hw, haccepted⟩ : ∃ w, m.writers[0]? = some w ∧ w.accepted.map (·.call) = [1, 0] := ⟨_, rfl, rfl⟩
  obtain ⟨e, he, hcall, -, happlied⟩ := hdependable.commits 2 ⟨0, .commit, false, .returned (.ok ())⟩ w rfl hw rfl rfl
  exact ⟨rfl, rfl, w, hw, haccepted, hdependable.accepted 0 w hw, e, he, hcall, happlied⟩

/-- There are no tables to delete from, so that the commit fails; who comes after it is turned away. -/
example :
    let steps := [.acquire, .begin 0 false, .call 0 (.submit (.deleteFile "f")), .call 0 .commit,
      .enter 0, .enter 1, .send 0, .leave 0, .enter 1, .takeUp 0, .handle 0, .finish 1 none,
      .call 0 .rollback, .release 1, .enter 2]
    let m := (start .empty).run (fun _ => .zero) steps
    m.slot = 0 ∧ m.calls.map (·.phase) = [.returned (.ok ()),
      .returned (.error ⟨["index write failed", "failed to delete document f"], .missing "documents"⟩),
      .returned closedAnswer] := by
  refine ⟨rfl, rfl⟩

end Writers

end CodeAtlas
