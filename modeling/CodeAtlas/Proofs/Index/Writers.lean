import CodeAtlas.Proofs.Index.WriterSteps
import Mathlib.Data.List.Nodup

/-!
# What becomes of accepted changes

A submission keeps its writer open while it sends, so that a writer is marked only when nothing can get
into its queue any more; who marked it is alone in waiting for the worker, in ending the transaction and
in giving back the token. Hence the worker has been through all that was accepted when the transaction
ends, and there is never a second writer whose transaction could have changed the tables meanwhile.
-/

namespace CodeAtlas

/-- Makes changes one after the other, each at its time, up to the first that fails. -/
def applyAll (clock : Nat → Instant) (db : Database) (tickets : List Ticket) : Except Fault Database :=
  tickets.foldlM (fun db t => db.write (clock t.call) t.op) db

theorem applyAll_append (clock : Nat → Instant) (db : Database) (first second : List Ticket) :
    applyAll clock db (first ++ second) = applyAll clock db first >>= fun db => applyAll clock db second :=
  List.foldlM_append

namespace Writer

/-- The record of a writer is right: what it accepted has gone through queue and hand in order, and its
transaction has what the worker made of it. -/
structure Orderly (w : Writer) (clock : Nat → Instant) : Prop where
  order : w.handled ++ w.hand.toList ++ w.queue = w.accepted
  state : applyAll clock w.base w.handled = w.state
  drained : w.stage.isOver = true → w.queue = [] ∧ w.hand = none

variable {w : Writer} {clock : Nat → Instant} {t : Ticket}

theorem orderly_opening (db : Database) : (opening db).Orderly clock :=
  ⟨rfl, rfl, fun h => by cases h⟩

theorem Orderly.accept (h : w.Orderly clock) (t : Ticket) (hstage : w.stage.isOver = false) :
    (w.accept t).Orderly clock := by
  refine ⟨?_, h.state, fun hover => ?_⟩
  · simp only [Writer.accept]
    rw [← h.order]
    simp
  · exact absurd hover (by simp [Writer.accept, hstage])

theorem Orderly.takeUp (h : w.Orderly clock) (hhand : w.hand = none) {rest : List Ticket}
    (hqueue : w.queue = t :: rest) : Orderly { w with hand := some t, queue := rest } clock := by
  refine ⟨?_, h.state, fun hover => ?_⟩
  · rw [← h.order, hhand, hqueue]
    simp
  · have hempty := (h.drained hover).1
    rw [hqueue] at hempty
    cases hempty

theorem Orderly.handle (h : w.Orderly clock) (hhand : w.hand = some t) :
    (w.handle clock t).Orderly clock := by
  refine ⟨?_, ?_, fun hover => ?_⟩
  · simp only [Writer.handle]
    rw [← h.order, hhand]
    simp
  · simp only [Writer.handle]
    rw [applyAll_append, h.state]
    cases w.state with
    | error f => rfl
    | ok db =>
        change applyAll clock db [t] = _
        simp [applyAll]
  · have hnone := (h.drained hover).2
    rw [hhand] at hnone
    cases hnone

/-- When a worker is through, all that was accepted has been handled. -/
theorem Orderly.handled_eq (h : w.Orderly clock) (hdrained : w.isDrained = true) :
    w.handled = w.accepted := by
  unfold isDrained at hdrained
  simp only [Bool.and_eq_true, List.isEmpty_iff, Option.isNone_iff_eq_none] at hdrained
  rw [← h.order, hdrained.1, hdrained.2]
  simp

end Writer

/-- What a phase says about a call and its writer. -/
inductive CallState (n : Nat) (request : WriterRequest) (w : Writer) (ends : List WriterEnd) :
    CallPhase → Prop where
  | waiting : CallState n request w ends .waiting
  | inside {op : WriteOp} (hrequest : request = .submit op) (hstage : w.stage = .accepting) :
      CallState n request w ends .inside
  | leaving {op : WriteOp} {answer : Except Fault Unit} (hrequest : request = .submit op)
      (hstage : w.stage = .accepting) (hsent : answer = .ok () → ⟨n, op⟩ ∈ w.accepted) :
      CallState n request w ends (.leaving answer)
  | draining (hrequest : request.isEnd = true) (hstage : w.stage = .marked)
      (hcloser : w.closer = some n) : CallState n request w ends .draining
  | ended {e : WriterEnd} (hrequest : request.isEnd = true) (hstage : w.stage = .ended)
      (hcloser : w.closer = some n) (he : e ∈ ends) (hcall : e.call = n) :
      CallState n request w ends (.ended e.answer)
  | submitted {op : WriteOp} {answer : Except Fault Unit} (hrequest : request = .submit op)
      (hsent : answer = .ok () → ⟨n, op⟩ ∈ w.accepted) :
      CallState n request w ends (.returned answer)
  | closed {e : WriterEnd} (hrequest : request.isEnd = true) (he : e ∈ ends) (hcall : e.call = n) :
      CallState n request w ends (.returned e.answer)
  | refused (hmarked : w.stage.isMarked = true) : CallState n request w ends (.returned closedAnswer)

/-- Nothing that has been said of a writer is taken back as it moves on. -/
structure Writer.Advances (w w' : Writer) : Prop where
  opened : w.stage.isOpened = true → w'.stage.isOpened = true
  marked : w.stage.isMarked = true → w'.stage.isMarked = true
  final : w.stage.isOver = true → w'.stage.isOver = true ∧ w'.base = w.base ∧ w'.state = w.state
  accepted : ∀ t ∈ w.accepted, t ∈ w'.accepted

theorem Writer.Advances.refl (w : Writer) : w.Advances w :=
  ⟨id, id, fun hover => ⟨hover, rfl, rfl⟩, fun _ ht => ht⟩

/-- A writer moves on so that a call that uses it need not notice. -/
structure Writer.Spares (w w' : Writer) (n : Nat) (phase : CallPhase) : Prop where
  accepting : w.stage = .accepting → phase.keepsOpen = true → w'.stage = .accepting
  closing : w.closer = some n → w.stage = .marked ∨ w.stage = .ended →
    w'.stage = w.stage ∧ w'.closer = some n

theorem Writer.Spares.of_eq {w w' : Writer} {n : Nat} {phase : CallPhase}
    (hsame : w'.stage = w.stage ∧ w'.closer = w.closer) : w.Spares w' n phase :=
  ⟨fun haccepting _ => hsame.1.trans haccepting, fun hn _ => ⟨hsame.1, hsame.2.trans hn⟩⟩

theorem CallState.follow {n : Nat} {request : WriterRequest} {w w' : Writer}
    {ends ends' : List WriterEnd} {phase : CallPhase} (h : CallState n request w ends phase)
    (hadvances : w.Advances w') (hspares : w.Spares w' n phase) (hends : ∀ e ∈ ends, e ∈ ends') :
    CallState n request w' ends' phase := by
  cases h with
  | waiting => exact .waiting
  | inside hrequest hstage => exact .inside hrequest (hspares.accepting hstage rfl)
  | leaving hrequest hstage hsent =>
      exact .leaving hrequest (hspares.accepting hstage rfl)
        fun hok => hadvances.accepted _ (hsent hok)
  | draining hrequest hstage hcloser =>
      obtain ⟨hstage', hcloser'⟩ := hspares.closing hcloser (.inl hstage)
      exact .draining hrequest (hstage'.trans hstage) hcloser'
  | ended hrequest hstage hcloser he hcall =>
      obtain ⟨hstage', hcloser'⟩ := hspares.closing hcloser (.inr hstage)
      exact .ended hrequest (hstage'.trans hstage) hcloser' (hends _ he) hcall
  | submitted hrequest hsent => exact .submitted hrequest fun hok => hadvances.accepted _ (hsent hok)
  | closed hrequest he hcall => exact .closed hrequest (hends _ he) hcall
  | refused hmarked => exact .refused (hadvances.marked hmarked)

/-- The ends of transactions follow on each other, from the first tables to the last. -/
def Chained : Database → List WriterEnd → Database → Prop
  | first, [], last => first = last
  | first, e :: rest, last => e.before = first ∧ Chained e.after rest last

theorem Chained.snoc {first last : Database} {ends : List WriterEnd} (h : Chained first ends last)
    {e : WriterEnd} (he : e.before = last) : Chained first (ends ++ [e]) e.after := by
  induction ends generalizing first with
  | nil => exact ⟨he.trans h.symm, rfl⟩
  | cons e' rest ih => exact ⟨h.1, ih h.2⟩

namespace Writers

/-- The submission with the ticket's number has got the ticket into the queue of the writer. -/
def Sent (m : Writers) (i : Nat) (t : Ticket) : Prop :=
  ∃ c, m.calls[t.call]? = some c ∧ c.writer = i ∧ c.request = .submit t.op ∧
    (c.phase = .leaving (.ok ()) ∨ c.phase = .returned (.ok ()))

/-- A call and its writer are as the phase of the call says; one that was made after the writer had been
marked is refused. -/
def Admitted (m : Writers) (n : Nat) (c : WriterCall) : Prop :=
  ∃ w, m.writers[c.writer]? = some w ∧ w.stage.isOpened = true ∧
    (c.late = true → w.stage.isMarked = true ∧ (c.phase = .waiting ∨ c.phase = .returned closedAnswer)) ∧
    CallState n c.request w m.ends c.phase

def Ended (m : Writers) (e : WriterEnd) : Prop :=
  ∃ c w refusal, m.calls[e.call]? = some c ∧ m.writers[c.writer]? = some w ∧
    w.stage.isOver = true ∧ (c.phase = .ended e.answer ∨ c.phase = .returned e.answer) ∧
    w.base = e.before ∧ e = w.ending e.call c.request e.before refusal

/-- What every step keeps. -/
structure Sound (clock : Nat → Instant) (first : Database) (m : Writers) : Prop where
  slot : m.slot = m.writers.countP (·.stage.hasToken)
  single : m.slot ≤ slotSize
  orderly : ∀ (i : Nat) (w : Writer), m.writers[i]? = some w → w.Orderly clock
  based : ∀ (i : Nat) (w : Writer), m.writers[i]? = some w → w.stage = .accepting ∨ w.stage = .marked →
    w.base = m.committed
  distinct : ∀ (i : Nat) (w : Writer), m.writers[i]? = some w → (w.accepted.map Ticket.call).Nodup
  sent : ∀ (i : Nat) (w : Writer), m.writers[i]? = some w → ∀ t ∈ w.accepted, m.Sent i t
  admitted : ∀ (n : Nat) (c : WriterCall), m.calls[n]? = some c → m.Admitted n c
  ended : ∀ e ∈ m.ends, m.Ended e
  chained : Chained first m.ends m.committed

theorem sound_start (clock : Nat → Instant) (db : Database) : (start db).Sound clock db := by
  constructor <;> simp [start, Chained]

variable {clock : Nat → Instant} {first : Database} {m m' : Writers} {i n : Nat}
  {c : WriterCall} {w w' : Writer} {phase : CallPhase}

structure CallAdvances (c c' : WriterCall) : Prop where
  writer : c'.writer = c.writer
  request : c'.request = c.request
  leaving : ∀ answer, c.phase = .leaving answer ∨ c.phase = .returned answer →
    c'.phase = .leaving answer ∨ c'.phase = .returned answer
  ended : ∀ answer, c.phase = .ended answer ∨ c.phase = .returned answer →
    c'.phase = .ended answer ∨ c'.phase = .returned answer

theorem CallAdvances.refl (c : WriterCall) : CallAdvances c c := ⟨rfl, rfl, fun _ => id, fun _ => id⟩

structure Advances (m m' : Writers) : Prop where
  writers : ∀ (j : Nat) (x : Writer), m.writers[j]? = some x →
    ∃ x', m'.writers[j]? = some x' ∧ x.Advances x'
  calls : ∀ (k : Nat) (d : WriterCall), m.calls[k]? = some d →
    ∃ d', m'.calls[k]? = some d' ∧ CallAdvances d d'
  ends : ∀ e ∈ m.ends, e ∈ m'.ends

theorem Advances.sent (h : m.Advances m') {t : Ticket} (hsent : m.Sent i t) : m'.Sent i t := by
  obtain ⟨c, hc, hwriter, hrequest, hphase⟩ := hsent
  obtain ⟨c', hc', hadvances⟩ := h.calls _ c hc
  exact ⟨c', hc', hadvances.writer.trans hwriter, hadvances.request.trans hrequest,
    hadvances.leaving _ hphase⟩

theorem Advances.endedOf (h : m.Advances m') {e : WriterEnd} (hended : m.Ended e) : m'.Ended e := by
  obtain ⟨c, w, refusal, hc, hw, hover, hphase, hbase, he⟩ := hended
  obtain ⟨c', hc', hcall⟩ := h.calls _ c hc
  obtain ⟨w', hw', hwriter⟩ := h.writers _ w hw
  obtain ⟨hover', hbase', hstate'⟩ := hwriter.final hover
  refine ⟨c', w', refusal, hc', by rw [hcall.writer]; exact hw', hover', hcall.ended _ hphase,
    hbase'.trans hbase, ?_⟩
  rw [hcall.request]
  unfold Writer.ending
  rw [hstate']
  exact he

theorem Advances.admitted (h : m.Advances m') (hadmitted : m.Admitted n c)
    (hspares : ∀ w w', m.writers[c.writer]? = some w → m'.writers[c.writer]? = some w' →
      w.Spares w' n c.phase) : m'.Admitted n c := by
  obtain ⟨w, hw, hopened, hlate, hstate⟩ := hadmitted
  obtain ⟨w', hw', hadvances⟩ := h.writers _ w hw
  exact ⟨w', hw', hadvances.opened hopened,
    fun hc => ⟨hadvances.marked (hlate hc).1, (hlate hc).2⟩,
    hstate.follow hadvances (hspares w w' hw hw') h.ends⟩

/-- One writer has been replaced, and perhaps more has happened besides. -/
structure Replaced (m m' : Writers) (i : Nat) (w w' : Writer) : Prop where
  writer : m.writers[i]? = some w
  writers : m'.writers = m.writers.set i w'
  advances : m.Advances m'

theorem Replaced.writer_cases (hr : m.Replaced m' i w w') {j : Nat} {x : Writer}
    (hx : m'.writers[j]? = some x) : j = i ∧ x = w' ∨ j ≠ i ∧ m.writers[j]? = some x :=
  getElem?_set_cases (hr.writers ▸ hx)

theorem Sound.replace (h : m.Sound clock first) (hr : m.Replaced m' i w w')
    (hslot : m'.slot + w.stage.hasToken.toNat = m.slot + w'.stage.hasToken.toNat)
    (htoken : w'.stage.hasToken = true → w.stage.hasToken = true)
    (horderly : w'.Orderly clock)
    (hcommitted : m'.committed = m.committed ∨ w.stage.hasToken = true)
    (hbased : w'.stage = .accepting ∨ w'.stage = .marked → w'.base = m'.committed)
    (hdistinct : (w'.accepted.map Ticket.call).Nodup)
    (hsent : ∀ t ∈ w'.accepted, m'.Sent i t)
    (hadmitted : ∀ (k : Nat) (d : WriterCall), m'.calls[k]? = some d → m'.Admitted k d)
    (hended : ∀ e ∈ m'.ends, m'.Ended e)
    (hchained : Chained first m'.ends m'.committed) : m'.Sound clock first := by
  have hcount := countP_set_of_getElem? (p := fun x : Writer => x.stage.hasToken) hr.writer w'
  rw [← hr.writers, ← h.slot] at hcount
  refine ⟨?_, ?_, ?_, ?_, ?_, ?_, hadmitted, hended, hchained⟩
  · omega
  · have hle : w'.stage.hasToken.toNat ≤ w.stage.hasToken.toNat := by
      cases hw' : w'.stage.hasToken with
      | false => exact Nat.zero_le _
      | true => simp [htoken hw']
    have hsingle := h.single
    omega
  · intro j x hx
    obtain ⟨rfl, rfl⟩ | ⟨hj, hx⟩ := hr.writer_cases hx
    · exact horderly
    · exact h.orderly j x hx
  · intro j x hx hstage
    obtain ⟨rfl, rfl⟩ | ⟨hj, hx⟩ := hr.writer_cases hx
    · exact hbased hstage
    · obtain hsame | htaken := hcommitted
      · rw [hsame]
        exact h.based j x hx hstage
      · -- the tables change under whom has the one token, so that no other writer has begun
        have hx' : x.stage.hasToken = true := by
          obtain hstage | hstage := hstage <;> rw [hstage] <;> rfl
        exact absurd (eq_of_countP_le_one (h.slot ▸ h.single) hx hx' hr.writer htaken) hj
  · intro j x hx
    obtain ⟨rfl, rfl⟩ | ⟨hj, hx⟩ := hr.writer_cases hx
    · exact hdistinct
    · exact h.distinct j x hx
  · intro j x hx t ht
    obtain ⟨rfl, rfl⟩ | ⟨hj, hx⟩ := hr.writer_cases hx
    · exact hsent t ht
    · exact hr.advances.sent (h.sent j x hx t ht)

theorem advances_of_set (hw : m.writers[i]? = some w) (hadvances : w.Advances w') {j : Nat}
    {x : Writer} (hx : m.writers[j]? = some x) :
    ∃ x', (m.writers.set i w')[j]? = some x' ∧ x.Advances x' := by
  by_cases hj : j = i
  · subst hj
    obtain rfl := Option.some.inj (hw.symm.trans hx)
    exact ⟨w', getElem?_set_of_getElem? hw w', hadvances⟩
  · exact ⟨x, by rw [List.getElem?_set_ne (Ne.symm hj)]; exact hx, .refl x⟩

theorem Sound.rework (h : m.Sound clock first) (hw : m.writers[i]? = some w) (w' : Writer) (slot : Nat)
    (hadvances : w.Advances w')
    (hslot : slot + w.stage.hasToken.toNat = m.slot + w'.stage.hasToken.toNat)
    (htoken : w'.stage.hasToken = true → w.stage.hasToken = true)
    (horderly : w'.Orderly clock)
    (hbased : w'.stage = .accepting ∨ w'.stage = .marked → w'.base = m.committed)
    (haccepted : w'.accepted = w.accepted)
    (hspares : ∀ (k : Nat) (d : WriterCall), m.calls[k]? = some d → d.writer = i →
      w.Spares w' k d.phase) :
    Sound clock first { m.setWriter i w' with slot } := by
  have hadv : m.Advances { m.setWriter i w' with slot } :=
    ⟨fun j x hx => advances_of_set hw hadvances hx, fun k d hd => ⟨d, hd, .refl d⟩, fun e he => he⟩
  refine h.replace ⟨hw, rfl, hadv⟩ hslot htoken horderly (.inl rfl) hbased ?_ ?_ ?_ ?_ h.chained
  · rw [haccepted]
    exact h.distinct i w hw
  · rw [haccepted]
    exact fun t ht => hadv.sent (h.sent i w hw t ht)
  · intro k d hd
    refine hadv.admitted (h.admitted k d hd) fun x x' hx hx' => ?_
    obtain ⟨hj, rfl⟩ | ⟨hj, hx'⟩ := getElem?_set_cases hx'
    · obtain rfl := Option.some.inj (hw.symm.trans (hj ▸ hx))
      exact hspares k d hd hj
    · obtain rfl := Option.some.inj (hx.symm.trans hx')
      exact .of_eq ⟨rfl, rfl⟩
  · exact fun e he => hadv.endedOf (h.ended e he)

theorem Sound.slot_pos (h : m.Sound clock first) (hw : m.writers[i]? = some w)
    (htoken : w.stage.hasToken = true) : 0 < m.slot := by
  rw [h.slot]
  exact List.countP_pos_iff.mpr ⟨w, List.mem_of_getElem? hw, htoken⟩

/-- Nobody uses a writer before it is there. -/
theorem Sound.unused (h : m.Sound clock first) (hw : m.writers[i]? = some w)
    (hstage : w.stage = .opening) {k : Nat} {d : WriterCall} (hd : m.calls[k]? = some d) :
    d.writer ≠ i := by
  intro hi
  obtain ⟨x, hx, hopened, -⟩ := h.admitted k d hd
  obtain rfl := Option.some.inj (hw.symm.trans (hi ▸ hx))
  rw [hstage] at hopened
  cases hopened

theorem Sound.nothing_accepted (h : m.Sound clock first) (hw : m.writers[i]? = some w)
    (hstage : w.stage = .opening) : w.accepted = [] := by
  refine List.eq_nil_iff_forall_not_mem.mpr fun t ht => ?_
  obtain ⟨d, hd, hi, -⟩ := h.sent i w hw t ht
  exact h.unused hw hstage hd hi

theorem Sound.refuses (h : m.Sound clock first) (hw : m.writers[i]? = some w)
    (hstage : w.stage = .opening) :
    Sound clock first { m.setWriter i { w with stage := .refused } with slot := m.slot - 1 } := by
  have hpos := h.slot_pos hw (by rw [hstage]; rfl)
  have horderly := h.orderly i w hw
  refine h.rework hw { w with stage := .refused } (m.slot - 1) ⟨?_, ?_, ?_, fun t ht => ht⟩ ?_ ?_
    ⟨horderly.order, horderly.state, ?_⟩ ?_ rfl fun k d hd hi => absurd hi (h.unused hw hstage hd)
  all_goals simp [hstage, WriterStage.isOpened, WriterStage.isMarked, WriterStage.isOver,
    WriterStage.hasToken]
  omega

theorem Sound.begins (h : m.Sound clock first) (hw : m.writers[i]? = some w)
    (hstage : w.stage = .opening) :
    Sound clock first (m.setWriter i
      { w with stage := .accepting, base := m.committed, state := .ok m.committed }) := by
  have horder := (h.orderly i w hw).order
  rw [h.nothing_accepted hw hstage] at horder
  simp only [List.append_eq_nil_iff] at horder
  have hstate : applyAll clock m.committed w.handled = .ok m.committed := by
    rw [horder.1.1]
    rfl
  refine h.rework hw { w with stage := .accepting, base := m.committed, state := .ok m.committed }
    m.slot ⟨?_, ?_, ?_, fun t ht => ht⟩ ?_ ?_ ⟨(h.orderly i w hw).order, hstate, ?_⟩
    (fun _ => rfl) rfl fun k d hd hi => absurd hi (h.unused hw hstage hd)
  all_goals simp [hstage, WriterStage.isOpened, WriterStage.isMarked, WriterStage.isOver,
    WriterStage.hasToken]

theorem Sound.takesUp (h : m.Sound clock first) (hw : m.writers[i]? = some w) {t : Ticket}
    {rest : List Ticket} (hhand : w.hand = none) (hqueue : w.queue = t :: rest) :
    Sound clock first (m.setWriter i { w with hand := some t, queue := rest }) :=
  h.rework hw { w with hand := some t, queue := rest } m.slot
    ⟨id, id, fun hover => ⟨hover, rfl, rfl⟩, fun _ ht => ht⟩ rfl id
    ((h.orderly i w hw).takeUp hhand hqueue) (h.based i w hw) rfl
    fun _ _ _ _ => .of_eq ⟨rfl, rfl⟩

theorem Sound.handles (h : m.Sound clock first) (hw : m.writers[i]? = some w) {t : Ticket}
    (hhand : w.hand = some t) : Sound clock first (m.setWriter i (w.handle clock t)) := by
  refine h.rework hw (w.handle clock t) m.slot ⟨id, id, fun hover => ?_, fun _ ht => ht⟩ rfl id
    ((h.orderly i w hw).handle hhand) (h.based i w hw) rfl
    fun _ _ _ _ => .of_eq ⟨rfl, rfl⟩
  -- the worker of a writer whose transaction has ended has nothing in hand
  have hnone := ((h.orderly i w hw).drained hover).2
  rw [hhand] at hnone
  cases hnone

/-- A call has moved on with its writer, and perhaps more has happened besides. -/
structure Moved (m m' : Writers) (n : Nat) (c : WriterCall) (w w' : Writer) (phase : CallPhase) :
    Prop where
  call : m.calls[n]? = some c
  writer : m.writers[c.writer]? = some w
  calls : m'.calls = m.calls.set n { c with phase }
  writers : m'.writers = m.writers.set c.writer w'
  ends : ∀ e ∈ m.ends, e ∈ m'.ends
  callAdvances : CallAdvances c { c with phase }
  writerAdvances : w.Advances w'
  late : c.late = true → phase = .returned closedAnswer
  state : CallState n c.request w' m'.ends phase
  spares : ∀ (k : Nat) (d : WriterCall), k ≠ n → m.calls[k]? = some d → d.writer = c.writer →
    w.Spares w' k d.phase

theorem Moved.advances (hm : m.Moved m' n c w w' phase) : m.Advances m' := by
  refine ⟨fun j x hx => ?_, fun k d hd => ?_, hm.ends⟩
  · rw [hm.writers]
    exact advances_of_set hm.writer hm.writerAdvances hx
  · rw [hm.calls]
    by_cases hk : k = n
    · subst hk
      obtain rfl := Option.some.inj (hm.call.symm.trans hd)
      exact ⟨_, getElem?_set_of_getElem? hd _, hm.callAdvances⟩
    · exact ⟨d, by rw [List.getElem?_set_ne (Ne.symm hk)]; exact hd, .refl d⟩

theorem Moved.replaced (hm : m.Moved m' n c w w' phase) : m.Replaced m' c.writer w w' :=
  ⟨hm.writer, hm.writers, hm.advances⟩

theorem Moved.admitted (hm : m.Moved m' n c w w' phase) (h : m.Sound clock first) {k : Nat}
    {d : WriterCall} (hd : m'.calls[k]? = some d) : m'.Admitted k d := by
  obtain ⟨rfl, rfl⟩ | ⟨hk, hd⟩ := getElem?_set_cases (hm.calls ▸ hd)
  · obtain ⟨x, hx, hopened, hlate, -⟩ := h.admitted k c hm.call
    obtain rfl := Option.some.inj (hm.writer.symm.trans hx)
    refine ⟨w', ?_, hm.writerAdvances.opened hopened,
      fun hc => ⟨hm.writerAdvances.marked (hlate hc).1, .inr (hm.late hc)⟩, hm.state⟩
    rw [hm.writers]
    exact getElem?_set_of_getElem? hm.writer w'
  · refine hm.advances.admitted (h.admitted k d hd) fun x x' hx hx' => ?_
    obtain ⟨hj, rfl⟩ | ⟨hj, hx'⟩ := hm.replaced.writer_cases hx'
    · obtain rfl := Option.some.inj (hm.writer.symm.trans (hj ▸ hx))
      exact hm.spares k d hk hd hj
    · obtain rfl := Option.some.inj (hx.symm.trans hx')
      exact .of_eq ⟨rfl, rfl⟩

theorem Sound.call_writer (h : m.Sound clock first) (hc : m.calls[n]? = some c)
    (hw : m.writers[c.writer]? = some w) : w.stage.isOpened = true ∧
      (c.late = true → w.stage.isMarked = true ∧ (c.phase = .waiting ∨ c.phase = .returned closedAnswer)) ∧
      CallState n c.request w m.ends c.phase := by
  obtain ⟨x, hx, hstate⟩ := h.admitted n c hc
  obtain rfl := Option.some.inj (hw.symm.trans hx)
  exact hstate

/-- A call moves on with its writer, which accepts nothing, and no transaction ends. -/
theorem Sound.move (h : m.Sound clock first) (hm : m.Moved m' n c w w' phase)
    (hcommitted : m'.committed = m.committed) (hends : m'.ends = m.ends)
    (haccepted : w'.accepted = w.accepted)
    (hslot : m'.slot + w.stage.hasToken.toNat = m.slot + w'.stage.hasToken.toNat)
    (htoken : w'.stage.hasToken = true → w.stage.hasToken = true) (horderly : w'.Orderly clock)
    (hbased : w'.stage = .accepting ∨ w'.stage = .marked → w'.base = m.committed) :
    m'.Sound clock first := by
  refine h.replace hm.replaced hslot htoken horderly (.inl hcommitted) (hcommitted ▸ hbased) ?_ ?_
    (fun k d hd => hm.admitted h hd) ?_ ?_
  · rw [haccepted]
    exact h.distinct _ w hm.writer
  · rw [haccepted]
    exact fun t ht => hm.advances.sent (h.sent _ w hm.writer t ht)
  · rw [hends]
    exact fun e he => hm.advances.endedOf (h.ended e he)
  · rw [hends, hcommitted]
    exact h.chained

theorem Sound.moveCall (h : m.Sound clock first) (hc : m.calls[n]? = some c)
    (hw : m.writers[c.writer]? = some w) (phase : CallPhase)
    (hadvances : CallAdvances c { c with phase })
    (hlate : c.late = true → phase = .returned closedAnswer)
    (hstate : CallState n c.request w m.ends phase) : (m.update n c w phase).Sound clock first := by
  have hm : m.Moved (m.update n c w phase) n c w w phase :=
    ⟨hc, hw, rfl, rfl, fun e he => he, hadvances, .refl w, hlate, hstate,
      fun _ _ _ _ _ => .of_eq ⟨rfl, rfl⟩⟩
  exact h.move hm rfl rfl rfl rfl id (h.orderly _ w hw) (h.based _ w hw)

theorem Sound.turnsAway (h : m.Sound clock first) (hc : m.calls[n]? = some c)
    (hw : m.writers[c.writer]? = some w) (hphase : c.phase = .waiting)
    (hmarked : w.stage.isMarked = true) :
    (m.update n c w (.returned closedAnswer)).Sound clock first :=
  h.moveCall hc hw _ ⟨rfl, rfl, by simp [hphase], by simp [hphase]⟩ (fun _ => rfl) (.refused hmarked)

theorem Sound.letsIn (h : m.Sound clock first) (hc : m.calls[n]? = some c)
    (hw : m.writers[c.writer]? = some w) (hphase : c.phase = .waiting) {op : WriteOp}
    (hrequest : c.request = .submit op) (hunmarked : w.stage.isMarked = false) :
    (m.update n c w .inside).Sound clock first := by
  obtain ⟨hopened, hlate, -⟩ := h.call_writer hc hw
  have haccepting : w.stage = .accepting := by simpa [WriterStage.isOpened, hunmarked] using hopened
  refine h.moveCall hc hw _ ⟨rfl, rfl, by simp [hphase], by simp [hphase]⟩ (fun hl => ?_)
    (.inside hrequest haccepting)
  exact absurd (hlate hl).1 (by simp [hunmarked])

/-- Who came too late is nowhere but at the door. -/
theorem Sound.not_late (h : m.Sound clock first) (hc : m.calls[n]? = some c)
    (hwaiting : c.phase ≠ .waiting) (hreturned : c.phase ≠ .returned closedAnswer) :
    c.late = false := by
  obtain ⟨w, -, -, hlate, -⟩ := h.admitted n c hc
  by_contra hl
  obtain hphase | hphase := (hlate (by simpa using hl)).2
  · exact hwaiting hphase
  · exact hreturned hphase

theorem Sound.givesUp (h : m.Sound clock first) (hc : m.calls[n]? = some c)
    (hw : m.writers[c.writer]? = some w) (cause : Cause) (hphase : c.phase = .inside) :
    (m.update n c w (.leaving (.error (.of cause)))).Sound clock first := by
  obtain ⟨-, -, hstate⟩ := h.call_writer hc hw
  have hlate := h.not_late hc (by simp [hphase]) (by simp [hphase])
  rw [hphase] at hstate
  cases hstate with
  | inside hrequest hstage =>
      exact h.moveCall hc hw _ ⟨rfl, rfl, by simp [hphase], by simp [hphase]⟩ (by simp [hlate])
        (.leaving hrequest hstage (by simp))

theorem Sound.leaves (h : m.Sound clock first) (hc : m.calls[n]? = some c)
    (hw : m.writers[c.writer]? = some w) {answer : Except Fault Unit}
    (hphase : c.phase = .leaving answer) : (m.update n c w (.returned answer)).Sound clock first := by
  obtain ⟨-, -, hstate⟩ := h.call_writer hc hw
  have hlate := h.not_late hc (by simp [hphase]) (by simp [hphase])
  rw [hphase] at hstate
  cases hstate with
  | leaving hrequest hstage hsent =>
      exact h.moveCall hc hw _ ⟨rfl, rfl, by simp [hphase], by simp [hphase]⟩ (by simp [hlate])
        (.submitted hrequest hsent)

theorem Sound.marks (h : m.Sound clock first) (hc : m.calls[n]? = some c)
    (hw : m.writers[c.writer]? = some w) (hphase : c.phase = .waiting)
    (hrequest : c.request.isEnd = true) (hunmarked : w.stage.isMarked = false)
    (hkept : m.isKeptOpen c.writer = false) :
    (m.update n c { w with stage := .marked, closer := some n } .draining).Sound clock first := by
  obtain ⟨hopened, hlate, -⟩ := h.call_writer hc hw
  have hstage : w.stage = .accepting := by simpa [WriterStage.isOpened, hunmarked] using hopened
  have hadvances : w.Advances { w with stage := .marked, closer := some n } :=
    ⟨fun _ => rfl, fun _ => rfl, by simp [hstage, WriterStage.isOver], fun _ ht => ht⟩
  have hm : m.Moved (m.update n c { w with stage := .marked, closer := some n } .draining) n c w
      { w with stage := .marked, closer := some n } .draining := by
    refine ⟨hc, hw, rfl, rfl, fun e he => he, ⟨rfl, rfl, by simp [hphase], by simp [hphase]⟩,
      hadvances, fun hl => absurd (hlate hl).1 (by simp [hunmarked]), .draining hrequest rfl rfl, ?_⟩
    refine fun k d _ hd hi => ⟨fun _ hkeeps => ?_, fun _ hclosing => ?_⟩
    · -- nobody is inside when the writer is marked
      have hnone := List.any_eq_false.mp hkept d (List.mem_of_getElem? hd)
      simp [hi, hkeeps] at hnone
    · simp [hstage] at hclosing
  have horderly := h.orderly _ w hw
  exact h.move hm rfl rfl rfl (by rw [hstage]; rfl) (fun _ => by rw [hstage]; rfl)
    ⟨horderly.order, horderly.state, by simp [WriterStage.isOver]⟩
    fun _ => h.based _ w hw (.inl hstage)

theorem Sound.accepting_of_inside (h : m.Sound clock first) (hc : m.calls[n]? = some c)
    (hw : m.writers[c.writer]? = some w) (hphase : c.phase = .inside) : w.stage = .accepting := by
  obtain ⟨-, -, hstate⟩ := h.call_writer hc hw
  rw [hphase] at hstate
  cases hstate with
  | inside hrequest hstage => exact hstage

theorem Sound.sends (h : m.Sound clock first) (hc : m.calls[n]? = some c)
    (hw : m.writers[c.writer]? = some w) (hphase : c.phase = .inside) {op : WriteOp}
    (hrequest : c.request = .submit op) :
    (m.update n c (w.accept ⟨n, op⟩) (.leaving (.ok ()))).Sound clock first := by
  have hstage := h.accepting_of_inside hc hw hphase
  have hnot : w.stage.isOver = false := by rw [hstage]; rfl
  have hadvances : w.Advances (w.accept ⟨n, op⟩) :=
    ⟨id, id, fun hover => ⟨hover, rfl, rfl⟩, fun t ht => List.mem_append_left _ ht⟩
  have hm : m.Moved (m.update n c (w.accept ⟨n, op⟩) (.leaving (.ok ()))) n c w (w.accept ⟨n, op⟩)
      (.leaving (.ok ())) :=
    ⟨hc, hw, rfl, rfl, fun e he => he, ⟨rfl, rfl, by simp [hphase], by simp [hphase]⟩, hadvances,
      by simp [h.not_late hc (by simp [hphase]) (by simp [hphase])],
      .leaving hrequest hstage fun _ => List.mem_append_right _ (List.mem_singleton_self _),
      fun _ _ _ _ _ => .of_eq ⟨rfl, rfl⟩⟩
  have hself : (m.update n c (w.accept ⟨n, op⟩) (.leaving (.ok ()))).Sent c.writer ⟨n, op⟩ :=
    ⟨_, getElem?_set_of_getElem? hc _, rfl, hrequest, .inl rfl⟩
  -- who is still inside has not sent anything
  have hnew : n ∉ w.accepted.map Ticket.call := by
    rintro hmem
    obtain ⟨t, ht, rfl⟩ := List.mem_map.mp hmem
    obtain ⟨d, hd, -, -, hd'⟩ := h.sent _ w hw t ht
    obtain rfl := Option.some.inj (hc.symm.trans hd)
    simp [hphase] at hd'
  refine h.replace hm.replaced rfl id ((h.orderly _ w hw).accept ⟨n, op⟩ hnot) (.inl rfl)
    (h.based _ w hw) ?_ ?_ (fun k d hd => hm.admitted h hd)
    (fun e he => hm.advances.endedOf (h.ended e he)) h.chained
  · simp only [Writer.accept, List.map_append, List.map_cons, List.map_nil]
    exact List.nodup_append_comm.mp (List.nodup_cons.mpr ⟨hnew, h.distinct _ w hw⟩)
  · intro t ht
    obtain hold | hnew := List.mem_append.mp ht
    · exact hm.advances.sent (h.sent _ w hw t hold)
    · obtain rfl := List.mem_singleton.mp hnew
      exact hself

theorem ending_call (w : Writer) (n : Nat) (request : WriterRequest) (committed : Database)
    (refusal : Option Cause) : (w.ending n request committed refusal).call = n := by
  unfold Writer.ending
  split <;> split <;> (try split) <;> rfl

theorem ending_before (w : Writer) (n : Nat) (request : WriterRequest) (committed : Database)
    (refusal : Option Cause) : (w.ending n request committed refusal).before = committed := by
  unfold Writer.ending
  split <;> split <;> (try split) <;> rfl

/-- Who waits for the worker is the one who marked the writer. -/
theorem Sound.closer_of_draining (h : m.Sound clock first) (hc : m.calls[n]? = some c)
    (hw : m.writers[c.writer]? = some w) (hphase : c.phase = .draining) :
    c.request.isEnd = true ∧ w.stage = .marked ∧ w.closer = some n := by
  obtain ⟨-, -, hstate⟩ := h.call_writer hc hw
  rw [hphase] at hstate
  cases hstate with
  | draining hrequest hstage hcloser => exact ⟨hrequest, hstage, hcloser⟩

theorem Sound.finishes (h : m.Sound clock first) (refusal : Option Cause)
    (hc : m.calls[n]? = some c) (hw : m.writers[c.writer]? = some w) (hphase : c.phase = .draining)
    (hdrained : w.isDrained = true) {e : WriterEnd}
    (he : e = w.ending n c.request m.committed refusal) :
    Sound clock first { m.update n c { w with stage := .ended } (.ended e.answer) with
      committed := e.after
      ends := m.ends ++ [e] } := by
  obtain ⟨hrequest, hstage, hcloser⟩ := h.closer_of_draining hc hw hphase
  have hcall : e.call = n := he ▸ ending_call ..
  have hbefore : e.before = m.committed := he ▸ ending_before ..
  have hadvances : w.Advances { w with stage := .ended } :=
    ⟨fun _ => rfl, fun _ => rfl, by simp [hstage, WriterStage.isOver], fun _ ht => ht⟩
  have hm : m.Moved { m.update n c { w with stage := .ended } (.ended e.answer) with
      committed := e.after
      ends := m.ends ++ [e] } n c w { w with stage := .ended } (.ended e.answer) := by
    refine ⟨hc, hw, rfl, rfl, fun _ => List.mem_append_left _,
      ⟨rfl, rfl, by simp [hphase], by simp [hphase]⟩, hadvances,
      by simp [h.not_late hc (by simp [hphase]) (by simp [hphase])],
      .ended hrequest rfl hcloser (List.mem_append_right _ (List.mem_singleton_self _)) hcall, ?_⟩
    refine fun k d hk _ _ => ⟨by simp [hstage], fun hk' _ => ?_⟩
    exact absurd (Option.some.inj (hcloser.symm.trans hk')).symm hk
  have horderly := h.orderly _ w hw
  have htoken : w.stage.hasToken = true := by rw [hstage]; rfl
  refine h.replace hm.replaced (by rw [hstage]; rfl) (fun _ => htoken)
    ⟨horderly.order, horderly.state, fun _ => ?_⟩ (.inr htoken) (by simp) (h.distinct _ w hw)
    (fun t ht => hm.advances.sent (h.sent _ w hw t ht)) (fun k d hd => hm.admitted h hd) ?_
    (h.chained.snoc hbefore)
  · simpa [Writer.isDrained] using hdrained
  · intro e' he'
    obtain hold | hnew := List.mem_append.mp he'
    · exact hm.advances.endedOf (h.ended e' hold)
    · obtain rfl := List.mem_singleton.mp hnew
      refine ⟨{ c with phase := .ended e'.answer }, { w with stage := .ended }, refusal,
        by rw [hcall]; exact getElem?_set_of_getElem? hc _, getElem?_set_of_getElem? hw _, rfl,
        .inl rfl, ?_, ?_⟩
      · rw [hbefore]
        exact h.based _ w hw (.inr hstage)
      · rw [hcall, hbefore]
        exact he

theorem Sound.releases (h : m.Sound clock first) (hc : m.calls[n]? = some c)
    (hw : m.writers[c.writer]? = some w) {answer : Except Fault Unit}
    (hphase : c.phase = .ended answer) :
    Sound clock first
      { m.update n c { w with stage := .closed } (.returned answer) with slot := m.slot - 1 } := by
  obtain ⟨-, -, hstate⟩ := h.call_writer hc hw
  have hlate := h.not_late hc (by simp [hphase]) (by simp [hphase])
  rw [hphase] at hstate
  cases hstate with
  | @ended e hrequest hstage hcloser he hcall =>
      have hadvances : w.Advances { w with stage := .closed } :=
        ⟨fun _ => rfl, fun _ => rfl, fun _ => ⟨rfl, rfl, rfl⟩, fun _ ht => ht⟩
      have hm : m.Moved { m.update n c { w with stage := .closed } (.returned e.answer) with
          slot := m.slot - 1 } n c w { w with stage := .closed } (.returned e.answer) := by
        refine ⟨hc, hw, rfl, rfl, fun _ he => he, ⟨rfl, rfl, by simp [hphase], by simp [hphase]⟩,
          hadvances, by simp [hlate], .closed hrequest he hcall, ?_⟩
        refine fun k d hk _ _ => ⟨by simp [hstage], fun hk' _ => ?_⟩
        exact absurd (Option.some.inj (hcloser.symm.trans hk')).symm hk
      have horderly := h.orderly _ w hw
      have htoken : w.stage.hasToken = true := by rw [hstage]; rfl
      have hpos := h.slot_pos hw htoken
      refine h.move hm rfl rfl rfl ?_ (by simp [WriterStage.hasToken])
        ⟨horderly.order, horderly.state, fun _ => horderly.drained (by rw [hstage]; rfl)⟩ (by simp)
      rw [htoken]
      change m.slot - 1 + 1 = m.slot + 0
      omega

theorem Sound.acquires (h : m.Sound clock first) (hfree : m.slot < slotSize) :
    Sound clock first
      { m with slot := m.slot + 1, writers := m.writers ++ [.opening m.committed] } := by
  have hadv : m.Advances
      { m with slot := m.slot + 1, writers := m.writers ++ [.opening m.committed] } :=
    ⟨fun j x hx => ⟨x, getElem?_append_of_getElem? hx _, .refl x⟩, fun k d hd => ⟨d, hd, .refl d⟩,
      fun e he => he⟩
  refine ⟨?_, hfree, fun j x hx => ?_, fun j x hx hstage => ?_, fun j x hx => ?_,
    fun j x hx t ht => ?_, fun k d hd => ?_, fun e he => hadv.endedOf (h.ended e he), h.chained⟩
  · rw [List.countP_append, ← h.slot]
    rfl
  · obtain rfl | hx := getElem?_append_singleton_cases hx
    · exact Writer.orderly_opening m.committed
    · exact h.orderly j x hx
  · obtain rfl | hx := getElem?_append_singleton_cases hx
    · rfl
    · exact h.based j x hx hstage
  · obtain rfl | hx := getElem?_append_singleton_cases hx
    · exact List.nodup_nil
    · exact h.distinct j x hx
  · obtain rfl | hx := getElem?_append_singleton_cases hx
    · cases ht
    · exact hadv.sent (h.sent j x hx t ht)
  · obtain ⟨w, hw, hstate⟩ := h.admitted k d hd
    exact ⟨w, getElem?_append_of_getElem? hw _, hstate⟩

theorem Sound.calls (h : m.Sound clock first) (request : WriterRequest)
    (hw : m.writers[i]? = some w) (hopened : w.stage.isOpened = true) :
    Sound clock first
      { m with calls := m.calls ++ [⟨i, request, w.stage.isMarked, .waiting⟩] } := by
  have hadv : m.Advances
      { m with calls := m.calls ++ [⟨i, request, w.stage.isMarked, .waiting⟩] } :=
    ⟨fun j x hx => ⟨x, hx, .refl x⟩,
      fun k d hd => ⟨d, getElem?_append_of_getElem? hd _, .refl d⟩, fun e he => he⟩
  refine ⟨h.slot, h.single, h.orderly, h.based, h.distinct,
    fun j x hx t ht => hadv.sent (h.sent j x hx t ht), fun k d hd => ?_,
    fun e he => hadv.endedOf (h.ended e he), h.chained⟩
  obtain rfl | hd := getElem?_append_singleton_cases hd
  · exact ⟨w, hw, hopened, fun hlate => ⟨hlate, .inl rfl⟩, .waiting⟩
  · obtain ⟨x, hx, hstate⟩ := h.admitted k d hd
    exact ⟨x, hx, hstate⟩

theorem Sound.change (h : m.Sound clock first) (hchange : m.Change clock m') :
    m'.Sound clock first := by
  cases hchange with
  | nothing => exact h
  | acquires hfree => exact h.acquires hfree
  | refuses hw hstage => exact h.refuses hw hstage
  | begins hw hstage => exact h.begins hw hstage
  | calls request hw hopened => exact h.calls request hw hopened
  | takesUp hw hhand hqueue => exact h.takesUp hw hhand hqueue
  | handles hw hhand => exact h.handles hw hhand
  | turnsAway hc hw hphase hmarked => exact h.turnsAway hc hw hphase hmarked
  | letsIn hc hw hphase hrequest hunmarked => exact h.letsIn hc hw hphase hrequest hunmarked
  | marks hc hw hphase hrequest hunmarked hkept => exact h.marks hc hw hphase hrequest hunmarked hkept
  | sends hc hw hphase hrequest => exact h.sends hc hw hphase hrequest
  | givesUp cause hc hw hphase => exact h.givesUp hc hw cause hphase
  | leaves hc hw hphase => exact h.leaves hc hw hphase
  | finishes refusal hc hw hphase hdrained he => exact h.finishes refusal hc hw hphase hdrained he
  | releases hc hw hphase => exact h.releases hc hw hphase

theorem Sound.step (h : m.Sound clock first) (s : WriterStep) : (m.step clock s).Sound clock first :=
  h.change (step_change s)

theorem Sound.run (h : m.Sound clock first) (steps : List WriterStep) :
    (m.run clock steps).Sound clock first := by
  induction steps generalizing m with
  | nil => exact h
  | cons s rest ih => exact ih (h.step s)

end Writers

end CodeAtlas
