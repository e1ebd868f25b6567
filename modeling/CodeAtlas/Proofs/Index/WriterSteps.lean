import CodeAtlas.Index.Writers
import Mathlib.Data.List.Basic
import Mathlib.Tactic.SplitIfs

/-!
# The steps of writers

Every step of the machine is one of the changes below, with what must hold for it to be made, or it does
nothing.
-/

namespace CodeAtlas

def WriterRequest.isEnd : WriterRequest → Bool
  | .submit _ => false
  | .commit | .rollback => true

theorem eq_of_countP_le_one {α : Type} {p : α → Bool} {l : List α} (hcount : l.countP p ≤ 1)
    {i j : Nat} {a b : α} (hi : l[i]? = some a) (ha : p a = true) (hj : l[j]? = some b)
    (hb : p b = true) : i = j := by
  induction l generalizing i j with
  | nil => simp at hi
  | cons x rest ih =>
      rw [List.countP_cons] at hcount
      have hnone (hx : p x = true) : ∀ y ∈ rest, ¬p y = true :=
        List.countP_eq_zero.mp (by rw [if_pos hx] at hcount; omega)
      match i, j with
      | 0, 0 => rfl
      | 0, j + 1 =>
          obtain rfl := Option.some.inj hi
          exact absurd hb (hnone ha b (List.mem_of_getElem? hj))
      | i + 1, 0 =>
          obtain rfl := Option.some.inj hj
          exact absurd ha (hnone hb a (List.mem_of_getElem? hi))
      | i + 1, j + 1 => exact congrArg (· + 1) (ih (by omega) hi hj)

theorem getElem?_set_of_getElem? {α : Type} {l : List α} {i : Nat} {a : α} (h : l[i]? = some a)
    (b : α) : (l.set i b)[i]? = some b :=
  List.getElem?_set_self (List.getElem?_eq_some_iff.mp h).1

theorem getElem?_set_cases {α : Type} {l : List α} {i j : Nat} {a b : α}
    (h : (l.set i a)[j]? = some b) : j = i ∧ b = a ∨ j ≠ i ∧ l[j]? = some b := by
  rw [List.getElem?_set] at h
  split_ifs at h with hi hlt
  · exact .inl ⟨hi.symm, (Option.some.inj h).symm⟩
  · exact .inr ⟨fun hj => hi hj.symm, h⟩

theorem set_of_getElem? {α : Type} {l : List α} {i : Nat} {a : α} (h : l[i]? = some a) : l.set i a = l := by
  obtain ⟨hi, rfl⟩ := List.getElem?_eq_some_iff.mp h
  exact List.set_getElem_self hi

theorem countP_set_of_getElem? {α : Type} {p : α → Bool} {l : List α} {i : Nat} {a : α}
    (h : l[i]? = some a) (b : α) :
    (l.set i b).countP p + (p a).toNat = l.countP p + (p b).toNat := by
  obtain ⟨hi, ha⟩ := List.getElem?_eq_some_iff.mp h
  rw [List.countP_set hi, ha]
  cases hpa : p a with
  | false => cases p b <;> simp
  | true =>
      have hpos : 0 < l.countP p := List.countP_pos_iff.mpr ⟨a, List.mem_of_getElem? h, hpa⟩
      cases p b <;> simp <;> omega

theorem getElem?_append_singleton_cases {α : Type} {l : List α} {j : Nat} {a b : α}
    (h : (l ++ [a])[j]? = some b) : b = a ∨ l[j]? = some b := by
  rw [List.getElem?_append] at h
  split_ifs at h with hj
  · exact .inr h
  · exact .inl (List.mem_singleton.mp (List.mem_of_getElem? h))

theorem getElem?_append_of_getElem? {α : Type} {l : List α} {j : Nat} {b : α} (h : l[j]? = some b)
    (more : List α) : (l ++ more)[j]? = some b :=
  (List.getElem?_append_left (List.getElem?_eq_some_iff.mp h).1).trans h

namespace Writers

/-- What a step can do. -/
inductive Change (clock : Nat → Instant) (m : Writers) : Writers → Prop where
  | nothing : Change clock m m
  | acquires (hfree : m.slot < slotSize) : Change clock m
      { m with slot := m.slot + 1, writers := m.writers ++ [.opening m.committed] }
  | refuses {i : Nat} {w : Writer} (hw : m.writers[i]? = some w) (hstage : w.stage = .opening) :
      Change clock m { m.setWriter i { w with stage := .refused } with slot := m.slot - 1 }
  | begins {i : Nat} {w : Writer} (hw : m.writers[i]? = some w) (hstage : w.stage = .opening) :
      Change clock m (m.setWriter i
        { w with stage := .accepting, base := m.committed, state := .ok m.committed })
  | calls {i : Nat} {w : Writer} (request : WriterRequest) (hw : m.writers[i]? = some w)
      (hopened : w.stage.isOpened = true) :
      Change clock m { m with calls := m.calls ++ [⟨i, request, w.stage.isMarked, .waiting⟩] }
  | takesUp {i : Nat} {w : Writer} {t : Ticket} {rest : List Ticket} (hw : m.writers[i]? = some w)
      (hhand : w.hand = none) (hqueue : w.queue = t :: rest) :
      Change clock m (m.setWriter i { w with hand := some t, queue := rest })
  | handles {i : Nat} {w : Writer} {t : Ticket} (hw : m.writers[i]? = some w)
      (hhand : w.hand = some t) : Change clock m (m.setWriter i (w.handle clock t))
  | turnsAway {n : Nat} {c : WriterCall} {w : Writer} (hc : m.calls[n]? = some c)
      (hw : m.writers[c.writer]? = some w) (hphase : c.phase = .waiting)
      (hmarked : w.stage.isMarked = true) : Change clock m (m.update n c w (.returned closedAnswer))
  | letsIn {n : Nat} {c : WriterCall} {w : Writer} {op : WriteOp} (hc : m.calls[n]? = some c)
      (hw : m.writers[c.writer]? = some w) (hphase : c.phase = .waiting)
      (hrequest : c.request = .submit op) (hunmarked : w.stage.isMarked = false) :
      Change clock m (m.update n c w .inside)
  | marks {n : Nat} {c : WriterCall} {w : Writer} (hc : m.calls[n]? = some c)
      (hw : m.writers[c.writer]? = some w) (hphase : c.phase = .waiting)
      (hrequest : c.request.isEnd = true) (hunmarked : w.stage.isMarked = false)
      (hkept : m.isKeptOpen c.writer = false) :
      Change clock m (m.update n c { w with stage := .marked, closer := some n } .draining)
  | sends {n : Nat} {c : WriterCall} {w : Writer} {op : WriteOp} (hc : m.calls[n]? = some c)
      (hw : m.writers[c.writer]? = some w) (hphase : c.phase = .inside)
      (hrequest : c.request = .submit op) :
      Change clock m (m.update n c (w.accept ⟨n, op⟩) (.leaving (.ok ())))
  | givesUp {n : Nat} {c : WriterCall} {w : Writer} (cause : Cause) (hc : m.calls[n]? = some c)
      (hw : m.writers[c.writer]? = some w) (hphase : c.phase = .inside) :
      Change clock m (m.update n c w (.leaving (.error (.of cause))))
  | leaves {n : Nat} {c : WriterCall} {w : Writer} {answer : Except Fault Unit}
      (hc : m.calls[n]? = some c) (hw : m.writers[c.writer]? = some w)
      (hphase : c.phase = .leaving answer) : Change clock m (m.update n c w (.returned answer))
  | finishes {n : Nat} {c : WriterCall} {w : Writer} (refusal : Option Cause)
      (hc : m.calls[n]? = some c) (hw : m.writers[c.writer]? = some w) (hphase : c.phase = .draining)
      (hdrained : w.isDrained = true) {e : WriterEnd}
      (he : e = w.ending n c.request m.committed refusal) :
      Change clock m { m.update n c { w with stage := .ended } (.ended e.answer) with
        committed := e.after
        ends := m.ends ++ [e] }
  | releases {n : Nat} {c : WriterCall} {w : Writer} {answer : Except Fault Unit}
      (hc : m.calls[n]? = some c) (hw : m.writers[c.writer]? = some w)
      (hphase : c.phase = .ended answer) :
      Change clock m
        { m.update n c { w with stage := .closed } (.returned answer) with slot := m.slot - 1 }

variable {clock : Nat → Instant} {m : Writers} {i n : Nat}

theorem run_append (first second : List WriterStep) :
    m.run clock (first ++ second) = (m.run clock first).run clock second :=
  List.foldl_append

theorem withCall_eq {c : WriterCall} {w : Writer} (hc : m.calls[n]? = some c)
    (hw : m.writers[c.writer]? = some w)
    (act : WriterCall → Writer → Writers) : m.withCall n act = act c w := by
  simp [withCall, withWriter, hc, hw]

theorem withWriter_eq {w : Writer} (hw : m.writers[i]? = some w) (act : Writer → Writers) :
    m.withWriter i act = act w := by
  simp [withWriter, hw]

/-- What somebody may do with a writer may be done, once it may be done with any writer there is. -/
theorem withWriter_rec {P : Writers → Prop} {act : Writer → Writers} (hnone : P m)
    (hsome : ∀ w, m.writers[i]? = some w → P (act w)) : P (m.withWriter i act) := by
  unfold withWriter
  cases hw : m.writers[i]? with
  | none => exact hnone
  | some w => exact hsome w hw

theorem withCall_rec {P : Writers → Prop} {act : WriterCall → Writer → Writers} (hnone : P m)
    (hsome : ∀ c w, m.calls[n]? = some c → m.writers[c.writer]? = some w → P (act c w)) :
    P (m.withCall n act) := by
  unfold withCall
  cases hc : m.calls[n]? with
  | none => exact hnone
  | some c => exact withWriter_rec hnone fun w hw => hsome c w hc hw

theorem begin_change (i : Nat) (fails : Bool) : Change clock m (m.begin i fails) := by
  refine withWriter_rec .nothing fun w hw => ?_
  split_ifs with hstage
  · exact .refuses hw hstage
  · exact .begins hw hstage
  · exact .nothing

theorem enter_change (n : Nat) : Change clock m (m.enter n) := by
  refine withCall_rec .nothing fun c w hc hw => ?_
  cases hphase : c.phase with
  | waiting =>
      by_cases hmarked : w.stage.isMarked = true
      · simp only [hmarked, if_true]
        exact .turnsAway hc hw hphase hmarked
      · rw [Bool.not_eq_true] at hmarked
        simp only [hmarked, Bool.false_eq_true, if_false]
        cases hrequest : c.request with
        | submit op => exact .letsIn hc hw hphase hrequest hmarked
        | commit | rollback =>
            simp only
            split_ifs with hkept
            · exact .nothing
            · rw [Bool.not_eq_true] at hkept
              exact .marks hc hw hphase (by rw [hrequest]; rfl) hmarked hkept
  | inside | leaving | draining | ended | returned => exact .nothing

theorem send_change (n : Nat) : Change clock m (m.send n) := by
  refine withCall_rec .nothing fun c w hc hw => ?_
  split
  · next op hphase hrequest =>
      split_ifs
      · exact .sends hc hw hphase hrequest
      · exact .nothing
  · exact .nothing

theorem giveUp_change (n : Nat) (cause : Cause) : Change clock m (m.giveUp n cause) := by
  refine withCall_rec .nothing fun c w hc hw => ?_
  split
  · next hphase => exact .givesUp cause hc hw hphase
  · exact .nothing

theorem leave_change (n : Nat) : Change clock m (m.leave n) := by
  refine withCall_rec .nothing fun c w hc hw => ?_
  split
  · next hphase => exact .leaves hc hw hphase
  · exact .nothing

theorem takeUp_change (i : Nat) : Change clock m (m.takeUp i) := by
  refine withWriter_rec .nothing fun w hw => ?_
  split
  · next hhand hqueue => exact .takesUp hw hhand hqueue
  · exact .nothing

theorem handle_change (i : Nat) : Change clock m (m.handle clock i) := by
  refine withWriter_rec .nothing fun w hw => ?_
  split
  · next hhand => exact .handles hw hhand
  · exact .nothing

theorem finish_change (n : Nat) (refusal : Option Cause) : Change clock m (m.finish n refusal) := by
  refine withCall_rec .nothing fun c w hc hw => ?_
  split
  · next hphase =>
      split_ifs with hdrained
      · exact .finishes refusal hc hw hphase hdrained rfl
      · exact .nothing
  · exact .nothing

theorem release_change (n : Nat) : Change clock m (m.release n) := by
  refine withCall_rec .nothing fun c w hc hw => ?_
  split
  · next hphase => exact .releases hc hw hphase
  · exact .nothing

theorem step_change (s : WriterStep) : Change clock m (m.step clock s) := by
  cases s with
  | acquire =>
      unfold step acquire
      split_ifs with hfree
      · exact .acquires hfree
      · exact .nothing
  | begin i fails => exact begin_change i fails
  | call i request =>
      refine withWriter_rec .nothing fun w hw => ?_
      split_ifs with hopened
      · exact .calls request hw hopened
      · exact .nothing
  | enter n => exact enter_change n
  | send n => exact send_change n
  | giveUp n cause => exact giveUp_change n cause
  | leave n => exact leave_change n
  | takeUp i => exact takeUp_change i
  | handle i => exact handle_change i
  | finish n refusal => exact finish_change n refusal
  | release n => exact release_change n

end Writers

end CodeAtlas

/-!
# A writer that one caller after the other uses

Where nobody else takes a step meanwhile, the machine does what the operations of an index do: all that
was submitted is made when the commit comes, at once and in order, or not at all.
-/

namespace CodeAtlas

namespace Writers

/-- Submissions one after the other, each with all its steps and those of the worker. -/
def submitEach (n : Nat) : List WriteOp → List WriterStep
  | [] => []
  | op :: rest =>
      [.call 0 (.submit op), .enter n, .send n, .leave n, .takeUp 0, .handle 0] ++
        submitEach (n + 1) rest

/-- One writer that has made all that it accepted, and nobody who uses it. -/
def quiet (db : Database) (state : Except Fault Database) (tickets : List Ticket)
    (calls : List WriterCall) : Writers :=
  ⟨db, 1, [⟨.accepting, db, state, [], none, tickets, tickets, none⟩], calls, []⟩

variable {clock : Nat → Instant} {db : Database} {state : Except Fault Database}
  {tickets : List Ticket} {calls : List WriterCall}

theorem run_submit (op : WriteOp) :
    (quiet db state tickets calls).run clock
        [.call 0 (.submit op), .enter calls.length, .send calls.length, .leave calls.length, .takeUp 0,
          .handle 0] =
      quiet db (state.bind fun made => made.write (clock calls.length) op)
        (tickets ++ [⟨calls.length, op⟩])
        (calls ++ [⟨0, .submit op, false, .returned (.ok ())⟩]) := by
  simp [run, step, call, enter, send, leave, takeUp, handle, quiet, withCall, withWriter, update, setWriter,
    Writer.accept, Writer.handle, WriterStage.isOpened, WriterStage.isMarked, Writer.queueSize]
  cases state <;> rfl

def submitted (ops : List WriteOp) : List WriterCall :=
  ops.map fun op => ⟨0, .submit op, false, .returned (.ok ())⟩

theorem run_submitEach (now : Instant) (db : Database) (ops : List WriteOp)
    (state : Except Fault Database) (tickets : List Ticket) (calls : List WriterCall) :
    ∃ made, (quiet db state tickets calls).run (fun _ => now) (submitEach calls.length ops) =
      quiet db (state.bind fun db => ops.foldlM (·.write now) db) made (calls ++ submitted ops) := by
  induction ops generalizing state tickets calls with
  | nil =>
      refine ⟨tickets, ?_⟩
      rw [submitted, List.map_nil, List.append_nil]
      cases state <;> rfl
  | cons op rest ih =>
      obtain ⟨made, hmade⟩ := ih (state.bind fun db => db.write now op)
        (tickets ++ [⟨calls.length, op⟩]) (calls ++ [⟨0, .submit op, false, .returned (.ok ())⟩])
      refine ⟨made, ?_⟩
      rw [List.length_append, List.length_singleton] at hmade
      rw [submitEach, run_append, run_submit, hmade]
      cases state <;> simp [submitted, Except.bind, List.foldlM_cons, bind]

/-- The writer of a quiet machine from its mark on. -/
def closing (stage : WriterStage) (n : Nat) (db : Database) (state : Except Fault Database)
    (tickets : List Ticket) : Writer :=
  ⟨stage, db, state, [], none, tickets, tickets, some n⟩

theorem enter_quiet (hleft : ∀ c ∈ calls, c.phase.keepsOpen = false) :
    ((quiet db state tickets calls).call 0 .commit).enter calls.length =
      ⟨db, 1, [closing .marked calls.length db state tickets],
        calls ++ [⟨0, .commit, false, .draining⟩], []⟩ := by
  have hcalled : (quiet db state tickets calls).call 0 .commit =
      quiet db state tickets (calls ++ [⟨0, .commit, false, .waiting⟩]) := by
    simp [call, quiet, withWriter, WriterStage.isOpened, WriterStage.isMarked]
  have hkept : (quiet db state tickets (calls ++ [⟨0, .commit, false, .waiting⟩])).isKeptOpen 0 =
      false := by
    refine List.any_eq_false.mpr fun c hc => ?_
    obtain hc | hc := List.mem_append.mp hc
    · simp [hleft c hc]
    · rw [List.mem_singleton.mp hc]
      simp [CallPhase.keepsOpen]
  rw [hcalled, enter, withCall_eq (c := ⟨0, .commit, false, .waiting⟩)
    (w := ⟨.accepting, db, state, [], none, tickets, tickets, none⟩) List.getElem?_concat_length rfl]
  simp only [hkept]
  simp [quiet, update, closing, WriterStage.isMarked]

theorem run_commit (refusal : Option Cause) (hleft : ∀ c ∈ calls, c.phase.keepsOpen = false) :
    let e := (closing .marked calls.length db state tickets).ending calls.length .commit db refusal
    (quiet db state tickets calls).run clock
        [.call 0 .commit, .enter calls.length, .finish calls.length refusal, .release calls.length] =
      ⟨e.after, 0, [closing .closed calls.length db state tickets],
        calls ++ [⟨0, .commit, false, .returned e.answer⟩], [e]⟩ := by
  intro e
  change (((((quiet db state tickets calls).call 0 .commit).enter calls.length).finish calls.length
    refusal).release calls.length) = _
  rw [enter_quiet hleft]
  simp [finish, release, withCall, withWriter, update, closing, Writer.isDrained, e]

/-- A writer that one caller after the other uses commits as the index does that has all their changes in
its queue. -/
theorem alone_eq_commit (now : Instant) (ix : Index) (ops : List WriteOp) (refusal : Option Cause) :
    let m := (start ix.database).run (fun _ => now) ([.acquire, .begin 0 false] ++ submitEach 0 ops ++
      [.call 0 .commit, .enter ops.length, .finish ops.length refusal, .release ops.length])
    let committed := ({ ix with queue := some ops } : Index).commitUnless refusal now
    committed.1 = { ix with database := m.committed, queue := none } ∧
      m.calls = submitted ops ++ [⟨0, .commit, false, .returned committed.2⟩] := by
  have hbegun : (start ix.database).run (fun _ => now) [.acquire, .begin 0 false] =
      quiet ix.database (.ok ix.database) [] [] := rfl
  obtain ⟨made, hmade⟩ := run_submitEach now ix.database ops (.ok ix.database) [] []
  have hlength : (submitted ops).length = ops.length := List.length_map _
  have hleft : ∀ c ∈ submitted ops, c.phase.keepsOpen = false := by
    simp [submitted, CallPhase.keepsOpen]
  rw [List.length_nil, List.nil_append] at hmade
  simp only [run_append, hbegun]
  rw [hmade, ← hlength, run_commit refusal hleft]
  unfold Index.commitUnless Writer.ending closing
  dsimp only [Except.bind]
  cases ops.foldlM (·.write now) ix.database with
  | error f => exact ⟨rfl, rfl⟩
  | ok db => cases refusal <;> exact ⟨rfl, rfl⟩

end Writers

end CodeAtlas
