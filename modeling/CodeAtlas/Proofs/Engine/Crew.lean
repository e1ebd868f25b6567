import CodeAtlas.Proofs.Engine.Staged

/-!
# The workers of a run

Candidates are handed out in their order, to so many workers at a time. A worker reads its file, parses
it, queues the document and notes what came of it; between any two of these steps the others take
theirs. The first fault of a worker and a caller who leaves are seen by the other workers wherever
they ask whether somebody waits, and from then on nothing need be handed out.
-/

namespace CodeAtlas

inductive Outcome where
  | skipped
  | failed (message : String)
  | unchanged (f : FileEntry)
  | indexed (f : FileEntry)

/-- What a worker does next with its candidate. -/
inductive Chore where
  | read
  | parse
  | submit (f : FileEntry)
  | note (o : Outcome)

structure Worker where
  candidate : Candidate
  chore : Chore

structure Crew where
  state : RunState
  waiting : List Candidate
  workers : List Worker
  through : List Candidate
  fault? : Option Fault
  deserted : Bool

/-- What happens next: a candidate is handed out, a worker takes a step, the caller leaves, or nothing
is handed out any more. -/
inductive Move where
  | handOut
  | work (worker : Nat)
  | desert
  | stop

def FileEntry.withText (f : FileEntry) (text : String) : Document :=
  ⟨f.file, text, f.symbols, f.references⟩

namespace Run

/-- What comes of a candidate whose content is known and has been parsed by this engine. -/
def recalled? (r : Run) (c : Candidate) : Option Outcome :=
  match r.known? c with
  | some ⟨file, symbols, references, some usages⟩ =>
      some (.unchanged ⟨file, symbols, references, some usages⟩)
  | _ => none

/-- What comes of a candidate that need not be parsed. -/
def unparsed? (r : Run) (c : Candidate) : Option Outcome :=
  match c.refusal? r.ignore with
  | some message => some (.failed message)
  | none => if c.fits r.ignore then r.recalled? c else some .skipped

/-- What comes of a candidate once it is parsed. -/
def parsed (r : Run) (c : Candidate) : Except TooLarge ParseResult → Outcome
  | .error e => .failed e.message
  | .ok result =>
      match r.known? c with
      | some f => .unchanged (entryOf f.file result.found)
      | none => .indexed (entryOf (r.documentOf c result.found).file result.found)

def note (r : Run) (s : RunState) (c : Candidate) : Outcome → RunState
  | .skipped => { s with skipped := s.skipped + 1 }
  | .failed message => r.fail s (r.idOf c) c message
  | .unchanged f => { s with staged := s.staged ++ [f], unchanged := s.unchanged + 1 }
  | .indexed f => { s with staged := s.staged ++ [f], indexed := s.indexed + 1 }

/-- One step of a worker, and what it does after it. -/
def advance (r : Run) (waits : Stage → Bool) (s : RunState) (c : Candidate) :
    Chore → RunState × Except Fault (Option Chore)
  | .read =>
      if waits (.take c.relativePath) then
        (s, .ok (some (match r.unparsed? c with
          | some o => .note o
          | none => .parse)))
      else (s, .error (.of .canceled))
  | .parse =>
      let (answer, parser) :=
        s.parser.parse (waits (.parse c.relativePath)) (c.request r.project.id)
      ({ s with parser }, .ok (some (match r.parsed c (answer.map Prod.fst) with
        | .indexed f => .submit f
        | o => .note o)))
  | .submit f =>
      let queued :=
        if waits (.submit c.relativePath) then
          s.index.submit (.put (f.withText (decode c.content).text))
        else .error (.of .canceled)
      match inContext s!"failed to queue document {c.relativePath}" queued with
      | .error fault => (s, .error fault)
      | .ok index => ({ s with index }, .ok (some (.note (.indexed f))))
  | .note o => (r.note s c o, .ok none)

end Run

namespace Crew

def start (s : RunState) (candidates : List Candidate) : Crew := ⟨s, candidates, [], [], none, false⟩

def calm (k : Crew) : Bool := k.fault?.isNone && !k.deserted

def waits (caller : Caller) (k : Crew) (stage : Stage) : Bool := caller.waits stage && k.calm

/-- A worker takes its next step. -/
def work (r : Run) (caller : Caller) (k : Crew) (i : Nat) : Crew :=
  match k.workers[i]? with
  | none => k
  | some w =>
      match r.advance (k.waits caller) k.state w.candidate w.chore with
      | (s, .ok (some chore)) => { k with state := s, workers := k.workers.set i { w with chore } }
      | (s, .ok none) =>
          { k with
            state := s
            workers := k.workers.eraseIdx i
            through := k.through ++ [w.candidate] }
      | (s, .error f) =>
          { k with state := s, workers := k.workers.eraseIdx i, fault? := k.fault? <|> some f }

/-- A move that is not possible changes nothing. -/
def step (r : Run) (caller : Caller) (limit : Nat) (k : Crew) : Move → Crew
  | .handOut =>
      match k.waiting with
      | [] => k
      | c :: rest =>
          if k.workers.length < limit then
            { k with waiting := rest, workers := k.workers ++ [⟨c, .read⟩] }
          else k
  | .work i => k.work r caller i
  | .desert => { k with deserted := true }
  | .stop => if k.calm then k else { k with waiting := [] }

def run (r : Run) (caller : Caller) (limit : Nat) (k : Crew) (moves : List Move) : Crew :=
  moves.foldl (step r caller limit) k

theorem run_append (r : Run) (caller : Caller) (limit : Nat) (k : Crew) (moves more : List Move) :
    k.run r caller limit (moves ++ more) = (k.run r caller limit moves).run r caller limit more :=
  List.foldl_append

/-- What the crew hands back. One that is called off before it is through has failed. -/
def outcome (caller : Caller) (k : Crew) : RunState × Except Fault Unit :=
  (k.state,
    match k.fault? with
    | some f => .error f
    | none =>
        if k.waits caller .allTaken && k.waiting.isEmpty && k.workers.isEmpty then .ok ()
        else .error (.of .canceled))

end Crew

namespace Run

/-- Takes up candidates with workers that move in a given order. -/
def takeAllBy (r : Run) (caller : Caller) (limit : Nat) (moves : List Move) (s : RunState)
    (candidates : List Candidate) : RunState × Except Fault Unit :=
  ((Crew.start s candidates).run r caller limit moves).outcome caller

variable {r : Run} {caller : Caller} {s : RunState} {c : Candidate}

theorem unparsed?_of_refused {message : String} (h : c.refusal? r.ignore = some message) :
    r.unparsed? c = some (.failed message) := by
  unfold unparsed?
  rw [h]

theorem unparsed?_of_skipped (hgiven : c.refusal? r.ignore = none) (hfits : c.fits r.ignore = false) :
    r.unparsed? c = some .skipped := by
  unfold unparsed?
  rw [hgiven, hfits]
  rfl

theorem unparsed?_of_opens (h : c.Opens r.ignore) : r.unparsed? c = r.recalled? c := by
  unfold unparsed?
  rw [h.given, h.fits]
  rfl

/-- A candidate that is not parsed is refused, skipped, or known and parsed before. -/
theorem unparsed?_cases {o : Outcome} (h : r.unparsed? c = some o) :
    (∃ message, c.refusal? r.ignore = some message ∧ o = .failed message) ∨
      (c.refusal? r.ignore = none ∧ c.fits r.ignore = false ∧ o = .skipped) ∨
      ∃ f, c.Opens r.ignore ∧ r.known? c = some f ∧ f.usages.isSome = true ∧ o = .unchanged f := by
  unfold unparsed? at h
  split at h
  · rename_i message hrefused
    exact .inl ⟨message, hrefused, (Option.some.inj h).symm⟩
  · rename_i hgiven
    split at h
    · rename_i hfits
      unfold recalled? at h
      split at h
      · rename_i hknown
        exact .inr (.inr ⟨_, ⟨hgiven, hfits⟩, hknown, rfl, (Option.some.inj h).symm⟩)
      · simp at h
    · rename_i hfits
      exact .inr (.inl ⟨hgiven, by simpa using hfits, (Option.some.inj h).symm⟩)

theorem takeContent_eq (r : Run) (caller : Caller) (s : RunState) (c : Candidate) :
    r.takeContent caller s c =
      match r.recalled? c with
      | some o => (r.note s c o, .ok ())
      | none =>
          match s.parser.parse (caller.waits (.parse c.relativePath)) (c.request r.project.id) with
          | (answer, parser) =>
              match r.parsed c (answer.map Prod.fst) with
              | .indexed f =>
                  match r.advance caller.waits { s with parser } c (.submit f) with
                  | (s', .ok _) => (r.note s' c (.indexed f), .ok ())
                  | (s', .error fault) => (s', .error fault)
              | o => (r.note { s with parser } c o, .ok ()) := by
  have hknown : (r.prior? (fileId r.project.id c.relativePath)).filter (fun f =>
    !r.isFresh && f.file.checksum == checksum c.content) = r.known? c := rfl
  have hasked : (⟨fileId r.project.id c.relativePath, c.relativePath,
    (decode c.content).bytes, c.language⟩ : ParseRequest) = c.request r.project.id := rfl
  unfold takeContent recalled?
  simp only [hknown, hasked]
  rcases hparse : s.parser.parse (caller.waits (.parse c.relativePath))
    (c.request r.project.id) with ⟨_ | ⟨result, cached⟩, parser⟩
  · rcases r.known? c with _ | ⟨file, symbols, references, _ | usages⟩ <;> rfl
  · rcases hold : r.known? c with _ | ⟨file, symbols, references, _ | usages⟩
    · have hdocument : (⟨r.fileOf (fileId r.project.id c.relativePath) c (decode c.content),
          (decode c.content).text, result.found.symbols, result.found.references⟩ : Document) =
        (entryOf (r.documentOf c result.found).file result.found).withText
          (decode c.content).text := rfl
      simp only [parsed, hold, Except.map, advance, hdocument]
      rcases inContext s!"failed to queue document {c.relativePath}"
          (if caller.waits (.submit c.relativePath) = true then
            s.index.submit (.put ((entryOf (r.documentOf c result.found).file
              result.found).withText (decode c.content).text))
          else .error (.of .canceled)) with f | index <;> rfl
    · simp only [parsed, hold, Except.map]
      rfl
    · rfl

/-- The changes to the index are queued last, for the document of a candidate that is new. -/
theorem take_eq (r : Run) (caller : Caller) (s : RunState) (c : Candidate) :
    r.take caller s c =
      if caller.waits (.take c.relativePath) then
        match r.unparsed? c with
        | some o => (r.note s c o, .ok ())
        | none =>
            match s.parser.parse (caller.waits (.parse c.relativePath)) (c.request r.project.id) with
            | (answer, parser) =>
                match r.parsed c (answer.map Prod.fst) with
                | .indexed f =>
                    match r.advance caller.waits { s with parser } c (.submit f) with
                    | (s', .ok _) => (r.note s' c (.indexed f), .ok ())
                    | (s', .error fault) => (s', .error fault)
                | o => (r.note { s with parser } c o, .ok ())
      else (s, .error (.of .canceled)) := by
  by_cases hwaits : caller.waits (.take c.relativePath) = true
  · rw [if_pos hwaits, take_of_waits hwaits]
    cases hgiven : c.refusal? r.ignore with
    | some message =>
        rw [unparsed?_of_refused hgiven]
        rfl
    | none =>
        by_cases hfits : c.fits r.ignore = true
        · rw [unparsed?_of_opens ⟨hgiven, hfits⟩]
          simp only [if_pos hfits]
          exact takeContent_eq r caller s c
        · rw [unparsed?_of_skipped hgiven (by simpa using hfits)]
          simp only [if_neg hfits]
          rfl
  · rw [if_neg hwaits, take_of_leaves (by simpa using hwaits)]

/-- What the crew of one worker is after its step. -/
theorem work_alone (chore : Chore) (rest through : List Candidate) :
    (⟨s, rest, [⟨c, chore⟩], through, none, false⟩ : Crew).work r caller 0 =
      match r.advance caller.waits s c chore with
      | (s', .ok (some chore')) => ⟨s', rest, [⟨c, chore'⟩], through, none, false⟩
      | (s', .ok none) => ⟨s', rest, [], through ++ [c], none, false⟩
      | (s', .error f) => ⟨s', rest, [], through, some f, false⟩ := by
  have hwaits : (⟨s, rest, [⟨c, chore⟩], through, none, false⟩ : Crew).waits caller = caller.waits :=
    funext fun stage => by simp [Crew.waits, Crew.calm]
  simp only [Crew.work, List.getElem?_cons_zero, hwaits]
  split <;> rfl

theorem work_nobody (s : RunState) (rest through : List Candidate) (fault? : Option Fault) (i : Nat) :
    (⟨s, rest, [], through, fault?, false⟩ : Crew).work r caller i =
      ⟨s, rest, [], through, fault?, false⟩ := by
  simp [Crew.work]

theorem advance_submit {waits : Stage → Bool} {s' : RunState} {f : FileEntry} {chore : Option Chore}
    (h : r.advance waits s c (.submit f) = (s', .ok chore)) :
    chore = some (.note (.indexed f)) ∧
      s' = { s with index := s.index.enqueue [.put (f.withText (decode c.content).text)] } := by
  simp only [advance] at h
  split at h
  · simp at h
  · rename_i index hqueued
    rw [inContext_eq_ok_iff] at hqueued
    split at hqueued
    · obtain rfl := Index.eq_enqueue_of_submit hqueued
      obtain ⟨rfl, hnext⟩ := Prod.mk.inj h
      exact ⟨(Except.ok.inj hnext).symm, rfl⟩
    · simp at hqueued

/-- A worker reaches the index through the queue alone. -/
theorem advance_extends (r : Run) (waits : Stage → Bool) (s : RunState) (c : Candidate)
    (chore : Chore) : s.index.Extends (r.advance waits s c chore).1.index := by
  cases chore with
  | read =>
      unfold advance
      dsimp only
      split <;> exact .refl _
  | parse => exact .refl _
  | submit f =>
      rcases hsubmit : r.advance waits s c (.submit f) with ⟨s', fault | next⟩
      · unfold advance at hsubmit
        dsimp only at hsubmit
        split at hsubmit
        · obtain ⟨rfl, -⟩ := Prod.mk.inj hsubmit
          exact .refl _
        · simp at hsubmit
      · rw [(advance_submit hsubmit).2]
        exact ⟨_, rfl⟩
  | note o => cases o <;> exact .refl _

/-- Whatever moves the workers make, and however they end, they change nothing else of the index. -/
theorem takeAllBy_extends (r : Run) (caller : Caller) (limit : Nat) (moves : List Move)
    (s : RunState) (candidates : List Candidate) :
    s.index.Extends (r.takeAllBy caller limit moves s candidates).1.index := by
  have hstep (k : Crew) (m : Move) :
      k.state.index.Extends (k.step r caller limit m).state.index := by
    cases m with
    | handOut =>
        simp only [Crew.step]
        split
        · exact .refl _
        · split <;> exact .refl _
    | work i =>
        simp only [Crew.step, Crew.work]
        split
        · exact .refl _
        · rename_i w _
          have hextends := advance_extends r (k.waits caller) k.state w.candidate w.chore
          split
          all_goals
            rename_i hadvance
            rwa [hadvance] at hextends
    | desert => exact .refl _
    | stop =>
        simp only [Crew.step]
        split <;> exact .refl _
  have hmoves (k : Crew) : k.state.index.Extends (k.run r caller limit moves).state.index := by
    induction moves generalizing k with
    | nil => exact .refl _
    | cons m moves ih => exact (hstep k m).trans (ih (k.step r caller limit m))
  exact hmoves (.start s candidates)

/-- Alone, a worker does with its candidate what is done when candidates are taken up one by one. -/
theorem run_alone (caller : Caller) {limit : Nat} (hlimit : 0 < limit) (rest through : List Candidate) :
    (⟨s, c :: rest, [], through, none, false⟩ : Crew).run r caller limit
        [.handOut, .work 0, .work 0, .work 0, .work 0] =
      match r.take caller s c with
      | (s', .ok ()) => ⟨s', rest, [], through ++ [c], none, false⟩
      | (s', .error f) => ⟨s', rest, [], through, some f, false⟩ := by
  have hfirst : (⟨s, c :: rest, [], through, none, false⟩ : Crew).step r caller limit .handOut =
      ⟨s, rest, [⟨c, .read⟩], through, none, false⟩ := by
    simp [Crew.step, hlimit]
  have hnote (s : RunState) (o : Outcome) :
      r.advance caller.waits s c (.note o) = (r.note s c o, .ok none) := rfl
  rw [Crew.run, List.foldl_cons, hfirst, take_eq]
  simp only [List.foldl_cons, List.foldl_nil, Crew.step]
  by_cases hwaits : caller.waits (.take c.relativePath) = true
  · rw [if_pos hwaits]
    rcases hseen : r.unparsed? c with _ | o
    · have hread : r.advance caller.waits s c .read = (s, .ok (some .parse)) := by
        simp [advance, hwaits, hseen]
      rcases hparse : s.parser.parse (caller.waits (.parse c.relativePath))
        (c.request r.project.id) with ⟨answer, parser⟩
      have hasked : r.advance caller.waits s c .parse = ({ s with parser },
          .ok (some (match r.parsed c (answer.map Prod.fst) with
            | .indexed f => .submit f
            | o => .note o))) := by
        simp only [advance, hparse]
      simp only [work_alone, hread, hasked]
      rcases r.parsed c (answer.map Prod.fst) with _ | _ | _ | f
      case indexed =>
        rcases hqueue : r.advance caller.waits { s with parser } c (.submit f) with ⟨s', _ | chore⟩
        · simp only [hqueue, work_nobody]
        · obtain ⟨rfl, -⟩ := advance_submit hqueue
          simp only [work_alone, hqueue, hnote]
      all_goals simp only [hnote, work_nobody]
    · have hread : r.advance caller.waits s c .read = (s, .ok (some (.note o))) := by
        simp [advance, hwaits, hseen]
      simp only [work_alone, hread, hnote, work_nobody]
  · have hread : r.advance caller.waits s c .read = (s, .error (.of .canceled)) := by
      simp [advance, hwaits]
    simp only [work_alone, hread, work_nobody, if_neg hwaits]

/-- One of the schedules takes up the candidates one by one. -/
theorem exists_moves (r : Run) (caller : Caller) {limit : Nat} (hlimit : 0 < limit) (s : RunState)
    (candidates : List Candidate) :
    ∃ moves, r.takeAllBy caller limit moves s candidates = r.takeAll caller s candidates := by
  have hcrews : ∀ (candidates through : List Candidate) (s : RunState), ∃ moves,
      ((⟨s, candidates, [], through, none, false⟩ : Crew).run r caller limit moves).outcome caller =
        r.takeAll caller s candidates := by
    intro candidates
    induction candidates with
    | nil =>
        intro through s
        exact ⟨[], by simp [Crew.run, Crew.outcome, Crew.waits, Crew.calm, takeAll]⟩
    | cons c rest ih =>
        intro through s
        have halone := run_alone (r := r) (s := s) (c := c) caller hlimit rest through
        rcases htake : r.take caller s c with ⟨s', f | ⟨⟩⟩
        · refine ⟨[.handOut, .work 0, .work 0, .work 0, .work 0], ?_⟩
          rw [halone, takeAll, htake]
          rfl
        · obtain ⟨moves, hmoves⟩ := ih (through ++ [c]) s'
          refine ⟨[.handOut, .work 0, .work 0, .work 0, .work 0] ++ moves, ?_⟩
          rw [Crew.run_append, halone, takeAll, htake]
          exact hmoves
  exact hcrews candidates [] s

end Run

end CodeAtlas
