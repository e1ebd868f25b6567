import CodeAtlas.Proofs.Cache.Recent
import CodeAtlas.Proofs.Engine.Removal
import CodeAtlas.Proofs.Engine.Restore
import CodeAtlas.Search.Traffic
import Mathlib.Data.List.Basic
import Mathlib.Data.List.Induction
import Mathlib.Data.List.Infix

/-!
# Searches beside changes

An answer is kept with the generation that was noted before the index was asked. Every change that is
counted in a generation was committed before, so an answer of the generation that the index still has is
one of a state that all counted changes had led to. Calls return after their change is counted: whoever
asks afterwards is not told an answer that is older than what has returned to him.
-/

namespace CodeAtlas

theorem Index.search_left {α : Type} (ix : Index) (what : String) (run : Database → Except Fault α) (found : α) :
    ix.search false what run ≠ .ok found := by
  unfold search
  split
  · simp
  · unfold reach
    split <;> simp [failing, bind, Except.bind]

namespace Searcher

theorem answer_live {ix : Index} {live : Bool} {r : SearchRequest} {response : SearchResponse}
    (h : answer ix live r = .ok response) : answer ix true r = .ok response := by
  cases live with
  | true => exact h
  | false =>
      unfold answer at h
      split at h
      · obtain ⟨found, hfound, -⟩ := bind_eq_ok_iff.mp h
        exact absurd hfound (ix.search_left _ _ _)
      · obtain ⟨found, hfound, -⟩ := bind_eq_ok_iff.mp h
        exact absurd hfound (ix.search_left _ _ _)
      · obtain ⟨found, hfound, -⟩ := bind_eq_ok_iff.mp h
        exact absurd hfound (ix.search_left _ _ _)
      · cases h

end Searcher

namespace SearchStage

/-- A search after some steps between which nobody else takes one. -/
def alone (s : Searcher) (ix : Index) (generation : Nat) (now : Instant) (live : Bool)
    (r : SearchRequest) : Nat → Searcher × SearchStage
  | 0 => (s, .begun)
  | n + 1 =>
      let (s, stage) := alone s ix generation now live r n
      stage.next s ix generation now live r

section Alone

variable {s s' : Searcher} {ix : Index} {generation n : Nat} {now : Instant} {live : Bool}
  {r : SearchRequest}

theorem alone_succ {stage : SearchStage} (h : alone s ix generation now live r n = (s', stage)) :
    alone s ix generation now live r (n + 1) = stage.next s' ix generation now live r := by
  rw [alone, h]

theorem alone_ended {outcome : Except Fault (SearchResponse × Bool)}
    (h : alone s ix generation now live r n = (s', .ended outcome)) (more : Nat) :
    alone s ix generation now live r (n + more) = (s', .ended outcome) := by
  induction more with
  | zero => exact h
  | succ more ih => exact alone_succ ih

/-- What becomes of a search that finds nothing kept. -/
theorem alone_missed (h : alone s ix generation now live r n = (s', .missed)) :
    alone s ix generation now live r (n + 3) = match Searcher.answer ix live r with
      | .error f => (s', .ended (.error f))
      | .ok response =>
          (if r.useCache && response.total > 0 then s'.keep now generation r response else s',
            .ended (.ok (response, false))) := by
  have hnoted : alone s ix generation now live r (n + 1) = (s', .noted generation) := alone_succ h
  have hasked := alone_succ hnoted
  rw [next] at hasked
  cases hanswer : Searcher.answer ix live r with
  | error f =>
      rw [hanswer] at hasked
      exact alone_ended hasked 1
  | ok response =>
      rw [hanswer] at hasked
      exact alone_succ hasked

end Alone

theorem alone_lookUp (s : Searcher) (ix : Index) (generation : Nat) (now : Instant) (live : Bool)
    (r : SearchRequest) :
    ∃ n ≤ 3, alone s ix generation now live r n =
      match (if r.useCache then s.lookUp now generation r else (s, none)) with
      | (s, some response) => (s, .ended (.ok (response, true)))
      | (s, none) => (s, .missed) := by
  have hbegun : alone s ix generation now live r 0 = (s, .begun) := rfl
  have hfirst := alone_succ hbegun
  rw [next] at hfirst
  by_cases huse : r.useCache = true
  · rw [if_pos huse] at hfirst ⊢
    unfold Searcher.lookUp
    cases hkept : s.cache.peek? r.key with
    | none =>
        rw [hkept] at hfirst
        exact ⟨1, by decide, hfirst⟩
    | some kept =>
        rw [hkept] at hfirst
        have hsecond := alone_succ hfirst
        rw [next] at hsecond
        by_cases hold : (kept.expiresAt.before now || kept.generation != generation) = true
        · rw [if_pos hold] at hsecond
          have hthird := alone_succ hsecond
          rw [next, Recent.erase_touch] at hthird
          simp only [hold, if_true]
          exact ⟨3, by decide, hthird⟩
        · rw [if_neg hold] at hsecond
          simp only [hold]
          exact ⟨2, by decide, hsecond⟩
  · rw [if_neg huse] at hfirst ⊢
    exact ⟨1, by decide, hfirst⟩

/-- A search that is not disturbed is one call of the searcher. -/
theorem alone_eq_search (s : Searcher) (ix : Index) (generation : Nat) (now : Instant) (live : Bool)
    {r checked : SearchRequest} (h : r.validated = .ok checked) :
    ∃ n ≤ 6, alone s ix generation now live checked n =
      ((s.search ix live now generation r).1, .ended (s.search ix live now generation r).2) := by
  obtain ⟨n, hn, hlook⟩ := alone_lookUp s ix generation now live checked
  unfold Searcher.search
  rw [h]
  dsimp only
  generalize (if checked.useCache then s.lookUp now generation checked else (s, none)) = looked at hlook ⊢
  obtain ⟨s', kept⟩ := looked
  cases kept with
  | some response => exact ⟨n, by omega, hlook⟩
  | none =>
      refine ⟨n + 3, by omega, ?_⟩
      rw [alone_missed hlook]
      cases Searcher.answer ix live checked with
      | error f => rfl
      | ok response => rfl

end SearchStage

namespace SearchRequest

def bare (r : SearchRequest) : SearchRequest := { r with useCache := false, keepFor := 0 }

theorem answer_bare {r r' : SearchRequest} (h : r.bare = r'.bare) (ix : Index) (live : Bool) :
    Searcher.answer ix live r = Searcher.answer ix live r' := by
  have hbare (r : SearchRequest) : Searcher.answer ix live r = Searcher.answer ix live r.bare := rfl
  rw [hbare r, h, ← hbare r']

end SearchRequest

def Asked (steps : List TrafficStep) (checked : SearchRequest) : Prop :=
  ∃ r live, .search r live ∈ steps ∧ r.validated = .ok checked

/-- Requests whose answers are kept under one key ask for the same. -/
def Distinguished (steps : List TrafficStep) : Prop :=
  ∀ r r', Asked steps r → Asked steps r' → r.key = r'.key → r.bare = r'.bare

theorem Asked.left {steps more : List TrafficStep} {checked : SearchRequest}
    (h : Asked steps checked) : Asked (steps ++ more) checked := by
  obtain ⟨r, live, hmem, hchecked⟩ := h
  exact ⟨r, live, List.mem_append_left _ hmem, hchecked⟩

theorem Distinguished.left {steps more : List TrafficStep} (h : Distinguished (steps ++ more)) :
    Distinguished steps :=
  fun r r' hr hr' => h r r' hr.left hr'.left

namespace Traffic

/-! A call of the engine that succeeds does to the index and to its generation what the steps of a change do,
in the same order: it commits, and then it counts. -/

section Calls

variable {t : Traffic} {e e' : Engine} {caller : Caller} {now : Instant} {projectId : String}

theorem write_of_commit {ops : List WriteOp} {index : Index}
    (h : ({ t.index with queue := some ops } : Index).commitUnless caller.refusal now = (index, .ok ())) :
    t.write caller now ops = some (t.moveOn index) := by
  unfold write
  rw [h]

/-- A run that succeeds, afresh or not, commits its queue and counts. -/
theorem run_next {tree : FileTree} {isFresh : Bool} {figures : RunFigures}
    (h : e.locked projectId (fun e => e.runHeld tree caller now isFresh projectId) = (e', .ok figures))
    (hindex : t.index = e.index) (hgeneration : t.generation = e.generation) :
    ∃ ops t', t.next now (.run ops) caller .begun = (t', .committed t'.latest) ∧
      t'.index = e'.index ∧
      (t'.next now (.run ops) caller (.committed t'.latest)).1.generation = e'.generation := by
  obtain ⟨-, f, hfailed⟩ | ⟨locks, e₁, -, hcall, rfl⟩ := Engine.locked_cases h
  · cases hfailed
  · cases Engine.runs_of_runHeld hcall with
    | @completed r candidates skipped s index hstarts hfilled hcommit =>
        have hextends := Run.fill_extends r caller
          ⟨{ e.index with queue := some [] }, e.parser, [], 0, 0, skipped, 0, []⟩ candidates
          (r.updatedProject tree r.started)
        rw [Engine.filled] at hfilled
        rw [hfilled] at hextends
        obtain ⟨ops, hops⟩ := hextends
        rw [hstarts.started] at hcommit
        have hwritten : t.write caller now ops = some (t.moveOn index) := by
          refine write_of_commit ?_
          rw [hindex, ← hcommit, hops]
          rfl
        refine ⟨ops, t.moveOn index, ?_, ?_, ?_⟩
        · rw [next, hwritten]
        · rw [Engine.refresh_eq]
          rfl
        · rw [Engine.refresh_eq]
          exact congrArg (· + 1) hgeneration

/-- A removal that succeeds clears its documents, commits once more and counts. -/
theorem removal_next (h : e.removeProject caller now projectId = (e', .ok ()))
    (hindex : t.index = e.index) (hgeneration : t.generation = e.generation) :
    ∃ t₁ t₂, t.next now (.removal projectId) caller .begun = (t₁, .cleared) ∧
      t₁.next now (.removal projectId) caller .cleared = (t₂, .committed t₂.latest) ∧
      t₂.index = e'.index ∧
      (t₂.next now (.removal projectId) caller (.committed t₂.latest)).1.generation = e'.generation := by
  obtain ⟨-, f, hfailed⟩ | ⟨locks, e₁, -, hcall, rfl⟩ := Engine.locked_cases h
  · cases hfailed
  · cases Engine.removes_of_removeHeld hcall with
    | @completed cleared index hcleared hgone =>
        have hwritten : t.write caller now [.deleteProjectDocuments projectId] = some (t.moveOn cleared) := by
          refine write_of_commit ?_
          rw [hindex]
          exact hcleared
        obtain hdeleted | ⟨f, hdeleted, hcause, rfl⟩ := hgone
        · refine ⟨t.moveOn cleared, (t.moveOn cleared).moveOn index, ?_, ?_, ?_, ?_⟩
          · rw [next, hwritten]
          · simp only [next]
            rw [show (t.moveOn cleared).index = cleared from rfl, hdeleted]
          · rw [Engine.refresh_eq]
            rfl
          · rw [Engine.refresh_eq]
            exact congrArg (· + 1) hgeneration
        · refine ⟨t.moveOn index, t.moveOn index, ?_, ?_, ?_, ?_⟩
          · rw [next, hwritten]
          · simp only [next]
            rw [show (t.moveOn index).index = index from rfl, hdeleted]
            simp [hcause]
          · rw [Engine.refresh_eq]
            rfl
          · rw [Engine.refresh_eq]
            exact congrArg (· + 1) hgeneration

end Calls

def Answers (t : Traffic) (state : Nat) (r : SearchRequest) (response : SearchResponse) : Prop :=
  ∃ ix, t.states[state]? = some ix ∧ Searcher.answer ix true r = .ok response

/-- Whether all changes that are counted up to a generation had led to the state with the given number.
Only the generation that the index still has matters. -/
def Covers (t : Traffic) (state generation : Nat) : Prop :=
  generation ≤ t.generation ∧ (generation = t.generation → ∀ left ∈ t.counted, left ≤ state)

/-- A kept answer is one that a state gave which covers its generation. -/
def Justified (t : Traffic) (steps : List TrafficStep) (key : String) (kept : KeptResponse) : Prop :=
  ∃ r state, Asked steps r ∧ r.key = key ∧ t.Answers state r kept.response ∧
    t.Covers state kept.generation

/-- What may be told to a search: an answer of a state that no call had left when it began. -/
def Tells (t : Traffic) (s : OngoingSearch) (response : SearchResponse) : Prop :=
  ∃ state, (∀ left ∈ s.before, left ≤ state) ∧ t.Answers state s.request response

/-- A search that has done what it should so far. -/
def Sound (t : Traffic) (steps : List TrafficStep) (s : OngoingSearch) : Prop :=
  match s.stage with
  | .found kept => Asked steps s.request ∧ t.Justified steps s.request.key kept
  | .noted generation => Asked steps s.request ∧ generation ≤ t.generation
  | .answered generation response => Asked steps s.request ∧
      ∃ state, (∀ left ∈ s.before, left ≤ state) ∧ t.Answers state s.request response ∧
        t.Covers state generation
  | .ended (.ok (response, _)) => t.Tells s response
  | .ended (.error _) => True
  | _ => Asked steps s.request

/-- What every step keeps. -/
structure Faithful (t : Traffic) (steps : List TrafficStep) : Prop where
  kept : ∀ key kept, t.searcher.cache.peek? key = some kept → t.Justified steps key kept
  sound : ∀ s ∈ t.searches, t.Sound steps s
  before : ∀ s ∈ t.searches, ∀ left ∈ s.before, left ∈ t.counted
  left : ∀ c ∈ t.changes, ∀ state ∈ c.stage.left?, state ≤ t.latest

/-- How the index and its generation move on. -/
structure Follows (t t' : Traffic) : Prop where
  states : t.states <+: t'.states
  generation : t.generation ≤ t'.generation
  counted : ∀ left ∈ t.counted, left ∈ t'.counted
  unchanged : t'.generation = t.generation → ∀ left ∈ t'.counted, left ∈ t.counted

section Follows

variable {t t' : Traffic} {steps : List TrafficStep} {step : TrafficStep}

theorem Answers.follow (hf : t.Follows t') {state : Nat} {r : SearchRequest}
    {response : SearchResponse} (h : t.Answers state r response) : t'.Answers state r response := by
  obtain ⟨ix, hix, hanswer⟩ := h
  obtain ⟨more, hmore⟩ := hf.states
  refine ⟨ix, ?_, hanswer⟩
  rw [← hmore, List.getElem?_append_left (List.getElem?_eq_some_iff.mp hix).1, hix]

theorem Covers.follow (hf : t.Follows t') {state generation : Nat} (h : t.Covers state generation) :
    t'.Covers state generation := by
  refine ⟨h.1.trans hf.generation, fun heq left hleft => ?_⟩
  have hsame : t'.generation = t.generation := by
    have := h.1
    have := hf.generation
    omega
  exact h.2 (heq.trans hsame) left (hf.unchanged hsame left hleft)

theorem Justified.follow (hf : t.Follows t') {key : String} {kept : KeptResponse}
    (h : t.Justified steps key kept) : t'.Justified (steps ++ [step]) key kept := by
  obtain ⟨r, state, hasked, hkey, hanswers, hcovers⟩ := h
  exact ⟨r, state, hasked.left, hkey, hanswers.follow hf, hcovers.follow hf⟩

theorem Tells.follow (hf : t.Follows t') {s : OngoingSearch} {response : SearchResponse}
    (h : t.Tells s response) : t'.Tells s response := by
  obtain ⟨state, hbefore, hanswers⟩ := h
  exact ⟨state, hbefore, hanswers.follow hf⟩

theorem Sound.follow (hf : t.Follows t') {s : OngoingSearch} (h : t.Sound steps s) :
    t'.Sound (steps ++ [step]) s := by
  unfold Sound at h ⊢
  split at h
  · exact ⟨h.1.left, h.2.follow hf⟩
  · exact ⟨h.1.left, h.2.trans hf.generation⟩
  · obtain ⟨hasked, state, hbefore, hanswers, hcovers⟩ := h
    exact ⟨hasked.left, state, hbefore, hanswers.follow hf, hcovers.follow hf⟩
  · exact h.follow hf
  · trivial
  · exact h.left

end Follows

theorem Follows.of_eq {t t' : Traffic} (hindex : t'.index = t.index) (hpast : t'.past = t.past)
    (hgeneration : t'.generation = t.generation) (hchanges : t'.changes = t.changes) :
    t.Follows t' := by
  refine ⟨?_, hgeneration.ge, ?_, fun _ => ?_⟩
  · rw [Traffic.states, Traffic.states, hindex, hpast]
  · simp [Traffic.counted, hchanges]
  · simp [Traffic.counted, hchanges]

theorem counted_of_returned {t : Traffic} {state : Nat} (h : state ∈ t.returned) :
    state ∈ t.counted := by
  obtain ⟨c, hc, hstate⟩ := List.mem_filterMap.mp h
  refine List.mem_filterMap.mpr ⟨c, hc, ?_⟩
  unfold ChangeStage.returned? at hstate
  split at hstate
  · rename_i hstage
    rw [hstage, ← hstate]
    rfl
  · cases hstate

section Step

variable {t : Traffic} {steps : List TrafficStep}

theorem before_ofRequest (r : SearchRequest) (live : Bool) (before : List Nat) :
    (OngoingSearch.ofRequest r live before).before = before := by
  unfold OngoingSearch.ofRequest
  split <;> rfl

theorem Faithful.begin (h : t.Faithful steps) (r : SearchRequest) (live : Bool) :
    (t.begin r live).Faithful (steps ++ [.search r live]) := by
  have hfollows : t.Follows (t.begin r live) := .of_eq rfl rfl rfl rfl
  refine ⟨fun key kept hkept => (h.kept key kept hkept).follow hfollows, fun s hs => ?_,
    fun s hs => ?_, h.left⟩
  · rcases List.mem_append.mp hs with hs | hs
    · exact (h.sound s hs).follow hfollows
    · rw [List.mem_singleton.mp hs, OngoingSearch.ofRequest]
      cases hchecked : r.validated with
      | error f => trivial
      | ok checked => exact ⟨r, live, by simp, hchecked⟩
  · rcases List.mem_append.mp hs with hs | hs
    · exact h.before s hs
    · rw [List.mem_singleton.mp hs, before_ofRequest]
      exact fun left hleft => counted_of_returned (t := t) hleft

theorem Faithful.change (h : t.Faithful steps) (task : ChangeTask) (caller : Caller) :
    (t.step (.change task caller)).Faithful (steps ++ [.change task caller]) := by
  have hcounted : (t.step (.change task caller)).counted = t.counted := by
    simp [step, counted, ChangeStage.counted?]
  have hfollows : t.Follows (t.step (.change task caller)) := by
    refine ⟨List.prefix_rfl, le_rfl, ?_, fun _ => ?_⟩
    · rw [hcounted]; exact fun _ h => h
    · rw [hcounted]; exact fun _ h => h
  refine ⟨fun key kept hkept => (h.kept key kept hkept).follow hfollows,
    fun s hs => (h.sound s hs).follow hfollows, fun s hs => ?_, fun c hc => ?_⟩
  · rw [hcounted]
    exact h.before s hs
  · rcases List.mem_append.mp hc with hc | hc
    · exact h.left c hc
    · rw [List.mem_singleton.mp hc]
      simp [ChangeStage.left?]

theorem Faithful.counted_le (h : t.Faithful steps) : ∀ left ∈ t.counted, left ≤ t.latest := by
  intro left hleft
  obtain ⟨c, hc, hcounted⟩ := List.mem_filterMap.mp hleft
  refine h.left c hc left ?_
  unfold ChangeStage.counted? at hcounted
  split at hcounted <;> simp_all [ChangeStage.left?]

theorem answers_latest {r : SearchRequest} {response : SearchResponse} {live : Bool}
    (h : Searcher.answer t.index live r = .ok response) : t.Answers t.latest r response :=
  ⟨t.index, by simp [Traffic.states, latest], Searcher.answer_live h⟩

/-- An answer that was kept for the generation that the index still has may be told. -/
theorem Justified.tells (hdistinct : Distinguished steps) {s : OngoingSearch} {kept : KeptResponse}
    (hasked : Asked steps s.request) (hbefore : ∀ left ∈ s.before, left ∈ t.counted)
    (h : t.Justified steps s.request.key kept) (hgeneration : kept.generation = t.generation) :
    t.Tells s kept.response := by
  obtain ⟨r, state, hasked', hkey, ⟨ix, hix, hanswer⟩, hcovers⟩ := h
  refine ⟨state, fun left hleft => hcovers.2 hgeneration left (hbefore left hleft), ix, hix, ?_⟩
  rw [SearchRequest.answer_bare (hdistinct _ _ hasked hasked' hkey.symm), hanswer]

/-- A step of a search puts nothing into the searcher, and tells nothing, that is not as it should be. -/
theorem Faithful.next (h : t.Faithful steps) (hdistinct : Distinguished steps) (now : Instant)
    {s : OngoingSearch} (hs : s ∈ t.searches) :
    let taken := s.stage.next t.searcher t.index t.generation now s.live s.request
    (∀ key kept, taken.1.cache.peek? key = some kept → t.Justified steps key kept) ∧
      t.Sound steps { s with stage := taken.2 } := by
  have hsound := h.sound s hs
  have hbefore := h.before s hs
  unfold Sound at hsound
  cases hstage : s.stage with
  | begun =>
      rw [hstage] at hsound
      simp only [SearchStage.next]
      split
      · exact ⟨h.kept, hsound⟩
      · rename_i kept hkept
        refine ⟨fun key other hother => h.kept key other ?_, hsound, h.kept _ _ ?_⟩
        · rwa [Recent.peek?_touch] at hother
        · split at hkept
          · exact hkept
          · cases hkept
  | found kept =>
      rw [hstage] at hsound
      simp only [SearchStage.next]
      split
      · exact ⟨h.kept, hsound.1⟩
      · rename_i hholds
        -- nothing has been counted since the answer was kept
        have hgeneration : kept.generation = t.generation := by simp_all
        exact ⟨h.kept, hsound.2.tells hdistinct hsound.1 hbefore hgeneration⟩
  | outdated =>
      rw [hstage] at hsound
      refine ⟨fun key kept hkept => h.kept key kept ?_, hsound⟩
      exact Recent.peek?_of_peek?_erase hkept
  | missed =>
      rw [hstage] at hsound
      exact ⟨h.kept, hsound, le_rfl⟩
  | noted generation =>
      rw [hstage] at hsound
      simp only [SearchStage.next]
      split
      · exact ⟨h.kept, trivial⟩
      · rename_i response hanswer
        -- the generation was noted before the index is asked, so what it counts is in the answer
        refine ⟨h.kept, hsound.1, t.latest, ?_, answers_latest hanswer, hsound.2, fun _ => h.counted_le⟩
        exact fun left hleft => h.counted_le left (hbefore left hleft)
  | answered generation response =>
      rw [hstage] at hsound
      obtain ⟨hasked, state, hbefore, hanswers, hcovers⟩ := hsound
      refine ⟨fun key kept hkept => ?_, state, hbefore, hanswers⟩
      simp only [SearchStage.next] at hkept
      split at hkept
      · rcases Recent.peek?_insert hkept with ⟨rfl, rfl⟩ | ⟨-, hkept⟩
        · exact ⟨s.request, state, hasked, rfl, hanswers, hcovers⟩
        · exact h.kept key kept hkept
      · exact h.kept key kept hkept
  | ended outcome =>
      rw [hstage] at hsound
      exact ⟨h.kept, hsound⟩

theorem Faithful.idle (h : t.Faithful steps) (step : TrafficStep) : t.Faithful (steps ++ [step]) :=
  have hfollows : t.Follows t := .of_eq rfl rfl rfl rfl
  ⟨fun key kept hkept => (h.kept key kept hkept).follow hfollows,
    fun s hs => (h.sound s hs).follow hfollows, h.before, h.left⟩

theorem Faithful.advance (h : t.Faithful steps) (hdistinct : Distinguished steps) (i : Nat)
    (now : Instant) : (t.step (.advance i now)).Faithful (steps ++ [.advance i now]) := by
  unfold step
  simp only
  split
  · exact h.idle _
  · rename_i s hs
    have hmem := List.mem_of_getElem? hs
    obtain ⟨hkept, hsound⟩ := h.next hdistinct now hmem
    refine ⟨fun key kept hpeek => (hkept key kept hpeek).follow (.of_eq rfl rfl rfl rfl),
      fun s' hs' => ?_, fun s' hs' => ?_, h.left⟩
    · rcases List.mem_or_eq_of_mem_set hs' with hs' | rfl
      · exact (h.sound s' hs').follow (.of_eq rfl rfl rfl rfl)
      · exact hsound.follow (.of_eq rfl rfl rfl rfl)
    · rcases List.mem_or_eq_of_mem_set hs' with hs' | rfl
      · exact h.before s' hs'
      · exact h.before s hmem

/-- How the state of the index, the generation and the stage of a call move on together. -/
inductive Moves (t t' : Traffic) (stage stage' : ChangeStage) : Prop where
  | stays (hsame : t' = t) (hcounted : stage'.counted? = stage.counted?)
      (hleft : ∀ state ∈ stage'.left?, state ∈ stage.left? ∨ state = t.latest)
  | commits (index : Index) (hmoved : t' = t.moveOn index) (hcounted : stage.counted? = none)
      (hcounted' : stage'.counted? = none) (hleft : ∀ state ∈ stage'.left?, state = t'.latest)
  | counts (state : Nat) (hcounts : t' = { t with generation := t.generation + 1 })
      (hstage : stage = .committed state) (hstage' : stage' = .counted state)

theorem moves_write (caller : Caller) (now : Instant) (ops : List WriteOp) {t' : Traffic}
    (h : t.write caller now ops = some t') : ∃ index, t' = t.moveOn index := by
  unfold write at h
  split at h
  · exact ⟨_, (Option.some.inj h).symm⟩
  · cases h

theorem moves_next (t : Traffic) (now : Instant) (task : ChangeTask) (caller : Caller)
    (stage : ChangeStage) :
    t.Moves (t.next now task caller stage).1 stage (t.next now task caller stage).2 := by
  cases stage with
  | begun =>
      cases task with
      | run ops =>
          simp only [next]
          split
          · rename_i t' hwrite
            obtain ⟨index, rfl⟩ := moves_write caller now ops hwrite
            exact .commits index rfl rfl rfl (by simp [ChangeStage.left?])
          · exact .stays rfl rfl (by simp [ChangeStage.left?])
      | removal id =>
          simp only [next]
          split
          · rename_i t' hwrite
            obtain ⟨index, rfl⟩ := moves_write caller now _ hwrite
            exact .commits index rfl rfl rfl (by simp [ChangeStage.left?])
          · exact .stays rfl rfl (by simp [ChangeStage.left?])
  | cleared =>
      cases task with
      | run ops => exact .stays rfl rfl (by simp [next, ChangeStage.left?])
      | removal id =>
          simp only [next]
          split
          · exact .commits _ rfl rfl rfl (by simp [ChangeStage.left?])
          · split
            · exact .stays rfl rfl (by simp [ChangeStage.left?])
            · exact .stays rfl rfl (by simp [ChangeStage.left?])
  | committed state => exact .counts state rfl rfl rfl
  | counted state => exact .stays rfl rfl (by simp [next, ChangeStage.left?])
  | returned state => exact .stays rfl rfl (by simp [next, ChangeStage.left?])
  | failed => exact .stays rfl rfl (by simp [next, ChangeStage.left?])

theorem exists_set_eq {α : Type} {l : List α} {j : Nat} {a : α} (h : l[j]? = some a) (b : α) :
    ∃ front back, l = front ++ a :: back ∧ l.set j b = front ++ b :: back := by
  obtain ⟨hj, rfl⟩ := List.getElem?_eq_some_iff.mp h
  refine ⟨l.take j, l.drop (j + 1), ?_, ?_⟩
  · rw [← List.drop_eq_getElem_cons hj, List.take_append_drop]
  · rw [List.set_eq_take_append_cons_drop, if_pos hj]

theorem Moves.follows {t' : Traffic} {c : OngoingChange} {stage : ChangeStage} {j : Nat}
    (hmoves : t.Moves t' c.stage stage) (hc : t.changes[j]? = some c) :
    t.Follows { t' with changes := t.changes.set j { c with stage } } := by
  obtain ⟨front, back, hlist, hset⟩ := exists_set_eq hc { c with stage }
  have hsame (heq : stage.counted? = c.stage.counted?) (t' : Traffic) :
      ({ t' with changes := t.changes.set j { c with stage } } : Traffic).counted = t.counted := by
    simp only [Traffic.counted]
    rw [hset, hlist]
    simp [List.filterMap_append, List.filterMap_cons, heq]
  cases hmoves with
  | stays hstays hcounted _ =>
      refine ⟨?_, ?_, ?_, fun _ => ?_⟩
      · rw [hstays]; exact List.prefix_rfl
      · rw [hstays]
      · rw [hsame hcounted]; exact fun _ h => h
      · rw [hsame hcounted]; exact fun _ h => h
  | commits index hmoved hcounted hcounted' _ =>
      have heq : stage.counted? = c.stage.counted? := hcounted'.trans hcounted.symm
      refine ⟨?_, ?_, ?_, fun _ => ?_⟩
      · rw [hmoved]
        exact ⟨[index], rfl⟩
      · rw [hmoved]
        exact le_rfl
      · rw [hsame heq]; exact fun _ h => h
      · rw [hsame heq]; exact fun _ h => h
  | counts state hcounts hstage hstage' =>
      refine ⟨?_, ?_, fun left hleft => ?_, fun hgeneration => ?_⟩
      · rw [hcounts]; exact List.prefix_rfl
      · rw [hcounts]; exact Nat.le_succ _
      · simp only [Traffic.counted] at hleft ⊢
        rw [hlist] at hleft
        rw [hset]
        simp only [List.filterMap_append, List.mem_append, List.filterMap_cons, hstage, hstage',
          ChangeStage.counted?, List.mem_cons] at hleft ⊢
        tauto
      · -- what is kept for the generation before is not told any more
        rw [hcounts] at hgeneration
        exact absurd hgeneration (Nat.succ_ne_self _)

theorem Moves.searcher_eq {t' : Traffic} {stage stage' : ChangeStage} (h : t.Moves t' stage stage') :
    t'.searcher = t.searcher ∧ t'.searches = t.searches ∧ t'.changes = t.changes ∧ t.latest ≤ t'.latest := by
  cases h with
  | stays hsame _ _ => subst hsame; exact ⟨rfl, rfl, rfl, le_rfl⟩
  | commits index hmoved _ _ _ => subst hmoved; exact ⟨rfl, rfl, rfl, by simp [latest, moveOn]⟩
  | counts state hcounts _ _ => subst hcounts; exact ⟨rfl, rfl, rfl, le_rfl⟩

theorem Moves.left_le {t' : Traffic} {stage stage' : ChangeStage} (hmoves : t.Moves t' stage stage')
    (h : ∀ state ∈ stage.left?, state ≤ t.latest) : ∀ state ∈ stage'.left?, state ≤ t'.latest := by
  intro state hstate
  cases hmoves with
  | stays hsame _ hleft =>
      rw [hsame]
      rcases hleft state hstate with hold | rfl
      · exact h state hold
      · exact le_rfl
  | commits index hmoved _ _ hleft => exact (hleft state hstate).le
  | counts left hcounts hstage hstage' =>
      rw [hcounts]
      rw [hstage'] at hstate
      rw [hstage] at h
      exact h state hstate

theorem Faithful.proceed (h : t.Faithful steps) (j : Nat) (now : Instant) :
    (t.step (.proceed j now)).Faithful (steps ++ [.proceed j now]) := by
  unfold step
  simp only
  split
  · exact h.idle _
  · rename_i c hc
    have hmoves := moves_next t now c.task c.caller c.stage
    have hfollows := hmoves.follows hc
    obtain ⟨hsearcher, hsearches, hchanges, hlatest⟩ := hmoves.searcher_eq
    generalize t.next now c.task c.caller c.stage = moved at *
    obtain ⟨t', stage⟩ := moved
    simp only at hmoves hfollows hsearcher hsearches hchanges hlatest ⊢
    rw [hchanges] at *
    refine ⟨fun key kept hpeek => ?_, fun s hs => ?_, fun s hs left hleft => ?_, fun c' hc' => ?_⟩
    · rw [hsearcher] at hpeek
      exact (h.kept key kept hpeek).follow hfollows
    · rw [hsearches] at hs
      exact (h.sound s hs).follow hfollows
    · rw [hsearches] at hs
      exact hfollows.counted left (h.before s hs left hleft)
    · rcases List.mem_or_eq_of_mem_set hc' with hc' | rfl
      · exact fun state hstate => (h.left c' hc' state hstate).trans hlatest
      · exact hmoves.left_le (h.left c (List.mem_of_getElem? hc))

theorem Faithful.step (h : t.Faithful steps) (hdistinct : Distinguished steps) (step : TrafficStep) :
    (t.step step).Faithful (steps ++ [step]) := by
  cases step with
  | search r live => exact h.begin r live
  | advance i now => exact h.advance hdistinct i now
  | change task caller => exact h.change task caller
  | proceed j now => exact h.proceed j now

end Step

theorem faithful_start (index : Index) (generation : Nat) : (start index generation).Faithful [] where
  kept := by simp [start, Searcher.new, Recent.peek?_empty]
  sound := by simp [start]
  before := by simp [start]
  left := by simp [start]

theorem run_append (t : Traffic) (steps : List TrafficStep) (step : TrafficStep) :
    t.run (steps ++ [step]) = (t.run steps).step step := by
  simp [run, List.foldl_append]

theorem faithful_run (index : Index) (generation : Nat) {steps : List TrafficStep}
    (h : Distinguished steps) : ((start index generation).run steps).Faithful steps := by
  induction steps using List.reverseRecOn with
  | nil => exact faithful_start index generation
  | append_singleton steps step ih =>
      rw [run_append]
      exact (ih h.left).step h.left step

/-- A search goes on under its request, and one that has ended stays as it is. -/
theorem searches_step {t : Traffic} {i : Nat} {s : OngoingSearch} (h : t.searches[i]? = some s)
    (step : TrafficStep) : ∃ stage, (t.step step).searches[i]? = some { s with stage } ∧
      ∀ outcome, s.stage = .ended outcome → stage = .ended outcome := by
  cases step with
  | search r live =>
      refine ⟨s.stage, ?_, fun _ h => h⟩
      simp only [Traffic.step, begin]
      rw [List.getElem?_append_left (List.getElem?_eq_some_iff.mp h).1, h]
  | advance j now =>
      simp only [Traffic.step]
      split
      · exact ⟨s.stage, h, fun _ h => h⟩
      · rename_i s' hs'
        by_cases hij : j = i
        · subst hij
          obtain rfl : s = s' := Option.some.inj (h.symm.trans hs')
          refine ⟨_, List.getElem?_set_self (List.getElem?_eq_some_iff.mp h).1, fun outcome hended => ?_⟩
          rw [hended, SearchStage.next]
        · refine ⟨s.stage, ?_, fun _ h => h⟩
          rw [List.getElem?_set_ne hij, h]
  | change task caller => exact ⟨s.stage, h, fun _ h => h⟩
  | proceed j now =>
      refine ⟨s.stage, ?_, fun _ h => h⟩
      simp only [Traffic.step]
      split
      · exact h
      · rename_i c _
        rw [(moves_next t now c.task c.caller c.stage).searcher_eq.2.1]
        exact h

theorem searches_run {t : Traffic} {i : Nat} {s : OngoingSearch} (h : t.searches[i]? = some s)
    (steps : List TrafficStep) : ∃ stage, (t.run steps).searches[i]? = some { s with stage } ∧
      ∀ outcome, s.stage = .ended outcome → stage = .ended outcome := by
  induction steps generalizing t s with
  | nil => exact ⟨s.stage, h, fun _ h => h⟩
  | cons step steps ih =>
      obtain ⟨stage, hstep, hstays⟩ := searches_step h step
      obtain ⟨stage', hrun, hstays'⟩ := ih hstep
      exact ⟨stage', hrun, fun outcome hended => hstays' outcome (hstays outcome hended)⟩

/-- Whatever a search is told, kept or not, is what a state of the index answers that no call had left
behind which had returned before the search began. -/
theorem told_what_returned_calls_left (index : Index) (generation : Nat)
    {earlier later : List TrafficStep} {r : SearchRequest} {live : Bool} {response : SearchResponse}
    {cached : Bool} (hdistinct : Distinguished (earlier ++ .search r live :: later))
    (htold : ((start index generation).run (earlier ++ .search r live :: later)).outcome?
      ((start index generation).run earlier).searches.length = some (.ok (response, cached))) :
    ∃ checked state ix, r.validated = .ok checked ∧
      (∀ left ∈ ((start index generation).run earlier).returned, left ≤ state) ∧
      ((start index generation).run (earlier ++ .search r live :: later)).states[state]? = some ix ∧
      Searcher.answer ix true checked = .ok response := by
  have hrun : (start index generation).run (earlier ++ .search r live :: later) =
      (((start index generation).run earlier).begin r live).run later := by
    simp [run, step]
  obtain ⟨s, hs, hstage⟩ := Option.bind_eq_some_iff.mp htold
  have hended : s.stage = .ended (.ok (response, cached)) := by
    unfold SearchStage.outcome? at hstage
    split at hstage
    · rename_i houtcome
      rw [houtcome, Option.some.inj hstage]
    · cases hstage
  have hsound := (faithful_run index generation hdistinct).sound s (List.mem_of_getElem? hs)
  unfold Sound at hsound
  rw [hended] at hsound
  obtain ⟨state, hbefore, ix, hix, hanswer⟩ := hsound
  obtain ⟨stage, hlater, hstays⟩ := searches_run
    (t := ((start index generation).run earlier).begin r live) List.getElem?_concat_length later
  rw [← hrun, hs] at hlater
  have hsearch := Option.some.inj hlater
  cases hchecked : r.validated with
  | error f =>
      rw [OngoingSearch.ofRequest, hchecked] at hsearch hstays
      rw [hsearch] at hended
      exact absurd ((hstays _ rfl).symm.trans hended) (by simp)
  | ok checked =>
      rw [OngoingSearch.ofRequest, hchecked] at hsearch
      rw [hsearch] at hbefore hanswer
      exact ⟨checked, state, ix, rfl, hbefore, hix, hanswer⟩

def sampleDocument : Document where
  file := { id := "f", projectId := "p", path := "/a.py", relativePath := "a.py", fileType := .source
            language := ⟨"python"⟩, size := 15, lineCount := 2, lastModified := .zero, lastIndexed := .zero
            checksum := "c", encoding := "utf-8" }
  content := "def f():\n  f()\n"
  symbols := [⟨"s", "f", "f", .function, ⟨1, 4⟩, ⟨1, 5⟩, "def f()", "", "", []⟩]
  references := [⟨"r", "s", "f", ⟨"f", ⟨2, 2⟩, ⟨2, 3⟩⟩, .usage, "f()"⟩]

def sampleRequest : SearchRequest := { SearchRequest.plain "f" with mode := .reference, useCache := true }

/-- A run writes the file, a search finds the use and its answer is kept, and another run deletes the
file. -/
def sampleEarlier : List TrafficStep :=
  [.change (.run [.put sampleDocument]) .patient] ++ .replicate 3 (.proceed 0 ⟨20, 0, false⟩) ++
    .search sampleRequest true :: .replicate 4 (.advance 0 ⟨21, 0, false⟩) ++
    .change (.run [.deleteFile "f"]) .patient :: .replicate 3 (.proceed 1 ⟨22, 0, false⟩)

def sampleLater : List TrafficStep := .replicate 6 (.advance 1 ⟨23, 0, false⟩)

/-- A search that begins after the second run does not get the answer that was kept before it. -/
theorem deleted_file_not_told :
    ∃ response, Distinguished (sampleEarlier ++ .search sampleRequest true :: sampleLater) ∧
      ((start Engine.sampleEngine.index 0).run
          (sampleEarlier ++ .search sampleRequest true :: sampleLater)).outcome?
        ((start Engine.sampleEngine.index 0).run sampleEarlier).searches.length =
          some (.ok (response, false)) ∧
      ∃ checked state ix, sampleRequest.validated = .ok checked ∧
        (∀ left ∈ ((start Engine.sampleEngine.index 0).run sampleEarlier).returned, left ≤ state) ∧
        ((start Engine.sampleEngine.index 0).run
          (sampleEarlier ++ .search sampleRequest true :: sampleLater)).states[state]? = some ix ∧
        Searcher.answer ix true checked = .ok response := by
  have hdistinct : Distinguished (sampleEarlier ++ .search sampleRequest true :: sampleLater) := by
    rintro checked checked' ⟨r, live, hmem, hchecked⟩ ⟨r', live', hmem', hchecked'⟩ -
    obtain ⟨rfl, -⟩ : r = sampleRequest ∧ live = true := by
      simpa [sampleEarlier, sampleLater] using hmem
    obtain ⟨rfl, -⟩ : r' = sampleRequest ∧ live' = true := by
      simpa [sampleEarlier, sampleLater] using hmem'
    rw [Except.ok.inj (hchecked.symm.trans hchecked')]
  have hanew : (((start Engine.sampleEngine.index 0).run
      (sampleEarlier ++ .search sampleRequest true :: sampleLater)).outcome?
        ((start Engine.sampleEngine.index 0).run sampleEarlier).searches.length).map
          (·.toOption.map (·.2)) = some (some false) := by
    rw [Engine.sampleEngine, Index.new_eq]
    decide +kernel
  obtain ⟨outcome, htold, hoption⟩ := Option.map_eq_some_iff.mp hanew
  obtain ⟨⟨response, cached⟩, hok, rfl⟩ := Option.map_eq_some_iff.mp hoption
  cases outcome with
  | error f => cases hok
  | ok told =>
      obtain rfl := Option.some.inj hok
      exact ⟨response, hdistinct, htold, told_what_returned_calls_left _ _ hdistinct htold⟩

end Traffic

end CodeAtlas
