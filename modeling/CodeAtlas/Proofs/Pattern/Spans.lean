import CodeAtlas.Pattern.Basic
import CodeAtlas.Proofs.Text.Glyphs
import Mathlib.Logic.Relation
import Mathlib.Order.Interval.Finset.Nat
import Mathlib.Tactic.Ring

/-!
# What patterns match

A pattern stands for pairs of places in a line: it matches from the first to the second. The places
that are listed as the ends of its matches are exactly those, each of them once; for a repetition this
needs that the places are worked off until none is left, which the rounds allowed for are enough for.
A line is matched if any of its places starts a match, so a text between two borders of words is found
where it stands as a whole.
-/

namespace CodeAtlas

namespace Cursor

/-- The place after the first `i` glyphs. -/
def place (glyphs : List Glyph) (i : Nat) : Cursor :=
  { index := i
    offset := glyphBytes (glyphs.take i)
    before := (glyphs.take i).getLast?.map Glyph.char
    rest := glyphs.drop i
    left := glyphs.length - i }

variable {glyphs : List Glyph} {i : Nat}

@[simp]
theorem index_place (glyphs : List Glyph) (i : Nat) : (place glyphs i).index = i := rfl

theorem start_eq_place (glyphs : List Glyph) : start glyphs = place glyphs 0 := rfl

theorem place_succ (hi : i < glyphs.length) :
    place glyphs (i + 1) =
      ⟨(place glyphs i).index + 1, (place glyphs i).offset + glyphs[i].width, some glyphs[i].char,
        glyphs.drop (i + 1), (place glyphs i).left - 1⟩ := by
  have htake : glyphs.take (i + 1) = glyphs.take i ++ [glyphs[i]] := List.take_succ_eq_append_getElem hi
  have hleft : glyphs.length - (i + 1) = glyphs.length - i - 1 := by omega
  simp only [place, htake, glyphBytes_append, glyphBytes_cons, glyphBytes_nil, Nat.add_zero,
    List.getLast?_concat, Option.map_some, hleft]

theorem step?_place (hi : i < glyphs.length) :
    (place glyphs i).step? = some (glyphs[i], place glyphs (i + 1)) := by
  have hdrop : (place glyphs i).rest = glyphs[i] :: glyphs.drop (i + 1) := List.drop_eq_getElem_cons hi
  rw [step?, hdrop, place_succ hi]

theorem step?_place_end (hi : glyphs.length ≤ i) : (place glyphs i).step? = none := by
  have hdrop : (place glyphs i).rest = [] := List.drop_eq_nil_of_le hi
  rw [step?, hdrop]

end Cursor

namespace Pattern

/-- The glyphs from place `i` to place `j`, all of the set. -/
def Run (glyphs : List Glyph) (set : CharSet) (i j : Nat) : Prop :=
  i ≤ j ∧ j ≤ glyphs.length ∧ ∀ g ∈ (glyphs.take j).drop i, set.contains g.char = true

/-- The pattern matches from place `i` to place `j`. -/
def Spans (glyphs : List Glyph) : Pattern → Nat → Nat → Prop
  | empty, i, j => j = i
  | char set, i, j => ∃ g, glyphs[i]? = some g ∧ set.contains g.char = true ∧ j = i + 1
  | textStart, i, j => i = 0 ∧ j = i
  | textEnd, i, j => i = glyphs.length ∧ j = i
  | boundary here, i, j =>
      (Cursor.isWord ((glyphs.take i).getLast?.map Glyph.char) !=
        Cursor.isWord ((glyphs.drop i).head?.map Glyph.char)) = here ∧ j = i
  | seq p q, i, j => ∃ k, p.Spans glyphs i k ∧ q.Spans glyphs k j
  | alt p q, i, j => p.Spans glyphs i j ∨ q.Spans glyphs i j
  | repeatSet _ set, i, j => Run glyphs set i j
  | star _ p, i, j => Relation.ReflTransGen (p.Spans glyphs) i j

theorem Spans.bounds {glyphs : List Glyph} {p : Pattern} {i j : Nat} (h : p.Spans glyphs i j)
    (hi : i ≤ glyphs.length) : i ≤ j ∧ j ≤ glyphs.length := by
  induction p generalizing i j with
  | empty =>
      obtain rfl : j = i := h
      exact ⟨Nat.le_refl j, hi⟩
  | char set =>
      obtain ⟨g, hg, -, rfl⟩ := h
      exact ⟨Nat.le_succ i, (List.getElem?_eq_some_iff.mp hg).1⟩
  | textStart =>
      obtain ⟨-, rfl⟩ := h
      exact ⟨Nat.le_refl j, hi⟩
  | textEnd =>
      obtain ⟨-, rfl⟩ := h
      exact ⟨Nat.le_refl j, hi⟩
  | boundary here =>
      obtain ⟨-, rfl⟩ := h
      exact ⟨Nat.le_refl j, hi⟩
  | seq p q ihp ihq =>
      obtain ⟨k, hp, hq⟩ := h
      obtain ⟨hik, hk⟩ := ihp hp hi
      obtain ⟨hkj, hj⟩ := ihq hq hk
      exact ⟨hik.trans hkj, hj⟩
  | alt p q ihp ihq => exact h.elim (fun h => ihp h hi) fun h => ihq h hi
  | repeatSet greedy set => exact ⟨h.1, h.2.1⟩
  | star greedy p ih =>
      unfold Spans at h
      induction h with
      | refl => exact ⟨Nat.le_refl i, hi⟩
      | tail _ hstep ihsteps =>
          obtain ⟨hik, hk⟩ := ihsteps
          obtain ⟨hkj, hj⟩ := ih hstep hk
          exact ⟨hik.trans hkj, hj⟩

end Pattern

/-- A list of the places of a line that satisfy the predicate, each of them once. -/
structure Lists (glyphs : List Glyph) (cs : List Cursor) (P : Nat → Prop) : Prop where
  nodup : (cs.map Cursor.index).Nodup
  mem : ∀ c, c ∈ cs ↔ ∃ j, P j ∧ c = Cursor.place glyphs j

namespace Lists

variable {glyphs : List Glyph} {cs : List Cursor} {P Q : Nat → Prop}

theorem mem_place (h : Lists glyphs cs P) {j : Nat} : Cursor.place glyphs j ∈ cs ↔ P j := by
  rw [h.mem]
  constructor
  · rintro ⟨k, hk, heq⟩
    have hindex : j = k := congrArg Cursor.index heq
    exact hindex ▸ hk
  · intro hj
    exact ⟨j, hj, rfl⟩

theorem congr (h : Lists glyphs cs P) (hiff : ∀ j, P j ↔ Q j) : Lists glyphs cs Q := by
  refine ⟨h.nodup, fun c => ?_⟩
  rw [h.mem]
  simp only [hiff]

theorem nil (hP : ∀ j, ¬P j) : Lists glyphs [] P := by
  refine ⟨List.nodup_nil, fun c => ?_⟩
  simp [hP]

theorem singleton {j : Nat} (hP : ∀ k, P k ↔ k = j) : Lists glyphs [Cursor.place glyphs j] P := by
  refine ⟨by simp, fun c => ?_⟩
  simp [hP]

theorem ite {i : Nat} {b : Bool} (hP : ∀ k, P k ↔ b = true ∧ k = i) :
    Lists glyphs (if b then [Cursor.place glyphs i] else []) P := by
  cases b with
  | true => exact singleton fun k => by simp [hP]
  | false => exact nil fun k => by simp [hP]

theorem reverse (h : Lists glyphs cs P) : Lists glyphs cs.reverse P := by
  refine ⟨?_, fun c => by rw [List.mem_reverse, h.mem]⟩
  rw [List.map_reverse, List.nodup_reverse]
  exact h.nodup

theorem isEmpty_eq_false_iff (h : Lists glyphs cs P) : cs.isEmpty = false ↔ ∃ j, P j := by
  rw [List.isEmpty_eq_false_iff_exists_mem]
  constructor
  · rintro ⟨c, hc⟩
    obtain ⟨j, hj, -⟩ := (h.mem c).mp hc
    exact ⟨j, hj⟩
  · rintro ⟨j, hj⟩
    exact ⟨_, h.mem_place.mpr hj⟩

end Lists

/-! ## Places once each -/

namespace Cursor

/-- Keeps a cursor unless there is one at its place. -/
def keep (state : Std.HashSet Nat × Array Cursor) (c : Cursor) : Std.HashSet Nat × Array Cursor :=
  if state.1.contains c.index then state else (state.1.insert c.index, state.2.push c)

theorem distinct_eq (cs : List Cursor) : distinct cs = (cs.foldl keep ({}, #[])).2.toList := by
  rcases cs with _ | ⟨c, _ | ⟨d, cs⟩⟩
  · rfl
  · simp [distinct, keep]
  · rfl

/-- What is kept, and that exactly the places of it have been seen. -/
structure Kept (state : Std.HashSet Nat × Array Cursor) (cs : List Cursor) : Prop where
  seen : ∀ n, state.1.contains n = true ↔ n ∈ state.2.toList.map index
  nodup : (state.2.toList.map index).Nodup
  mem : ∀ c ∈ state.2.toList, c ∈ cs
  all : ∀ c ∈ cs, c.index ∈ state.2.toList.map index

theorem Kept.step {state : Std.HashSet Nat × Array Cursor} {cs : List Cursor} (h : Kept state cs)
    (c : Cursor) : Kept (keep state c) (cs ++ [c]) := by
  unfold keep
  split
  · rename_i hc
    refine ⟨h.seen, h.nodup, fun d hd => List.mem_append_left _ (h.mem d hd), fun d hd => ?_⟩
    rcases List.mem_append.mp hd with hd | hd
    · exact h.all d hd
    · rw [List.mem_singleton.mp hd]
      exact (h.seen _).mp hc
  · rename_i hc
    rw [h.seen] at hc
    have hmap : (state.2.push c).toList.map index = state.2.toList.map index ++ [c.index] := by simp
    refine ⟨fun n => ?_, ?_, fun d hd => ?_, fun d hd => ?_⟩
    · rw [hmap, Std.HashSet.contains_insert, Bool.or_eq_true, h.seen, List.mem_append,
        List.mem_singleton, beq_iff_eq, or_comm, eq_comm]
    · rw [hmap, List.nodup_append]
      refine ⟨h.nodup, List.nodup_singleton _, fun n hn m hm => ?_⟩
      rw [List.mem_singleton.mp hm]
      exact fun heq => hc (heq ▸ hn)
    · rw [Array.toList_push] at hd
      exact (List.mem_append.mp hd).elim (fun hd => List.mem_append_left _ (h.mem d hd))
        (List.mem_append_right _)
    · rw [hmap, List.mem_append]
      rcases List.mem_append.mp hd with hd | hd
      · exact Or.inl (h.all d hd)
      · rw [List.mem_singleton.mp hd]
        exact Or.inr (List.mem_singleton.mpr rfl)

theorem Kept.foldl {state : Std.HashSet Nat × Array Cursor} {cs : List Cursor} (h : Kept state cs)
    (more : List Cursor) : Kept (more.foldl keep state) (cs ++ more) := by
  induction more generalizing state cs with
  | nil => rwa [List.append_nil]
  | cons c more ih =>
      rw [List.foldl_cons, List.append_cons]
      exact ih (h.step c)

theorem kept_foldl_keep (cs : List Cursor) : Kept (cs.foldl keep ({}, #[])) cs := by
  have hempty : Kept ({}, #[]) [] := ⟨by simp, by simp, by simp, by simp⟩
  simpa using hempty.foldl cs

end Cursor

theorem Lists.distinct {glyphs : List Glyph} {cs : List Cursor} {P : Nat → Prop}
    (hmem : ∀ c, c ∈ cs ↔ ∃ j, P j ∧ c = Cursor.place glyphs j) :
    Lists glyphs (Cursor.distinct cs) P := by
  have hkept := Cursor.kept_foldl_keep cs
  rw [Cursor.distinct_eq]
  generalize cs.foldl Cursor.keep ({}, #[]) = final at hkept ⊢
  refine ⟨hkept.nodup, fun c => ⟨fun hc => (hmem c).mp (hkept.mem c hc), ?_⟩⟩
  rintro ⟨j, hj, rfl⟩
  obtain ⟨d, hd, hindex⟩ := List.mem_map.mp (hkept.all _ ((hmem _).mpr ⟨j, hj, rfl⟩))
  obtain ⟨k, -, rfl⟩ := (hmem d).mp (hkept.mem d hd)
  obtain rfl : k = j := hindex
  exact hd

/-! ## Runs of a set -/

namespace Pattern

variable {glyphs : List Glyph} {set : CharSet} {i : Nat}

theorem run_self (hi : i ≤ glyphs.length) : Run glyphs set i i :=
  ⟨Nat.le_refl i, hi, by simp⟩

theorem run_iff (hi : i < glyphs.length) {j : Nat} :
    Run glyphs set i j ↔ j = i ∨ set.contains glyphs[i].char = true ∧ Run glyphs set (i + 1) j := by
  have hdrop (hij : i < j) : (glyphs.take j).drop i = glyphs[i] :: (glyphs.take j).drop (i + 1) := by
    have hlength : i < (glyphs.take j).length := by
      rw [List.length_take]
      omega
    rw [List.drop_eq_getElem_cons hlength, List.getElem_take]
  constructor
  · rintro ⟨hij, hj, hall⟩
    rcases Nat.eq_or_lt_of_le hij with rfl | hlt
    · exact Or.inl rfl
    · rw [hdrop hlt] at hall
      exact Or.inr ⟨hall _ List.mem_cons_self, hlt, hj, fun g hg =>
        hall g (List.mem_cons_of_mem _ hg)⟩
  · rintro (rfl | ⟨hfirst, hij, hj, hall⟩)
    · exact run_self hi.le
    · refine ⟨by omega, hj, ?_⟩
      rw [hdrop hij]
      exact List.forall_mem_cons.mpr ⟨hfirst, hall⟩

/-- The places that can be reached over glyphs of the set, before those listed already, the farthest
first. -/
theorem reach_place (set : CharSet) (hi : i ≤ glyphs.length) (done : List Cursor) :
    ∃ far : List Cursor, Cursor.reach set (glyphs.drop i) (Cursor.place glyphs i) done = far ++ done ∧
      far.Pairwise (fun c d => d.index < c.index) ∧
      ∀ c, c ∈ far ↔ ∃ j, Run glyphs set i j ∧ c = Cursor.place glyphs j := by
  induction hleft : glyphs.length - i generalizing i done with
  | zero =>
      have hend : i = glyphs.length := by omega
      refine ⟨[Cursor.place glyphs i], ?_, List.pairwise_singleton _ _, fun c => ?_⟩
      · rw [hend, List.drop_length]
        rfl
      · rw [List.mem_singleton]
        constructor
        · rintro rfl
          exact ⟨i, run_self hi, rfl⟩
        · rintro ⟨j, ⟨hij, hj, -⟩, rfl⟩
          rw [show j = i by omega]
  | succ n ih =>
      have hlt : i < glyphs.length := by omega
      rw [List.drop_eq_getElem_cons hlt, Cursor.reach]
      split
      · rename_i hset
        have hleft' : glyphs.length - (i + 1) = n := by omega
        obtain ⟨far, heq, hsorted, hmem⟩ := ih (i := i + 1) hlt (Cursor.place glyphs i :: done) hleft'
        refine ⟨far ++ [Cursor.place glyphs i], ?_, ?_, fun c => ?_⟩
        · rw [Cursor.place_succ hlt] at heq
          rw [heq, List.append_assoc, List.singleton_append]
        · rw [List.pairwise_append]
          refine ⟨hsorted, List.pairwise_singleton _ _, fun c hc d hd => ?_⟩
          obtain ⟨j, hrun, rfl⟩ := (hmem c).mp hc
          rw [List.mem_singleton.mp hd]
          exact hrun.1
        · rw [List.mem_append, hmem, List.mem_singleton]
          simp only [run_iff hlt, hset, true_and]
          constructor
          · rintro (⟨j, hrun, rfl⟩ | rfl)
            · exact ⟨j, Or.inr hrun, rfl⟩
            · exact ⟨i, Or.inl rfl, rfl⟩
          · rintro ⟨j, rfl | hrun, rfl⟩
            · exact Or.inr rfl
            · exact Or.inl ⟨j, hrun, rfl⟩
      · rename_i hset
        refine ⟨[Cursor.place glyphs i], rfl, List.pairwise_singleton _ _, fun c => ?_⟩
        simp [run_iff hlt, hset]

theorem pairwise_reach (set : CharSet) (hi : i ≤ glyphs.length) :
    (Cursor.reach set (glyphs.drop i) (Cursor.place glyphs i) []).Pairwise fun c d => d.index < c.index := by
  obtain ⟨far, heq, hsorted, -⟩ := reach_place set hi []
  rwa [heq, List.append_nil]

theorem lists_reach (hi : i ≤ glyphs.length) :
    Lists glyphs (Cursor.reach set (glyphs.drop i) (Cursor.place glyphs i) []) (Run glyphs set i) := by
  obtain ⟨far, heq, hsorted, hmem⟩ := reach_place set hi []
  rw [heq, List.append_nil]
  refine ⟨?_, hmem⟩
  rw [List.Nodup, List.pairwise_map]
  exact hsorted.imp fun h => h.ne'

/-! ## Repetitions -/

/-- The places that are left to be listed. -/
def toList (tasks : List Task) : List Cursor :=
  tasks.filterMap fun
    | .list c => some c
    | .visit _ => none

@[simp]
theorem toList_nil : toList [] = [] := rfl

@[simp]
theorem toList_list (c : Cursor) (tasks : List Task) : toList (.list c :: tasks) = c :: toList tasks :=
  rfl

@[simp]
theorem toList_visit (c : Cursor) (tasks : List Task) : toList (.visit c :: tasks) = toList tasks :=
  rfl

@[simp]
theorem toList_map_visit (cs : List Cursor) (tasks : List Task) :
    toList (cs.map Task.visit ++ tasks) = toList tasks := by
  induction cs with
  | nil => rfl
  | cons c cs ih => rw [List.map_cons, List.cons_append, toList_visit, ih]

/-- A relation of places whose ends from each place are listed. -/
structure Steps (glyphs : List Glyph) (step : Cursor → List Cursor) (R : Nat → Nat → Prop) : Prop where
  lists : ∀ i, i ≤ glyphs.length → Lists glyphs (step (Cursor.place glyphs i)) (R i)
  bounds : ∀ i j, R i j → i ≤ glyphs.length → i ≤ j ∧ j ≤ glyphs.length

section Star

variable {step : Cursor → List Cursor} {R : Nat → Nat → Prop} {tasks : List Task}
  {seen : Std.HashSet Nat} {done : Array Cursor}

theorem Steps.bounds_steps (h : Steps glyphs step R) {j : Nat} (hsteps : Relation.ReflTransGen R i j)
    (hi : i ≤ glyphs.length) : i ≤ j ∧ j ≤ glyphs.length := by
  induction hsteps with
  | refl => exact ⟨Nat.le_refl i, hi⟩
  | tail _ hstep ih =>
      obtain ⟨hkj, hj⟩ := h.bounds _ _ hstep ih.2
      exact ⟨ih.1.trans hkj, hj⟩

/-- The places that are visited from one, farther in the line than it. -/
def further (step : Cursor → List Cursor) (c : Cursor) : List Cursor :=
  (step c).filter fun d => c.index < d.index

theorem Steps.mem_further (h : Steps glyphs step R) (hi : i ≤ glyphs.length) {c : Cursor} :
    c ∈ further step (Cursor.place glyphs i) ↔ ∃ j, R i j ∧ i < j ∧ c = Cursor.place glyphs j := by
  rw [further, List.mem_filter, (h.lists i hi).mem]
  constructor
  · rintro ⟨⟨j, hj, rfl⟩, hlt⟩
    exact ⟨j, hj, of_decide_eq_true hlt, rfl⟩
  · rintro ⟨j, hj, hlt, rfl⟩
    exact ⟨⟨j, hj, rfl⟩, decide_eq_true hlt⟩

theorem Steps.length_further (h : Steps glyphs step R) (hi : i ≤ glyphs.length) :
    (further step (Cursor.place glyphs i)).length ≤ glyphs.length - i := by
  have hnodup : ((further step (Cursor.place glyphs i)).map Cursor.index).Nodup :=
    (h.lists i hi).nodup.sublist (List.Sublist.map _ List.filter_sublist)
  have hsubset : ((further step (Cursor.place glyphs i)).map Cursor.index).toFinset ⊆
      Finset.Ioc i glyphs.length := by
    intro n hn
    obtain ⟨c, hc, rfl⟩ := List.mem_map.mp (List.mem_toFinset.mp hn)
    obtain ⟨j, hj, hlt, rfl⟩ := (h.mem_further hi).mp hc
    exact Finset.mem_Ioc.mpr ⟨hlt, (h.bounds i j hj hi).2⟩
  have hcard := Finset.card_le_card hsubset
  rwa [List.toFinset_card_of_nodup hnodup, List.length_map, Nat.card_Ioc] at hcard

/-- The tasks of a repetition from place `i`. What has been visited is listed or will be, and wherever
it leads has been visited or will be. -/
structure Working (glyphs : List Glyph) (R : Nat → Nat → Prop) (i : Nat) (tasks : List Task)
    (seen : Std.HashSet Nat) (done : Array Cursor) : Prop where
  visits : ∀ c, .visit c ∈ tasks → ∃ j, Relation.ReflTransGen R i j ∧ c = Cursor.place glyphs j
  listed : ∀ c ∈ done.toList ++ toList tasks,
    ∃ j, Relation.ReflTransGen R i j ∧ c = Cursor.place glyphs j
  nodup : ((done.toList ++ toList tasks).map Cursor.index).Nodup
  seen_iff : ∀ j, seen.contains j = true ↔ j ∈ (done.toList ++ toList tasks).map Cursor.index
  closed : ∀ j k, seen.contains j = true → R j k → j < k →
    seen.contains k = true ∨ .visit (Cursor.place glyphs k) ∈ tasks
  root : seen.contains i = true ∨ .visit (Cursor.place glyphs i) ∈ tasks

theorem Working.start : Working glyphs R i [.visit (Cursor.place glyphs i)] {} #[] where
  visits c hc := by
    obtain rfl : c = Cursor.place glyphs i := by simpa using hc
    exact ⟨i, .refl, rfl⟩
  listed c hc := by simp at hc
  nodup := by simp
  seen_iff j := by simp
  closed j k hj := by simp at hj
  root := Or.inr List.mem_cons_self

theorem Working.list {c : Cursor} (h : Working glyphs R i (.list c :: tasks) seen done) :
    Working glyphs R i tasks seen (done.push c) := by
  have hsame : (done.push c).toList ++ toList tasks = done.toList ++ toList (.list c :: tasks) := by
    simp
  exact
    { visits := fun d hd => h.visits d (List.mem_cons_of_mem _ hd)
      listed := by rw [hsame]; exact h.listed
      nodup := by rw [hsame]; exact h.nodup
      seen_iff := by rw [hsame]; exact h.seen_iff
      closed := fun j k hj hR hlt => by simpa using h.closed j k hj hR hlt
      root := by simpa using h.root }

theorem Working.skip {j : Nat} (h : Working glyphs R i (.visit (Cursor.place glyphs j) :: tasks) seen done)
    (hj : seen.contains j = true) : Working glyphs R i tasks seen done where
  visits c hc := h.visits c (List.mem_cons_of_mem _ hc)
  listed := h.listed
  nodup := h.nodup
  seen_iff := h.seen_iff
  closed k l hk hR hlt := by
    rcases h.closed k l hk hR hlt with hl | hl
    · exact Or.inl hl
    · rcases List.mem_cons.mp hl with heq | hl
      · obtain rfl : l = j := congrArg Cursor.index (Task.visit.inj heq)
        exact Or.inl hj
      · exact Or.inr hl
  root := by
    rcases h.root with hi | hi
    · exact Or.inl hi
    · rcases List.mem_cons.mp hi with heq | hi
      · obtain rfl : i = j := congrArg Cursor.index (Task.visit.inj heq)
        exact Or.inl hj
      · exact Or.inr hi

/-- However the new tasks are put in order, a place that has not been seen adds itself and the places
it leads to. -/
theorem Working.visit (hsteps : Steps glyphs step R) (hi : i ≤ glyphs.length) {j : Nat} {tasks' : List Task}
    (h : Working glyphs R i (.visit (Cursor.place glyphs j) :: tasks) seen done)
    (hj : seen.contains j = false)
    (hvisits : ∀ c, .visit c ∈ tasks' ↔
      c ∈ further step (Cursor.place glyphs j) ∨ .visit c ∈ tasks)
    (hlisted : toList tasks' = Cursor.place glyphs j :: toList tasks) :
    Working glyphs R i tasks' (seen.insert j) done := by
  obtain ⟨j', hreach, heq⟩ := h.visits _ List.mem_cons_self
  obtain rfl : j = j' := congrArg Cursor.index heq
  have hjle := (hsteps.bounds_steps hreach hi).2
  have hperm : (done.toList ++ toList tasks').Perm
      (Cursor.place glyphs j :: (done.toList ++ toList tasks)) := by
    rw [hlisted]
    exact List.perm_middle
  have hnew : j ∉ (done.toList ++ toList tasks).map Cursor.index := by
    intro hmem
    have hseen := (h.seen_iff j).mpr hmem
    rw [hj] at hseen
    cases hseen
  have hkeeps {k : Nat} (hk : seen.contains k = true ∨
      Task.visit (Cursor.place glyphs k) ∈ Task.visit (Cursor.place glyphs j) :: tasks) :
      (seen.insert j).contains k = true ∨ .visit (Cursor.place glyphs k) ∈ tasks' := by
    rw [Std.HashSet.contains_insert, Bool.or_eq_true, beq_iff_eq]
    rcases hk with hk | hk
    · exact Or.inl (Or.inr hk)
    · rcases List.mem_cons.mp hk with heq | hk
      · obtain rfl : k = j := congrArg Cursor.index (Task.visit.inj heq)
        exact Or.inl (Or.inl rfl)
      · exact Or.inr ((hvisits _).mpr (Or.inr hk))
  exact
    { visits := by
        intro c hc
        rcases (hvisits c).mp hc with hc | hc
        · obtain ⟨k, hk, -, rfl⟩ := (hsteps.mem_further hjle).mp hc
          exact ⟨k, hreach.tail hk, rfl⟩
        · exact h.visits c (List.mem_cons_of_mem _ hc)
      listed := by
        intro c hc
        rcases List.mem_cons.mp (hperm.mem_iff.mp hc) with rfl | hc
        · exact ⟨j, hreach, rfl⟩
        · exact h.listed c hc
      nodup := by
        rw [(hperm.map Cursor.index).nodup_iff, List.map_cons, List.nodup_cons]
        exact ⟨hnew, h.nodup⟩
      seen_iff := by
        intro k
        rw [(hperm.map Cursor.index).mem_iff, List.map_cons, List.mem_cons,
          Std.HashSet.contains_insert, Bool.or_eq_true, beq_iff_eq, h.seen_iff, toList_visit, eq_comm]
        rfl
      closed := by
        intro k l hk hR hlt
        rw [Std.HashSet.contains_insert, Bool.or_eq_true, beq_iff_eq] at hk
        rcases hk with rfl | hk
        · exact Or.inr ((hvisits _).mpr (Or.inl ((hsteps.mem_further hjle).mpr ⟨l, hR, hlt, rfl⟩)))
        · exact hkeeps (h.closed k l hk hR hlt)
      root := hkeeps h.root }

theorem Working.lists (hsteps : Steps glyphs step R) (hi : i ≤ glyphs.length)
    (h : Working glyphs R i [] seen done) :
    Lists glyphs done.toList (Relation.ReflTransGen R i) := by
  have hall : ∀ j, Relation.ReflTransGen R i j → seen.contains j = true := by
    intro j hreach
    induction hreach with
    | refl => simpa using h.root
    | tail hreach hstep ih =>
        have hbounds := hsteps.bounds _ _ hstep (hsteps.bounds_steps hreach hi).2
        rcases Nat.eq_or_lt_of_le hbounds.1 with rfl | hlt
        · exact ih
        · simpa using h.closed _ _ ih hstep hlt
  have hlisted : ∀ c ∈ done.toList, ∃ j, Relation.ReflTransGen R i j ∧ c = Cursor.place glyphs j :=
    fun c hc => h.listed c (List.mem_append_left _ hc)
  refine ⟨by simpa using h.nodup, fun c => ⟨hlisted c, ?_⟩⟩
  rintro ⟨j, hreach, rfl⟩
  have hindex : j ∈ done.toList.map Cursor.index := by
    simpa using (h.seen_iff j).mp (hall j hreach)
  obtain ⟨d, hd, hdj⟩ := List.mem_map.mp hindex
  obtain ⟨k, -, rfl⟩ := hlisted d hd
  obtain rfl : k = j := hdj
  exact hd

/-- How many places from `i` on have not been seen. -/
def unseen (glyphs : List Glyph) (i : Nat) (seen : Std.HashSet Nat) : Nat :=
  ((Finset.Icc i glyphs.length).filter fun j => seen.contains j = false).card

theorem unseen_insert {j : Nat} (hij : i ≤ j) (hj : j ≤ glyphs.length) (hnew : seen.contains j = false) :
    unseen glyphs i (seen.insert j) + 1 = unseen glyphs i seen := by
  have hmem : j ∈ (Finset.Icc i glyphs.length).filter fun k => seen.contains k = false :=
    Finset.mem_filter.mpr ⟨Finset.mem_Icc.mpr ⟨hij, hj⟩, hnew⟩
  have herase : ((Finset.Icc i glyphs.length).filter fun k => (seen.insert j).contains k = false) =
      ((Finset.Icc i glyphs.length).filter fun k => seen.contains k = false).erase j := by
    ext k
    simp only [Finset.mem_filter, Finset.mem_erase, Std.HashSet.contains_insert,
      Bool.or_eq_false_iff, beq_eq_false_iff_ne]
    constructor
    · rintro ⟨hk, hne, hseen⟩
      exact ⟨Ne.symm hne, hk, hseen⟩
    · rintro ⟨hne, hk, hseen⟩
      exact ⟨hk, Ne.symm hne, hseen⟩
  rw [unseen, unseen, herase, Finset.card_erase_add_one hmem]

/-- The tasks that visiting a place puts before the others. -/
def pending (greedy : Bool) (cs : List Cursor) (c : Cursor) (tasks : List Task) : List Task :=
  if greedy then cs.map .visit ++ .list c :: tasks else .list c :: (cs.map .visit ++ tasks)

theorem visit_mem_pending {greedy : Bool} {cs : List Cursor} {c d : Cursor} :
    .visit d ∈ pending greedy cs c tasks ↔ d ∈ cs ∨ .visit d ∈ tasks := by
  cases greedy <;> simp [pending]

@[simp]
theorem toList_pending (greedy : Bool) (cs : List Cursor) (c : Cursor) :
    toList (pending greedy cs c tasks) = c :: toList tasks := by
  cases greedy <;> simp [pending]

theorem length_pending (greedy : Bool) (cs : List Cursor) (c : Cursor) :
    (pending greedy cs c tasks).length = cs.length + 1 + tasks.length := by
  cases greedy <;> simp [pending] <;> omega

theorem starEnds_visit {greedy : Bool} {fuel : Nat} {c : Cursor}
    (hnew : seen.contains c.index = false) :
    starEnds step greedy (fuel + 1) (.visit c :: tasks) seen done =
      starEnds step greedy fuel (pending greedy (further step c) c tasks) (seen.insert c.index)
        done := by
  rw [starEnds, if_neg (by rw [hnew]; exact Bool.false_ne_true)]
  rfl

/-- Each place is visited once and adds at most as many tasks as there are places, which bounds the
rounds. -/
theorem lists_starEnds (hsteps : Steps glyphs step R) (hi : i ≤ glyphs.length) (greedy : Bool)
    (fuel : Nat) (tasks : List Task) (seen : Std.HashSet Nat) (done : Array Cursor)
    (h : Working glyphs R i tasks seen done)
    (hfuel : tasks.length + unseen glyphs i seen * (glyphs.length - i + 1) ≤ fuel) :
    Lists glyphs (starEnds step greedy fuel tasks seen done) (Relation.ReflTransGen R i) := by
  induction fuel generalizing tasks seen done with
  | zero =>
      obtain rfl : tasks = [] := List.length_eq_zero_iff.mp (by omega)
      exact h.lists hsteps hi
  | succ fuel ih =>
      rcases tasks with _ | ⟨c | c, tasks⟩
      · exact h.lists hsteps hi
      · rw [List.length_cons] at hfuel
        exact ih tasks seen (done.push c) h.list (by omega)
      · obtain ⟨j, hreach, rfl⟩ := h.visits _ List.mem_cons_self
        obtain ⟨hij, hj⟩ := hsteps.bounds_steps hreach hi
        rw [List.length_cons] at hfuel
        by_cases hseen : seen.contains j = true
        · rw [starEnds, Cursor.index_place, if_pos hseen]
          exact ih tasks seen done (h.skip hseen) (by omega)
        · rw [Bool.not_eq_true] at hseen
          have hunseen := unseen_insert hij hj hseen
          have hlength := hsteps.length_further hj
          rw [← hunseen, Nat.succ_mul] at hfuel
          rw [starEnds_visit (c := Cursor.place glyphs j) hseen, Cursor.index_place]
          refine ih _ _ _ (h.visit hsteps hi hseen (fun c => visit_mem_pending) (toList_pending ..)) ?_
          rw [length_pending]
          omega

theorem lists_star (hsteps : Steps glyphs step R) (hi : i ≤ glyphs.length) (greedy : Bool) :
    let c := Cursor.place glyphs i
    Lists glyphs (starEnds step greedy (2 * (c.left + 2) * (c.left + 2)) [.visit c] {} #[])
      (Relation.ReflTransGen R i) := by
  intro c
  have hunseen : unseen glyphs i {} = glyphs.length - i + 1 := by
    have hall : ((Finset.Icc i glyphs.length).filter fun j =>
        (({} : Std.HashSet Nat).contains j) = false) = Finset.Icc i glyphs.length :=
      Finset.filter_true_of_mem fun j _ => Std.HashSet.contains_empty
    rw [unseen, hall, Nat.card_Icc]
    omega
  refine lists_starEnds hsteps hi greedy _ _ _ _ Working.start ?_
  rw [hunseen, List.length_singleton]
  change 1 + (glyphs.length - i + 1) * (glyphs.length - i + 1) ≤
    2 * (glyphs.length - i + 2) * (glyphs.length - i + 2)
  generalize glyphs.length - i = n
  calc 1 + (n + 1) * (n + 1) ≤ (n + 2) * (n + 2) := by ring_nf; omega
    _ ≤ 2 * (n + 2) * (n + 2) := by
      rw [Nat.mul_assoc]
      exact Nat.le_mul_of_pos_left _ (by omega)

end Star

/-! ## All patterns -/

/-- The ends that are listed from a place are those of the matches that start there. -/
theorem lists_ends (p : Pattern) (hi : i ≤ glyphs.length) :
    Lists glyphs (p.ends (Cursor.place glyphs i)) (p.Spans glyphs i) := by
  induction p generalizing i with
  | empty => exact Lists.singleton fun j => Iff.rfl
  | char set =>
      rcases Nat.eq_or_lt_of_le hi with hend | hlt
      · have hnone : glyphs[i]? = none := List.getElem?_eq_none_iff.mpr (by omega)
        rw [ends, Cursor.step?_place_end (by omega)]
        exact Lists.nil fun j => by simp [Spans, hnone]
      · have hsome : glyphs[i]? = some glyphs[i] := List.getElem?_eq_getElem hlt
        rw [ends, Cursor.step?_place hlt]
        exact Lists.ite fun j => by simp [Spans, hsome]
  | textStart => exact Lists.ite fun j => by simp [Spans, Cursor.place]
  | textEnd =>
      refine Lists.ite fun j => ?_
      have hend : (glyphs.drop i).isEmpty = true ↔ i = glyphs.length := by
        rw [List.isEmpty_iff, List.drop_eq_nil_iff]
        omega
      simp only [Spans, Cursor.place, hend]
  | boundary here =>
      exact Lists.ite fun j => by simp [Spans, Cursor.atBoundary, Cursor.place]
  | seq p q ihp ihq =>
      refine Lists.distinct fun c => ?_
      rw [List.mem_flatMap]
      constructor
      · rintro ⟨d, hd, hc⟩
        obtain ⟨k, hk, rfl⟩ := ((ihp hi).mem d).mp hd
        obtain ⟨j, hj, rfl⟩ := ((ihq (hk.bounds hi).2).mem c).mp hc
        exact ⟨j, ⟨k, hk, hj⟩, rfl⟩
      · rintro ⟨j, ⟨k, hk, hj⟩, rfl⟩
        exact ⟨_, (ihp hi).mem_place.mpr hk, (ihq (hk.bounds hi).2).mem_place.mpr hj⟩
  | alt p q ihp ihq =>
      refine Lists.distinct fun c => ?_
      rw [List.mem_append, (ihp hi).mem, (ihq hi).mem]
      constructor
      · rintro (⟨j, hj, rfl⟩ | ⟨j, hj, rfl⟩)
        · exact ⟨j, Or.inl hj, rfl⟩
        · exact ⟨j, Or.inr hj, rfl⟩
      · rintro ⟨j, hj | hj, rfl⟩
        · exact Or.inl ⟨j, hj, rfl⟩
        · exact Or.inr ⟨j, hj, rfl⟩
  | repeatSet greedy set =>
      cases greedy with
      | true => exact lists_reach hi
      | false => exact (lists_reach hi).reverse
  | star greedy p ih =>
      exact lists_star ⟨fun j hj => ih hj, fun j k hstep hj => hstep.bounds hj⟩ hi greedy

/-! ## Texts that match -/

section Matching

variable {p q : Pattern} {ps : List Pattern} {j : Nat} {line : String} {texts : List String}

theorem map_char_glyphsOfText (line : String) : (glyphsOfText line).map Glyph.char = line.toList := by
  simp [glyphsOfText, Function.comp_def, Glyph.ofChar]

theorem matchesFrom_iff {fuel : Nat} (hfuel : i + fuel = glyphs.length) :
    p.matchesFrom fuel (Cursor.place glyphs i) = true ↔ ∃ k j, i ≤ k ∧ k ≤ glyphs.length ∧ p.Spans glyphs k j := by
  have hhere {i : Nat} (hi : i ≤ glyphs.length) :
      (!(p.ends (Cursor.place glyphs i)).isEmpty) = true ↔ ∃ j, p.Spans glyphs i j := by
    rw [Bool.not_eq_true', (lists_ends p hi).isEmpty_eq_false_iff]
  induction fuel generalizing i with
  | zero =>
      rw [matchesFrom, hhere (by omega)]
      constructor
      · exact fun ⟨j, hj⟩ => ⟨i, j, le_rfl, by omega, hj⟩
      · rintro ⟨k, j, hik, hk, hj⟩
        obtain rfl : i = k := by omega
        exact ⟨j, hj⟩
  | succ fuel ih =>
      have hnext : i + 1 + fuel = glyphs.length := by omega
      rw [matchesFrom, Cursor.step?_place (by omega)]
      split
      · rename_i hsome
        obtain ⟨j, hj⟩ := (hhere (by omega)).mp hsome
        exact ⟨fun _ => ⟨i, j, le_rfl, by omega, hj⟩, fun _ => rfl⟩
      · rename_i hnone
        rw [hhere (by omega)] at hnone
        refine (ih hnext).trans ?_
        constructor
        · exact fun ⟨k, j, hik, hk, hj⟩ => ⟨k, j, by omega, hk, hj⟩
        · rintro ⟨k, j, hik, hk, hj⟩
          obtain rfl | hlt := Nat.eq_or_lt_of_le hik
          · exact absurd ⟨j, hj⟩ hnone
          · exact ⟨k, j, hlt, hk, hj⟩

/-- A text is matched if the pattern matches between any two places. -/
theorem matchesText_iff :
    p.matchesText line = true ↔ ∃ i j, i ≤ (glyphsOfText line).length ∧ p.Spans (glyphsOfText line) i j := by
  rw [matchesText, Cursor.start_eq_place, matchesFrom_iff (by simp [Cursor.place])]
  simp

theorem spans_chain_cons : (chain (p :: ps)).Spans glyphs i j ↔
    ∃ k, p.Spans glyphs i k ∧ (chain ps).Spans glyphs k j := by
  cases ps with
  | nil => simp [chain, Spans]
  | cons q ps => rfl

theorem spans_oneOf : (oneOf ps).Spans glyphs i j ↔ ∃ p ∈ ps, p.Spans glyphs i j := by
  induction ps with
  | nil =>
      simp [oneOf, Spans, CharSet.none, CharSet.contains]
      omega
  | cons p ps ih =>
      cases ps with
      | nil => simp [oneOf]
      | cons q ps =>
          have halt : (oneOf (p :: q :: ps)).Spans glyphs i j ↔
              p.Spans glyphs i j ∨ (oneOf (q :: ps)).Spans glyphs i j := Iff.rfl
          rw [halt, ih, List.exists_mem_cons_iff (a := p)]

theorem contains_single {c d : Char} : (CharSet.single c).contains d = true ↔ c = d := by
  rw [CharSet.single, CharSet.contains, Bool.and_eq_true, decide_eq_true_iff, decide_eq_true_iff, ← Char.toNat_inj]
  omega

theorem spans_text (s : String) : (text s).Spans glyphs i j ↔
    s.toList <+: (glyphs.map Glyph.char).drop i ∧ j = i + s.toList.length := by
  rw [text, ← List.map_drop]
  generalize s.toList = cs
  induction cs generalizing i with
  | nil => simp [chain, Spans]
  | cons c cs ih =>
      simp only [List.map_cons, spans_chain_cons, ih, Spans, contains_single, List.length_cons]
      cases hnext : glyphs[i]? with
      | none =>
          rw [List.drop_eq_nil_of_le (List.getElem?_eq_none_iff.mp hnext)]
          simp
      | some g =>
          obtain ⟨hi, rfl⟩ := List.getElem?_eq_some_iff.mp hnext
          rw [List.drop_eq_getElem_cons hi, List.map_cons, List.cons_prefix_cons]
          constructor
          · rintro ⟨k, ⟨g, hg, hc, rfl⟩, hprefix, rfl⟩
            obtain rfl := Option.some.inj hg
            exact ⟨⟨hc, hprefix⟩, by omega⟩
          · rintro ⟨⟨hc, hprefix⟩, rfl⟩
            exact ⟨i + 1, ⟨_, rfl, hc, rfl⟩, hprefix, by omega⟩

/-- A word begins or ends at a place. -/
def isBorderAt (xs : List Char) (i : Nat) : Bool :=
  (xs.take i).getLast?.any isWordChar != (xs.drop i).head?.any isWordChar

theorem spans_boundary : (boundary true).Spans glyphs i j ↔ isBorderAt (glyphs.map Glyph.char) i = true ∧ j = i := by
  rw [Spans, isBorderAt, ← List.map_take, ← List.map_drop, List.getLast?_map, List.head?_map]
  rfl

/-- One of the texts, where a word begins and ends. -/
def wholeText (texts : List String) : Pattern := chain [boundary true, oneOf (texts.map text), boundary true]

/-- The text begins and ends with characters of words. -/
def Bordered (t : List Char) : Prop := t.head?.any isWordChar = true ∧ t.getLast?.any isWordChar = true

/-- The text stands there as a whole, with no character of a word before or behind it. -/
def Whole (t xs : List Char) : Prop :=
  ∃ before after, xs = before ++ (t ++ after) ∧ before.getLast?.any isWordChar = false ∧
    after.head?.any isWordChar = false

theorem Bordered.isBorderAt {t : List Char} (ht : Bordered t) (before after : List Char) :
    isBorderAt (before ++ (t ++ after)) before.length = !before.getLast?.any isWordChar ∧
      isBorderAt (before ++ (t ++ after)) (before.length + t.length) = !after.head?.any isWordChar := by
  have hsome : t ≠ [] := by
    rintro rfl
    cases ht.1
  constructor
  · rw [Pattern.isBorderAt, List.take_left, List.drop_left, List.head?_append_of_ne_nil _ hsome, ht.1, Bool.bne_true]
  · have hlength : before.length + t.length = (before ++ t).length := List.length_append.symm
    rw [Pattern.isBorderAt, ← List.append_assoc, hlength, List.take_left, List.drop_left,
      List.getLast?_append_of_ne_nil _ hsome, ht.2, Bool.true_bne]

theorem spans_wholeText : (wholeText texts).Spans glyphs i j ↔
    ∃ t ∈ texts, t.toList <+: (glyphs.map Glyph.char).drop i ∧ isBorderAt (glyphs.map Glyph.char) i = true ∧
      isBorderAt (glyphs.map Glyph.char) (i + t.toList.length) = true ∧ j = i + t.toList.length := by
  simp only [wholeText, spans_chain_cons, spans_oneOf, spans_boundary, List.mem_map, exists_exists_and_eq_and,
    spans_text]
  constructor
  · rintro ⟨_, ⟨hfirst, rfl⟩, _, ⟨t, ht, hprefix, rfl⟩, _, ⟨hlast, rfl⟩, rfl⟩
    exact ⟨t, ht, hprefix, hfirst, hlast, rfl⟩
  · rintro ⟨t, ht, hprefix, hfirst, hlast, rfl⟩
    exact ⟨_, ⟨hfirst, rfl⟩, _, ⟨t, ht, hprefix, rfl⟩, _, ⟨hlast, rfl⟩, rfl⟩

theorem wholeText_iff (htexts : ∀ t ∈ texts, Bordered t.toList) :
    (wholeText texts).matchesText line = true ↔ ∃ t ∈ texts, Whole t.toList line.toList := by
  have hlength : (glyphsOfText line).length = line.toList.length := by
    rw [← map_char_glyphsOfText, List.length_map]
  simp only [matchesText_iff, hlength, spans_wholeText, map_char_glyphsOfText]
  constructor
  · rintro ⟨i, j, hi, t, ht, ⟨after, hafter⟩, hfirst, hlast, -⟩
    have hsplit : line.toList = line.toList.take i ++ (t.toList ++ after) := by
      rw [hafter, List.take_append_drop]
    have hlengthTake : (line.toList.take i).length = i := List.length_take_of_le hi
    obtain ⟨hbefore, hbehind⟩ := (htexts t ht).isBorderAt (line.toList.take i) after
    rw [← hsplit, hlengthTake] at hbefore hbehind
    exact ⟨t, ht, line.toList.take i, after, hsplit, by simpa [hfirst] using hbefore,
      by simpa [hlast] using hbehind⟩
  · rintro ⟨t, ht, before, after, hsplit, hbefore, hafter⟩
    obtain ⟨hfirst, hlast⟩ := (htexts t ht).isBorderAt before after
    rw [← hsplit] at hfirst hlast
    refine ⟨before.length, _, by simp [hsplit], t, ht, ?_, by simp [hfirst, hbefore], by simp [hlast, hafter], rfl⟩
    rw [hsplit, List.drop_left]
    exact List.prefix_append _ _

theorem matchesText_alt :
    (alt p q).matchesText line = true ↔ p.matchesText line = true ∨ q.matchesText line = true := by
  simp only [matchesText_iff, Spans, and_or_left, exists_or]

theorem matchesText_single {c : Char} : (char (.single c)).matchesText line = true ↔ c ∈ line.toList := by
  simp only [matchesText_iff, Spans, contains_single]
  rw [← map_char_glyphsOfText, List.mem_map]
  constructor
  · rintro ⟨i, j, -, g, hg, rfl, -⟩
    exact ⟨g, List.mem_of_getElem? hg, rfl⟩
  · rintro ⟨g, hg, rfl⟩
    obtain ⟨i, hi⟩ := List.mem_iff_getElem?.mp hg
    exact ⟨i, i + 1, (List.getElem?_eq_some_iff.mp hi).1.le, g, hi, rfl, rfl⟩

end Matching

end Pattern

end CodeAtlas
