import CodeAtlas.Proofs.List.Basic
import CodeAtlas.Proofs.Search.Traffic
import CodeAtlas.Proofs.Text.Glyphs
import CodeAtlas.Proofs.Text.Words
import Mathlib.Algebra.BigOperators.Group.List.Basic
import Mathlib.Algebra.Ring.Nat
import Std.Data.String.ToInt

/-!
# Keys of requests

The key of a request joins its fields with zero characters. It can be taken apart into the pieces between
them, so that two requests have the same key exactly when their pieces are the same. From where in the fields
the pieces come cannot be told, though, if a field has a zero character itself: then two different requests
may have one key, and the one is told what was found for the other. A request without such a character shares
its key with no other request.
-/

namespace CodeAtlas

namespace SearchRequest

/-- What the key of a request joins. -/
def fields (r : SearchRequest) : List String :=
  [r.query, r.mode.name, r.projectId, r.language, r.pathGlob, r.kind, r.refKind, toString r.limit,
    toString r.contextLines]

/-- The texts between the zero characters of the fields, one field after the other. -/
def pieces (r : SearchRequest) : List String := r.fields.flatMap (splitText '\x00')

/-- How many zero characters each of the fields has. -/
def breaks (r : SearchRequest) : List Nat := r.fields.map fun field => field.toList.count '\x00'

def Plain (r : SearchRequest) : Prop := ∀ field ∈ r.fields, '\x00' ∉ field.toList

instance (r : SearchRequest) : Decidable r.Plain :=
  inferInstanceAs (Decidable (∀ field ∈ r.fields, '\x00' ∉ field.toList))

/-- Two requests ask for the same: they differ at most in how answers are kept. -/
structure AsksSame (r s : SearchRequest) : Prop where
  query : r.query = s.query
  mode : r.mode.name = s.mode.name
  projectId : r.projectId = s.projectId
  language : r.language = s.language
  pathGlob : r.pathGlob = s.pathGlob
  kind : r.kind = s.kind
  refKind : r.refKind = s.refKind
  limit : r.limit = s.limit
  contextLines : r.contextLines = s.contextLines

variable {r s : SearchRequest}

theorem toString_int_inj {m n : Int} : toString m = toString n ↔ m = n := Int.repr_inj

theorem fields_eq_iff : r.fields = s.fields ↔ AsksSame r s := by
  constructor
  · intro hfields
    simp only [fields, List.cons.injEq, toString_int_inj] at hfields
    obtain ⟨hquery, hmode, hproject, hlanguage, hglob, hkind, hrefKind, hlimit, hcontext, -⟩ := hfields
    exact ⟨hquery, hmode, hproject, hlanguage, hglob, hkind, hrefKind, hlimit, hcontext⟩
  · rintro ⟨hquery, hmode, hproject, hlanguage, hglob, hkind, hrefKind, hlimit, hcontext⟩
    simp only [fields, hquery, hmode, hproject, hlanguage, hglob, hkind, hrefKind, hlimit, hcontext]

/-! ## What a key tells -/

theorem splitText_key (r : SearchRequest) : splitText '\x00' r.key = r.pieces :=
  splitText_intercalate_eq_flatMap (List.cons_ne_nil _ _)

theorem key_eq_iff : r.key = s.key ↔ r.pieces = s.pieces := by
  rw [← splitText_key, ← splitText_key, splitText_inj]

/-- Pieces come from the same fields when each field has as many of them. -/
theorem fields_eq_of_breaks_eq (hbreaks : r.breaks = s.breaks) (hpieces : r.pieces = s.pieces) :
    r.fields = s.fields := by
  have hlengths : r.fields.map (fun field => (splitText '\x00' field).length) =
      s.fields.map fun field => (splitText '\x00' field).length := by
    simpa [length_splitText, breaks, Function.comp_def] using congrArg (List.map (· + 1)) hbreaks
  have hinjective : Function.Injective (splitText '\x00') := fun a b => splitText_inj.mp
  exact hinjective.list_map (map_eq_of_flatMap_eq hlengths hpieces)

theorem length_pieces (r : SearchRequest) : r.pieces.length = r.breaks.sum + 9 := by
  have hlength : r.pieces.length = (r.fields.map fun field => field.toList.count '\x00' + 1).sum := by
    rw [pieces, List.length_flatMap]
    simp only [length_splitText]
  rw [hlength, List.sum_map_add, breaks]
  rfl

theorem plain_iff : r.Plain ↔ r.breaks = List.replicate 9 0 := by
  rw [List.eq_replicate_iff, breaks, List.length_map, List.forall_mem_map]
  simp only [List.count_eq_zero]
  exact (and_iff_right rfl).symm

theorem plain_iff_sum : r.Plain ↔ r.breaks.sum = 0 := by
  rw [plain_iff, List.sum_eq_zero_iff_forall_eq_nat, List.eq_replicate_iff]
  exact and_iff_right rfl

/-- Whoever has the pieces of a plain request is plain as well. -/
theorem Plain.of_pieces_eq (hplain : r.Plain) (hpieces : r.pieces = s.pieces) : s.Plain := by
  have hlength := congrArg List.length hpieces
  rw [length_pieces, length_pieces, plain_iff_sum.mp hplain] at hlength
  exact plain_iff_sum.mpr (by omega)

theorem asksSame_of_pieces_eq (hbreaks : r.breaks = s.breaks ∨ r.Plain) (hpieces : r.pieces = s.pieces) :
    AsksSame r s := by
  apply fields_eq_iff.mp
  refine fields_eq_of_breaks_eq ?_ hpieces
  rcases hbreaks with hbreaks | hplain
  · exact hbreaks
  · rw [plain_iff.mp hplain, plain_iff.mp (hplain.of_pieces_eq hpieces)]

theorem AsksSame.pieces_eq (h : AsksSame r s) : r.pieces = s.pieces := by
  rw [pieces, pieces, fields_eq_iff.mpr h]

end SearchRequest

/-! ## What is told again -/

/-- A second or more after a moment is not before it. -/
theorem Instant.not_addNanos_before (t : Instant) {n : Int} (hn : 1000000000 ≤ n) :
    (t.addNanos n).before t = false := by
  have hlater : t.seconds < t.seconds + (t.nanos + n) / 1000000000 := by omega
  have hseconds : ¬t.seconds + (t.nanos + n) / 1000000000 < t.seconds := hlater.asymm
  have hapart : (t.seconds + (t.nanos + n) / 1000000000 == t.seconds) = false := by
    simpa using hlater.ne'
  simp [before, addNanos, hseconds, hapart]

/-- A call of the searcher with what it finds: the index, whether the index may still be asked, the time and
the generation. -/
structure SearchCall where
  request : SearchRequest
  index : Index
  live : Bool
  now : Instant
  generation : Nat

namespace Searcher

def call (s : Searcher) (c : SearchCall) : Searcher × Except Fault (SearchResponse × Bool) :=
  s.search c.index c.live c.now c.generation c.request

/-- The searcher after calls, beginning with an empty one. -/
def after (calls : List SearchCall) : Searcher := calls.foldl (fun s c => (s.call c).1) .new

/-- Nothing is kept that was not kept before. -/
def Within (s' s : Searcher) : Prop :=
  ∀ key kept, s'.cache.peek? key = some kept → s.cache.peek? key = some kept

/-- What a call does: it is refused, it is told what is kept, or it asks the index, which may fail. -/
inductive Turn (s : Searcher) (c : SearchCall) :
    Searcher → Except Fault (SearchResponse × Bool) → Prop where
  | refused {f : Fault} (hvalid : c.request.validated = .error f) : Turn s c s (.error f)
  | told {s' : Searcher} {checked : SearchRequest} {kept : KeptResponse}
      (hvalid : c.request.validated = .ok checked) (hkept : s.cache.peek? checked.key = some kept)
      (hgeneration : kept.generation = c.generation) (hwithin : s'.Within s) :
      Turn s c s' (.ok (kept.response, true))
  | failed {s' : Searcher} {checked : SearchRequest} {f : Fault}
      (hvalid : c.request.validated = .ok checked) (hwithin : s'.Within s) : Turn s c s' (.error f)
  | answered {s' s'' : Searcher} {checked : SearchRequest} {response : SearchResponse}
      (hvalid : c.request.validated = .ok checked)
      (hanswer : answer c.index c.live checked = .ok response) (hwithin : s'.Within s)
      (hkeep : s'' = s' ∨ s'' = s'.keep c.now c.generation checked response) :
      Turn s c s'' (.ok (response, false))

/-- What is kept under a key is what the index of a generation has answered to one of some calls. -/
def Stems (calls : List SearchCall) (key : String) (response : SearchResponse) (generation : Nat) : Prop :=
  ∃ c ∈ calls, ∃ checked, c.request.validated = .ok checked ∧ checked.key = key ∧
    c.generation = generation ∧ answer c.index c.live checked = .ok response

variable {s s' : Searcher} {c : SearchCall} {calls : List SearchCall}
  {outcome : Except Fault (SearchResponse × Bool)}

theorem within_refl (s : Searcher) : s.Within s := fun _ _ hkept => hkept

theorem within_touch (s : Searcher) (key : String) : Within ⟨s.cache.touch key⟩ s := by
  intro other kept hkept
  rwa [Recent.peek?_touch] at hkept

theorem within_erase (s : Searcher) (key : String) : Within ⟨s.cache.erase key⟩ s := by
  intro other kept hkept
  exact Recent.peek?_of_peek?_erase hkept

theorem lookUp_cases (s : Searcher) (now : Instant) (generation : Nat) (r : SearchRequest) :
    (∃ s', s'.Within s ∧ s'.cache.capacity = s.cache.capacity ∧ s.lookUp now generation r = (s', none)) ∨
      ∃ kept, s.cache.peek? r.key = some kept ∧ kept.generation = generation ∧
        s.lookUp now generation r = (⟨s.cache.touch r.key⟩, some kept.response) := by
  unfold lookUp
  cases hkept : s.cache.peek? r.key with
  | none => exact .inl ⟨s, within_refl s, rfl, rfl⟩
  | some kept =>
      by_cases hold : (kept.expiresAt.before now || kept.generation != generation) = true
      · exact .inl ⟨_, s.within_erase r.key, rfl, by simp only [hold, if_true]⟩
      · have hsame : kept.generation = generation := by
          rw [Bool.or_eq_true, not_or] at hold
          simpa using hold.2
        exact .inr ⟨kept, rfl, hsame, by simp only [if_neg hold]⟩

theorem turn_call (s : Searcher) (c : SearchCall) : Turn s c (s.call c).1 (s.call c).2 := by
  unfold call search
  cases hvalid : c.request.validated with
  | error f => exact .refused hvalid
  | ok checked =>
      have hlooked : (∃ s', s'.Within s ∧
          (if checked.useCache then s.lookUp c.now c.generation checked else (s, none)) = (s', none)) ∨
          ∃ kept, s.cache.peek? checked.key = some kept ∧ kept.generation = c.generation ∧
            (if checked.useCache then s.lookUp c.now c.generation checked else (s, none)) =
              (⟨s.cache.touch checked.key⟩, some kept.response) := by
        split
        · obtain ⟨s', hwithin, -, heq⟩ | hfound := s.lookUp_cases c.now c.generation checked
          · exact .inl ⟨s', hwithin, heq⟩
          · exact .inr hfound
        · exact .inl ⟨s, within_refl s, rfl⟩
      obtain ⟨s', hwithin, heq⟩ | ⟨kept, hkept, hgeneration, heq⟩ := hlooked
      · simp only [heq]
        cases hanswer : answer c.index c.live checked with
        | error f => exact .failed hvalid hwithin
        | ok response =>
            refine .answered hvalid hanswer hwithin ?_
            dsimp only
            split
            · exact .inr rfl
            · exact .inl rfl
      · simp only [heq]
        exact .told hvalid hkept hgeneration (s.within_touch checked.key)

theorem Stems.left {key : String} {response : SearchResponse} {generation : Nat}
    (h : Stems calls key response generation) (c : SearchCall) :
    Stems (calls ++ [c]) key response generation := by
  obtain ⟨asked, hasked, hanswered⟩ := h
  exact ⟨asked, List.mem_append_left _ hasked, hanswered⟩

/-- All that is kept has been answered to one of some calls. -/
def Remembers (s : Searcher) (calls : List SearchCall) : Prop :=
  ∀ key kept, s.cache.peek? key = some kept → Stems calls key kept.response kept.generation

theorem Remembers.within (h : s.Remembers calls) (hwithin : s'.Within s) (c : SearchCall) :
    s'.Remembers (calls ++ [c]) :=
  fun key kept hkept => (h key kept (hwithin key kept hkept)).left c

theorem Remembers.turn (h : s.Remembers calls) (hturn : Turn s c s' outcome) :
    s'.Remembers (calls ++ [c]) := by
  cases hturn with
  | refused => exact h.within (within_refl s) c
  | told _ _ _ hwithin => exact h.within hwithin c
  | failed _ hwithin => exact h.within hwithin c
  | answered hvalid hanswer hwithin hkeep =>
      rcases hkeep with rfl | rfl
      · exact h.within hwithin c
      · intro key kept hkept
        rcases Recent.peek?_insert hkept with ⟨rfl, rfl⟩ | ⟨-, hbefore⟩
        · exact ⟨c, by simp, _, hvalid, rfl, rfl, hanswer⟩
        · exact h.within hwithin c key kept hbefore

theorem after_append (calls : List SearchCall) (c : SearchCall) :
    after (calls ++ [c]) = ((after calls).call c).1 := by
  simp [after]

theorem remembers_after (calls : List SearchCall) : (after calls).Remembers calls := by
  induction calls using List.reverseRecOn with
  | nil =>
      intro key kept hkept
      cases hkept
  | append_singleton calls c ih =>
      rw [after_append]
      exact ih.turn (turn_call _ c)

/-- What is told without asking the index was told before, to a call with a request of the same key. -/
theorem stems_of_told {checked : SearchRequest} {response : SearchResponse}
    (hvalid : c.request.validated = .ok checked)
    (htold : ((after calls).call c).2 = .ok (response, true)) :
    Stems calls checked.key response c.generation := by
  have hturn := turn_call (after calls) c
  rw [htold] at hturn
  generalize ((after calls).call c).1 = s' at hturn
  cases hturn with
  | told hchecked hkept hgeneration =>
      obtain rfl := Except.ok.inj (hvalid.symm.trans hchecked)
      rw [← hgeneration]
      exact remembers_after calls _ _ hkept

/-- What was found for one request is told to every other request of its key, as long as it is kept. -/
theorem told_of_same_key {c' : SearchCall} {checked checked' : SearchRequest} {response : SearchResponse}
    (hvalid : c.request.validated = .ok checked) (hvalid' : c'.request.validated = .ok checked')
    (huse : checked.useCache = true) (huse' : checked'.useCache = true) (hkey : checked.key = checked'.key)
    (hroom : 0 < s.cache.capacity) (hanswered : (s.call c).2 = .ok (response, false))
    (hfound : 0 < response.total) (hgeneration : c'.generation = c.generation)
    (hnow : (c.now.addNanos checked.keepFor).before c'.now = false) :
    ((s.call c).1.call c').2 = .ok (response, true) := by
  have hkept : (s.call c).1.cache.peek? checked.key =
      some ⟨response, c.now.addNanos checked.keepFor, c.generation⟩ := by
    unfold call search at hanswered ⊢
    simp only [hvalid, huse, if_true] at hanswered ⊢
    obtain ⟨s', -, hcapacity, heq⟩ | ⟨kept, -, -, heq⟩ := s.lookUp_cases c.now c.generation checked
    · simp only [heq] at hanswered ⊢
      cases hanswer : answer c.index c.live checked with
      | error f => simp [hanswer] at hanswered
      | ok found =>
          obtain rfl : found = response := by simpa [hanswer] using hanswered
          simp only [hfound, decide_true, Bool.and_true, if_true]
          exact Recent.peek?_insert_self _ _ _ (hcapacity ▸ hroom)
    · simp [heq] at hanswered
  generalize (s.call c).1 = s' at hkept ⊢
  unfold call search
  simp only [hvalid', huse', if_true, lookUp]
  rw [← hkey]
  simp only [hkept, hnow, hgeneration, bne_self_eq_false, Bool.or_false, Bool.false_eq_true, if_false]

end Searcher

open Searcher in
/-- Two keys are the same exactly if the fields of the requests come apart into the same pieces. If their
fields have zero characters in equal numbers, or if one of them has none at all, two different requests have
different keys. So a request without a zero character is told again only what was found for the same
request, by an index of the same generation. -/
theorem SearchRequest.plain_keys_differ (calls : List SearchCall) (c : SearchCall) {checked : SearchRequest}
    (hvalid : c.request.validated = .ok checked) :
    (∀ other : SearchRequest, bytesOfText checked.key = bytesOfText other.key ↔
      checked.pieces = other.pieces) ∧
    (∀ other : SearchRequest, checked.breaks = other.breaks ∨ checked.Plain →
      (bytesOfText checked.key = bytesOfText other.key ↔ AsksSame checked other)) ∧
    ∀ response, ((after calls).call c).2 = .ok (response, true) →
      ∃ asked ∈ calls, ∃ earlier, asked.request.validated = .ok earlier ∧
        checked.pieces = earlier.pieces ∧ (checked.Plain → AsksSame checked earlier) ∧
        asked.generation = c.generation ∧ answer asked.index asked.live earlier = .ok response := by
  have hkeys (other : SearchRequest) : bytesOfText checked.key = bytesOfText other.key ↔
      checked.pieces = other.pieces := by
    rw [bytesOfText_inj, key_eq_iff]
  refine ⟨hkeys, fun other hbreaks => ?_, fun response htold => ?_⟩
  · rw [hkeys]
    exact ⟨asksSame_of_pieces_eq hbreaks, AsksSame.pieces_eq⟩
  · obtain ⟨asked, hasked, earlier, hearlier, hkey, hgeneration, hanswer⟩ := stems_of_told hvalid htold
    have hpieces : checked.pieces = earlier.pieces := key_eq_iff.mp hkey.symm
    exact ⟨asked, hasked, earlier, hearlier, hpieces,
      fun hplain => asksSame_of_pieces_eq (.inr hplain) hpieces, hgeneration, hanswer⟩

/-- Two requests of a client who searches texts. The first one asks for two words in all documents, the second
for one of them in documents of one language, in certain places. -/
def twoWords : SearchRequest :=
  { SearchRequest.plain "shop\x00text\x00" with limit := 10, contextLines := 2, useCache := true }

def oneWord : SearchRequest :=
  { SearchRequest.plain "shop" with
    language := "text", pathGlob := "\x00\x00", limit := 10, contextLines := 2, useCache := true }

/-- The two have one key, and whatever is found for the first is told to the second. -/
theorem oneWord_told_twoWords :
    ∃ a b, twoWords.validated = .ok a ∧ oneWord.validated = .ok b ∧ ¬a.AsksSame b ∧
      bytesOfText a.key = bytesOfText b.key ∧
      ∀ (index : Index) (now : Instant) (generation : Nat) (response : SearchResponse),
        (Searcher.new.search index true now generation twoWords).2 = .ok (response, false) →
        0 < response.total →
        ((Searcher.new.search index true now generation twoWords).1.search index true now generation
          oneWord).2 = .ok (response, true) := by
  have htwo : twoWords.validated = .ok { twoWords with keepFor := SearchRequest.defaultKeepFor } := by
    rfl
  have hone : oneWord.validated = .ok { oneWord with keepFor := SearchRequest.defaultKeepFor } := by
    rfl
  have hkey : SearchRequest.key { twoWords with keepFor := SearchRequest.defaultKeepFor } =
      SearchRequest.key { oneWord with keepFor := SearchRequest.defaultKeepFor } := by
    decide +kernel
  refine ⟨_, _, htwo, hone, fun hsame => ?_, bytesOfText_inj.mpr hkey, ?_⟩
  · exact absurd hsame.language (by decide)
  · intro index now generation response hanswered hfound
    let first : SearchCall := ⟨twoWords, index, true, now, generation⟩
    let second : SearchCall := ⟨oneWord, index, true, now, generation⟩
    have htold : ((Searcher.new.call first).1.call second).2 = .ok (response, true) :=
      Searcher.told_of_same_key htwo hone rfl rfl hkey (by decide) hanswered hfound rfl
        (now.not_addNanos_before (by decide))
    exact htold

def usedIndex : Index :=
  (({ Engine.sampleEngine.index with queue := some [.put Traffic.sampleDocument] } : Index).commit
    ⟨20, 0, false⟩).1

/-- The uses of a name, asked for in two equal calls. -/
def usesCall : SearchCall := ⟨Traffic.sampleRequest, usedIndex, true, ⟨21, 0, false⟩, 0⟩

theorem usesCall_told_again : ∃ checked response, usesCall.request.validated = .ok checked ∧ checked.Plain ∧
    ((Searcher.after [usesCall]).call usesCall).2 = .ok (response, true) ∧
    bytesOfText checked.key ≠ bytesOfText (SearchRequest.key { checked with kind := "\x00" }) ∧
    Searcher.answer usedIndex true checked = .ok response := by
  have hvalid : usesCall.request.validated =
      .ok { Traffic.sampleRequest with limit := 10, keepFor := SearchRequest.defaultKeepFor } := by
    rfl
  have hplain : SearchRequest.Plain
      { Traffic.sampleRequest with limit := 10, keepFor := SearchRequest.defaultKeepFor } := by
    decide +kernel
  have hagain : ((Searcher.after [usesCall]).call usesCall).2.toOption.map (·.2) = some true := by
    rw [usesCall, usedIndex, Engine.sampleEngine, Index.new_eq]
    decide +kernel
  obtain ⟨⟨response, again⟩, htold, rfl⟩ := Option.map_eq_some_iff.mp hagain
  obtain ⟨-, hdiffer, hearlier⟩ := SearchRequest.plain_keys_differ [usesCall] usesCall hvalid
  have hsecond : ((Searcher.after [usesCall]).call usesCall).2 = .ok (response, true) := by
    cases houtcome : ((Searcher.after [usesCall]).call usesCall).2 with
    | error f => simp [houtcome, Except.toOption] at htold
    | ok told => simpa [houtcome, Except.toOption] using htold
  obtain ⟨asked, hasked, earlier, hagree, -, hsame, -, hanswer⟩ := hearlier response hsecond
  obtain rfl : asked = usesCall := by simpa using hasked
  obtain rfl := Except.ok.inj (hvalid.symm.trans hagree)
  refine ⟨_, response, hvalid, hplain, hsecond, fun hkey => ?_, hanswer⟩
  exact absurd ((hdiffer _ (.inr hplain)).mp hkey).kind (by decide)

end CodeAtlas
