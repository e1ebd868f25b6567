import CodeAtlas.Extract.Parser
import CodeAtlas.Proofs.Cache.Recent
import Mathlib.Data.List.Induction

/-!
# What a parser recalls

A parser that remembers is called again and again. A remembered result is the one that the call found
which was the last to read the file afresh, and while a caller waits a strategy fails because of the
content alone. For a caller who has left only the last resort works, and what it finds is remembered
like any other result: later callers with the same content get it until the file is forgotten or read
with another content. Apart from this a parser answers as if it remembered nothing.
-/

namespace CodeAtlas

theorem ParserConfig.cacheCapacity_pos (config : ParserConfig) : 0 < config.cacheCapacity := by
  unfold cacheCapacity defaultCacheSize
  split <;> omega

inductive ParserCall where
  | parse (live : Bool) (q : ParseRequest)
  | invalidate (fileId : String)

namespace ParserCall

/-- Whether what is remembered of a file outlasts the call: it neither forgets the file nor reads it
with another content. -/
def Spares (config : ParserConfig) (q : ParseRequest) : ParserCall → Prop
  | parse _ q' =>
      q'.fileId = q.fileId → q'.content.length ≤ config.sizeLimit → q'.content = q.content
  | invalidate fileId => fileId ≠ q.fileId

end ParserCall

/-- Each file is asked for under one path and in one language, and contents are told by their
checksums. -/
structure Consistent (calls : List ParserCall) : Prop where
  named : ∀ live q live' q', .parse live q ∈ calls → .parse live' q' ∈ calls →
    q.fileId = q'.fileId → q.path = q'.path ∧ q.language = q'.language
  told : ∀ live q live' q', .parse live q ∈ calls → .parse live' q' ∈ calls →
    checksum q.content = checksum q'.content → q.content = q'.content

theorem Consistent.eq {calls : List ParserCall} (h : Consistent calls) {live live' : Bool}
    {q q' : ParseRequest} (hq : .parse live q ∈ calls) (hq' : .parse live' q' ∈ calls)
    (hfile : q.fileId = q'.fileId) (hsum : checksum q.content = checksum q'.content) : q = q' := by
  obtain ⟨hpath, hlanguage⟩ := h.named live q live' q' hq hq' hfile
  have hcontent := h.told live q live' q' hq hq' hsum
  cases q with
  | mk file path content language =>
      simp only at hfile hpath hcontent hlanguage
      subst hfile hpath hcontent hlanguage
      rfl

theorem Consistent.left {calls more : List ParserCall}
    (h : Consistent (calls ++ more)) : Consistent calls :=
  ⟨fun live q live' q' hq hq' => h.named live q live' q' (by simp [hq]) (by simp [hq']),
    fun live q live' q' hq hq' => h.told live q live' q' (by simp [hq]) (by simp [hq'])⟩

namespace Parser

def serve (p : Parser) : ParserCall → Parser
  | .parse live q => (p.parse live q).2
  | .invalidate fileId => p.invalidate fileId

def after (p : Parser) (calls : List ParserCall) : Parser := calls.foldl serve p

theorem after_append (p : Parser) (calls : List ParserCall) (c : ParserCall) :
    p.after (calls ++ [c]) = (p.after calls).serve c := by
  simp [after, List.foldl_append]

end Parser

/-- The last call that read the file of the request afresh was this one, and nothing has displaced what
it found. -/
def Stands (config : ParserConfig) (tool : Option TagTool) (past : List ParserCall) (live : Bool)
    (q : ParseRequest) : Prop :=
  ∃ before after, past = before ++ .parse live q :: after ∧ (∀ c ∈ after, c.Spares config q) ∧
    ∃ found, (((Parser.new config tool).after before).parse live q).1 = .ok (found, false)

section Stands

variable {config : ParserConfig} {tool : Option TagTool} {past : List ParserCall} {live : Bool}
  {q : ParseRequest}

theorem Stands.mem (h : Stands config tool past live q) : .parse live q ∈ past := by
  obtain ⟨before, after, rfl, -⟩ := h
  simp

theorem stands_last {found : ParseResult}
    (h : (((Parser.new config tool).after past).parse live q).1 = .ok (found, false)) :
    Stands config tool (past ++ [.parse live q]) live q :=
  ⟨past, [], rfl, by simp, found, h⟩

theorem Stands.snoc (h : Stands config tool past live q) {c : ParserCall} (hc : c.Spares config q) :
    Stands config tool (past ++ [c]) live q := by
  obtain ⟨before, after, rfl, hspares, hanew⟩ := h
  refine ⟨before, after ++ [c], by simp, fun c' hc' => ?_, hanew⟩
  rcases List.mem_append.mp hc' with hc' | hc'
  · exact hspares c' hc'
  · rw [List.mem_singleton.mp hc']
    exact hc

end Stands

namespace Parser

variable {config : ParserConfig} {tool : Option TagTool}

/-- For a caller who has left only the last resort works. -/
theorem runChain_left (language : Language) (content : List UInt8) :
    runChain config tool false language content =
      (.heuristic, Heuristic.extract language (glyphsOfBytes content)) := by
  unfold runChain
  cases Strategy.first language <;>
    simp [Strategy.chain, List.findSome?, attempt, enabled]

def lastResort (q : ParseRequest) : ParseResult :=
  ⟨.heuristic, (Heuristic.extract q.language (glyphsOfBytes q.content)).finish q.fileId⟩

theorem parseFresh_left {q : ParseRequest} (h : q.content.length ≤ config.sizeLimit) :
    parseFresh config tool false q = .ok (lastResort q) := by
  unfold parseFresh
  rw [if_neg (Int.not_lt.mpr h), runChain_left]
  rfl

theorem fits_of_parseFresh {live : Bool} {q : ParseRequest} {result : ParseResult}
    (h : parseFresh config tool live q = .ok result) : q.content.length ≤ config.sizeLimit := by
  by_contra hsize
  unfold parseFresh at h
  rw [if_pos (Int.not_le.mp hsize)] at h
  cases h

theorem exists_parseFresh (tool : Option TagTool) (live : Bool) {q : ParseRequest}
    (h : q.content.length ≤ config.sizeLimit) :
    ∃ result, parseFresh config tool live q = .ok result := by
  unfold parseFresh
  rw [if_neg (Int.not_lt.mpr h)]
  exact ⟨_, rfl⟩

theorem parse_too_large {p : Parser} {live : Bool} {q : ParseRequest}
    (h : p.config.sizeLimit < q.content.length) :
    p.parse live q = ((parseFresh p.config p.tool live q).map (·, false), p) := by
  unfold parse parseFresh
  rw [if_pos h, if_pos h]
  rfl

def recalled? (p : Parser) (q : ParseRequest) : Option CachedParse :=
  (p.cache.peek? q.fileId).filter fun entry =>
    p.config.cacheResults && entry.checksum == checksum q.content

theorem parse_recalled {p : Parser} {live : Bool} {q : ParseRequest} (entry : CachedParse)
    (hsize : q.content.length ≤ p.config.sizeLimit) (h : p.recalled? q = some entry) :
    p.parse live q = (.ok (entry.result, true), { p with cache := p.cache.touch q.fileId }) := by
  unfold recalled? at h
  unfold parse
  rw [if_neg (Int.not_lt.mpr hsize)]
  simp only [h]

theorem parse_anew {p : Parser} {live : Bool} {q : ParseRequest} {result : ParseResult}
    (hsize : q.content.length ≤ p.config.sizeLimit) (h : p.recalled? q = none)
    (hfresh : parseFresh p.config p.tool live q = .ok result) :
    p.parse live q = (.ok (result, false),
      { p with cache :=
          if p.config.cacheResults then
            (p.cache.touch q.fileId).insert q.fileId ⟨checksum q.content, result⟩
          else p.cache.touch q.fileId }) := by
  unfold recalled? at h
  unfold parse
  rw [if_neg (Int.not_lt.mpr hsize)]
  simp only [h, hfresh]

theorem recalled?_new (q : ParseRequest) : (Parser.new config tool).recalled? q = none := by
  rw [recalled?, Parser.new, Recent.peek?_empty]
  rfl

theorem parse_new (live : Bool) (q : ParseRequest) :
    ((Parser.new config tool).parse live q).1 = (parseFresh config tool live q).map (·, false) := by
  by_cases hsize : q.content.length ≤ config.sizeLimit
  · obtain ⟨result, hfresh⟩ := exists_parseFresh tool live hsize
    rw [parse_anew hsize (recalled?_new q) hfresh, hfresh]
    rfl
  · rw [parse_too_large (Int.not_le.mp hsize)]
    rfl

theorem map_fst_marked (found : Except TooLarge ParseResult) (cached : Bool) :
    (found.map (·, cached)).map Prod.fst = found := by
  cases found <;> rfl

/-- A parser that remembers, for some files, what the call found that stands for the file. -/
structure Remembers (config : ParserConfig) (tool : Option TagTool) (past : List ParserCall)
    (p : Parser) : Prop where
  cache : ∀ fileId entry, p.cache.peek? fileId = some entry →
    config.cacheResults = true ∧ ∃ live q, Stands config tool past live q ∧ q.fileId = fileId ∧
      checksum q.content = entry.checksum ∧ parseFresh config tool live q = .ok entry.result
  reached : p = (Parser.new config tool).after past
  config : p.config = config
  tool : p.tool = tool

theorem remembers_new : Remembers config tool [] (Parser.new config tool) where
  cache := by simp [Parser.new, Recent.peek?_empty]
  reached := rfl
  config := rfl
  tool := rfl

section Remembers

variable {past : List ParserCall} {p : Parser}

/-- What stood before a call that spares it stands after the call. -/
theorem Remembers.stands (h : Remembers config tool past p) {c : ParserCall} {fileId : String}
    {entry : CachedParse} (hpeek : p.cache.peek? fileId = some entry)
    (hspares : ∀ q, q.fileId = fileId → checksum q.content = entry.checksum →
      (∃ live, .parse live q ∈ past) → c.Spares config q) :
    config.cacheResults = true ∧ ∃ live q, Stands config tool (past ++ [c]) live q ∧ q.fileId = fileId ∧
      checksum q.content = entry.checksum ∧ parseFresh config tool live q = .ok entry.result := by
  obtain ⟨hon, live, q, hstands, hfile, hsum, hresult⟩ := h.cache fileId entry hpeek
  exact ⟨hon, live, q, hstands.snoc (hspares q hfile hsum ⟨live, hstands.mem⟩), hfile, hsum, hresult⟩

theorem Remembers.reached_serve (h : Remembers config tool past p) (c : ParserCall) :
    p.serve c = (Parser.new config tool).after (past ++ [c]) := by
  rw [h.reached, after_append]

theorem Remembers.invalidate (h : Remembers config tool past p) (fileId : String) :
    Remembers config tool (past ++ [.invalidate fileId]) (p.invalidate fileId) := by
  refine ⟨fun other entry hpeek => ?_, h.reached_serve (.invalidate fileId), h.config, h.tool⟩
  by_cases hother : other = fileId
  · subst hother
    exact absurd ((Recent.peek?_erase_self p.cache other).symm.trans hpeek) (by simp)
  · have hbefore := (Recent.peek?_erase_of_ne p.cache hother).symm.trans hpeek
    refine h.stands hbefore fun q hfile _ _ => ?_
    rw [ParserCall.Spares, hfile]
    exact Ne.symm hother

theorem recalled?_eq_some {q : ParseRequest} {entry : CachedParse} (h : p.recalled? q = some entry) :
    p.cache.peek? q.fileId = some entry ∧ entry.checksum = checksum q.content := by
  obtain ⟨hpeek, hsum⟩ := Option.filter_eq_some_iff.mp h
  simp only [Bool.and_eq_true, beq_iff_eq] at hsum
  exact ⟨hpeek, hsum.2⟩

theorem Remembers.parse (h : Remembers config tool past p) {live : Bool} {q : ParseRequest}
    (hcalls : Consistent (past ++ [.parse live q])) :
    Remembers config tool (past ++ [.parse live q]) (p.parse live q).2 := by
  have hlast : ParserCall.parse live q ∈ past ++ [.parse live q] := by simp
  have hreached : (p.parse live q).2 = _ := h.reached_serve (.parse live q)
  by_cases hsize : q.content.length ≤ p.config.sizeLimit
  · cases hrecalled : p.recalled? q with
    | some entry =>
        rw [parse_recalled _ hsize hrecalled] at hreached ⊢
        refine ⟨fun other found hpeek => ?_, hreached, h.config, h.tool⟩
        rw [Recent.peek?_touch] at hpeek
        refine h.stands hpeek fun q' hfile hsum ⟨live', hpast⟩ hsame _ => ?_
        obtain ⟨hentry, hentrySum⟩ := recalled?_eq_some hrecalled
        have hfound : found = entry := by
          rw [← hfile, ← hsame, hentry] at hpeek
          exact (Option.some.inj hpeek).symm
        have hsums : checksum q.content = checksum q'.content := by
          rw [hsum, hfound, hentrySum]
        exact hcalls.told live q live' q' hlast (by simp [hpast]) hsums
    | none =>
        obtain ⟨result, hfresh⟩ := exists_parseFresh p.tool live hsize
        have hanew : (((Parser.new config tool).after past).parse live q).1 = .ok (result, false) := by
          rw [← h.reached, parse_anew hsize hrecalled hfresh]
        rw [parse_anew hsize hrecalled hfresh] at hreached ⊢
        refine ⟨fun other found hpeek => ?_, hreached, h.config, h.tool⟩
        simp only at hpeek
        split at hpeek
        · rename_i hon
          rcases Recent.peek?_insert hpeek with ⟨rfl, rfl⟩ | ⟨hother, hbefore⟩
          · rw [h.config] at hon hfresh
            rw [h.tool] at hfresh
            exact ⟨hon, live, q, stands_last hanew, rfl, rfl, hfresh⟩
          · rw [Recent.peek?_touch] at hbefore
            refine h.stands hbefore fun q' hfile _ _ hsame => ?_
            exact absurd (hsame.trans hfile).symm hother
        · rename_i hoff
          rw [Recent.peek?_touch] at hpeek
          rw [h.config] at hoff
          exact absurd (h.cache other found hpeek).1 hoff
  · rw [parse_too_large (Int.not_le.mp hsize)] at hreached ⊢
    refine ⟨fun other found hpeek => ?_, hreached, h.config, h.tool⟩
    refine h.stands hpeek fun q' _ _ _ _ hfits => ?_
    rw [h.config] at hsize
    exact absurd hfits hsize

theorem Remembers.serve (h : Remembers config tool past p) {c : ParserCall}
    (hcalls : Consistent (past ++ [c])) : Remembers config tool (past ++ [c]) (p.serve c) := by
  cases c with
  | parse live q => exact h.parse hcalls
  | invalidate fileId => exact h.invalidate fileId

end Remembers

theorem remembers_after {calls : List ParserCall} (h : Consistent calls) :
    Remembers config tool calls ((Parser.new config tool).after calls) := by
  induction calls using List.reverseRecOn with
  | nil => exact remembers_new
  | append_singleton past c ih =>
      rw [after_append]
      exact (ih h.left).serve h

/-- A call is answered with what it finds, or with what the call found that stands for it. -/
theorem Remembers.answer {past : List ParserCall} {p : Parser} (h : Remembers config tool past p)
    {live : Bool} {q : ParseRequest} (hcalls : Consistent (past ++ [.parse live q])) :
    (p.parse live q).1 = (parseFresh config tool live q).map (·, false) ∨
      config.cacheResults = true ∧ ∃ first result, Stands config tool past first q ∧
        parseFresh config tool first q = .ok result ∧ (p.parse live q).1 = .ok (result, true) := by
  by_cases hsize : q.content.length ≤ p.config.sizeLimit
  · cases hrecalled : p.recalled? q with
    | some entry =>
        obtain ⟨hpeek, hentrySum⟩ := recalled?_eq_some hrecalled
        obtain ⟨hon, first, q', hstands, hfile, hsum, hresult⟩ := h.cache _ _ hpeek
        have hlast : ParserCall.parse live q ∈ past ++ [.parse live q] := by simp
        have hfirst : ParserCall.parse first q' ∈ past ++ [.parse live q] := by simp [hstands.mem]
        obtain rfl : q = q' :=
          hcalls.eq hlast hfirst hfile.symm (hentrySum.symm.trans hsum.symm)
        rw [parse_recalled _ hsize hrecalled]
        exact .inr ⟨hon, first, entry.result, hstands, hresult, rfl⟩
    | none =>
        obtain ⟨result, hfresh⟩ := exists_parseFresh p.tool live hsize
        rw [parse_anew hsize hrecalled hfresh, ← h.config, ← h.tool, hfresh]
        exact .inl rfl
  · rw [parse_too_large (Int.not_le.mp hsize), h.config, h.tool]
    exact .inl rfl

/-- What is found for a caller who has left is what the next caller with the same content is told. -/
theorem parse_after_left (hon : config.cacheResults = true) {q : ParseRequest}
    (hsize : q.content.length ≤ config.sizeLimit) :
    (((Parser.new config tool).parse false q).2.parse true q).1 = .ok (lastResort q, true) := by
  rw [parse_anew hsize (recalled?_new q) (parseFresh_left hsize)]
  rw [parse_recalled ⟨checksum q.content, lastResort q⟩ hsize]
  unfold recalled?
  simp only [Parser.new, hon, if_true]
  rw [Recent.peek?_insert_self _ _ _ config.cacheCapacity_pos]
  simp

def bareClause : ParseRequest :=
  ⟨"f", "a.go", [112, 97, 99, 107, 97, 103, 101, 32, 97, 10], .go⟩

theorem consistent_of_bareClause {calls : List ParserCall}
    (h : ∀ live q, .parse live q ∈ calls → ∃ fileId, q = { bareClause with fileId := fileId }) :
    Consistent calls := by
  refine ⟨fun live q live' q' hq hq' _ => ?_, fun live q live' q' hq hq' _ => ?_⟩
  · obtain ⟨_, rfl⟩ := h live q hq
    obtain ⟨_, rfl⟩ := h live' q' hq'
    exact ⟨rfl, rfl⟩
  · obtain ⟨_, rfl⟩ := h live q hq
    obtain ⟨_, rfl⟩ := h live' q' hq'
    rfl

/-- A caller who waits gets what a parser without memory would answer, unless the result that stands for
the content was found for a caller who had left; then it is the one of the last resort. -/
theorem answers_afresh_or_last_resort (config : ParserConfig) (tool : Option TagTool)
    {past : List ParserCall} {q : ParseRequest} (hcalls : Consistent (past ++ [.parse true q])) :
    (((Parser.new config tool).after past).parse true q).1.map Prod.fst =
        ((Parser.new { config with cacheResults := false } tool).parse true q).1.map Prod.fst ∨
      config.cacheResults = true ∧ Stands config tool past false q ∧
        (((Parser.new config tool).after past).parse true q).1 = .ok (lastResort q, true) := by
  have hplain : ((Parser.new { config with cacheResults := false } tool).parse true q).1.map Prod.fst =
      parseFresh config tool true q := by
    rw [parse_new, map_fst_marked]
    rfl
  rw [hplain]
  obtain hanew | ⟨hon, first, result, hstands, hfound, hrecalled⟩ :=
    (remembers_after hcalls.left).answer hcalls
  · left
    rw [hanew, map_fst_marked]
  · cases first with
    | true =>
        left
        rw [hrecalled, hfound]
        rfl
    | false =>
        right
        rw [parseFresh_left (fits_of_parseFresh hfound)] at hfound
        rw [hrecalled, ← Except.ok.inj hfound]
        exact ⟨hon, hstands, rfl⟩

/-- Between two callers of whom the first has left, the file is forgotten and another one read. -/
theorem bareClause_forgotten :
    Consistent ([.parse false bareClause, .invalidate "f", .parse true { bareClause with fileId := "g" }] ++
        [.parse true bareClause]) ∧
      ((((Parser.new .standard none).after [.parse false bareClause, .invalidate "f",
            .parse true { bareClause with fileId := "g" }]).parse true bareClause).1.map Prod.fst =
          ((Parser.new { ParserConfig.standard with cacheResults := false } none).parse true
            bareClause).1.map Prod.fst ∨
        ParserConfig.standard.cacheResults = true ∧
          Stands .standard none [.parse false bareClause, .invalidate "f",
            .parse true { bareClause with fileId := "g" }] false bareClause ∧
          (((Parser.new .standard none).after [.parse false bareClause, .invalidate "f",
            .parse true { bareClause with fileId := "g" }]).parse true bareClause).1 =
              .ok (lastResort bareClause, true)) := by
  have hcalls : Consistent ([.parse false bareClause, .invalidate "f",
      .parse true { bareClause with fileId := "g" }] ++ [.parse true bareClause]) := by
    refine consistent_of_bareClause fun live q hq => ?_
    simp only [List.cons_append, List.nil_append, List.mem_cons, ParserCall.parse.injEq, reduceCtorEq,
      List.not_mem_nil, or_false, false_or] at hq
    obtain ⟨-, rfl⟩ | ⟨-, rfl⟩ | ⟨-, rfl⟩ := hq
    · exact ⟨"f", rfl⟩
    · exact ⟨"g", rfl⟩
    · exact ⟨"f", rfl⟩
  exact ⟨hcalls, answers_afresh_or_last_resort .standard none hcalls⟩

/-- A package clause is read as a syntax tree, but not once the parser was asked for it by a caller who
had left. -/
theorem bareClause_spoiled : Consistent ([.parse false bareClause] ++ [.parse true bareClause]) ∧
    (((Parser.new .standard none).after [.parse false bareClause]).parse true bareClause).1.map Prod.fst ≠
      ((Parser.new { ParserConfig.standard with cacheResults := false } none).parse true
        bareClause).1.map Prod.fst := by
  refine ⟨consistent_of_bareClause fun live q hq => ⟨"f", ?_⟩, fun hsame => ?_⟩
  · obtain ⟨-, rfl⟩ | ⟨-, rfl⟩ := by simpa using hq
    · rfl
    · rfl
  · have htree : (((Parser.new { ParserConfig.standard with cacheResults := false } none).parse true
        bareClause).1.map Prod.fst).map ParseResult.strategy = .ok .syntaxTree := by decide +kernel
    have hleft : (((Parser.new .standard none).after [.parse false bareClause]).parse true bareClause).1 =
        .ok (lastResort bareClause, true) := parse_after_left rfl (by decide)
    rw [← hsame, hleft] at htree
    exact absurd (Except.ok.inj htree) (by decide)

end Parser

end CodeAtlas
