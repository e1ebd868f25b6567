import CodeAtlas.Proofs.Extract.Declarations
import CodeAtlas.Proofs.Extract.Parsing
import CodeAtlas.Proofs.Extract.Recall
import CodeAtlas.Proofs.Extract.Resolving
import CodeAtlas.Proofs.Extract.TagReport
import CodeAtlas.Proofs.Source.Decls

/-!
# The stretches of symbols

A symbol of a line ends behind its start.  One that a tag tells of ends at the first byte of its last
line, and so before its start where that is the line of its name and the name does not begin the line.  A
declaration of a syntax tree ends behind its name, unless its end is sought past the end of the text,
where there are no lines; lines are not followed where a directive counts them anew.
-/

namespace CodeAtlas

namespace Source.LineTable

variable {α : Type} [Inhabited α] {key : α → Nat} {xs : Array α} {offset offset' lo hi i : Nat}

theorem lastAtMost_bounds (h : lastAtMost key xs offset lo hi = some i) : lo ≤ i ∧ i < hi := by
  fun_induction lastAtMost key xs offset lo hi with
  | case1 lo hi hlt mid hkey ih =>
      cases hrest : lastAtMost key xs offset (mid + 1) hi with
      | none =>
          rw [hrest] at h
          obtain rfl := Option.some.inj h
          omega
      | some j =>
          rw [hrest] at h ih
          have hbounds := ih h
          omega
  | case2 lo hi hlt mid hkey ih =>
      have hbounds := ih h
      omega
  | case3 => cases h

/-- What is found for a later offset does not lie before what is found for an earlier one. -/
theorem lastAtMost_le (hle : offset ≤ offset') : ∀ i ∈ lastAtMost key xs offset lo hi,
    ∃ j ∈ lastAtMost key xs offset' lo hi, i ≤ j := by
  fun_induction lastAtMost key xs offset lo hi with
  | case1 lo hi hlt mid hkey ih =>
      intro i hfound
      rw [lastAtMost, if_pos hlt]
      dsimp only
      rw [if_pos (Nat.le_trans hkey hle)]
      cases hrest : lastAtMost key xs offset (mid + 1) hi with
      | none =>
          rw [hrest] at hfound
          obtain rfl := Option.some.inj hfound
          cases hrest' : lastAtMost key xs offset' (mid + 1) hi with
          | none => exact ⟨mid, rfl, Nat.le_refl mid⟩
          | some j =>
              have hbounds := lastAtMost_bounds hrest'
              exact ⟨j, rfl, by omega⟩
      | some j =>
          rw [hrest] at hfound
          obtain rfl := Option.some.inj hfound
          obtain ⟨j', hj', hjj'⟩ := ih j hrest
          exact ⟨j', by rw [Option.mem_def.mp hj']; rfl, hjj'⟩
  | case2 lo hi hlt mid hkey ih =>
      intro i hfound
      rw [lastAtMost, if_pos hlt]
      dsimp only
      split
      · have hbounds := lastAtMost_bounds hfound
        cases hrest : lastAtMost key xs offset' (mid + 1) hi with
        | none => exact ⟨mid, rfl, by omega⟩
        | some j =>
            have hbounds' := lastAtMost_bounds hrest
            exact ⟨j, rfl, by omega⟩
      · exact ih i hfound
  | case3 => exact nofun

variable {table : LineTable}

theorem lineIndex_le (h : offset ≤ offset') : table.lineIndex offset ≤ table.lineIndex offset' := by
  unfold lineIndex
  cases hfound : lastAtMost id table.starts offset 0 table.starts.size with
  | none => exact Nat.zero_le _
  | some i =>
      obtain ⟨j, hj, hij⟩ := lastAtMost_le h i hfound
      rw [Option.mem_def.mp hj]
      exact hij

theorem position_of_lt (h : table.size < offset) : table.position offset = ⟨0, -1⟩ :=
  if_neg (Nat.not_le.mpr h)

theorem position_of_le (hinfos : table.infos = #[]) (h : offset ≤ table.size) :
    table.position offset =
      ⟨table.lineIndex offset + 1, offset - (table.starts[table.lineIndex offset]?.getD 0 : Int)⟩ := by
  have hnone : lastAtMost LineInfo.offset table.infos offset 0 table.infos.size = none := by
    rw [hinfos, lastAtMost, if_neg (by decide : ¬0 < (#[] : Array LineInfo).size)]
  unfold position locate
  rw [if_pos h, hnone]
  simp

/-- Where no directive counts lines anew, places follow offsets. -/
theorem position_mono (hinfos : table.infos = #[]) (hle : offset ≤ offset')
    (h : offset' ≤ table.size) :
    0 < (table.position offset).line ∧
      ((table.position offset).line < (table.position offset').line ∨
        (table.position offset).line = (table.position offset').line ∧
          (table.position offset).column ≤ (table.position offset').column) := by
  have hlines := @lineIndex_le _ _ table hle
  rw [position_of_le hinfos (Nat.le_trans hle h), position_of_le hinfos h]
  dsimp only
  rcases Nat.lt_or_eq_of_le hlines with hlt | heq
  · exact ⟨by omega, .inl (by omega)⟩
  · rw [heq]
    exact ⟨by omega, .inr ⟨rfl, by omega⟩⟩

end Source.LineTable

/-! ## Symbols that hold their start -/

namespace Symbol

/-- A valid symbol that holds its own start. -/
def Spans (s : Symbol) : Prop := s.fault? = none ∧ s.contains s.first = true

variable {s t : Symbol}

theorem fault?_eq_none_iff : s.fault? = none ↔
    s.name ≠ "" ∧ s.kind.isKnown = true ∧ 0 < s.first.line ∧ s.first.line ≤ s.last.line := by
  unfold fault?
  by_cases hname : s.name = ""
  · simp [hname]
  cases hkind : s.kind.isKnown with
  | false => simp [hname]
  | true =>
      simp only [beq_iff_eq, hname, if_false, Bool.not_true, Bool.false_eq_true, Bool.or_eq_true,
        decide_eq_true_eq, ne_eq, not_false_eq_true, true_and]
      split
      · simp
        omega
      · split
        · simp
          omega
        · simp
          omega

theorem contains_first_iff : s.contains s.first = true ↔
    s.first.line < s.last.line ∨ s.first.line = s.last.line ∧ s.first.column ≤ s.last.column := by
  unfold contains Position.before
  by_cases hline : s.last.line = s.first.line
  · simp [hline]
  · have hline' : s.first.line ≠ s.last.line := Ne.symm hline
    simp [hline, hline']
    omega

theorem spans_iff : s.Spans ↔ s.name ≠ "" ∧ s.kind.isKnown = true ∧ 0 < s.first.line ∧
    (s.first.line < s.last.line ∨ s.first.line = s.last.line ∧ s.first.column ≤ s.last.column) := by
  rw [Spans, fault?_eq_none_iff, contains_first_iff]
  constructor
  · rintro ⟨⟨hname, hkind, hpos, -⟩, hspan⟩
    exact ⟨hname, hkind, hpos, hspan⟩
  · rintro ⟨hname, hkind, hpos, hspan⟩
    exact ⟨⟨hname, hkind, hpos, by omega⟩, hspan⟩

end Symbol

/-- How far the symbols that a strategy finds in a content can be relied on.  A tag ends at the first
byte of its last line, and so before its start where it begins behind that byte on that line.  A
declaration has no last line where its end is sought past the text. -/
def Stretches (strategy : Strategy) (content : List UInt8) (s : Symbol) : Prop :=
  match strategy with
  | .syntaxTree => s.name ≠ "" ∧ s.kind.isKnown = true ∧
      ((Source.parseFile (glyphsOfBytes content)).table.infos = #[] → (s.Spans ↔ 0 < s.last.line))
  | .tags => s.fault? = none ∧ (s.Spans ↔ s.first.line < s.last.line ∨ s.first.column = 0)
  | .heuristic => s.Spans

variable {strategy : Strategy} {content : List UInt8} {s t : Symbol}

theorem Stretches.of_heading (h : Stretches strategy content s) (heq : t.heading = s.heading) :
    Stretches strategy content t := by
  obtain ⟨hname, heq⟩ := Prod.mk.inj heq
  obtain ⟨hkind, heq⟩ := Prod.mk.inj heq
  obtain ⟨hfirst, hlast⟩ := Prod.mk.inj heq
  unfold Stretches at h ⊢
  simp only [Symbol.spans_iff, Symbol.fault?_eq_none_iff] at h ⊢
  rwa [hname, hkind, hfirst, hlast]

/-! ## Declarations of a syntax tree -/

namespace Source

theorem isKnown_of_mem_declaredType {spec : Node} {d : Declared} (h : d ∈ declaredType spec) :
    d.kind.isKnown = true := by
  unfold declaredType at h
  split at h
  · dsimp only at h
    split at h
    · rcases List.mem_cons.mp h with rfl | h
      · rfl
      · obtain ⟨f, -, h⟩ := List.mem_flatMap.mp h
        obtain ⟨n, -, rfl⟩ := List.mem_map.mp h
        rfl
    · rcases List.mem_cons.mp h with rfl | h
      · rfl
      · obtain ⟨f, -, h⟩ := List.mem_flatMap.mp h
        obtain ⟨n, -, rfl⟩ := List.mem_map.mp h
        rfl
    · rw [List.mem_singleton.mp h]
      rfl
  · cases h

theorem isKnown_of_mem_declaredFunc {method : Bool} {decl : Node} {d : Declared}
    (h : d ∈ declaredFunc method decl) : d.kind.isKnown = true := by
  unfold declaredFunc at h
  extract_lets receiver? at h
  split at h
  · cases hreceiver : receiver? <;>
      · simp only [hreceiver] at h
        rw [List.mem_singleton.mp h]
        rfl
  · cases h

theorem isKnown_of_mem_declared {decl : Node} {d : Declared} (h : d ∈ declared decl) :
    d.kind.isKnown = true := by
  unfold declared at h
  split at h
  · exact isKnown_of_mem_declaredFunc h
  · obtain ⟨spec, -, h⟩ := List.mem_flatMap.mp h
    split at h
    · exact isKnown_of_mem_declaredType h
    · obtain ⟨n, -, rfl⟩ := List.mem_map.mp h
      dsimp only
      split <;> rfl
    · cases h
  · cases h

/-- A declaration holds its start unless it ends past the text. -/
theorem stretches_of_extract? {found : Extraction} (h : extract? (glyphsOfBytes content) = some found) :
    ∀ s ∈ found.symbols, Stretches .syntaxTree content s := by
  unfold extract? at h
  dsimp only at h
  split at h
  · cases h
  next file hfile =>
  split at h
  · cases h
  obtain rfl := Option.some.inj h
  obtain ⟨-, -, m, m', hdecls, -⟩ := sequence_parseFile (fun _ => width_pos_of_mem_glyphsOfBytes) hfile
  intro s hs
  obtain ⟨d, hd, rfl⟩ := List.mem_map.mp hs
  obtain ⟨decl, hdecl, hd⟩ := List.mem_flatMap.mp hd
  obtain ⟨_, _, -, hread, -⟩ := hdecls.exists_of_mem (fun _ _ _ h => h.read.le) hdecl
  obtain ⟨hname, hbefore⟩ := hread.named d hd
  have hknown := isKnown_of_mem_declared hd
  refine ⟨hname, hknown, fun hinfos => ?_⟩
  rw [Symbol.spans_iff]
  dsimp only
  by_cases hstop : d.stop ≤ (parseFile (glyphsOfBytes content)).table.size
  · obtain ⟨hpos, horder⟩ := LineTable.position_mono hinfos hbefore hstop
    exact ⟨fun _ => by omega, fun _ => ⟨hname, hknown, hpos, horder⟩⟩
  · rw [LineTable.position_of_lt (Nat.not_le.mp hstop)]
    dsimp only
    omega

end Source

/-! ## Tags and lines -/

theorem Tag.isKnown_symbolKind (name : String) : (symbolKind name).isKnown = true := by
  unfold symbolKind
  split <;> rfl

theorem Tag.stretches_toSymbol (lines : Array (List Glyph)) {tag : Tag} (h : tag.isDefinition = true) :
    Stretches .tags content (tag.toSymbol lines) := by
  unfold isDefinition at h
  simp only [Bool.and_eq_true, bne_iff_ne, decide_eq_true_eq] at h
  obtain ⟨⟨⟨-, hname⟩, hline⟩, -⟩ := h
  have hknown := isKnown_symbolKind tag.kind
  refine ⟨Symbol.fault?_eq_none_iff.mpr ⟨hname, hknown, hline, by simp only [toSymbol]; omega⟩, ?_⟩
  rw [Symbol.spans_iff]
  simp only [toSymbol]
  constructor
  · rintro ⟨-, -, -, horder⟩
    omega
  · intro horder
    exact ⟨hname, hknown, hline, by omega⟩

theorem Tag.stretches_symbolsOf {report : String} {lines : Array (List Glyph)} :
    ∀ s ∈ symbolsOf report lines, Stretches .tags content s := by
  intro s hs
  obtain ⟨tag, htag, rfl⟩ := List.mem_map.mp hs
  obtain ⟨line, -, hline⟩ := List.mem_filterMap.mp htag
  exact stretches_toSymbol lines (Option.filter_eq_some_iff.mp hline).2

namespace Heuristic

theorem isKnown_patternsFor (language : Language) :
    ∀ p ∈ patternsFor language, p.kind.isKnown = true := by
  unfold patternsFor
  split <;> decide

theorem isKnown_general : ∀ p ∈ general, p.kind.isKnown = true := by decide

theorem stretches_extract (language : Language) :
    ∀ s ∈ (extract language (glyphsOfBytes content)).symbols, Stretches .heuristic content s := by
  intro s hs
  obtain ⟨row, line, hline, hsymbol⟩ := mem_symbols_extract_iff.mp hs
  obtain ⟨bytes, -, rfl⟩ := getElem?_glyphLines_iff.mp hline
  obtain ⟨others, p, rest, heq, -, hkind, -⟩ := decidedBy_of_symbolIn? hsymbol
  have hshown := shownIn_of_symbolIn? hsymbol
  obtain ⟨column, hcolumn, -, hfits⟩ := hshown.column
  have hknown : s.kind.isKnown = true := by
    rw [hkind]
    have hp : p ∈ patternsFor language ++ general := by rw [heq]; simp
    rcases List.mem_append.mp hp with hp | hp
    · exact isKnown_patternsFor language p hp
    · exact isKnown_general p hp
  refine Symbol.spans_iff.mpr ⟨hshown.nonempty, hknown, ?_, .inr ?_⟩
  · rw [hshown.first_line]
    omega
  · rw [hshown.first_line, hshown.last, hcolumn]
    exact ⟨rfl, by dsimp only; omega⟩

end Heuristic

/-! ## What a parser answers -/

namespace Parser

variable {config : ParserConfig} {tool : Option TagTool}

theorem stretches_of_attempt {live : Bool} {language : Language} {e : Extraction}
    (h : attempt tool live language content (glyphsOfBytes content) strategy = some e) :
    ∀ s ∈ e.symbols, Stretches strategy content s := by
  cases strategy with
  | syntaxTree => exact Source.stretches_of_extract? (Option.ite_none_right_eq_some.mp h).2
  | tags =>
      obtain ⟨report, -, rfl⟩ := Option.map_eq_some_iff.mp (Option.ite_none_right_eq_some.mp h).2
      exact Tag.stretches_symbolsOf
  | heuristic =>
      obtain rfl := Option.some.inj h
      exact Heuristic.stretches_extract language

/-- The answer is that of the strategy that is named. -/
theorem attempt_runChain (config : ParserConfig) (tool : Option TagTool) (live : Bool)
    (language : Language) (content : List UInt8) :
    attempt tool live language content (glyphsOfBytes content)
        (runChain config tool live language content).1 =
      some (runChain config tool live language content).2 := by
  unfold runChain
  extract_lets glyphs tried
  cases htried : tried with
  | none => rfl
  | some answer =>
      obtain ⟨s, -, hs⟩ := List.exists_of_findSome?_eq_some htried
      obtain ⟨-, hs⟩ := Option.ite_none_right_eq_some.mp hs
      obtain ⟨e, he, rfl⟩ := Option.map_eq_some_iff.mp hs
      exact he

theorem stretches_of_parseFresh {live : Bool} {q : ParseRequest} {result : ParseResult}
    (h : parseFresh config tool live q = .ok result) :
    ∀ s ∈ result.found.symbols, Stretches result.strategy q.content s := by
  have hfits := fits_of_parseFresh h
  unfold parseFresh at h
  rw [if_neg (Int.not_lt.mpr hfits)] at h
  obtain rfl := Except.ok.inj h
  intro s hs
  rw [Extraction.finish_symbols] at hs
  obtain ⟨t, ht, rfl⟩ := List.mem_map.mp hs
  have hfound := stretches_of_attempt (attempt_runChain config tool live q.language q.content) t ht
  exact hfound.of_heading (heading_finishSymbol _ _ t)

/-- What a parser remembers of a file was found by a call for the file. -/
structure Recollects (config : ParserConfig) (tool : Option TagTool) (past : List ParserCall)
    (p : Parser) : Prop where
  found : ∀ fileId entry, p.cache.peek? fileId = some entry → ∃ live q, .parse live q ∈ past ∧
    q.fileId = fileId ∧ checksum q.content = entry.checksum ∧
      parseFresh config tool live q = .ok entry.result
  config : p.config = config
  tool : p.tool = tool

section Recollects

variable {past : List ParserCall} {p : Parser} {live : Bool} {q : ParseRequest}

theorem Recollects.found_snoc (h : Recollects config tool past p) (c : ParserCall) {fileId : String}
    {entry : CachedParse} (hpeek : p.cache.peek? fileId = some entry) :
    ∃ live q, .parse live q ∈ past ++ [c] ∧ q.fileId = fileId ∧ checksum q.content = entry.checksum ∧
      parseFresh config tool live q = .ok entry.result := by
  obtain ⟨live, q, hcall, hfound⟩ := h.found fileId entry hpeek
  exact ⟨live, q, List.mem_append_left _ hcall, hfound⟩

theorem Recollects.invalidate (h : Recollects config tool past p) (fileId : String) :
    Recollects config tool (past ++ [.invalidate fileId]) (p.invalidate fileId) :=
  ⟨fun _ _ hpeek => h.found_snoc _ (Recent.peek?_of_peek?_erase hpeek), h.config, h.tool⟩

theorem Recollects.parse (h : Recollects config tool past p) (live : Bool) (q : ParseRequest) :
    Recollects config tool (past ++ [.parse live q]) (p.parse live q).2 := by
  by_cases hsize : q.content.length ≤ p.config.sizeLimit
  · cases hrecalled : p.recalled? q with
    | some entry =>
        rw [parse_recalled entry hsize hrecalled]
        refine ⟨fun file found hpeek => ?_, h.config, h.tool⟩
        rw [Recent.peek?_touch] at hpeek
        exact h.found_snoc _ hpeek
    | none =>
        obtain ⟨result, hfresh⟩ := exists_parseFresh p.tool live hsize
        rw [parse_anew hsize hrecalled hfresh]
        refine ⟨fun file found hpeek => ?_, h.config, h.tool⟩
        rw [h.config, h.tool] at hfresh
        dsimp only at hpeek
        split at hpeek
        · rcases Recent.peek?_insert hpeek with ⟨rfl, rfl⟩ | ⟨-, hpeek⟩
          · exact ⟨live, q, by simp, rfl, rfl, hfresh⟩
          · rw [Recent.peek?_touch] at hpeek
            exact h.found_snoc _ hpeek
        · rw [Recent.peek?_touch] at hpeek
          exact h.found_snoc _ hpeek
  · rw [parse_too_large (Int.not_le.mp hsize)]
    exact ⟨fun _ _ hpeek => h.found_snoc _ hpeek, h.config, h.tool⟩

theorem recollects_after (config : ParserConfig) (tool : Option TagTool) (calls : List ParserCall) :
    Recollects config tool calls ((Parser.new config tool).after calls) := by
  induction calls using List.reverseRecOn with
  | nil => exact ⟨by simp [after, Parser.new, Recent.peek?_empty], rfl, rfl⟩
  | append_singleton past c ih =>
      rw [after_append]
      cases c with
      | parse live q => exact ih.parse live q
      | invalidate fileId => exact ih.invalidate fileId

/-- What is answered was found by this call or an earlier one, for the file and a content of the same
checksum. -/
theorem Recollects.answer (h : Recollects config tool past p) {result : ParseResult} {cached : Bool}
    (hanswer : (p.parse live q).1 = .ok (result, cached)) :
    ∃ live' q', .parse live' q' ∈ past ++ [.parse live q] ∧ q'.fileId = q.fileId ∧
      checksum q'.content = checksum q.content ∧ parseFresh config tool live' q' = .ok result := by
  by_cases hsize : q.content.length ≤ p.config.sizeLimit
  · cases hrecalled : p.recalled? q with
    | some entry =>
        rw [parse_recalled entry hsize hrecalled] at hanswer
        obtain ⟨rfl, -⟩ := Prod.mk.inj (Except.ok.inj hanswer)
        obtain ⟨hpeek, hsum⟩ := recalled?_eq_some hrecalled
        obtain ⟨live', q', hcall, hfile, hsum', hfound⟩ := h.found_snoc (.parse live q) hpeek
        exact ⟨live', q', hcall, hfile, hsum'.trans hsum, hfound⟩
    | none =>
        obtain ⟨fresh, hfresh⟩ := exists_parseFresh p.tool live hsize
        rw [parse_anew hsize hrecalled hfresh] at hanswer
        obtain ⟨rfl, -⟩ := Prod.mk.inj (Except.ok.inj hanswer)
        rw [h.config, h.tool] at hfresh
        exact ⟨live, q, by simp, rfl, rfl, hfresh⟩
  · have hlarge : p.config.sizeLimit < q.content.length := Int.not_le.mp hsize
    rw [parse_too_large hlarge, parseFresh, if_pos hlarge] at hanswer
    cases hanswer

end Recollects

/-- The symbols that a parser answers with have known kinds and names, and hold their own start but for
those that a tag tells of on one line and behind its beginning, those of a tree that end past the text,
and those of a text whose lines are counted anew. -/
theorem symbols_hold_start (config : ParserConfig) (tool : Option TagTool) (past : List ParserCall)
    {live : Bool} {q : ParseRequest} {result : ParseResult} {cached : Bool}
    (h : (((Parser.new config tool).after past).parse live q).1 = .ok (result, cached)) :
    ∃ live' q', .parse live' q' ∈ past ++ [.parse live q] ∧ q'.fileId = q.fileId ∧
      checksum q'.content = checksum q.content ∧
      ∀ s ∈ result.found.symbols, Stretches result.strategy q'.content s := by
  obtain ⟨live', q', hcall, hfile, hsum, hfound⟩ := (recollects_after config tool past).answer h
  exact ⟨live', q', hcall, hfile, hsum, stretches_of_parseFresh hfound⟩

theorem parse_new_eq {live : Bool} {q : ParseRequest} {e : Extraction}
    (hsize : q.content.length ≤ config.sizeLimit)
    (hchain : runChain config tool live q.language q.content = (strategy, e)) :
    ((Parser.new config tool).parse live q).1 = .ok (⟨strategy, e.finish q.fileId⟩, false) := by
  rw [parse_new, parseFresh, if_neg (Int.not_lt.mpr hsize), hchain]
  rfl

/-- A function on one line. -/
def defRequest : ParseRequest := ⟨"f", "a.py", bytesOfText "def f():\n", .python⟩

theorem defRequest_holds_start : ∃ result,
    (((Parser.new .standard none).after [.invalidate "f"]).parse true defRequest).1 = .ok (result, false) ∧
      result.strategy = .heuristic ∧
      result.found.symbols.map Symbol.heading = [("f", .function, ⟨1, 4⟩, ⟨1, 8⟩)] ∧
      ∃ live' q', .parse live' q' ∈ [ParserCall.invalidate "f", .parse true defRequest] ∧
        q'.fileId = defRequest.fileId ∧ checksum q'.content = checksum defRequest.content ∧
        ∀ s ∈ result.found.symbols, Stretches result.strategy q'.content s := by
  have hchain : runChain .standard none true .python defRequest.content =
      (.heuristic, Heuristic.extract .python (glyphsOfBytes defRequest.content)) := rfl
  have hfound : (Heuristic.extract .python (glyphsOfBytes defRequest.content)).symbols.map Symbol.heading =
      [("f", .function, ⟨1, 4⟩, ⟨1, 8⟩)] := by
    decide +kernel
  have hanswer : (((Parser.new .standard none).after [.invalidate "f"]).parse true defRequest).1 =
      .ok (lastResort defRequest, false) :=
    parse_new_eq (by decide +kernel) hchain
  refine ⟨_, hanswer, rfl, ?_, symbols_hold_start .standard none [.invalidate "f"] hanswer⟩
  exact (Extraction.map_heading_finish _ "f").trans hfound

/-- A tool that tells of a class without saying where it ends. -/
def shapeTool : TagTool :=
  ⟨some "Universal Ctags 6.1.0", some "Python\n", fun _ _ => some (Tag.shapeLine ++ "\n")⟩

def shapeRequest : ParseRequest := ⟨"f", "a.py", bytesOfText "class Shape: pass\n", .python⟩

def shapeSymbol : Symbol := Tag.shapeTag.toSymbol (glyphLines (glyphsOfBytes shapeRequest.content)).toArray

theorem runChain_shape : runChain .standard (some shapeTool) true .python shapeRequest.content =
    (.tags, ⟨[shapeSymbol], []⟩) := by
  have henabled : enabled .standard (some shapeTool) .python .tags = true := by
    decide +kernel
  have hread : Tag.reportLines (bytesOfText (Tag.shapeLine ++ "\n")) = [bytesOfText Tag.shapeLine] := by
    decide +kernel
  have htext : textOfGlyphs (glyphsOfBytes (bytesOfText Tag.shapeLine)) = Tag.shapeLine := by
    decide +kernel
  have hline : Tag.ofLine? (bytesOfText Tag.shapeLine) = some Tag.shapeTag := by
    rw [Tag.ofLine?, htext, Tag.shapeLine_read]
    rfl
  have hreport : attempt (some shapeTool) true .python shapeRequest.content
      (glyphsOfBytes shapeRequest.content) .tags = some ⟨[shapeSymbol], []⟩ := by
    rw [attempt, if_pos rfl]
    simp [shapeTool, Tag.symbolsOf, Tag.symbolsOfBytes, hread, hline, shapeSymbol]
  have hfirst : Strategy.first .python = .tags := by
    decide +kernel
  rw [runChain, hfirst]
  simp [Strategy.chain, henabled, hreport]

/-- The class ends at the beginning of its line, and so before its start. -/
theorem shape_ends_before_start : ∃ result,
    ((Parser.new .standard (some shapeTool)).parse true shapeRequest).1 = .ok (result, false) ∧
      ∃ s ∈ result.found.symbols,
        s.first = ⟨1, 6⟩ ∧ s.last = ⟨1, 0⟩ ∧ s.contains s.first = false := by
  have hplace : shapeSymbol.first = ⟨1, 6⟩ ∧ shapeSymbol.last = ⟨1, 0⟩ := by
    decide +kernel
  have houtside : shapeSymbol.contains shapeSymbol.first = false := by
    rw [Symbol.contains, hplace.1, hplace.2]
    rfl
  have hsame (space : Uuid) (file : String) (s : Symbol) :
      (finishSymbol space file s).first = s.first ∧ (finishSymbol space file s).last = s.last ∧
        (finishSymbol space file s).contains s.first = s.contains s.first := by
    simp only [finishSymbol, Symbol.contains, and_self]
  obtain ⟨hfirst, hlast, hcontains⟩ := hsame (fileSpace "f") "f" shapeSymbol
  refine ⟨_, parse_new_eq (by decide +kernel) runChain_shape, finishSymbol (fileSpace "f") "f" shapeSymbol,
    .head _, hfirst.trans hplace.1, hlast.trans hplace.2, ?_⟩
  rw [hfirst]
  exact hcontains.trans houtside

end Parser

end CodeAtlas
