import CodeAtlas.Extract.TagStream
import CodeAtlas.Proofs.Text.Words
import Mathlib

/-!
# What a tag report says

Every line of a report stands for itself. One that is an object whose known members have values of their types
says something of a tag: of the values under one name that are not null the last one counts, and names that
differ by case alone are the same. A tag with a name and a line gives a symbol, unless it has roles and none of
them mentions a definition.
-/

namespace CodeAtlas.Tag

def textNames : List String := ["_type", "name", "kind", "scope", "signature", "roles"]

def numberNames : List String := ["line", "end"]

def wholeValue? : Json → Option Int
  | .number literal => intValue? literal
  | _ => none

/-- Whether a member may stand in a tag: a known one has a value of its type, or null. -/
def fits (m : String × Json) : Bool :=
  m.2.isNull || (textNames.all (fun name => !sameKey m.1 name || m.2.asString?.isSome) &&
    numberNames.all fun name => !sameKey m.1 name || (wholeValue? m.2).isSome)

/-- What a member says under a name. -/
def saidUnder {α : Type} (read : Json → Option α) (name : String) (m : String × Json) : Option α :=
  if sameKey m.1 name then read m.2 else none

/-- What is said last under a name. -/
def lastSaid {α : Type} (read : Json → Option α) (name : String) (members : List (String × Json)) : Option α :=
  (members.filterMap (saidUnder read name)).getLast?

def lastText (name : String) (members : List (String × Json)) : String :=
  (lastSaid Json.asString? name members).getD ""

def lastNumber (name : String) (members : List (String × Json)) : Int :=
  (lastSaid wholeValue? name members).getD 0

/-- The members of an object say this of a tag. -/
structure Says (members : List (String × Json)) (tag : Tag) : Prop where
  fits : ∀ m ∈ members, fits m = true
  type : tag.type = lastText "_type" members
  name : tag.name = lastText "name" members
  kind : tag.kind = lastText "kind" members
  line : tag.line = lastNumber "line" members
  stop : tag.stop = lastNumber "end" members
  scope : tag.scope = lastText "scope" members
  signature : tag.signature = lastText "signature" members
  roles : tag.roles = lastText "roles" members

/-- A tag after one more member has been heard. -/
def hear (tag : Tag) (m : String × Json) : Tag where
  type := (saidUnder Json.asString? "_type" m).getD tag.type
  name := (saidUnder Json.asString? "name" m).getD tag.name
  kind := (saidUnder Json.asString? "kind" m).getD tag.kind
  line := (saidUnder wholeValue? "line" m).getD tag.line
  stop := (saidUnder wholeValue? "end" m).getD tag.stop
  scope := (saidUnder Json.asString? "scope" m).getD tag.scope
  signature := (saidUnder Json.asString? "signature" m).getD tag.signature
  roles := (saidUnder Json.asString? "roles" m).getD tag.roles

variable {tag : Tag} {members : List (String × Json)}

/-! ## Members -/

@[simp] theorem sameKey_self (key : String) : sameKey key key = true := beq_self_eq_true _

/-- The known names stay different without their case. -/
theorem known_apart : ∀ name ∈ textNames ++ numberNames, ∀ other ∈ textNames ++ numberNames, name ≠ other →
    sameKey name other = false := by
  decide +kernel

theorem sameKey_eq_false {key name : String} (hname : name ∈ textNames ++ numberNames)
    (hsame : sameKey key name = true) :
    ∀ other ∈ textNames ++ numberNames, name ≠ other → sameKey key other = false := by
  intro other hother hne
  have hapart := known_apart name hname other hother hne
  simp only [sameKey, beq_iff_eq, beq_eq_false_iff_ne] at hsame hapart ⊢
  rwa [hsame]

/-- A member is heard if it fits. -/
theorem withMember?_eq (tag : Tag) (m : String × Json) :
    tag.withMember? m.1 m.2 = if fits m = true then some (tag.hear m) else none := by
  obtain ⟨key, value⟩ := m
  -- under a known name, the other names are told apart; then it is seen what the value is
  have hknown (name : String) (hname : name ∈ textNames ++ numberNames) (hsame : sameKey key name = true) :
      tag.withMember? key value = if fits (key, value) = true then some (tag.hear (key, value)) else none := by
    have hothers := sameKey_eq_false hname hsame
    simp only [textNames, numberNames, List.cons_append, List.nil_append, List.mem_cons, List.not_mem_nil,
      or_false] at hname
    rcases hname with rfl | rfl | rfl | rfl | rfl | rfl | rfl | rfl <;>
      simp [textNames, numberNames] at hothers <;>
      simp only [withMember?, fits, hear, saidUnder, textNames, numberNames, List.all_cons, List.all_nil, hsame,
        hothers] <;>
      cases value <;> simp [textValue?, numberValue?, wholeValue?, Json.isNull, Json.asString?]
    all_goals
      rename_i literal
      cases intValue? literal <;> simp
  by_cases hsome : ∃ name ∈ textNames ++ numberNames, sameKey key name = true
  · obtain ⟨name, hname, hsame⟩ := hsome
    exact hknown name hname hsame
  · simp [textNames, numberNames] at hsome
    simp [withMember?, fits, hear, saidUnder, textNames, numberNames, hsome]

theorem foldl_none (members : List (String × Json)) :
    members.foldl (fun (tag : Option Tag) m => tag.bind fun t => t.withMember? m.1 m.2) none = none := by
  induction members with
  | nil => rfl
  | cons m members ih => exact ih

theorem foldl_withMember? (tag : Tag) (members : List (String × Json)) :
    members.foldl (fun tag m => tag.bind fun t => t.withMember? m.1 m.2) (some tag) =
      if members.all fits = true then some (members.foldl hear tag) else none := by
  induction members generalizing tag with
  | nil => rfl
  | cons m members ih =>
      rw [List.foldl_cons, List.foldl_cons, Option.bind_some, withMember?_eq, List.all_cons]
      cases fits m with
      | true =>
          rw [if_pos rfl, Bool.true_and]
          exact ih (tag.hear m)
      | false =>
          rw [if_neg Bool.false_ne_true, Bool.false_and, if_neg Bool.false_ne_true]
          exact foldl_none members

/-- A value that is replaced now and then is the last replacement in the end. -/
theorem foldl_getD {α β : Type} (f : α → Option β) (old : β) (xs : List α) :
    xs.foldl (fun old x => (f x).getD old) old = (xs.filterMap f).getLast?.getD old := by
  induction xs generalizing old with
  | nil => rfl
  | cons x xs ih =>
      rw [List.foldl_cons, ih, List.filterMap_cons]
      cases f x with
      | none => rfl
      | some new => cases h : (xs.filterMap f).getLast? <;> simp [List.getLast?_cons, h]

theorem foldl_hear (tag : Tag) (members : List (String × Json)) : members.foldl hear tag =
    { type := (lastSaid Json.asString? "_type" members).getD tag.type
      name := (lastSaid Json.asString? "name" members).getD tag.name
      kind := (lastSaid Json.asString? "kind" members).getD tag.kind
      line := (lastSaid wholeValue? "line" members).getD tag.line
      stop := (lastSaid wholeValue? "end" members).getD tag.stop
      scope := (lastSaid Json.asString? "scope" members).getD tag.scope
      signature := (lastSaid Json.asString? "signature" members).getD tag.signature
      roles := (lastSaid Json.asString? "roles" members).getD tag.roles } := by
  simp only [lastSaid, ← foldl_getD]
  induction members generalizing tag with
  | nil => rfl
  | cons m members ih => exact ih (tag.hear m)

theorem ofJson?_eq_some_iff : ofJson? (.object members) = some tag ↔ Says members tag := by
  rw [ofJson?, foldl_withMember?, Option.ite_none_right_eq_some, List.all_eq_true, foldl_hear]
  constructor
  · rintro ⟨hfits, htag⟩
    rw [← Option.some.inj htag]
    exact ⟨hfits, rfl, rfl, rfl, rfl, rfl, rfl, rfl, rfl⟩
  · rintro ⟨hfits, htype, hname, hkind, hline, hstop, hscope, hsignature, hroles⟩
    refine ⟨hfits, congrArg some ?_⟩
    obtain ⟨type, name, kind, line, stop, scope, signature, roles⟩ := tag
    subst htype hname hkind hline hstop hscope hsignature hroles
    rfl

/-! ## Lines -/

/-- A line is an object that says of a tag that it has a name and a line. -/
def Reports (line : List UInt8) (tag : Tag) : Prop :=
  ∃ members, Json.parse? (textOfGlyphs (glyphsOfBytes line)) = some (.object members) ∧ Says members tag ∧
    tag.type = "tag" ∧ tag.name ≠ "" ∧ 0 < tag.line

/-- A tag without roles, or with the role of a definition. -/
def HasRoleDef (tag : Tag) : Prop := tag.roles = "" ∨ "def" ∈ splitText ',' tag.roles

/-- A tag without roles, or with a definition mentioned somewhere in them. -/
def MentionsDef (tag : Tag) : Prop := tag.roles = "" ∨ "def".toList <:+: tag.roles.toList

/-- These are, in order, the tags that are kept of those that the lines report, one for a line. -/
inductive Reads (kept : Tag → Prop) : List (List UInt8) → List Tag → Prop where
  | done : Reads kept [] []
  | found {line : List UInt8} {tag : Tag} {lines : List (List UInt8)} {tags : List Tag}
      (hreports : Reports line tag) (hkept : kept tag) (hrest : Reads kept lines tags) :
      Reads kept (line :: lines) (tag :: tags)
  | passed {line : List UInt8} {lines : List (List UInt8)} {tags : List Tag}
      (hnone : ∀ tag, Reports line tag → ¬kept tag) (hrest : Reads kept lines tags) :
      Reads kept (line :: lines) tags

/-- What a symbol takes over from a tag. -/
structure Describes (tag : Tag) (s : Symbol) : Prop where
  name : s.name = tag.name
  line : s.first.line = tag.line
  stop : s.first.line ≤ s.last.line
  scope : s.scope = "::".intercalate (splitText '.' tag.scope)

theorem exists_says_iff {line : List UInt8} :
    (∃ members, Json.parse? (textOfGlyphs (glyphsOfBytes line)) = some (.object members) ∧ Says members tag) ↔
      (Json.parse? (textOfGlyphs (glyphsOfBytes line))).bind ofJson? = some tag := by
  rw [Option.bind_eq_some_iff]
  constructor
  · rintro ⟨members, hparse, hsays⟩
    exact ⟨_, hparse, ofJson?_eq_some_iff.mpr hsays⟩
  · rintro ⟨value, hparse, htag⟩
    cases value with
    | object members => exact ⟨members, hparse, ofJson?_eq_some_iff.mp htag⟩
    | _ => cases htag

theorem reports_iff {line : List UInt8} : Reports line tag ↔
    (Json.parse? (textOfGlyphs (glyphsOfBytes line))).bind ofJson? = some tag ∧
      tag.type = "tag" ∧ tag.name ≠ "" ∧ 0 < tag.line := by
  simp only [← exists_says_iff, Reports, ← exists_and_right, and_assoc]

theorem ofLine?_eq_some_iff {line : List UInt8} : ofLine? line = some tag ↔ Reports line tag ∧ MentionsDef tag := by
  have hdefinition : tag.isDefinition = true ↔
      (tag.type = "tag" ∧ tag.name ≠ "" ∧ 0 < tag.line) ∧ MentionsDef tag := by
    simp [isDefinition, MentionsDef, containsText_iff, and_assoc]
  simp only [ofLine?, Option.filter_eq_some_iff, hdefinition, reports_iff, and_assoc]

theorem reads_filterMap {kept : Tag → Prop} {lines : List (List UInt8)}
    (h : ∀ line ∈ lines, ∀ tag, ofLine? line = some tag ↔ Reports line tag ∧ kept tag) :
    Reads kept lines (lines.filterMap ofLine?) := by
  induction lines with
  | nil => exact .done
  | cons line lines ih =>
      have hrest := ih fun other hother => h other (List.mem_cons_of_mem line hother)
      have hline := h line List.mem_cons_self
      rw [List.filterMap_cons]
      cases hread : ofLine? line with
      | none =>
          refine .passed (fun tag hreports hkept => ?_) hrest
          have hsome := (hline tag).mpr ⟨hreports, hkept⟩
          rw [hread] at hsome
          cases hsome
      | some tag =>
          obtain ⟨hreports, hkept⟩ := (hline tag).mp hread
          exact .found hreports hkept hrest

theorem describes_toSymbol (source : Array (List Glyph)) (tag : Tag) : Describes tag (tag.toSymbol source) where
  name := rfl
  line := rfl
  stop := Int.le_max_right tag.stop tag.line
  scope := replaceText_singleton '.' "::" tag.scope

/-! ## The lines of a report -/

/-- The lines of a report, without their ends. -/
def allLines (report : List UInt8) : List (List UInt8) := (rawLines report).map dropReturn

theorem flatMap_append_eq_intercalate (parts : List (List UInt8)) (last : List UInt8) :
    parts.flatMap (· ++ [10]) ++ last = [10].intercalate (parts ++ [last]) := by
  induction parts with
  | nil => simp
  | cons part parts ih =>
      obtain ⟨next, others, hnext⟩ : ∃ next others, parts ++ [last] = next :: others :=
        List.exists_cons_of_ne_nil (by simp)
      rw [hnext] at ih
      rw [List.flatMap_cons, List.cons_append, hnext, List.intercalate_cons_cons, ← ih, List.append_assoc]

/-- The lines are what stands between line feeds, the last one with or without one at its end. -/
theorem rawLines_spec (report : List UInt8) : (∀ raw ∈ rawLines report, 10 ∉ raw) ∧
    ((rawLines report).flatMap (· ++ [10]) = report ∨ (rawLines report).flatMap (· ++ [10]) = report ++ [10]) := by
  have hall : splitOn (· == 10) report = report.splitOn 10 := splitOn_eq_splitOnP _ _
  have hjoin : [10].intercalate (report.splitOn 10) = report := List.intercalate_splitOn 10
  have hfree : ∀ raw ∈ report.splitOn 10, (10 : UInt8) ∉ raw := by
    intro raw hraw hmem
    have hnot := not_of_mem_splitOnP hraw hmem
    simp at hnot
  obtain ⟨front, last, hlast⟩ : ∃ front last, report.splitOn 10 = front ++ [last] :=
    ⟨_, _, (List.dropLast_append_getLast (List.splitOn_ne_nil 10 report)).symm⟩
  rw [hlast, ← flatMap_append_eq_intercalate] at hjoin
  rw [hlast] at hfree
  unfold rawLines
  simp only [hall, hlast, List.getLast?_concat, List.dropLast_concat]
  by_cases hempty : last = []
  · subst hempty
    simp only [beq_self_eq_true, if_true]
    refine ⟨fun raw hraw => hfree raw (List.mem_append_left _ hraw), .inl ?_⟩
    simpa using hjoin
  · have hsome : (some last == some []) = false := by simpa using hempty
    simp only [hsome, Bool.false_eq_true, if_false]
    refine ⟨hfree, .inr ?_⟩
    rw [List.flatMap_append, List.flatMap_singleton, ← List.append_assoc, hjoin]

/-- Nothing is read from the first line on that is too long. -/
theorem reportLines_eq (report : List UInt8) : ∃ read unread, rawLines report = read ++ unread ∧
    reportLines report = read.map dropReturn ∧ (∀ raw ∈ read, raw.length ≤ maxLineLength) ∧
    ∀ raw ∈ unread.head?, maxLineLength < raw.length := by
  refine ⟨_, _, List.takeWhile_append_dropWhile.symm, rfl, fun raw hraw => ?_, fun raw hraw => ?_⟩
  · simpa using List.all_eq_true.mp List.all_takeWhile raw hraw
  · have hnot := List.head?_dropWhile_not (fun raw : List UInt8 => decide (raw.length ≤ maxLineLength)) (rawLines report)
    rw [hraw] at hnot
    simpa using hnot

theorem reportLines_eq_allLines {report : List UInt8} (h : ∀ raw ∈ rawLines report, raw.length ≤ maxLineLength) :
    reportLines report = allLines report := by
  obtain ⟨read, unread, hsplit, hread, -, htoo⟩ := reportLines_eq report
  cases unread with
  | nil => rw [hread, allLines, hsplit, List.append_nil]
  | cons raw unread =>
      have hlong := htoo raw rfl
      have hshort := h raw (by simp [hsplit])
      omega

/-- No role but that of a definition has its name in it. -/
def RolesClear (tag : Tag) : Prop :=
  ∀ role ∈ splitText ',' tag.roles, "def".toList <:+: role.toList → role = "def"

theorem RolesClear.mentionsDef_iff (h : RolesClear tag) : MentionsDef tag ↔ HasRoleDef tag := by
  have hwithin : "def".toList <:+: tag.roles.toList ↔
      ∃ role ∈ splitText ',' tag.roles, "def".toList <:+: role.toList := by
    rw [infix_iff_exists_mem_splitOn (c := ',') (by decide) (by decide), splitText_eq]
    simp
  rw [MentionsDef, HasRoleDef, hwithin]
  refine or_congr_right ⟨?_, fun hrole => ⟨"def", hrole, List.infix_refl _⟩⟩
  rintro ⟨role, hrole, hmentions⟩
  exact h role hrole hmentions ▸ hrole

theorem describes_symbols {report : List UInt8} (source : Array (List Glyph)) {lines : List (List UInt8)}
    (hlines : reportLines report = lines) :
    List.Forall₂ Describes (lines.filterMap ofLine?) (symbolsOfBytes report source) := by
  rw [symbolsOfBytes, hlines, List.forall₂_map_right_iff, List.forall₂_same]
  exact fun tag _ => describes_toSymbol source tag

/-- The lines up to the first one that is too long are read one by one. Each gives one symbol if it reports a tag
without roles or with a definition mentioned in them, and nothing otherwise. If no line is too long and no other
role mentions a definition, these are the tags of all lines that have no roles or the role of a definition. -/
theorem lines_give_symbols (report : List UInt8) (source : Array (List Glyph)) :
    (∀ raw ∈ rawLines report, 10 ∉ raw) ∧
    ((rawLines report).flatMap (· ++ [10]) = report ∨ (rawLines report).flatMap (· ++ [10]) = report ++ [10]) ∧
    (∃ read unread tags, rawLines report = read ++ unread ∧ (∀ raw ∈ read, raw.length ≤ maxLineLength) ∧
      (∀ raw ∈ unread.head?, maxLineLength < raw.length) ∧ Reads MentionsDef (read.map dropReturn) tags ∧
      List.Forall₂ Describes tags (symbolsOfBytes report source)) ∧
    ((∀ raw ∈ rawLines report, raw.length ≤ maxLineLength) →
      (∀ line ∈ allLines report, ∀ tag, Reports line tag → RolesClear tag) →
      ∃ tags, Reads HasRoleDef (allLines report) tags ∧
        List.Forall₂ Describes tags (symbolsOfBytes report source)) := by
  obtain ⟨hfree, hjoined⟩ := rawLines_spec report
  refine ⟨hfree, hjoined, ?_, fun hshort hclear => ?_⟩
  · obtain ⟨read, unread, hsplit, hread, hshort, hlong⟩ := reportLines_eq report
    exact ⟨read, unread, _, hsplit, hshort, hlong, reads_filterMap fun line _ tag => ofLine?_eq_some_iff,
      describes_symbols source hread⟩
  · refine ⟨_, reads_filterMap fun line hline tag => ?_, describes_symbols source (reportLines_eq_allLines hshort)⟩
    rw [ofLine?_eq_some_iff]
    exact and_congr_right fun hreports => (hclear line hline tag hreports).mentionsDef_iff

/-- A tag as the tool usually writes it. -/
def written (name kind roles : String) : Json :=
  .object [("_type", .string "tag"), ("name", .string name), ("line", .number "1"), ("kind", .string kind),
    ("roles", .string roles)]

theorem ofJson?_written (name kind roles : String) :
    ofJson? (written name kind roles) = some ⟨"tag", name, kind, 1, 0, "", "", roles⟩ := by
  have hone : intValue? "1" = some 1 := by
    cbv
  have hapart := known_apart
  simp [textNames, numberNames] at hapart
  simp [ofJson?, written, withMember?, textValue?, numberValue?, hone, hapart, blank]

/-- A name that is no longer defined. -/
def undefLine : String :=
  "\x7b\"_type\": \"tag\", \"name\": \"LIMIT\", \"line\": 1, \"kind\": \"macro\", \"roles\": \"undef\"\x7d"

def undefTag : Tag := ⟨"tag", "LIMIT", "macro", 1, 0, "", "", "undef"⟩

set_option maxRecDepth 20000 in
theorem undefLine_read : (Json.parse? undefLine).bind ofJson? = some undefTag := by
  have hparse : Json.parse? undefLine = some (written "LIMIT" "macro" "undef") := by
    cbv
  rw [hparse, Option.bind_some, ofJson?_written, undefTag]

/-- The role is not that of a definition, but its name mentions one. -/
theorem undef_gives_symbol :
    (symbolsOfBytes (bytesOfText (undefLine ++ "\n")) #[]).map (·.name) = ["LIMIT"] ∧
      ¬∃ tags, Reads HasRoleDef (allLines (bytesOfText (undefLine ++ "\n"))) tags ∧
        List.Forall₂ Describes tags (symbolsOfBytes (bytesOfText (undefLine ++ "\n")) #[]) := by
  have hraw : rawLines (bytesOfText (undefLine ++ "\n")) = [bytesOfText undefLine] := by
    decide +kernel
  have hall : allLines (bytesOfText (undefLine ++ "\n")) = [bytesOfText undefLine] := by
    rw [allLines, hraw]
    decide +kernel
  have hread : reportLines (bytesOfText (undefLine ++ "\n")) = [bytesOfText undefLine] := by
    rw [reportLines_eq_allLines (by rw [hraw]; decide +kernel), hall]
  have htext : textOfGlyphs (glyphsOfBytes (bytesOfText undefLine)) = undefLine := by
    decide +kernel
  have honly (tag : Tag) (hreports : Reports (bytesOfText undefLine) tag) : tag = undefTag := by
    have hsome := (reports_iff.mp hreports).1
    rw [htext, undefLine_read] at hsome
    exact (Option.some.inj hsome).symm
  have hgives : ofLine? (bytesOfText undefLine) = some undefTag := by
    refine ofLine?_eq_some_iff.mpr ⟨reports_iff.mpr ⟨?_, rfl, by decide, by decide⟩, .inr (by decide)⟩
    rw [htext, undefLine_read]
  have hnames : (symbolsOfBytes (bytesOfText (undefLine ++ "\n")) #[]).map (·.name) = ["LIMIT"] := by
    rw [symbolsOfBytes, hread]
    simp [hgives, toSymbol, undefTag]
  refine ⟨hnames, ?_⟩
  rintro ⟨tags, htags, hdescribes⟩
  rw [hall] at htags
  have hnorole : ¬HasRoleDef undefTag := by
    unfold HasRoleDef
    decide +kernel
  cases htags with
  | found hreports hkept hrest => exact hnorole (honly _ hreports ▸ hkept)
  | passed hnone hrest =>
      cases hrest
      rw [List.forall₂_nil_left_iff.mp hdescribes] at hnames
      cases hnames

def shapeLine : String :=
  "\x7b\"_type\": \"tag\", \"name\": \"Shape\", \"line\": 1, \"kind\": \"class\", \"roles\": \"def\"\x7d"

def shapeTag : Tag := ⟨"tag", "Shape", "class", 1, 0, "", "", "def"⟩

set_option maxRecDepth 20000 in
theorem shapeLine_read : (Json.parse? shapeLine).bind ofJson? = some shapeTag := by
  have hparse : Json.parse? shapeLine = some (written "Shape" "class" "def") := by
    cbv
  rw [hparse, Option.bind_some, ofJson?_written, shapeTag]

/-- A line that is no object, and a class. -/
def shapeReport : List UInt8 := bytesOfText ("no object\n" ++ shapeLine ++ "\r\n")

theorem shape_gives_symbol : (∀ raw ∈ rawLines shapeReport, raw.length ≤ maxLineLength) ∧
    (∀ line ∈ allLines shapeReport, ∀ tag, Reports line tag → RolesClear tag) ∧
    ∃ tags, Reads HasRoleDef (allLines shapeReport) tags ∧
      List.Forall₂ Describes tags (symbolsOfBytes shapeReport #[]) := by
  have hraw : rawLines shapeReport = [bytesOfText "no object", bytesOfText (shapeLine ++ "\r")] := by
    decide +kernel
  have hshort : ∀ raw ∈ rawLines shapeReport, raw.length ≤ maxLineLength := by
    rw [hraw]
    decide +kernel
  have hall : allLines shapeReport = [bytesOfText "no object", bytesOfText shapeLine] := by
    rw [allLines, hraw]
    decide +kernel
  have hnoText : textOfGlyphs (glyphsOfBytes (bytesOfText "no object")) = "no object" := by
    decide +kernel
  have htext : textOfGlyphs (glyphsOfBytes (bytesOfText shapeLine)) = shapeLine := by
    decide +kernel
  have hno : Json.parse? "no object" = none := by
    cbv
  have hroles : RolesClear shapeTag := by
    unfold RolesClear
    decide +kernel
  have hclear : ∀ line ∈ allLines shapeReport, ∀ tag, Reports line tag → RolesClear tag := by
    rw [hall]
    simp only [List.mem_cons, List.not_mem_nil, or_false, reports_iff]
    rintro line (rfl | rfl) tag ⟨hread, -⟩
    · simp [hnoText, hno] at hread
    · rw [htext, shapeLine_read] at hread
      exact Option.some.inj hread ▸ hroles
  exact ⟨hshort, hclear, (lines_give_symbols shapeReport #[]).2.2.2 hshort hclear⟩

end CodeAtlas.Tag
