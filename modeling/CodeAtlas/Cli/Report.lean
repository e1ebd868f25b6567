import CodeAtlas.Engine.Run
import CodeAtlas.Graph.Analysis
import CodeAtlas.Graph.Basic
import CodeAtlas.Model.Instant
import CodeAtlas.Search.Searcher
import CodeAtlas.Text.Blank
import CodeAtlas.Text.Decimal

/-!
Texts in columns.  Tabs end the cells of a line; what follows the last tab is in no column.  The cells
of a column are as wide as the widest in neighbouring lines.
-/

namespace CodeAtlas

namespace Columns

def gap : Nat := 2

def hasColumn (column : Nat) (cells : List String) : Bool := column + 1 < cells.length

def cellWidth (column : Nat) (cells : List String) : Nat :=
  ((cells[column]?).map String.length).getD 0

/-- The width of a column in every line; neighbouring lines that have it share one. -/
def widths (column : Nat) : List (List String) → List Nat
  | [] => []
  | cells :: rest =>
      if hasColumn column cells then
        let run := cells :: rest.takeWhile (hasColumn column)
        let width := (run.map (cellWidth column)).foldl max 0 + gap
        List.replicate run.length width ++ widths column (rest.dropWhile (hasColumn column))
      else 0 :: widths column rest
termination_by lines => lines.length
decreasing_by
  · exact Nat.lt_succ_of_le (List.dropWhile_suffix _).length_le
  · exact Nat.lt_succ_self _

def renderLine (cells : List String) (widths : List Nat) : String :=
  String.join (cells.mapIdx fun i cell =>
    if hasColumn i cells then
      cell ++ String.ofList (List.replicate (widths.getD i 0 - cell.length) ' ')
    else cell)

/-- The cells of a line.  A vertical tab ends a cell as well. -/
def cellsOf (line : String) : List String :=
  splitText '\t' (line.map fun c => if c == '\x0b' then '\t' else c)

def renderBlock (lines : List String) : String :=
  let rows := lines.map cellsOf
  let count := (rows.map List.length).foldl max 0
  let table := (List.range count).map fun column => widths column rows
  String.join (rows.mapIdx fun i cells =>
    renderLine cells (table.map fun widths => widths.getD i 0) ++ "\n")

end Columns

/-- Lines whose cells end in tabs, with all columns aligned.  A form feed ends a line and all columns
with it. -/
def alignColumns (lines : List String) : String :=
  String.join ((splitText '\x0c' ("\n".intercalate lines)).map fun block =>
    Columns.renderBlock (splitText '\n' block))

end CodeAtlas

/-!
What human readers are told about the circumstances of a command: how long it took, how long ago
something was, and how large it is.
-/

namespace CodeAtlas

/-- The texts for the time a command took, the size of the index, how long ago something was, and what
the program runs on. -/
structure Circumstances where
  elapsed : String
  indexSize : String
  ago : Instant → String
  platform : String

namespace Circumstances

/-- Seconds with what is left in thousandths, without zeros at the end. -/
def secondsText (thousandths : Nat) : String :=
  let fraction := ((padLeft 3 '0' (toString (thousandths % 1000))).toList.reverse.dropWhile
    (· == '0')).reverse
  toString (thousandths / 1000) ++
    (if fraction.isEmpty then "" else "." ++ String.ofList fraction) ++ "s"

/-- A span of time, given in nanoseconds and told to the thousandth of a second. -/
def spanText (nanos : Nat) : String :=
  let thousandths := (nanos + 500000) / 1000000
  let minutes := thousandths / 60000
  if thousandths == 0 then "0s"
  else if thousandths < 1000 then s!"{thousandths}ms"
  else
    (if minutes ≥ 60 then s!"{minutes / 60}h" else "") ++
      (if minutes > 0 then s!"{minutes % 60}m" else "") ++ secondsText (thousandths % 60000)

def sizeUnits : List String := ["B", "kB", "MB", "GB", "TB", "PB", "EB"]

/-- A number of bytes in the largest unit that fits, to a tenth if it is below ten. -/
def sizeIn (bytes scale : Nat) : List String → String
  | [] => s!"{bytes} B"
  | unit :: larger =>
      if bytes < 10 then s!"{bytes} B"
      else if bytes ≥ scale * 1000 && !larger.isEmpty then sizeIn bytes (scale * 1000) larger
      else
        let tenths := (bytes * 10 + scale / 2) / scale
        if tenths < 100 then s!"{tenths / 10}.{tenths % 10} {unit}"
        else s!"{(tenths + 5) / 10} {unit}"

def sizeText (bytes : Nat) : String := sizeIn bytes 1 sizeUnits

def minute : Nat := 60

def hour : Nat := 60 * minute

def day : Nat := 24 * hour

def week : Nat := 7 * day

def month : Nat := 30 * day

def year : Nat := 12 * month

/-- Spans of time: up to which one a text is used, and the unit that it counts.  A unit of zero stands
for a text without a number. -/
def spans : List (Nat × String × Nat) :=
  [(2, "1 second", 0), (minute, " seconds", 1), (2 * minute, "1 minute", 0),
    (hour, " minutes", minute), (2 * hour, "1 hour", 0), (day, " hours", hour),
    (2 * day, "1 day", 0), (week, " days", day), (2 * week, "1 week", 0), (month, " weeks", week),
    (2 * month, "1 month", 0), (year, " months", month), (18 * month, "1 year", 0),
    (2 * year, "2 years", 0), (37 * year, " years", year)]

def agoText (now t : Instant) : String :=
  if t.isZero then "never"
  else
    let distance := now.seconds - t.seconds
    let side := if distance ≥ 0 then " ago" else " from now"
    let n := distance.natAbs
    if n < 1 then "now"
    else
      match spans.find? fun (bound, _, _) => n < bound with
      | some (_, text, 0) => text ++ side
      | some (_, text, unit) => toString (n / unit) ++ text ++ side
      | none => "a long while" ++ side

end Circumstances

/-!
Reports for human readers.
-/

structure GraphReport where
  projectId : String
  totalNodes : Nat
  totalEdges : Nat
  dropped : Nat
  cycles : List (List String)
  layers : List (List String)
  mostCoupled : List CouplingRow

structure SymbolReport where
  node : Node
  dependencies : List Edge
  dependents : List Edge

def GraphReport.of (projectId : String) (g : SymbolGraph) (top : Int) : GraphReport :=
  let a := g.analyze
  { projectId
    totalNodes := a.totalNodes
    totalEdges := a.totalEdges
    dropped := g.dropped
    cycles := a.cycles.map (·.map g.nameOf)
    layers := a.layers.map (·.map g.nameOf)
    mostCoupled := g.rankCoupling a.coupling top }

def SymbolReport.all (g : SymbolGraph) (name : String) : List SymbolReport :=
  (g.nodesNamed name).map fun n => ⟨n, g.dependencies n.symbolId, g.dependents n.symbolId⟩

namespace Report

def lines (texts : List String) : String := String.join (texts.map (· ++ "\n"))

/-- Digits, the last one first, with a comma after every third. -/
def grouped : List Char → List Char
  | a :: b :: c :: d :: rest => a :: b :: c :: ',' :: grouped (d :: rest)
  | digits => digits

def count (n : Int) : String :=
  (if n < 0 then "-" else "") ++
    String.ofList (grouped (toString n.natAbs).toList.reverse).reverse

def row (label : String) (n : Int) : String := label ++ "\t" ++ count n

def languages (counts : List (String × Nat)) : String :=
  if counts.isEmpty then ""
  else
    let sorted := counts.mergeSort fun a b => ((compare b.2 a.2).then (compare a.1 b.1)).isLE
    "languages:\n" ++ alignColumns (sorted.map fun (name, n) => s!"  {name}\t{n}")

def run (name : String) (r : RunFigures) (about : Circumstances) : String :=
  lines [s!"Indexed {name} in {about.elapsed}"] ++
    alignColumns [row "  files" r.files, row "  parsed" r.filesIndexed,
      row "  unchanged" r.filesUnchanged, row "  skipped" r.filesSkipped,
      row "  removed" r.filesRemoved, row "  failed" r.filesFailed, row "  lines" r.lines,
      row "  symbols" r.symbols, row "  references" r.references] ++
    languages r.languages ++ lines (r.errors.map ("  error: " ++ ·))

def figures (f : EngineFigures) (about : Circumstances) : String :=
  alignColumns [row "projects" f.projects, row "files" f.files, row "lines" f.lines,
    row "symbols" f.symbols, row "references" f.references, "index size\t" ++ about.indexSize,
    "last update\t" ++ about.ago f.lastUpdate] ++ languages f.languages

def projectLine (about : Circumstances) (p : Project) : String :=
  "\t".intercalate [p.id, p.name, p.rootPath,
    p.repositoryKind ++ (if p.branch == "" then "" else "@" ++ p.branch),
    if p.indexed then about.ago p.lastIndexed else "no"]

def projects (ps : List Project) (about : Circumstances) : String :=
  if ps.isEmpty then lines ["No projects registered. Use \"codeindex add <path>\" to register one."]
  else alignColumns ("ID\tNAME\tROOT\tREPOSITORY\tINDEXED" :: ps.map (projectLine about))

def registered (p : Project) : String :=
  lines [s!"Project {p.name} ({p.id}) registered at {p.rootPath}"]

def removed (p : Project) : String := lines [s!"Removed {p.name} ({p.id})"]

def hit (h : SearchHit) : String :=
  let score := fixedText 2 h.score
  lines (s!"{h.rank}. {h.path}:{h.line} ({h.language.name}, score {score})" ::
    (splitText '\n' h.snippet).map ("   " ++ ·))

def symbolLine (h : SymbolHit) : String :=
  "\t".intercalate [s!"{h.rank}.", h.symbol.kind.name, h.symbol.qualifiedName,
    s!"{h.path}:{h.symbol.first.line}", h.symbol.signature]

def referenceLine (h : ReferenceHit) : String :=
  let at_ := h.reference.location.first
  "\t".intercalate [s!"{h.rank}.", s!"{h.path}:{at_.line}:{at_.column}", h.symbol.qualifiedName,
    h.reference.context]

def found (r : SearchResponse) (about : Circumstances) : String :=
  if r.total == 0 then lines ["No results."]
  else
    match r.mode with
    | .symbol => alignColumns (r.symbols.map symbolLine)
    | .reference => alignColumns (r.references.map referenceLine)
    | _ => String.join (r.hits.map hit) ++ lines [s!"{r.total} results in {about.elapsed}"]

def couplingLine (r : CouplingRow) : String :=
  let instability := fixedText 2 (doubleOfRat r.coupling.instability)
  s!"  {r.name}\t{r.coupling.afferent}\t{r.coupling.efferent}\t{instability}"

def cycle (names : List String) : String :=
  "  " ++ " -> ".intercalate (names ++ names.take 1)

def graph (name : String) (r : GraphReport) : String :=
  let dropped := if r.dropped > 0 then s!" ({r.dropped} dangling dropped)" else ""
  lines ([s!"{name}: {r.totalNodes} symbols, {r.totalEdges} edges{dropped}",
      if r.cycles.isEmpty then "cycles: none" else s!"cycles: {r.cycles.length}"] ++
      r.cycles.map cycle ++ [s!"layers: {r.layers.length}"] ++
      r.layers.mapIdx fun i layer => s!"  {i}: {layer.length} symbols") ++
    if r.mostCoupled.isEmpty then ""
    else lines ["most coupled:"] ++
      alignColumns ("  SYMBOL\tIN\tOUT\tINSTABILITY" :: r.mostCoupled.map couplingLine)

def symbol (g : SymbolGraph) (r : SymbolReport) : String :=
  let n := r.node
  let f := n.figures
  lines ([s!"{n.kind.name} {n.fullName} (line {n.location.first.line}, fan-in {f.fanIn}, " ++
      s!"fan-out {f.fanOut}, complexity {f.complexity})",
      s!"  depends on ({r.dependencies.length}):"] ++
    r.dependencies.map (fun e => s!"    {e.kind.name} {g.nameOf e.target}") ++
    [s!"  used by ({r.dependents.length}):"] ++
    r.dependents.map fun e => s!"    {e.kind.name} {g.nameOf e.source}")

end Report

end CodeAtlas
