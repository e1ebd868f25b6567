import CodeAtlas.Model.Symbol
import CodeAtlas.Text.Glyph

/-!
From byte offsets to lines and columns, with the directives that rename lines.
-/

namespace CodeAtlas.Source

/-- A directive: from `offset` on, lines count from `line`, and columns from `column` if it is given. -/
structure LineInfo where
  offset : Nat
  line : Int
  column : Int
  deriving DecidableEq, Repr, Inhabited

/-- The offsets at which lines start and the directives, both in ascending order, for a text of `size`
bytes. -/
structure LineTable where
  starts : Array Nat
  size : Nat
  infos : Array LineInfo
  deriving Repr, Inhabited

namespace LineTable

/-- The starts of the lines of a text; a line end that is the last byte starts no line. -/
def ofGlyphs (glyphs : List Glyph) : LineTable :=
  let step (state : Array Nat × Nat) (g : Glyph) : Array Nat × Nat :=
    let next := state.2 + g.width
    (if g.char == '\n' then state.1.push next else state.1, next)
  let (starts, size) := glyphs.foldl step (#[0], 0)
  ⟨starts.filter (fun s => s == 0 || s < size), size, #[]⟩

/-- The index of the last element with `key ≤ offset`, among those from `lo` to `hi - 1`. -/
def lastAtMost {α : Type} [Inhabited α] (key : α → Nat) (xs : Array α) (offset lo hi : Nat) :
    Option Nat :=
  if lo < hi then
    let mid := (lo + hi) / 2
    if key (xs[mid]?.getD default) ≤ offset then
      (lastAtMost key xs offset (mid + 1) hi).or (some mid)
    else
      lastAtMost key xs offset lo mid
  else
    none
termination_by hi - lo

def lineIndex (table : LineTable) (offset : Nat) : Nat :=
  (lastAtMost id table.starts offset 0 table.starts.size).getD 0

/-- Line and column of an offset, both counted from one; a column of zero is unknown. -/
def locate (table : LineTable) (offset : Nat) : Int × Int :=
  let i := table.lineIndex offset
  let line : Int := i + 1
  let column : Int := offset - (table.starts[i]?.getD 0) + 1
  match lastAtMost LineInfo.offset table.infos offset 0 table.infos.size with
  | none => (line, column)
  | some k =>
      let info := table.infos[k]?.getD default
      let distance : Int := line - (table.lineIndex info.offset + 1)
      let column :=
        if info.column == 0 then 0
        else if distance == 0 then info.column + (offset - info.offset)
        else column
      (info.line + distance, column)

/-- The line of an offset, one past the end taken for the end. -/
def lineAt (table : LineTable) (offset : Nat) : Int :=
  (table.locate (min offset table.size)).1

/-- The place of an offset; an offset past the end has no line. -/
def position (table : LineTable) (offset : Nat) : Position :=
  if offset ≤ table.size then
    let (line, column) := table.locate offset
    ⟨line, column - 1⟩
  else
    ⟨0, -1⟩

/-- Records a directive, unless it lies at the end of the text or not after the last one. -/
def addInfo (table : LineTable) (info : LineInfo) : LineTable :=
  let after := match table.infos.back? with
    | some last => last.offset < info.offset
    | none => true
  if after && info.offset < table.size then
    { table with infos := table.infos.push info }
  else
    table

end LineTable

end CodeAtlas.Source
