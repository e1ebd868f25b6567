import CodeAtlas.Index.Fault
import CodeAtlas.Index.TokenTable
import CodeAtlas.Number
import CodeAtlas.Query.Expression
import Std.Data.HashSet

/-!
Tokens and phrases.  Texts are cut into tokens: runs of letters and digits without regard to case and
accents.  The words of a query are phrases of tokens; a row is found if each of them occurs, and ranked
by how often they occur and how rare they are.
-/

namespace CodeAtlas

def isTokenChar (c : Char) : Bool :=
  if isAscii c then c.isAlphanum else !TokenTable.gap.inRanges c.toNat

def isAccent (c : Char) : Bool :=
  if 768 ≤ c.toNat && c.toNat < 800 then (0x08029FDF >>> (c.toNat - 768)) % 2 == 1
  else if 800 ≤ c.toNat && c.toNat ≤ 817 then (0x000361F8 >>> (c.toNat - 800)) % 2 == 1
  else false

def foldChar (c : Char) : Char :=
  if isAscii c then c.toLower else Char.ofNat (TokenTable.fold.image c.toNat)

/-- The tokens found so far and the one that is being read. -/
structure TokenState where
  done : Array String
  current : String

def TokenState.push (s : TokenState) (c : Char) : TokenState :=
  if isTokenChar c then { s with current := s.current.push (foldChar c) }
  else if s.current == "" || isAccent c then s
  else ⟨s.done.push s.current, ""⟩

def tokens (text : String) : List String :=
  let s := text.toList.foldl TokenState.push ⟨#[], ""⟩
  (if s.current == "" then s.done else s.done.push s.current).toList

/-- The tokens of a column, place by place: normally one at each. -/
abbrev TokenColumn := List (List String)

/-- Tokens that have to follow each other; the last one of an open phrase may go on. -/
structure Phrase where
  tokens : List String
  isOpen : Bool
  deriving DecidableEq, Repr, Inhabited

namespace Phrase

def ofWord (w : QueryWord) : Phrase := ⟨CodeAtlas.tokens w.text, w.isOpen⟩

/-- The phrases of an expression; words without tokens do not count. -/
def ofExpression (expression : String) : List Phrase :=
  (((Expression.read? expression).getD []).map ofWord).filter (!·.tokens.isEmpty)

def startsHere (isOpen : Bool) : List String → TokenColumn → Bool
  | [], _ => true
  | _ :: _, [] => false
  | [t], place :: _ => if isOpen then place.any (hasPrefix t) else place.contains t
  | t :: more, place :: rest => place.contains t && startsHere isOpen more rest

/-- How often the phrase occurs, added to `seen`. -/
def countFrom (p : Phrase) (seen : Nat) : TokenColumn → Nat
  | [] => seen
  | t :: rest => p.countFrom (if startsHere p.isOpen p.tokens (t :: rest) then seen + 1 else seen) rest

def count (p : Phrase) (column : TokenColumn) : Nat := p.countFrom 0 column

def isIn (p : Phrase) (columns : List TokenColumn) : Bool := columns.any fun c => p.count c > 0

end Phrase

/-- How rarely a phrase is found: `found` of `total` rows have it. -/
def rarity (total found : Nat) : Float :=
  let r := Float.log ((total.toFloat - found.toFloat + 0.5) / (found.toFloat + 0.5))
  if r ≤ 0 then 1e-6 else r

/-- The share of a phrase in the score of a row, from how often it occurs there, how rare it is, and
the length of the row in relation to the average. -/
def phraseScore (rarity often length average : Float) : Float :=
  rarity * ((often * 2.2) / (often + 1.2 * (1 - 0.75 + 0.75 * length / average)))

end CodeAtlas

/-!
A text index follows the rows of a table.  It is told the texts of each row that comes, and told them
again when the row goes; it never looks at the table itself.  Who tells it other texts than before
leaves tokens behind, and figures that are wrong.
-/

namespace CodeAtlas

/-- What is known of a row: its tokens and how many each column had. -/
structure TextEntry where
  columns : List TokenColumn
  sizes : List Nat
  deriving DecidableEq, Repr, Inhabited

namespace TextEntry

def without (gone : List String) (columns : List TokenColumn) : List TokenColumn :=
  let gone := Std.HashSet.ofList gone
  columns.map fun column => column.map fun place => place.filter (!gone.contains ·)

/-- Tokens on top of what stands at the same places. -/
def layColumn : List String → TokenColumn → TokenColumn
  | [], rest => rest
  | t :: more, [] => [t] :: layColumn more []
  | t :: more, place :: rest => (t :: place) :: layColumn more rest

def lay : List (List String) → List TokenColumn → List TokenColumn
  | [], rest => rest
  | c :: more, [] => layColumn c [] :: lay more []
  | c :: more, column :: rest => layColumn c column :: lay more rest

/-- An entry for the tokens of columns, which replace what was left of the same tokens. -/
def ofTokens (found : List (List String)) (left : List TokenColumn) : TextEntry :=
  ⟨if left.isEmpty then found.map fun column => column.map ([·])
    else lay found (without found.flatten left), found.map List.length⟩

def size (e : TextEntry) : Nat := total e.sizes

end TextEntry

/-- The figures of a text index: how many tokens each column has in all rows, how many rows there are,
and what was left behind by rows that are gone. -/
structure TextIndex where
  totals : List Nat
  count : Nat
  remains : List (List TokenColumn)
  deriving DecidableEq, Repr, Inhabited

namespace TextIndex

def empty (width : Nat) : TextIndex := ⟨List.replicate width 0, 0, []⟩

/-- Takes in the texts of a row, of which something may have been left. -/
def add (ix : TextIndex) (left : List TokenColumn) (texts : List String) : TextIndex × TextEntry :=
  let entry := TextEntry.ofTokens (texts.map tokens) left
  ({ ix with totals := (ix.totals.zip entry.sizes).map fun (n, k) => n + k, count := ix.count + 1 },
    entry)

/-- Takes out the texts of a row and says what is left of it.  No column can lose more tokens than all
rows together have. -/
def remove (ix : TextIndex) (entry : Option TextEntry) (texts : List String) :
    Except Cause (TextIndex × List TokenColumn) :=
  let found := texts.map tokens
  let sizes := found.map List.length
  if (ix.totals.zip sizes).any (fun (n, k) => n < k) || ix.count == 0 then .error .unsound
  else .ok
    ({ ix with totals := (ix.totals.zip sizes).map fun (n, k) => n - k, count := ix.count - 1 },
      match entry with
      | some e => TextEntry.without found.flatten e.columns
      | none => [])

/-- Keeps what is left of a row that is gone. -/
def keep (ix : TextIndex) (left : List TokenColumn) : TextIndex :=
  if left.all (·.all List.isEmpty) then ix else { ix with remains := left :: ix.remains }

def drop (ix : TextIndex) (entry : Option TextEntry) (texts : List String) :
    Except Cause TextIndex := do
  let (ix, left) ← ix.remove entry texts
  return ix.keep left

def change (ix : TextIndex) (entry : Option TextEntry) (old new : List String) :
    Except Cause (TextIndex × TextEntry) := do
  let (ix, left) ← ix.remove entry old
  return ix.add left new

def addAll (ix : TextIndex) (rows : List (List String)) : TextIndex × List TextEntry :=
  rows.foldr (fun texts (ix, entries) =>
    let (ix, entry) := ix.add [] texts
    (ix, entry :: entries)) (ix, [])

/-- Rows with all phrases, each with its score; better ones have lower scores.  The weights are those
of the columns. -/
def search {α : Type} (ix : TextIndex) (weights : List Float) (phrases : List Phrase)
    (rows : List (α × TextEntry)) : List (α × Float) :=
  if phrases.isEmpty then []
  else
    let average := (total ix.totals).toFloat / ix.count.toFloat
    let ranked := phrases.map fun p =>
      (p, rarity ix.count (rows.countP (p.isIn ·.2.columns) + ix.remains.countP p.isIn))
    (rows.filter fun (_, e) => phrases.all (·.isIn e.columns)).map fun (row, e) =>
      let score := ranked.foldl (fun score (p, rarity) =>
        let often := (weights.zip (e.columns.map p.count)).foldl (fun n (w, k) => n + w * k.toFloat) 0
        score + phraseScore rarity often e.size.toFloat average) 0
      (row, -1 * score)

end TextIndex

end CodeAtlas
