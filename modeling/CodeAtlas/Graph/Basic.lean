import CodeAtlas.Model.Symbol
import CodeAtlas.Number
import CodeAtlas.Uuid
import Std.Data.HashMap

/-!
Directed graphs of symbols.  Both ends of an edge are nodes of the graph; an edge that would have a
missing end is dropped and counted.
-/

namespace CodeAtlas

inductive EdgeKind where
  | calls
  | references
  | inherits
  | implements
  | contains
  | uses
  | imports
  | defines
  | overrides
  | instantiates
  | accesses
  | modifies
  | other (name : String)
  deriving DecidableEq, Repr, Inhabited

namespace EdgeKind

def all : List EdgeKind :=
  [calls, references, inherits, implements, contains, uses, imports, defines, overrides,
    instantiates, accesses, modifies]

def name : EdgeKind → String
  | calls => "calls"
  | references => "references"
  | inherits => "inherits"
  | implements => "implements"
  | contains => "contains"
  | uses => "uses"
  | imports => "imports"
  | defines => "defines"
  | overrides => "overrides"
  | instantiates => "instantiates"
  | accesses => "accesses"
  | modifies => "modifies"
  | other name => name

def ofName (name : String) : EdgeKind :=
  (all.find? (·.name == name)).getD (other name)

end EdgeKind

inductive Access where
  | unknown
  | read
  | write
  | readWrite
  | execute
  | other (name : String)
  deriving DecidableEq, Repr, Inhabited

namespace Access

def name : Access → String
  | unknown => ""
  | read => "read"
  | write => "write"
  | readWrite => "read_write"
  | execute => "execute"
  | other name => name

def ofName (name : String) : Access :=
  ([unknown, read, write, readWrite, execute].find? (·.name == name)).getD (other name)

/-- The access of an edge that stands for two: reading and writing go together, otherwise the first
known one stays. -/
def merge (a b : Access) : Access :=
  if a = unknown ∨ a = b then b
  else if b = unknown then a
  else if (a = read ∧ b = write) ∨ (a = write ∧ b = read) then readWrite
  else a

end Access

structure NodeFigures where
  complexity : Int
  fanIn : Int
  fanOut : Int
  centrality : Rat
  stability : Rat
  tags : List String
  deriving DecidableEq, Repr, Inhabited

structure Node where
  symbolId : String
  fileId : String
  projectId : String
  name : String
  kind : SymbolKind
  fullName : String
  scope : List String
  location : Location
  figures : NodeFigures
  deriving DecidableEq, Repr, Inhabited

structure EdgeContext where
  callCount : Int
  conditional : Bool
  inLoop : Bool
  access : Access
  deriving DecidableEq, Repr, Inhabited

/-- A directed relation between two nodes, with all places where it shows. -/
structure Edge where
  id : String
  source : String
  target : String
  kind : EdgeKind
  strength : Rat
  locations : List Location
  context : EdgeContext
  deriving DecidableEq, Repr, Inhabited

/-- One observation of a relation. -/
structure Link where
  source : String
  target : String
  kind : EdgeKind
  strength : Rat
  location : Option Location
  context : EdgeContext
  deriving DecidableEq, Repr, Inhabited

namespace Link

/-- How many calls an observation stands for: at least one. -/
def count (l : Link) : Int := if l.context.callCount ≤ 0 then 1 else l.context.callCount

def fits (l : Link) (e : Edge) : Bool :=
  e.source == l.source && e.target == l.target && e.kind == l.kind

end Link

def clampUnit (q : Rat) : Rat := if q < 0 then 0 else if 1 < q then 1 else q

def atMostOne (q : Rat) : Rat := if 1 < q then 1 else q

def edgeNames : Uuid :=
  ⟨[0x6f, 0x0c, 0x1b, 0x9e, 0x6a, 0x3f, 0x4c, 0x55, 0x9d, 0x43, 0x1f, 0x5c, 0x0e, 0x2b, 0x8a, 0x71]⟩

def edgeKey (source target : String) (kind : EdgeKind) : String :=
  source ++ ">" ++ target ++ ":" ++ kind.name

def edgeId (source target : String) (kind : EdgeKind) : String :=
  (Uuid.ofName edgeNames (edgeKey source target kind)).toString

namespace Edge

def ofLink (l : Link) : Edge where
  id := edgeId l.source l.target l.kind
  source := l.source
  target := l.target
  kind := l.kind
  strength := clampUnit l.strength
  locations := l.location.toList
  context := { l.context with callCount := l.count }

/-- Adds an observation: counts and places accumulate and the greatest strength stays. -/
def absorb (e : Edge) (l : Link) : Edge :=
  { e with
    strength := atMostOne (if e.strength < l.strength then l.strength else e.strength)
    locations := e.locations ++ l.location.toList
    context :=
      { callCount := wrap64 (e.context.callCount + l.count)
        conditional := e.context.conditional || l.context.conditional
        inLoop := e.context.inLoop || l.context.inLoop
        access := e.context.access.merge l.context.access } }

end Edge

/-- Nodes, one for each identifier, and edges in the order in which they were first seen. -/
structure SymbolGraph where
  nodes : List Node
  edges : List Edge
  dropped : Nat
  deriving DecidableEq, Repr, Inhabited

namespace SymbolGraph

def empty : SymbolGraph := ⟨[], [], 0⟩

def node? (g : SymbolGraph) (id : String) : Option Node := g.nodes.find? (·.symbolId == id)

def hasNode (g : SymbolGraph) (id : String) : Bool := g.nodes.any (·.symbolId == id)

/-- Inserts a node, in the place of the node with the same identifier if there is one. -/
def addNode (g : SymbolGraph) (n : Node) : SymbolGraph :=
  if g.hasNode n.symbolId then
    { g with nodes := g.nodes.map fun m => if m.symbolId == n.symbolId then n else m }
  else
    { g with nodes := g.nodes ++ [n] }

/-- Changes the first edge for the same relation, or adds a new one at the end. -/
def absorbLink (l : Link) : List Edge → List Edge
  | [] => [.ofLink l]
  | e :: rest => if l.fits e then e.absorb l :: rest else e :: absorbLink l rest

/-- Records an observation, and says whether it was recorded.  A symbol does not relate to itself. -/
def addLink (g : SymbolGraph) (l : Link) : SymbolGraph × Bool :=
  if l.source == l.target then (g, false)
  else if g.hasNode l.source && g.hasNode l.target then
    ({ g with edges := absorbLink l g.edges }, true)
  else ({ g with dropped := g.dropped + 1 }, false)

def dependencies (g : SymbolGraph) (id : String) : List Edge :=
  g.edges.filter (·.source == id)

def targets (g : SymbolGraph) : Std.HashMap String (List String) :=
  g.edges.foldr (fun e found => found.insert e.source (e.target :: found.getD e.source [])) ∅

/-- Texts in the order of their bytes. -/
def sorted (texts : List String) : List String :=
  texts.mergeSort fun a b => decide (a ≤ b)

def nodeIds (g : SymbolGraph) : List String := sorted (g.nodes.map (·.symbolId))

def sortedEdges (g : SymbolGraph) : List Edge :=
  g.edges.mergeSort fun a b => decide (a.source ≤ b.source)

def dependents (g : SymbolGraph) (id : String) : List Edge :=
  g.sortedEdges.filter (·.target == id)

def edgeCount (g : SymbolGraph) : Nat := g.edges.length

def fileOf (g : SymbolGraph) (id : String) : String := ((g.node? id).map (·.fileId)).getD ""

/-- The pairs of different files of which a symbol of the first relates to one of the second. -/
def filePairs (g : SymbolGraph) : List (String × String) :=
  (g.edges.map fun e => (g.fileOf e.source, g.fileOf e.target)).filter fun p => p.1 != p.2

def fileDependencies (g : SymbolGraph) : List (String × List String) :=
  let pairs := g.filePairs
  (sorted (pairs.map (·.1)).eraseDups).map fun a =>
    (a, sorted ((pairs.filter (·.1 == a)).map (·.2)).eraseDups)

end SymbolGraph

end CodeAtlas

/-!
How strongly symbols depend on each other: the numbers of edges into and out of a node and what
follows from them.
-/

namespace CodeAtlas

structure Coupling where
  afferent : Nat
  efferent : Nat
  deriving DecidableEq, Repr, Inhabited

namespace Coupling

def total (c : Coupling) : Nat := c.afferent + c.efferent

/-- The share of the edges that go out; zero for a node without edges. -/
def instability (c : Coupling) : Rat :=
  if c.total == 0 then 0 else mkRat c.efferent c.total

end Coupling

namespace SymbolGraph

/-- Every node with the numbers of edges into it and out of it. -/
def coupling (g : SymbolGraph) : List (String × Coupling) :=
  let afferent : Std.HashMap String Nat :=
    g.edges.foldl (fun found e => found.insert e.target (found.getD e.target 0 + 1)) ∅
  let outgoing := g.targets
  g.nodeIds.map fun id => (id, ⟨afferent.getD id 0, (outgoing.getD id []).length⟩)

/-- The edges of a node for each of the other nodes. -/
def centrality (g : SymbolGraph) (c : Coupling) : Rat :=
  if g.nodes.length > 1 then mkRat c.total (g.nodes.length - 1) else 0

/-- Counts the edges of every node anew, for its own figures. -/
def computeFigures (g : SymbolGraph) : SymbolGraph :=
  let fanIn : Std.HashMap String Nat :=
    g.edges.foldl (fun found e => found.insert e.target (found.getD e.target 0 + 1)) ∅
  let outgoing := g.targets
  { g with nodes := g.nodes.map fun n =>
      let c : Coupling := ⟨fanIn.getD n.symbolId 0, (outgoing.getD n.symbolId []).length⟩
      { n with figures := { n.figures with
        fanIn := c.afferent
        fanOut := c.efferent
        centrality := g.centrality c
        stability := c.instability } } }

end SymbolGraph

/-!
Symbols found by name and ranked by their coupling.
-/

structure CouplingRow where
  symbolId : String
  name : String
  coupling : Coupling
  deriving DecidableEq, Repr, Inhabited

namespace CouplingRow

/-- Whether a row of a report comes before another one: stronger coupling comes first, then names and
identifiers decide. -/
def before (a b : CouplingRow) : Bool :=
  if a.coupling.total ≠ b.coupling.total then decide (b.coupling.total < a.coupling.total)
  else if a.name ≠ b.name then decide (a.name < b.name)
  else decide (a.symbolId < b.symbolId)

/-- The order of the rows of an answer, field by field. -/
def order (a b : CouplingRow) : Ordering :=
  (compare b.coupling.total a.coupling.total).then <|
    (compare a.name b.name).then (compare a.symbolId b.symbolId)

end CouplingRow

namespace SymbolGraph

/-- The full name of a node; an identifier without node stands for itself. -/
def nameOf (g : SymbolGraph) (id : String) : String :=
  match g.node? id with
  | some node => node.fullName
  | none => id

/-- The rows of a report, of the symbols that are coupled at all. -/
def reportedRows (g : SymbolGraph) (coupling : List (String × Coupling)) : List CouplingRow :=
  (coupling.filterMap fun (id, c) =>
    if c.total == 0 then none else some ⟨id, g.nameOf id, c⟩).mergeSort fun a b => !b.before a

/-- The first rows of a report; all of them if `top` is not positive. -/
def rankCoupling (g : SymbolGraph) (coupling : List (String × Coupling)) (top : Int) :
    List CouplingRow :=
  let rows := g.reportedRows coupling
  if top > 0 && rows.length > top then rows.take top.toNat else rows

/-- The rows of an answer: an identifier stands for itself unless it has a node with another name. -/
def answeredRows (g : SymbolGraph) (coupling : List (String × Coupling)) : List CouplingRow :=
  ((coupling.filter fun (_, c) => c.afferent + c.efferent != 0).map fun (id, c) =>
    ⟨id, ((g.node? id).map (·.fullName)).getD id, c⟩).mergeSort fun a b => (a.order b).isLE

/-- As many rows of an answer as are asked for. -/
def mostCoupled (g : SymbolGraph) (coupling : List (String × Coupling)) (top : Int) :
    List CouplingRow :=
  let rows := g.answeredRows coupling
  if rows.length > top then rows.take top.toNat else rows

def nodesNamed (g : SymbolGraph) (name : String) : List Node :=
  (g.nodes.filter fun n => n.name == name || n.fullName == name).mergeSort fun a b =>
    ((compare a.fullName b.fullName).then (compare a.symbolId b.symbolId)).isLE

end SymbolGraph

end CodeAtlas
