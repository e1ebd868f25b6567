/-!
Syntax trees of Go sources: labelled trees whose children stand in the order of the text, each node with
the stretch of bytes it covers.
-/

namespace CodeAtlas.Source

/-- What a node is.  The comments name the children. -/
inductive Label where
  | bad
  | name (text : String)
  | literal (text : String)
  /-- the element type, if there is one -/
  | ellipsis
  /-- function type, body -/
  | funcLiteral
  /-- the type, if there is one, then the elements -/
  | composite (typed : Bool)
  | paren
  /-- operand, selected name -/
  | selector
  /-- operand, then the indices -/
  | index
  | slice
  /-- operand, then the type unless it is the word `type` -/
  | assertion
  /-- callee, then the arguments -/
  | call (spread : Bool)
  | star
  | unary (op : String)
  | binary (op : String)
  | keyValue
  /-- the length, if there is one, then the element type -/
  | arrayType
  /-- one field list -/
  | structType
  /-- type parameters if `generic`, parameters, results if `resulting` -/
  | funcType (generic resulting : Bool)
  /-- one field list -/
  | interfaceType
  | mapType
  /-- the element type; the ways the channel can be used, and where its arrow stands, or its start if
  it has none -/
  | chanType (receives sends : Bool) (arrow : Nat)
  | fieldList
  /-- `names` names, then the type, then a tag -/
  | field (names : Nat) (tagged : Bool)
  | badStmt
  | declStmt
  | emptyStmt
  | labeled
  | exprStmt
  | send
  | incDec
  /-- `left` operands, then the others; the operator stands at `place` -/
  | assign (op : String) (left place : Nat)
  | goStmt
  | deferStmt
  | returnStmt
  | branch
  | block
  | ifStmt
  | caseClause
  | switchStmt
  | typeSwitch
  | commClause
  | selectStmt
  | forStmt
  | rangeStmt
  /-- the name, if there is one, and the path -/
  | importSpec (named : Bool)
  /-- `names` names, the type if `typed`, the values -/
  | valueSpec (names : Nat) (typed : Bool)
  /-- name, type parameters if `generic`, type -/
  | typeSpec (generic : Bool)
  | genDecl (word : String)
  /-- receiver if `method`, name, type, body if there is one -/
  | funcDecl (method : Bool)
  | badDecl
  deriving DecidableEq, Repr, Inhabited

/-- A node, the offset of its first byte and the offset after its last one. -/
inductive Node where
  | mk (label : Label) (pos stop : Nat) (children : List Node)
  deriving Repr, Inhabited

namespace Node

def label : Node → Label
  | mk label _ _ _ => label

def pos : Node → Nat
  | mk _ pos _ _ => pos

def stop : Node → Nat
  | mk _ _ stop _ => stop

def children : Node → List Node
  | mk _ _ _ children => children

def ofName (pos : Nat) (text : String) : Node :=
  mk (.name text) pos (pos + text.utf8ByteSize) []

def bad (pos stop : Nat) : Node := mk .bad pos stop []

/-- The text of a name; empty for any other node. -/
def nameText : Node → String
  | mk (.name text) _ _ _ => text
  | _ => ""

def isName : Node → Bool
  | mk (.name _) _ _ _ => true
  | _ => false

def isBad : Node → Bool
  | mk .bad _ _ _ => true
  | _ => false

def unparen : Node → Node
  | mk .paren _ _ [x] => unparen x
  | other => other

def isParen : Node → Bool
  | mk .paren _ _ _ => true
  | _ => false

def lastStop (nodes : List Node) (otherwise : Nat) : Nat :=
  (nodes.getLast?.map stop).getD otherwise

end Node

structure SourceFile where
  package : String
  packagePos : Nat
  decls : List Node
  deriving Inhabited

end CodeAtlas.Source
