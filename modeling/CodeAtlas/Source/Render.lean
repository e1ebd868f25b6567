import CodeAtlas.Source.Tree

/-!
Compact texts of type expressions, for signatures.
-/

namespace CodeAtlas.Source

namespace Node

mutual

/-- Combines the values of the children of every node, from the leaves up. -/
def fold {α : Type} (combine : Label → List α → α) : Node → α
  | mk label _ _ children => combine label (foldList combine children)

def foldList {α : Type} (combine : Label → List α → α) : List Node → List α
  | [] => []
  | child :: rest => fold combine child :: foldList combine rest

end

end Node

/-- The text of a node as a type; for fields, the text of each name with its type, and whether there are
names. -/
structure Rendered where
  text : String
  parts : List String
  named : Bool
  deriving Inhabited

namespace Rendered

def plain (text : String) : Rendered := ⟨text, [], false⟩

/-- An expression that is no type shows as three dots. -/
def other : Rendered := plain "..."

def joined (list : Rendered) : String := ", ".intercalate list.parts

/-- Results need parentheses if they are several or named. -/
def results (list : Rendered) : String :=
  if list.parts.isEmpty then ""
  else if list.parts.length > 1 || list.named then " (" ++ list.joined ++ ")"
  else " " ++ list.joined

def field (names : Nat) (children : List Rendered) : Rendered :=
  let type := (children[names]?.map text).getD ""
  let parts :=
    if names == 0 then [type] else (children.take names).map fun n => n.text ++ " " ++ type
  ⟨"...", parts, names > 0⟩

def fieldList (fields : List Rendered) : Rendered :=
  ⟨"...", fields.flatMap parts, (fields.head?.map named).getD false⟩

def function (generic resulting : Bool) (children : List Rendered) : Rendered :=
  let lists := if generic then children.drop 1 else children
  let params := (lists.head?.map joined).getD ""
  let results := if resulting then (lists[1]?.map results).getD "" else ""
  plain ("func(" ++ params ++ ")" ++ results)

def combine : Label → List Rendered → Rendered
  | .name text, _ => plain text
  | .literal text, _ => plain text
  | .star, [x] => plain ("*" ++ x.text)
  | .arrayType, [elem] => plain ("[]" ++ elem.text)
  | .arrayType, [length, elem] => plain ("[" ++ length.text ++ "]" ++ elem.text)
  | .mapType, [key, value] => plain ("map[" ++ key.text ++ "]" ++ value.text)
  | .chanType _ _ _, [value] => plain ("chan " ++ value.text)
  | .funcType generic resulting, lists => function generic resulting lists
  | .interfaceType, _ => plain "interface\x7b\x7d"
  | .structType, _ => plain "struct\x7b\x7d"
  | .selector, [x, name] => plain (x.text ++ "." ++ name.text)
  | .ellipsis, [elem] => plain ("..." ++ elem.text)
  | .index, x :: indices =>
      plain (x.text ++ "[" ++ ", ".intercalate (indices.map text) ++ "]")
  | .field names _, children => field names children
  | .fieldList, fields => fieldList fields
  | _, _ => other

end Rendered

def Node.render (node : Node) : String :=
  (node.fold Rendered.combine).text

end CodeAtlas.Source
