import CodeAtlas.Text.CharClass
import CodeAtlas.Text.Decimal

/-!
JSON values.
-/

namespace CodeAtlas

/-- A JSON value.  A number that was read keeps its spelling; a number that was computed is `real`. -/
inductive Json where
  | null
  | bool (value : Bool)
  | number (literal : String)
  | real (value : Float)
  | string (value : String)
  | array (items : List Json)
  | object (fields : List (String × Json))
  deriving Inhabited, BEq

namespace Json

def int (n : Int) : Json := .number (toString n)

def nat (n : Nat) : Json := .number (toString n)

def ratio (q : Rat) : Json := .real (doubleOfRat q)

def strings (values : List String) : Json := .array (values.map .string)

/-- The value under a key of an object; the last one if the key is repeated. -/
def get? (key : String) : Json → Option Json
  | .object fields => (fields.reverse.find? (·.1 == key)).map (·.2)
  | _ => none

def field (key : String) (value : Json) : Json :=
  (value.get? key).getD .null

def asString? : Json → Option String
  | .string s => some s
  | _ => none

def asBool? : Json → Option Bool
  | .bool b => some b
  | _ => none

def asArray? : Json → Option (List Json)
  | .array items => some items
  | _ => none

/-- The integer that a number spells without point and exponent. -/
def asInt? : Json → Option Int
  | .number literal => literal.toInt?
  | _ => none

def isNull : Json → Bool
  | .null => true
  | _ => false

/-- The text under a key, empty if there is none. -/
def text (value : Json) (key : String) : String := (value.field key).asString?.getD ""

/-- The integer under a key, zero if there is none. -/
def whole (value : Json) (key : String) : Int := (value.field key).asInt?.getD 0

def items (value : Json) (key : String) : List Json := (value.field key).asArray?.getD []

def texts (value : Json) (key : String) : List String :=
  (value.items key).map fun item => item.asString?.getD ""

def isTrue (value : Json) (key : String) : Bool := (value.field key).asBool?.getD false

end Json

/-!
The members of records that are read by name.  Names that differ by case alone are the same, and a
member may be given more than once.
-/

def sameWord (a b : String) : Bool := a.toList.map caseKey == b.toList.map caseKey

namespace Json

def members : Json → List (String × Json)
  | .object fields => fields
  | _ => []

def valuesOf (value : Json) (name : String) : List Json :=
  (value.members.filter (sameWord name ·.1)).map (·.2)

def lastOf (value : Json) (name : String) : Json := (value.valuesOf name).getLast?.getD .null

def lastText (value : Json) (name : String) : String :=
  ((value.valuesOf name).filterMap asString?).getLast?.getD ""

/-- All that is said under a name, as one record. -/
def joinedOf (value : Json) (name : String) : Json :=
  .object ((value.valuesOf name).flatMap members)

/-- What a record keeps of members that are given more than once: the last one.  They are sorted. -/
def settled (fields : List (String × Json)) : List (String × Json) :=
  let last := fields.foldr (fun field kept =>
    if kept.any (·.1 == field.1) then kept else field :: kept) []
  last.mergeSort fun a b => a.1 ≤ b.1

mutual

/-- A value with all numbers as the nearest doubles and all records settled. -/
def rounded : Json → Json
  | .number literal => .number (((doubleOfText? literal).map shortestText).getD literal)
  | .array items => .array (roundedItems items)
  | .object fields => .object (settled (roundedFields fields))
  | value => value

def roundedItems : List Json → List Json
  | [] => []
  | item :: rest => rounded item :: roundedItems rest

def roundedFields : List (String × Json) → List (String × Json)
  | [] => []
  | (name, value) :: rest => (name, rounded value) :: roundedFields rest

end

end Json

end CodeAtlas
