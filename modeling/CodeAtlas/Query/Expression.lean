import CodeAtlas.Text.Blank

/-!
The words of a free-text query.  A query is split at white space, and each part at everything that is
no letter, digit or underscore; a star at the end of a part opens its last word.
-/

namespace CodeAtlas

/-- A word of a query; an open one stands for every word that starts with it. -/
structure QueryWord where
  text : String
  isOpen : Bool
  deriving DecidableEq, Repr, Inhabited

namespace QueryWord

def isPart (c : Char) : Bool := isLetter c || isDecimalDigit c || c == '_'

def runs (part : String) : List String :=
  ((splitOn (fun c => !isPart c) part.toList).filter (!·.isEmpty)).map String.ofList

end QueryWord

end CodeAtlas

/-!
Full-text expressions: quoted words between spaces, each followed by a star if it is open.  All of
them have to occur.  Operators cannot be written, since nothing but words and stars comes out.
-/

namespace CodeAtlas.Expression

/-- A word between quotes, a quote inside it written twice. -/
def quoteWord (text : String) : String :=
  "\"" ++ replaceText "\"" "\"\"" text ++ "\""

/-- The words of a part of a query, each between quotes; a star at the end of the part goes to the last one. -/
def termsOfPart (part : String) : List String :=
  let texts := QueryWord.runs part
  texts.mapIdx fun i text =>
    quoteWord text ++ if hasSuffix "*" part && i + 1 == texts.length then "*" else ""

/-- The expression for a query; empty if the query has no word. -/
def ofQuery (query : String) : String :=
  " ".intercalate ((words query).flatMap termsOfPart)

/-- Reads the words of an expression: the finished ones back to front, the state (between words,
inside quotes with the text so far, just after a quote), and the rest. -/
inductive Reading where
  | between
  | inside (text : List Char)
  | after (text : List Char)
  deriving DecidableEq, Repr, Inhabited

def readStep (done : List QueryWord) (state : Reading) (c : Char) :
    Option (List QueryWord × Reading) :=
  match state with
  | .between =>
      if c == ' ' then some (done, .between)
      else if c == '"' then some (done, .inside [])
      else none
  | .inside text => if c == '"' then some (done, .after text) else some (done, .inside (c :: text))
  | .after text =>
      let closed : QueryWord := ⟨String.ofList text.reverse, false⟩
      if c == '"' then some (done, .inside ('"' :: text))
      else if c == '*' then some ({ closed with isOpen := true } :: done, .between)
      else if c == ' ' then some (closed :: done, .between)
      else none

def read? (text : String) : Option (List QueryWord) := do
  let (done, state) ← text.toList.foldlM (fun (done, state) c => readStep done state c)
    (([], .between) : List QueryWord × Reading)
  match state with
  | .between => some done.reverse
  | .inside _ => none
  | .after text => some (⟨String.ofList text.reverse, false⟩ :: done).reverse

end CodeAtlas.Expression
