import CodeAtlas.Text.CharClass

/-!
White space in texts: trimming, splitting into words, and lines.
-/

namespace CodeAtlas

def dropBlank (cs : List Char) : List Char :=
  cs.dropWhile isBlank

def trimBlank (cs : List Char) : List Char :=
  (dropBlank (dropBlank cs).reverse).reverse

def trim (text : String) : String :=
  String.ofList (trimBlank text.toList)

/-- Collects words back to front: the finished ones and the one being read. -/
def wordsStep (state : List (List Char) × List Char) (c : Char) : List (List Char) × List Char :=
  if isBlank c then
    if state.2.isEmpty then state else (state.2.reverse :: state.1, [])
  else
    (state.1, c :: state.2)

def words (text : String) : List String :=
  let (done, last) := text.toList.foldl wordsStep ([], [])
  let all := if last.isEmpty then done else last.reverse :: done
  all.reverse.map String.ofList

/-- Splits at every element that satisfies `p`; the result is never empty. -/
def splitOn {α : Type} (p : α → Bool) (xs : List α) : List (List α) :=
  let step (state : List (List α) × List α) (x : α) : List (List α) × List α :=
    if p x then (state.2.reverse :: state.1, []) else (state.1, x :: state.2)
  let (done, last) := xs.foldl step ([], [])
  (last.reverse :: done).reverse

def splitText (separator : Char) (text : String) : List String :=
  (splitOn (· == separator) text.toList).map String.ofList

def startsWith {α : Type} [BEq α] (part xs : List α) : Bool :=
  part.isPrefixOf xs

def hasPrefix (part text : String) : Bool :=
  part.toList.isPrefixOf text.toList

def hasSuffix (part text : String) : Bool :=
  part.toList.reverse.isPrefixOf text.toList.reverse

/-- The number of elements before the first occurrence of `part`. -/
def indexOf? {α : Type} [BEq α] (part : List α) (xs : List α) (seen : Nat := 0) : Option Nat :=
  if part.isPrefixOf xs then
    some seen
  else
    match xs with
    | [] => none
    | _ :: rest => indexOf? part rest (seen + 1)

def containsText (part text : String) : Bool :=
  (indexOf? part.toList text.toList).isSome

/-- Replaces every occurrence of `part`, from the left, by `new`; an empty `part` occurs nowhere.
`done` is the result so far, back to front. -/
def replaceFrom (part new done xs : List Char) : List Char :=
  match xs with
  | [] => done.reverse
  | c :: rest =>
      if part.isPrefixOf xs && !part.isEmpty then
        replaceFrom part new (new.reverse ++ done) (rest.drop (part.length - 1))
      else
        replaceFrom part new (c :: done) rest
termination_by xs.length
decreasing_by
  · simp only [List.length_drop, List.length_cons]; omega
  · simp

def replaceText (part new text : String) : String :=
  String.ofList (replaceFrom part.toList new.toList [] text.toList)

def dropPrefix (part text : String) : String :=
  if hasPrefix part text then String.ofList (text.toList.drop part.length) else text

def dropSuffix (part text : String) : String :=
  if hasSuffix part text then
    String.ofList (text.toList.take (text.length - part.length))
  else
    text

def lowerText (text : String) : String :=
  text.map toLower

end CodeAtlas

/-!
Texts by lines.  A line ends with a line feed, a carriage return before it belongs to the end, and the
end of the last line may be missing.
-/

namespace CodeAtlas

def lines (text : String) : List String :=
  if text == "" then []
  else (splitText '\n' (dropSuffix "\n" text)).map (dropSuffix "\r")

def joinLines (lines : List String) : String := "\n".intercalate lines

/-- The lines from number `first` to number `last`, both counted from one and moved into the text. -/
def lineRange (text : String) (first last : Int) : String :=
  let all := lines text
  let first := max first 1
  let last := min last all.length
  if first > last then ""
  else joinLines ((all.drop (first.toNat - 1)).take (last - first + 1).toNat)

/-- Writes a line behind what is written, after its number and a colon. -/
def writeNumbered (written : String) (line : String × Nat) : String :=
  (if line.2 > 0 then written ++ "\n" else written) ++
    (toString (line.2 + 1) ++ ":" ++ dropSuffix "\r" line.1)

/-- Every line after its number and a colon. -/
def numberLines (text : String) : String :=
  if text == "" then ""
  else (splitText '\n' (dropSuffix "\n" text)).zipIdx.foldl writeNumbered ""

end CodeAtlas
