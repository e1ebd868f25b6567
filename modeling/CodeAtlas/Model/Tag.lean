import CodeAtlas.Model.Symbol
import CodeAtlas.Text.Blank

/-!
Tags that follow from naming conventions.
-/

namespace CodeAtlas

namespace Symbol

/-- Hidden by convention: a leading underscore, the word `private` in the signature, or a name that
does not start with an upper-case letter in a declaration led by `func` or `type`. -/
def isPrivate (s : Symbol) : Bool :=
  if hasPrefix "_" s.name then true
  else if containsText "private " s.signature then true
  else if hasPrefix "func " s.signature || hasPrefix "type " s.signature then
    match s.name.toList with
    | c :: _ => !isUpper c
    | [] => false
  else false

def isTest (s : Symbol) : Bool :=
  (s.kind.isCallable || s.kind == .classDecl) &&
    (hasPrefix "Test" s.name || hasPrefix "test_" s.name || hasPrefix "Benchmark" s.name ||
      hasSuffix "Test" s.name || hasSuffix "Tests" s.name)

/-- The role that the last word of a type's name announces. -/
def role? (name : String) : Option String :=
  if hasSuffix "Handler" name || hasSuffix "Controller" name then some "handler"
  else if hasSuffix "Repository" name || hasSuffix "Repo" name || hasSuffix "Store" name then
    some "repository"
  else if hasSuffix "Service" name then some "service"
  else if hasSuffix "Factory" name || hasSuffix "Builder" name then some "factory"
  else none

def isFactoryName (name : String) : Bool :=
  ["New", "new_", "create", "Create", "make", "Make"].any (hasPrefix · name)

def conventionTags (s : Symbol) : List String :=
  if s.name == "" then []
  else
    [if s.isPrivate then "private" else "exported"] ++
    (if s.isTest then ["test"] else []) ++
    (if s.kind.isTypeLike then
      (role? s.name).toList ++
        (if s.kind == .interface || hasPrefix "Abstract" s.name then ["abstract"] else [])
    else []) ++
    (if s.kind.isCallable && isFactoryName s.name then ["factory"] else [])

end Symbol

end CodeAtlas
