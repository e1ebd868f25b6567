import CodeAtlas.Classify.IgnoreRule
import CodeAtlas.Number
import CodeAtlas.Yaml.Value
import Std.Data.HashSet

/-!
The file in which a project overrides what is left out of its index.
-/

namespace CodeAtlas.ConfigFile

def name : String := ".codeindex.yaml"

open Yaml (Visit Value)

/-- A text; nothing at all stands for no text. -/
def text? (n : Yaml.Node) : Visit (Option String) := do
  match ← StateT.lift n.scalar? with
  | (.null, _) => return none
  | (.text s, _) => return some s
  | (_, written) => return some written

def texts? (d : Yaml.Document) : Yaml.Node → Visit (List String)
  | .sequence items => do
      let found ← items.mapM fun item => d.visit item text?
      return found.filterMap id
  | n => do
      match ← StateT.lift n.scalar? with
      | (.null, _) => return []
      | _ => failure

/-- The whole part of a number, as a 64-bit word; numbers below all words give the least one. -/
def truncate? (x : Float) : Option Int :=
  if x ≤ 9223372036854775807.0 then
    let q := ratOfFloat x
    let n := q.num.tdiv q.den
    some (if x == -Yaml.infinity || !isSigned64 n then leastSigned else n)
  else none

def int? (n : Yaml.Node) : Visit (Option Int) := do
  match ← StateT.lift n.scalar? with
  | (.null, _) => return none
  | (.int n, _) => if n < signedLimit then return some n else failure
  | (.float x, _) => StateT.lift ((truncate? x).map some)
  | _ => failure

def yesWords : List String := ["y", "Y", "yes", "Yes", "YES", "on", "On", "ON"]

def noWords : List String := ["n", "N", "no", "No", "NO", "off", "Off", "OFF"]

/-- A truth value, which may also be given by a word. -/
def bool? (n : Yaml.Node) : Visit (Option Bool) := do
  match ← StateT.lift n.scalar? with
  | (.null, _) => return none
  | (.bool b, _) => return some b
  | (.text s, _) =>
      if yesWords.contains s then return some true
      else if noWords.contains s then return some false
      else failure
  | _ => failure

/-- What makes two keys the same: their kind and how they are spelled. -/
def keyMark : Yaml.Node → Nat × String
  | .scalar _ text _ => (0, text)
  | .sequence _ => (1, "")
  | .mapping _ => (2, "")
  | .alias name _ _ => (3, name)

def hasRepeats (marks : List (Nat × String)) : Bool :=
  (Std.HashSet.ofList marks).size < marks.length

/-- Whether a key asks for the entries of other mappings. -/
def isMerge : Yaml.Node → Bool
  | .scalar tag text isPlain =>
      text == "<<" && (((tag == "" || tag == "!") && isPlain) || tag == "!!merge")
  | _ => false

/-- Sets the field that a key names; other keys mean nothing here. -/
def setField? (d : Yaml.Document) (o : IgnoreConfig.Overrides) (key : String) (value : Yaml.Node) :
    Visit IgnoreConfig.Overrides :=
  match key with
  | "ignore_dirs" => (fun v => { o with ignoreDirs := v }) <$> d.visit value (texts? d)
  | "ignore_files" => (fun v => { o with ignoreFiles := v }) <$> d.visit value (texts? d)
  | "patterns" => (fun v => { o with patterns := v }) <$> d.visit value (texts? d)
  | "max_file_size" => (fun v => { o with maxFileSize := v }) <$> d.visit value int?
  | "use_gitignore" => (fun v => { o with useGitignore := v }) <$> d.visit value bool?
  | _ => return o

def fieldNames : List String :=
  ["ignore_dirs", "ignore_files", "patterns", "max_file_size", "use_gitignore"]

/-- Sets the fields of entries.  Keys in `seen` are passed over and new ones added to it; without it, no
field may be set twice, which `done` is for. -/
def setFields? (d : Yaml.Document) (o : IgnoreConfig.Overrides) (seen : Option (List String))
    (done : List String) :
    List (Yaml.Node × Yaml.Node) → Visit (IgnoreConfig.Overrides × Option (List String))
  | [] => return (o, seen)
  | (key, value) :: rest => do
      if isMerge key then setFields? d o seen done rest
      else
        match ← d.visit key text? with
        | none => setFields? d o seen done rest
        | some k =>
            if seen.any (·.contains k) then setFields? d o seen done rest
            else if done.contains k then failure
            else
              let o ← setField? d o k value
              setFields? d o (seen.map (k :: ·)) (if fieldNames.contains k then k :: done else done) rest

/-- The mappings that a merge takes entries from, which must not be behind an alias together. -/
def mergeSources? (d : Yaml.Document) (n : Yaml.Node) : Option (List Yaml.Node) :=
  let isMapping (n : Yaml.Node) : Bool := match d.target n with
    | .mapping _ => true
    | _ => false
  match n with
  | .sequence items => if items.all isMapping then some items else none
  | n => if isMapping n then some [n] else none

/-- The overrides that a mapping gives on top of others; its own entries come before those it merges,
and keys that were seen are passed over.  `fuel` bounds the mappings within each other. -/
def merged? (d : Yaml.Document) : (fuel : Nat) → IgnoreConfig.Overrides → Option (List String) → Yaml.Node →
    Visit (IgnoreConfig.Overrides × Option (List String))
  | 0, _, _, _ => failure
  | fuel + 1, o, seen, .mapping entries => do
      if hasRepeats (entries.map fun e => keyMark e.1) then failure
      let (o, seen) ← setFields? d o seen [] entries
      match (entries.filter fun e => isMerge e.1).getLast? with
      | none => return (o, seen)
      | some (_, source) => do
          let own ← match seen with
            | some names => pure names
            | none => do
                let names ← entries.mapM fun e => d.visit e.1 text?
                pure (names.filterMap id)
          let sources ← StateT.lift (mergeSources? d source)
          sources.foldlM (fun (o, seen) s => d.visit s (merged? d fuel o seen)) (o, some own)
  | _ + 1, _, _, _ => failure

def overrides? (d : Yaml.Document) : Visit IgnoreConfig.Overrides := do
  -- the document itself is visited as well
  let t ← get
  set (← StateT.lift t.tick?)
  let fuel := (d.aliases + 1) * (Yaml.Lexer.maxDepth + 1)
  d.visit d.root fun
    | .scalar tag text isPlain => do
        match ← StateT.lift (Value.ofScalar? tag text isPlain) with
        | .null => return .none
        | _ => failure
    | n => do
        let (o, _) ← merged? d fuel .none none n
        return o

def read? (bytes : List UInt8) : Option IgnoreConfig.Overrides := do
  match ← Yaml.document? (.ofBytes bytes) with
  | none => some .none
  | some d => do
      let (o, _) ← (overrides? d).run .zero
      some o

def faultMessage : String :=
  "failed to parse " ++ name ++ ": yaml: no valid overrides"

/-- A configuration with the overrides of a project's file, if the project has one. -/
def load (base : IgnoreConfig) (file : Option (List UInt8)) : Except String IgnoreConfig :=
  match file with
  | none => .ok base
  | some bytes =>
      match read? bytes with
      | some o => .ok (base.apply o)
      | none => .error faultMessage

end CodeAtlas.ConfigFile
