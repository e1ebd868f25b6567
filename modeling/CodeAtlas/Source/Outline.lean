import CodeAtlas.Extract.Basic
import CodeAtlas.Source.Parse.Decls
import CodeAtlas.Source.Render
import Std.Data.HashSet

/-!
The symbols that a Go file declares at its top level, and the names that occur in it.
-/

namespace CodeAtlas.Source

structure Declared where
  name : Node
  kind : SymbolKind
  stop : Nat
  scope : String
  signature : String
  deriving Inhabited

def receiverName : Node → String
  | .mk .star _ _ (x :: _) => receiverName x
  | .mk .index _ _ (x :: _) => receiverName x
  | .mk (.name text) _ _ _ => text
  | _ => ""

def fieldParts (field : Node) : List Node × Node :=
  match field.label with
  | .field names _ =>
      (field.children.take names, field.children[names]?.getD (.bad field.pos field.stop))
  | _ => ([], .bad field.pos field.stop)

def memberFields (type : Node) : List Node :=
  (type.children.head?.map Node.children).getD []

def declaredFunc (method : Bool) (decl : Node) : List Declared :=
  let receiver? := if method then
    decl.children.head?.bind fun list => list.children.head?.map fun f => (fieldParts f).2
    else none
  match if method then decl.children.drop 1 else decl.children with
  | name :: type :: _ =>
      let tail := name.nameText ++ dropPrefix "func" type.render
      match receiver? with
      | some r =>
          [⟨name, .method, decl.stop, receiverName r, "func (" ++ r.render ++ ") " ++ tail⟩]
      | none => [⟨name, .function, decl.stop, "", "func " ++ tail⟩]
  | _ => []

def declaredType (spec : Node) : List Declared :=
  match spec.children.head?, spec.children.getLast? with
  | some name, some type =>
      let lead := "type " ++ name.nameText ++ " "
      match type.label with
      | .structType =>
          ⟨name, .struct, spec.stop, "", lead ++ "struct"⟩ ::
            (memberFields type).flatMap fun f =>
              let (names, t) := fieldParts f
              names.map fun n =>
                ⟨n, .field, f.stop, name.nameText, n.nameText ++ " " ++ t.render⟩
      | .interfaceType =>
          ⟨name, .interface, spec.stop, "", lead ++ "interface"⟩ ::
            (memberFields type).flatMap fun f =>
              let (names, t) := fieldParts f
              names.map fun n =>
                ⟨n, .method, f.stop, name.nameText, n.nameText ++ dropPrefix "func" t.render⟩
      | _ => [⟨name, .typeDecl, spec.stop, "", lead ++ type.render⟩]
  | _, _ => []

def declaredValues (word : String) (names : Nat) (typed : Bool) (spec : Node) : List Declared :=
  let type := if typed then
    (spec.children[names]?.map fun t => " " ++ t.render).getD "" else ""
  ((spec.children.take names).filter (·.nameText != "_")).map fun n =>
    ⟨n, if word == "const" then .const else .var, spec.stop, "", word ++ " " ++ n.nameText ++ type⟩

def declared (decl : Node) : List Declared :=
  match decl.label with
  | .funcDecl method => declaredFunc method decl
  | .genDecl word =>
      decl.children.flatMap fun spec =>
        match spec.label with
        | .typeSpec _ => declaredType spec
        | .valueSpec names typed => declaredValues word names typed spec
        | _ => []
  | _ => []

structure Occurrence where
  name : String
  pos : Nat
  stop : Nat
  kind : UsageKind
  deriving Repr, Inhabited

/-- How child number `i` of a node occurs, given how the node itself does. -/
def childRole (label : Label) (role : UsageKind) (i : Nat) : UsageKind :=
  match label with
  | .call _ => if i == 0 then .call else .reference
  | .selector => if i == 1 && role == .call then .call else .reference
  | .assign _ left _ => if i < left then .assignment else .reference
  | .incDec => .assignment
  | _ => .reference

def isQuote (c : Char) : Bool := c == '"' || c.toNat == 96

def trimQuotes (text : String) : List Char :=
  ((text.toList.dropWhile isQuote).reverse.dropWhile isQuote).reverse

/-- The name by which an import is known: the one it is given, or the last part of its path. -/
def importName (named : Bool) (children : List Node) : String :=
  match named, children with
  | true, name :: _ => name.nameText
  | _, path :: _ =>
      match path.label with
      | .literal text => String.ofList (((trimQuotes text).reverse.takeWhile (· != '/')).reverse)
      | _ => ""
  | _, [] => ""

mutual

/-- The occurrences of names in a node, in the order of the text. -/
def occurrences (role : UsageKind) : Node → List Occurrence
  | .mk (.name text) pos stop _ => if text == "_" then [] else [⟨text, pos, stop, role⟩]
  | .mk (.importSpec named) pos stop children =>
      [⟨importName named children, pos, stop, .importing⟩]
  | .mk label _ _ children => occurrencesFrom label role 0 children

def occurrencesFrom (label : Label) (role : UsageKind) (i : Nat) : List Node → List Occurrence
  | [] => []
  | child :: rest =>
      occurrences (childRole label role i) child ++ occurrencesFrom label role (i + 1) rest

end

def outline (file : SourceFile) (table : LineTable) (lines : Array String) : Extraction :=
  let all := file.decls.flatMap declared
  let defined : Std.HashSet Nat := all.foldl (fun set d => set.insert d.name.pos) {}
  let symbol (d : Declared) : Symbol :=
    { id := "", fileId := "", name := d.name.nameText, kind := d.kind
      first := table.position d.name.pos, last := table.position d.stop
      signature := collapseSignature d.signature, scope := d.scope, space := file.package
      tags := [] }
  let usage (o : Occurrence) : Usage :=
    let start := table.position o.pos
    let row := start.line - 1
    let context := if row < 0 then "" else (lines[row.toNat]?.map trim).getD ""
    ⟨o.name, ⟨"", start, table.position o.stop⟩, o.kind, context⟩
  let found := file.decls.flatMap (occurrences .reference)
  let kept := found.filter fun o => o.kind == .importing || !defined.contains o.pos
  ⟨all.map symbol, kept.map usage⟩

/-- The symbols and usages of a text; nothing if it has no declarations and faults, or is no Go file at
all. -/
def extract? (glyphs : List Glyph) : Option Extraction :=
  let parsed := parseFile glyphs
  match parsed.file with
  | none => none
  | some file =>
      if parsed.faulty && file.decls.isEmpty then
        none
      else
        let lines := ((glyphLines glyphs).map textOfGlyphs).toArray
        some (outline file parsed.table lines)

end CodeAtlas.Source
