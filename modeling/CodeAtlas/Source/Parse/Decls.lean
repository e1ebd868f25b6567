import CodeAtlas.Source.Parse.Stmts

/-!
Declarations and whole files.
-/

namespace CodeAtlas.Source.Parse

def importSpec : Parse Node := do
  let l ← look
  let name ← match l.token with
    | .name => pure (some (← ident))
    | .operator "." =>
        advance
        pure (some (Node.ofName l.pos "."))
    | _ => pure none
  let l ← look
  let path ←
    if l.token == .string then
      advance
      pure (Node.mk (.literal l.text) l.pos l.stop [])
    else
      complain l.pos
      if l.token.isLiteral then advance else resync endsExpr
      pure (Node.mk (.literal "") l.pos l.pos [])
  expectEnd
  return .mk (.importSpec name.isSome) (name.getD path).pos path.stop (name.toList ++ [path])

def valueSpec (g : Grammar) (word : String) : Parse Node := do
  let names ← commaSeparated ident
  let values : Parse (List Node) := do
    if ← atOp "=" then
      advance
      exprList g true
    else
      pure []
  let (t, values) ←
    if word == "const" then
      if (← atEnd) || (← atOp ";") || (← atOp ")") then
        pure (none, [])
      else
        let t ← g.type?
        pure (t, ← values)
    else
      let t ← if ← atOp "=" then pure none else pure (some (← type g))
      pure (t, ← values)
  expectEnd
  let start := posOf names 0
  let stop := Node.lastStop (names ++ t.toList ++ values) start
  return .mk (.valueSpec names.length t.isSome) start stop (names ++ t.toList ++ values)

def isTypeElem : Node → Bool
  | .mk .arrayType _ _ _ | .mk .structType _ _ _ | .mk (.funcType _ _) _ _ _
  | .mk .interfaceType _ _ _ | .mk .mapType _ _ _ | .mk (.chanType _ _ _) _ _ _ => true
  | .mk (.binary _) _ _ [x, y] => isTypeElem x || isTypeElem y
  | .mk (.unary op) _ _ _ => op == "~"
  | .mk .paren _ _ [x] => isTypeElem x
  | _ => false

/-- Splits an expression into a name and the type after it, if it can be read that way; with `force`
also where the rest could be a value. -/
def extractName (force : Bool) : Node → Option (Node × Option Node)
  | .mk (.name text) pos stop cs => some (.mk (.name text) pos stop cs, none)
  | .mk (.binary "*") _ stop [x, y] =>
      if x.isName && (force || isTypeElem y) then
        some (x, some (.mk .star x.stop stop [y]))
      else
        none
  | .mk (.binary "|") _ stop [x, y] =>
      match extractName (force || isTypeElem y) x with
      | some (name, some left) => some (name, some (.mk (.binary "|") left.pos stop [left, y]))
      | _ => none
  | .mk (.call false) _ stop [f, arg] =>
      if f.isName && (force || isTypeElem arg) then
        some (f, some (.mk .paren f.stop stop [arg]))
      else
        none
  | _ => none

def typeSpecNode (name : Node) (typeParams : Option Node) (t : Node) : Node :=
  .mk (.typeSpec typeParams.isSome) name.pos t.stop (name :: typeParams.toList ++ [t])

def aliasOrType (g : Grammar) : Parse Node := do
  if ← atOp "=" then advance
  type g

def genericType (g : Grammar) (name : Node) (lbrack : Nat) (param : Node) (bound : Option Node) :
    Parse Node := do
  let list ← paramList g (some param) bound "]" false
  let rbrack ← expectOp "]"
  let t ← aliasOrType g
  return typeSpecNode name (some (fieldsNode lbrack rbrack list)) t

def typeSpec (g : Grammar) : Parse Node := do
  let name ← ident
  let node ←
    if ← atOp "[" then
      let lbrack ← pos
      advance
      if (← token) == .name then
        let first ← ident
        let x ←
          if ← atOp "[" then
            pure first
          else
            inBrackets do
              let left ← primary g (some first)
              binary g (some left) 1
        match extractName (← atOp ",") x with
        | some (param, bound) =>
            if bound.isSome || !(← atOp "]") then
              genericType g name lbrack param bound
            else
              pure (typeSpecNode name none (← arrayType g lbrack (some x)))
        | none => pure (typeSpecNode name none (← arrayType g lbrack (some x)))
      else
        pure (typeSpecNode name none (← arrayType g lbrack none))
    else
      pure (typeSpecNode name none (← aliasOrType g))
  expectEnd
  return node

/-- A declaration led by a keyword: one specification, or several in parentheses. -/
def genDecl (word : String) (spec : Parse Node) : Parse Node := do
  let start ← expectWord word
  if ← atOp "(" then
    advance
    let list ← whileM (do return !(← atOp ")") && !(← atEnd)) spec
    let rparen ← expectOp ")"
    expectEnd
    return .mk (.genDecl word) start (rparen + 1) list
  else
    let s ← spec
    return .mk (.genDecl word) start s.stop [s]

def funcDecl (g : Grammar) : Parse Node := do
  let start ← expectWord "func"
  let receiver ← if ← atOp "(" then pure (some (← parameters g true)) else pure none
  let name ← ident
  let typeParams ← typeParameters g
  let params ← parameters g true
  let results ← result g
  let t := funcNode start typeParams params results
  let block ← match ← token with
    | .operator "\x7b" =>
        let b ← body g
        expectEnd
        pure (some b)
    | .operator ";" =>
        advance
        if ← atOp "\x7b" then
          complainHere
          let b ← body g
          expectEnd
          pure (some b)
        else
          pure none
    | _ =>
        expectEnd
        pure none
  return .mk (.funcDecl receiver.isSome) start (block.getD t).stop
    (receiver.toList ++ [name, t] ++ block.toList)

/-- A declaration; after a complaint the parse goes on at a token that satisfies `sync`. -/
def decl (g : Grammar) (sync : Token → Bool) : Parse Node := do
  match ← token with
  | .keyword "import" => genDecl "import" importSpec
  | .keyword "const" => genDecl "const" (valueSpec g "const")
  | .keyword "var" => genDecl "var" (valueSpec g "var")
  | .keyword "type" => genDecl "type" (typeSpec g)
  | .keyword "func" => funcDecl g
  | _ =>
      let start ← pos
      complain start
      resync sync
      return .mk .badDecl start (← pos) []

/-- The grammar for constructs nested up to the given depth. -/
def grammar : Nat → Grammar
  | 0 =>
      { type? := throw {}
        expr := throw {}
        unary := throw {}
        binary := fun _ _ => throw {}
        literalValue := fun _ => throw {}
        body := throw {}
        stmt := throw {}
        ifStmt := throw {}
        decl := fun _ => throw {} }
  | depth + 1 =>
      { type? := fun s => Parse.type? (grammar depth) s
        expr := fun s => Parse.expr (grammar depth) s
        unary := fun s => Parse.unary (grammar depth) s
        binary := fun first least s => Parse.binary (grammar depth) first least s
        literalValue := fun type s => Parse.literalValue (grammar depth) type s
        body := fun s => Parse.body (grammar depth) s
        stmt := fun s => Parse.stmt (grammar depth) s
        ifStmt := fun s => Parse.ifStmt (grammar depth) s
        decl := fun sync s => Parse.decl (grammar depth) sync s }

def complaintCount : Parse Nat := do return (← get).scanner.complaints.count

/-- A whole file; nothing if its first line is no package clause. -/
def file (g : Grammar) : Parse (Option SourceFile) := do
  if (← complaintCount) != 0 then
    return none
  else
    let _ ← expectWord "package"
    let name ← ident
    expectEnd
    if (← complaintCount) != 0 then
      return none
    else
      let imports ← whileM (atWord "import") (genDecl "import" importSpec)
      let step (state : Array Node × Bool) : Parse ((Array Node × Bool) × Bool) := do
        let (done, afterImport) := state
        if ← atEnd then
          return (state, false)
        else
          let isImport ← atWord "import"
          if isImport && !afterImport then complainHere
          let d ← decl g startsDecl
          return ((done.push d, isImport), true)
      let (decls, _) ← iterate step (← rounds) (imports.toArray, true)
      return some ⟨name.nameText, name.pos, decls.toList⟩

end Parse

/-- What a parse of a file ends with: the file, if it is one, the table of its lines, and whether
there was a complaint. -/
structure ParsedFile where
  file : Option SourceFile
  table : LineTable
  faulty : Bool
  deriving Inhabited

def parseFile (glyphs : List Glyph) : ParsedFile :=
  let scanner := Scanner.start glyphs
  let (scanner, lexeme) := scanner.scan (scanner.unread + 2)
  let state : ParseState :=
    { scanner := scanner, look := lexeme, syncPos := none, syncCount := 0, exprLevel := 0
      inRhs := false, nesting := 0 }
  match (Parse.file (Parse.grammar (Parse.maxNesting + glyphs.length))).run state with
  | .ok (file, state) => ⟨file, state.scanner.table, state.scanner.complaints.count != 0⟩
  | .error _ => ⟨none, state.scanner.table, true⟩

end CodeAtlas.Source
