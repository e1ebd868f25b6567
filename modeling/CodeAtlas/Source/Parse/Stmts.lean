import CodeAtlas.Source.Parse.Exprs

/-!
Statements.
-/

namespace CodeAtlas.Source.Parse

/-- What a simple statement may be besides the plain forms. -/
inductive SimpleMode where
  | basic
  | labelOk
  | rangeOk
  deriving DecidableEq, Repr

def assignOps : List String :=
  [":=", "=", "+=", "-=", "*=", "/=", "%=", "&=", "|=", "^=", "<<=", ">>=", "&^="]

def posOf (nodes : List Node) (otherwise : Nat) : Nat :=
  (nodes.head?.map Node.pos).getD otherwise

def assignNode (op : String) (start : Nat) (left right : List Node) : Node :=
  .mk (.assign op left.length start) (posOf left start) (Node.lastStop right start) (left ++ right)

/-- A statement without a keyword; tells whether it is the head of a range loop. -/
def simpleStmt (g : Grammar) (mode : SimpleMode) : Parse (Node × Bool) := do
  let left ← exprList g false
  let l ← look
  let x := left.head?.getD (.bad l.pos l.pos)
  let assigns := match l.token with
    | .operator op => assignOps.contains op
    | _ => false
  if assigns then
    let op := match l.token with
      | .operator op => op
      | _ => ""
    advance
    if mode == .rangeOk && (← atWord "range") && (op == ":=" || op == "=") then
      let start ← pos
      advance
      let y ← rhs g
      return (assignNode op l.pos left [unaryNode "range" start y], true)
    else
      let right ← exprList g true
      return (assignNode op l.pos left right, false)
  else
    if left.length > 1 then complain x.pos
    match l.token with
    | .operator ":" =>
        advance
        if mode == .labelOk && x.isName then
          let s ← g.stmt
          return (.mk .labeled x.pos s.stop [x, s], false)
        else
          complain l.pos
          return (.mk .badStmt x.pos (l.pos + 1) [], false)
    | .operator "<-" =>
        advance
        let y ← rhs g
        return (.mk .send x.pos y.stop [x, y], false)
    | .operator "++" | .operator "--" =>
        advance
        return (.mk .incDec x.pos (l.pos + 2) [x], false)
    | _ => return (.mk .exprStmt x.pos x.stop [x], false)

/-- The statements of a block, up to a closing brace or the next case. -/
def stmtList (g : Grammar) : Parse (List Node) :=
  whileM (do
    match ← token with
    | .keyword "case" | .keyword "default" | .operator "\x7d" | .eof => return false
    | _ => return true) g.stmt

/-- A block; without a closing brace it stops where its last statement does. -/
def body (g : Grammar) : Parse Node := do
  let lbrace ← expectOp "\x7b"
  let list ← stmtList g
  let rbrace ← expectOp? "\x7d"
  let stop := (rbrace.map (· + 1)).getD (Node.lastStop list (lbrace + 1))
  return .mk .block lbrace stop list

def deferredCall (g : Grammar) : Parse (Option Node) := do
  let x ← rhs g
  let t := x.unparen
  if x.isParen then complain x.pos
  match t.label with
  | .call _ => return some t
  | .bad => return none
  | _ =>
      complain t.stop
      return none

def deferred (g : Grammar) (word : String) (label : Label) : Parse Node := do
  let start ← expectWord word
  let call ← deferredCall g
  expectEnd
  match call with
  | some c => return .mk label start c.stop [c]
  | none => return .mk .badStmt start (start + word.length) []

def returnStmt (g : Grammar) : Parse Node := do
  let start ← expectWord "return"
  let results ←
    if (← atOp ";") || (← atOp "\x7d") then pure [] else exprList g true
  expectEnd
  return .mk .returnStmt start (Node.lastStop results (start + 6)) results

def branchStmt (word : String) : Parse Node := do
  let start ← expectWord word
  let named := (← token) == .name
  let label ←
    if word == "goto" || ((word == "continue" || word == "break") && named) then
      pure (some (← ident))
    else
      pure none
  expectEnd
  return .mk .branch start ((label.map Node.stop).getD (start + word.length)) label.toList

/-- The expression that a statement consists of; any other statement is a fault. -/
def asExpr (s : Option Node) : Parse (Option Node) := do
  match s with
  | none => return none
  | some s =>
      match s.label, s.children with
      | .exprStmt, [x] => return some x
      | _, _ =>
          complain s.pos
          return some (.bad s.pos s.stop)

def ifHeader (g : Grammar) : Parse (Option Node × Node) := do
  if ← atOp "\x7b" then
    let here ← pos
    complain here
    return (none, .bad here here)
  else
    inHead do
      let first ←
        if ← atOp ";" then
          pure none
        else
          if ← atWord "var" then
            advance
            complainHere
          pure (some (← simpleStmt g .basic).1)
      let (first, second, semi) ←
        if ← atOp "\x7b" then
          pure (none, first, none)
        else
          let here ← pos
          let semi ←
            if ← atOp ";" then
              advance
              pure (some here)
            else
              let _ ← expectOp ";"
              pure none
          let second ←
            if ← atOp "\x7b" then pure none else pure (some (← simpleStmt g .basic).1)
          pure (first, second, semi)
      let cond ← asExpr second
      if second.isNone then
        if let some place := semi then complain place
      let here ← pos
      return (first, cond.getD (.bad here here))

def ifStmt (g : Grammar) : Parse Node := nested do
  let start ← expectWord "if"
  let (first, cond) ← ifHeader g
  let then' ← body g
  let otherwise ←
    if ← atWord "else" then
      advance
      match ← token with
      | .keyword "if" => pure (some (← g.ifStmt))
      | .operator "\x7b" =>
          let b ← body g
          expectEnd
          pure (some b)
      | _ =>
          let here ← pos
          complain here
          pure (some (.mk .badStmt here here []))
    else
      expectEnd
      pure none
  return .mk .ifStmt start (otherwise.getD then').stop
    (first.toList ++ [cond, then'] ++ otherwise.toList)

def clauseNode (label : Label) (start colon : Nat) (head stmts : List Node) : Node :=
  .mk label start (Node.lastStop stmts (colon + 1)) (head ++ stmts)

def caseClause (g : Grammar) : Parse Node := do
  let start ← pos
  let list ←
    if ← atWord "case" then
      advance
      exprList g true
    else
      let _ ← expectWord "default"
      pure []
  let colon ← expectOp ":"
  let stmts ← stmtList g
  return clauseNode .caseClause start colon list stmts

def isTypeGuard (x : Node) : Bool :=
  x.label == .assertion && x.children.length == 1

/-- Whether a statement asks for the type of something; an assignment that does so with `=` is a
fault. -/
def typeSwitchGuard (s : Option Node) : Parse Bool := do
  match s with
  | none => return false
  | some s =>
      match s.label, s.children with
      | .exprStmt, [x] => return isTypeGuard x
      | .assign op 1 place, [_, y] =>
          if isTypeGuard y then
            if op == "=" then complain place
            return op == ":=" || op == "="
          else
            return false
      | _, _ => return false

def clauses (clause : Parse Node) : Parse Node := do
  let lbrace ← expectOp "\x7b"
  let list ← whileM (do return (← atWord "case") || (← atWord "default")) clause
  let rbrace ← expectOp "\x7d"
  expectEnd
  return .mk .block lbrace (rbrace + 1) list

def switchStmt (g : Grammar) : Parse Node := do
  let start ← expectWord "switch"
  let (first, second) ←
    if ← atOp "\x7b" then
      pure (none, none)
    else
      inHead do
        let s ← if ← atOp ";" then pure none else pure (some (← simpleStmt g .basic).1)
        if ← atOp ";" then
          advance
          if ← atOp "\x7b" then
            pure (s, none)
          else
            pure (s, some (← simpleStmt g .basic).1)
        else
          pure (none, s)
  let typed ← typeSwitchGuard second
  let cases ← clauses (caseClause g)
  if typed then
    return .mk .typeSwitch start cases.stop (first.toList ++ second.toList ++ [cases])
  else
    let tag ← asExpr second
    return .mk .switchStmt start cases.stop (first.toList ++ tag.toList ++ [cases])

def commHead (g : Grammar) : Parse Node := do
  let left ← exprList g false
  let l ← look
  let x := left.head?.getD (.bad l.pos l.pos)
  match l.token with
  | .operator "<-" =>
      if left.length > 1 then complain x.pos
      advance
      let y ← rhs g
      return .mk .send x.pos y.stop [x, y]
  | .operator "=" | .operator ":=" =>
      if left.length > 2 then complain x.pos
      advance
      let y ← rhs g
      return assignNode (if l.token == .operator "=" then "=" else ":=") l.pos (left.take 2) [y]
  | _ =>
      if left.length > 1 then complain x.pos
      return .mk .exprStmt x.pos x.stop [x]

def commClause (g : Grammar) : Parse Node := do
  let start ← pos
  let comm ←
    if ← atWord "case" then
      advance
      pure [← commHead g]
    else
      let _ ← expectWord "default"
      pure []
  let colon ← expectOp ":"
  let stmts ← stmtList g
  return clauseNode .commClause start colon comm stmts

def selectStmt (g : Grammar) : Parse Node := do
  let start ← expectWord "select"
  let cases ← clauses (commClause g)
  return .mk .selectStmt start cases.stop [cases]

/-- The head of a loop: what runs first, the condition or range, what runs after each round, and
whether it is a range. -/
structure ForHead where
  first : Option Node
  second : Option Node
  third : Option Node
  isRange : Bool

def forHead (g : Grammar) : Parse ForHead := do
  let (second, isRange) ←
    if ← atOp ";" then
      pure (none, false)
    else if ← atWord "range" then
      let start ← pos
      advance
      let y ← rhs g
      pure (some (assignNode "" start [] [unaryNode "range" start y]), true)
    else
      let (s, isRange) ← simpleStmt g .rangeOk
      pure (some s, isRange)
  if !isRange && (← atOp ";") then
    advance
    let cond ←
      if ← atOp ";" then
        pure none
      else
        if ← atOp "\x7b" then complainHere
        pure (some (← simpleStmt g .basic).1)
    expectEnd
    let post ←
      if ← atOp "\x7b" then pure none else pure (some (← simpleStmt g .basic).1)
    return ⟨second, cond, post, false⟩
  else
    return ⟨none, second, none, isRange⟩

def forStmt (g : Grammar) : Parse Node := do
  let start ← expectWord "for"
  let head ←
    if ← atOp "\x7b" then pure ⟨none, none, none, false⟩ else inHead (forHead g)
  let block ← body g
  expectEnd
  if head.isRange then
    let s := head.second.getD (.bad start start)
    let left := s.children.dropLast
    let range := (s.children.getLast?.map Node.children).getD []
    if left.length > 2 then
      complain ((left.getLast?.map Node.pos).getD start)
      return .mk .badStmt start block.stop []
    else
      return .mk .rangeStmt start block.stop (left ++ range ++ [block])
  else
    let cond ← asExpr head.second
    return .mk .forStmt start block.stop
      (head.first.toList ++ cond.toList ++ head.third.toList ++ [block])

def startsSimple : Token → Bool
  | .name | .number | .char | .string => true
  | .keyword word => ["func", "struct", "map", "chan", "interface"].contains word
  | .operator text => ["(", "[", "+", "-", "*", "&", "^", "<-", "!"].contains text
  | _ => false

def stmt (g : Grammar) : Parse Node := nested do
  let l ← look
  match l.token with
  | .keyword "const" | .keyword "type" | .keyword "var" =>
      let d ← g.decl startsStmt
      return .mk .declStmt d.pos d.stop [d]
  | .keyword "go" => deferred g "go" .goStmt
  | .keyword "defer" => deferred g "defer" .deferStmt
  | .keyword "return" => returnStmt g
  | .keyword "break" => branchStmt "break"
  | .keyword "continue" => branchStmt "continue"
  | .keyword "goto" => branchStmt "goto"
  | .keyword "fallthrough" => branchStmt "fallthrough"
  | .operator "\x7b" =>
      let b ← body g
      expectEnd
      return b
  | .keyword "if" => ifStmt g
  | .keyword "switch" => switchStmt g
  | .keyword "select" => selectStmt g
  | .keyword "for" => forStmt g
  | .operator ";" =>
      advance
      return .mk .emptyStmt l.pos (if l.text == "\n" then l.pos else l.pos + 1) []
  | .operator "\x7d" => return .mk .emptyStmt l.pos l.pos []
  | t =>
      if startsSimple t then
        let (s, _) ← simpleStmt g .labelOk
        if s.label != .labeled then expectEnd
        return s
      else
        complain l.pos
        resync startsStmt
        return .mk .badStmt l.pos (← pos) []

end CodeAtlas.Source.Parse
