import CodeAtlas.Source.Parse.Types

/-!
Expressions.
-/

namespace CodeAtlas.Source.Parse

/-- A function type, or a function literal if a body follows. -/
def funcOrLiteral (g : Grammar) : Parse Node := do
  let t ← funcType g
  if ← atOp "\x7b" then
    let body ← inBrackets g.body
    return .mk .funcLiteral t.pos body.stop [t, body]
  else
    return t

/-- A name, a literal, something in parentheses, or a type. -/
def operand (g : Grammar) : Parse Node := do
  let l ← look
  match l.token with
  | .name => ident
  | .number | .char | .string =>
      advance
      return .mk (.literal l.text) l.pos l.stop []
  | .operator "(" =>
      advance
      let x ← inBrackets (rhs g)
      let rparen ← expectOp ")"
      return .mk .paren l.pos (rparen + 1) [x]
  | .keyword "func" => funcOrLiteral g
  | _ =>
      match ← g.type? with
      | some t => return t
      | none =>
          let start ← pos
          complain start
          resync startsStmt
          return .bad start (← pos)

def afterPoint (g : Grammar) (x : Node) : Parse Node := do
  match ← token with
  | .name => return selected x (← ident)
  | .operator "(" =>
      let _ ← expectOp "("
      let t ←
        if ← atWord "type" then
          advance
          pure none
        else
          pure (some (← type g))
      let rparen ← expectOp ")"
      return .mk .assertion x.pos (rparen + 1) (x :: t.toList)
  | t =>
      let start ← pos
      complain start
      if t ≠ .operator "\x7d" then advance
      return selected x (.ofName start "_")

/-- The one, two or three parts of a slice expression, after the first of them. -/
def sliceParts (g : Grammar) : Parse (List (Nat × Option Node)) := do
  let part : Parse (Nat × Option Node) := do
    let colon ← pos
    advance
    if (← atOp ":") || (← atOp "]") || (← atEnd) then
      return (colon, none)
    else
      return (colon, some (← rhs g))
  let first ← part
  if ← atOp ":" then
    return [first, ← part]
  else
    return [first]

/-- An index, a slice, or type arguments after an operand. -/
def indexOrSlice (g : Grammar) (x : Node) : Parse Node := do
  let lbrack ← expectOp "["
  if ← atOp "]" then
    let rbrack ← pos
    complain rbrack
    advance
    return .mk .index x.pos (rbrack + 1) [x, .bad rbrack rbrack]
  else
    let (first, slices, args) ← inBrackets do
      let first ← if ← atOp ":" then pure none else pure (some (← rhs g))
      if ← atOp ":" then
        return (first, ← sliceParts g, [])
      else if ← atOp "," then
        let step (done : Array Node) : Parse (Array Node × Bool) := do
          if ← atOp "," then
            advance
            if (← atOp "]") || (← atEnd) then
              return (done, true)
            else
              return (done.push (← type g), true)
          else
            return (done, false)
        let args ← iterate step (← rounds) #[]
        return (first, [], args.toList)
      else
        return (first, [], [])
    let rbrack ← expectOp "]"
    match slices with
    | [] => return indexed x (first.toList ++ args) lbrack rbrack
    | [(_, high)] => return .mk .slice x.pos (rbrack + 1) (x :: first.toList ++ high.toList)
    | (colon, high) :: (colon', top) :: _ =>
        if high.isNone then complain colon
        if top.isNone then complain colon'
        return .mk .slice x.pos (rbrack + 1)
          (x :: first.toList ++ [high.getD (.bad (colon + 1) colon')] ++
            [top.getD (.bad (colon' + 1) rbrack)])

def callArgs (g : Grammar) (callee : Node) : Parse Node := do
  let _ ← expectOp "("
  let step (state : Array Node × Bool) : Parse ((Array Node × Bool) × Bool) := do
    let (done, spread) := state
    if spread || (← atOp ")") || (← atEnd) then
      return (state, false)
    else
      let arg ← rhs g
      let spread ← atOp "..."
      if spread then advance
      if ← atComma ")" then
        advance
        return ((done.push arg, spread), true)
      else
        return ((done.push arg, spread), false)
  let (args, spread) ← inBrackets do iterate step (← rounds) (#[], false)
  let rparen ← expectClosing ")"
  return .mk (.call spread) callee.pos (rparen + 1) (callee :: args.toList)

def elementValue (g : Grammar) : Parse Node := do
  if ← atOp "\x7b" then g.literalValue none else g.expr

def element (g : Grammar) : Parse Node := do
  let x ← elementValue g
  if ← atOp ":" then
    advance
    let value ← elementValue g
    return .mk .keyValue x.pos value.stop [x, value]
  else
    return x

def literalValue (g : Grammar) (type : Option Node) : Parse Node := nested do
  let lbrace ← expectOp "\x7b"
  let elements ← inBrackets (commaList "\x7d" (element g))
  let rbrace ← expectClosing "\x7d"
  let start := (type.map Node.pos).getD lbrace
  return .mk (.composite type.isSome) start (rbrace + 1) (type.toList ++ elements)

/-- Whether a brace after the operand opens a composite literal; the names of types do so only outside
the head of a statement. -/
def takesBraces (level : Int) (x : Node) : Bool :=
  match x.unparen.label with
  | .bad | .name _ | .selector | .index => level ≥ 0
  | .arrayType | .structType | .mapType => true
  | _ => false

/-- An operand with all that follows it: selectors, indices, calls and braces. -/
def primary (g : Grammar) (first : Option Node) : Parse Node := do
  let x ← match first with
    | some x => pure x
    | none => operand g
  let step (state : Node × Nat) : Parse ((Node × Nat) × Bool) := do
    let (x, n) := state
    deepen
    match ← token with
    | .operator "." =>
        advance
        return ((← afterPoint g x, n + 1), true)
    | .operator "[" => return ((← indexOrSlice g x, n + 1), true)
    | .operator "(" => return ((← callArgs g x, n + 1), true)
    | .operator "\x7b" =>
        if takesBraces (← get).exprLevel x then
          if x.isParen then complain x.unparen.pos
          return ((← g.literalValue (some x), n + 1), true)
        else
          return ((x, n + 1), false)
    | _ => return ((x, n + 1), false)
  let (x, n) ← iterate step (← rounds) (x, 0)
  leave n
  return x

def unaryNode (op : String) (start : Nat) (x : Node) : Node :=
  .mk (.unary op) start x.stop [x]

/-- Moves a receive arrow at `start` into the channel type that follows it; the arrow of a channel that
can only be sent to moves on to the element type.  The result lists the places of misplaced arrows. -/
def receiveChan (start : Nat) : Node → Node × List Nat
  | .mk (.chanType receives sends arrow) _ stop [value] =>
      let misplaced := if receives && !sends then [arrow] else []
      if sends && !receives then
        match value with
        | .mk (.chanType _ _ _) _ _ _ =>
            let (value, more) := receiveChan arrow value
            (.mk (.chanType true false start) start stop [value], misplaced ++ more)
        | _ => (.mk (.chanType true false start) start stop [value], misplaced ++ [arrow])
      else
        (.mk (.chanType true false start) start stop [value], misplaced)
  | other => (other, [])

def isChanType (x : Node) : Bool :=
  match x.label with
  | .chanType _ _ _ => true
  | _ => false

def unary (g : Grammar) : Parse Node := nested do
  let l ← look
  match l.token with
  | .operator "<-" =>
      advance
      let x ← g.unary
      if isChanType x then
        let (x, misplaced) := receiveChan l.pos x
        for place in misplaced do complain place
        return x
      else
        return unaryNode "<-" l.pos x
  | .operator "*" =>
      advance
      return starNode l.pos (← g.unary)
  | .operator op =>
      if ["+", "-", "!", "^", "&", "~"].contains op then
        advance
        return unaryNode op l.pos (← g.unary)
      else
        primary g none
  | _ => primary g none

/-- The operator to come and how tightly it binds; on a right-hand side `=` is taken for `==`. -/
def operator : Parse (Token × Nat) := do
  let s ← get
  let t := if s.inRhs && s.look.token == .operator "=" then Token.operator "==" else s.look.token
  return (t, t.precedence)

def binary (g : Grammar) (first : Option Node) (least : Nat) : Parse Node := do
  let x ← match first with
    | some x => pure x
    | none => unary g
  let step (state : Node × Nat) : Parse ((Node × Nat) × Bool) := do
    let (x, n) := state
    deepen
    let (t, p) ← operator
    if p < least then
      return ((x, n + 1), false)
    else
      let _ ← expect t
      let y ← g.binary none (p + 1)
      let op := match t with
        | .operator text => text
        | _ => ""
      return ((binaryNode op x y, n + 1), true)
  let (x, n) ← iterate step (← rounds) (x, 0)
  leave n
  return x

def expr (g : Grammar) : Parse Node := binary g none 1

def exprList (g : Grammar) (inRhs : Bool) : Parse (List Node) :=
  withRhs inRhs (commaSeparated g.expr)

end CodeAtlas.Source.Parse
