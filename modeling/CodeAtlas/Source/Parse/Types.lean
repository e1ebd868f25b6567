import CodeAtlas.Source.Parse.Basic

/-!
Types, parameters and fields.
-/

namespace CodeAtlas.Source.Parse

/-- A type; without one, a complaint and a bad node. -/
def type (g : Grammar) : Parse Node := do
  match ← g.type? with
  | some t => return t
  | none =>
      let start ← pos
      complain start
      resync endsExpr
      return .bad start (← pos)

def rhs (g : Grammar) : Parse Node := withRhs true g.expr

def indexed (x : Node) (indices : List Node) (lbrack rbrack : Nat) : Node :=
  let indices := if indices.isEmpty then [Node.bad (lbrack + 1) rbrack] else indices
  .mk .index x.pos (rbrack + 1) (x :: indices)

def selected (x name : Node) : Node :=
  .mk .selector x.pos name.stop [x, name]

/-- A name, possibly behind the name of a package. -/
def typeName (first : Option Node) : Parse Node := do
  let x ← match first with
    | some x => pure x
    | none => ident
  if ← atOp "." then
    advance
    let name ← ident
    return selected x name
  else
    return x

/-- Type arguments in brackets after a generic type; there must be one. -/
def typeInstance (g : Grammar) (x : Node) : Parse Node := do
  let lbrack ← expectOp "["
  let args ← inBrackets (commaList "]" (type g))
  let rbrack ← expectClosing "]"
  if args.isEmpty then complain rbrack
  return indexed x args lbrack rbrack

def qualifiedName (g : Grammar) (first : Option Node) : Parse Node := do
  let x ← typeName first
  if ← atOp "[" then typeInstance g x else return x

def arrayNode (lbrack : Nat) (length : Option Node) (elem : Node) : Node :=
  .mk .arrayType lbrack elem.stop (length.toList ++ [elem])

/-- An array or slice type after its opening bracket; the length may have been read already. -/
def arrayType (g : Grammar) (lbrack : Nat) (known : Option Node) : Parse Node := do
  let length ← match known with
    | some x => pure (some x)
    | none => inBrackets do
        if ← atOp "..." then
          let p ← pos
          advance
          return some (.mk .ellipsis p (p + 3) [])
        else if ← atOp "]" then
          return none
        else
          return some (← rhs g)
  if ← atOp "," then
    complainHere
    advance
  let _ ← expectOp "]"
  let elem ← type g
  return arrayNode lbrack length elem

/-- What follows a name that stands before a bracket: an array type for the name, or type arguments
that make the name a type. -/
def arrayOrInstance (g : Grammar) (name : Node) : Parse (Option Node × Node) := do
  let lbrack ← expectOp "["
  let step (state : Array Node × Option Nat) : Parse ((Array Node × Option Nat) × Bool) := do
    let arg ← rhs g
    let done := state.1.push arg
    if ← atOp "," then
      let comma ← pos
      advance
      if ← atOp "]" then return ((done, some comma), false) else return ((done, none), true)
    else
      return ((done, none), false)
  let (args, trailing) ←
    if ← atOp "]" then
      pure (#[], none)
    else
      inBrackets (do iterate step (← rounds) (#[], none))
  let rbrack ← expectOp "]"
  match args.toList with
  | [] =>
      let elem ← type g
      return (some name, arrayNode lbrack none elem)
  | [length] =>
      match ← g.type? with
      | some elem =>
          if let some comma := trailing then complain comma
          return (some name, arrayNode lbrack (some length) elem)
      | none => return (none, indexed name [length] lbrack rbrack)
  | many => return (none, indexed name many lbrack rbrack)

def starNode (star : Nat) (x : Node) : Node :=
  .mk .star star x.stop [x]

def fieldNode (names : List Node) (type : Node) (tag : Option Node) : Node :=
  let pos := (names.head?.getD type).pos
  let stop := (tag.getD type).stop
  .mk (.field names.length tag.isSome) pos stop (names ++ [type] ++ tag.toList)

/-- An embedded type behind an opening parenthesis, which is not allowed. -/
def parenthesized (p : Parse Node) : Parse Node := do
  complainHere
  advance
  let x ← p
  if ← atOp ")" then advance
  return x

def fieldDecl (g : Grammar) : Parse Node := do
  let (names, type) ← (do
    match ← token with
    | .name =>
        let name ← ident
        match ← token with
        | .operator "." => return ([], ← qualifiedName g (some name))
        | .string => return ([], name)
        | .operator ";" => return ([], name)
        | .operator "\x7d" => return ([], name)
        | _ =>
            let more ← whileM (atOp ",") (do advance; ident)
            if more.isEmpty && (← atOp "[") then
              let (name, type) ← arrayOrInstance g name
              return (name.toList, type)
            else
              return (name :: more, ← type g)
    | .operator "*" =>
        let star ← pos
        advance
        let x ← if ← atOp "(" then parenthesized (qualifiedName g none) else qualifiedName g none
        return ([], starNode star x)
    | .operator "(" =>
        let x ← parenthesized do
          if ← atOp "*" then
            let star ← pos
            advance
            return starNode star (← qualifiedName g none)
          else
            qualifiedName g none
        return ([], x)
    | _ =>
        let start ← pos
        complain start
        resync endsExpr
        return ([], .bad start (← pos)) : Parse (List Node × Node))
  let l ← look
  let tag ←
    if l.token == .string then
      advance
      pure (some (Node.mk (.literal l.text) l.pos l.stop []))
    else
      pure none
  expectEnd
  return fieldNode names type tag

def fieldsNode (opening closing : Nat) (fields : List Node) : Node :=
  .mk .fieldList opening (closing + 1) fields

def structType (g : Grammar) : Parse Node := do
  let start ← expectWord "struct"
  let lbrace ← expectOp "\x7b"
  let fields ← whileM
    (do return (← token) == .name || (← atOp "*") || (← atOp "(")) (fieldDecl g)
  let rbrace ← expectOp "\x7d"
  return .mk .structType start (rbrace + 1) [fieldsNode lbrace rbrace fields]

def pointerType (g : Grammar) : Parse Node := do
  let star ← expectOp "*"
  return starNode star (← type g)

def dotsType (g : Grammar) : Parse Node := do
  let start ← expectOp "..."
  let elem ← type g
  return .mk .ellipsis start elem.stop [elem]

def setTerm (g : Grammar) : Parse Node := do
  if ← atOp "~" then
    let start ← pos
    advance
    let x ← type g
    return .mk (.unary "~") start x.stop [x]
  else
    type g

def binaryNode (op : String) (x y : Node) : Node :=
  .mk (.binary op) x.pos y.stop [x, y]

/-- A type set: terms with bars between them, the first of which may have been read. -/
def setElem (g : Grammar) (first : Option Node) : Parse Node := do
  let x ← match first with
    | some x => pure x
    | none => setTerm g
  let step (x : Node) : Parse (Node × Bool) := do
    if ← atOp "|" then
      advance
      let y ← setTerm g
      return (binaryNode "|" x y, true)
    else
      return (x, false)
  iterate step (← rounds) x

/-- A parameter as it is written: a name, a type, or both. -/
structure Param where
  name : Option Node
  type : Option Node
  deriving Inhabited

/-- Tokens that start a type which is no name. -/
def startsType : Token → Bool
  | .operator text => ["*", "<-", "(", "["].contains text
  | .keyword word => ["func", "chan", "map", "struct", "interface"].contains word
  | _ => false

/-- One parameter, whose name may have been read; type sets are allowed in type parameters. -/
def paramDecl (g : Grammar) (known : Option Node) (sets : Bool) : Parse Param := do
  let joined (p : Param) : Parse Param := do
    match p.type with
    | some t => if sets && (← atOp "|") then return { p with type := some (← setElem g (some t)) }
                else return p
    | none => return p
  let afterName (name : Node) : Parse Param := do
    match ← token with
    | .operator "[" =>
        let (name, type) ← arrayOrInstance g name
        joined ⟨name, some type⟩
    | .operator "..." => return ⟨some name, some (← dotsType g)⟩
    | .operator "." => joined ⟨none, some (← qualifiedName g (some name))⟩
    | .operator "~" =>
        if sets then return ⟨some name, some (← setElem g none)⟩ else return ⟨some name, none⟩
    | .operator "|" =>
        if sets then return ⟨none, some (← setElem g (some name))⟩ else return ⟨some name, none⟩
    | t =>
        if t == .name || startsType t then joined ⟨some name, some (← type g)⟩
        else return ⟨some name, none⟩
  match known with
  | some name => afterName name
  | none =>
      match ← token with
      | .name => afterName (← ident)
      | .operator "..." => return ⟨none, some (← dotsType g)⟩
      | t =>
          if sets && t == .operator "~" then return ⟨none, some (← setElem g none)⟩
          else if startsType t then joined ⟨none, some (← type g)⟩
          else
            complainHere
            resync endsExpr
            return ⟨none, none⟩

structure ParamGroup where
  names : List Node
  type : Node
  deriving Inhabited

/-- Gives every parameter of a list with names its type, from the right, and groups the names that
take theirs from the same place.  Also tells the leftmost place of a fault: a type without a name, or
names without a type. -/
def distribute (here : Nat) (params : List Param) : List ParamGroup × Option Nat :=
  let step (p : Param) (state : List ParamGroup × Bool × Option Nat) :
      List ParamGroup × Bool × Option Nat :=
    let (groups, typed, fault) := state
    match p.type, p.name with
    | some t, some n => (⟨[n], t⟩ :: groups, true, fault)
    | some t, none => (⟨[.ofName t.pos "_"], t⟩ :: groups, true, some t.pos)
    | none, some n =>
        match typed, groups with
        | true, group :: rest => (⟨n :: group.names, group.type⟩ :: rest, true, fault)
        | _, _ => (⟨[n], .bad n.pos here⟩ :: groups, false, some n.pos)
    | none, none => state
  let (groups, _, fault) := params.foldr step ([], false, none)
  (groups, fault)

/-- Replaces dots that do not stand at the last parameter, or stand where none may, by bad nodes, and
gives each of their names a group of its own.  Also tells where the first of them stand. -/
def withdrawDots (allowed : Bool) : List ParamGroup → List ParamGroup × Option Nat
  | [] => ([], none)
  | group :: rest =>
      let (later, fault) := withdrawDots allowed rest
      if group.type.label == .ellipsis then
        let keeps := allowed && rest.isEmpty
        let wrong := if keeps then group.names.dropLast else group.names
        let right := if keeps then group.names.drop (group.names.length - 1) else []
        let bad := Node.bad group.type.pos group.type.stop
        if group.names.isEmpty then
          if keeps then (group :: later, fault) else (⟨[], bad⟩ :: later, some group.type.pos)
        else
          (wrong.map (fun name => ⟨[name], bad⟩) ++
            right.map (fun name => ⟨[name], group.type⟩) ++ later,
            if wrong.isEmpty then fault else some group.type.pos)
      else
        (group :: later, fault)

/-- The parameters up to `closing`; the name and the type of the first may have been read.  With
`dots` the last may stand for any number of values. -/
def paramList (g : Grammar) (name₀ type₀ : Option Node) (closing : String) (dots : Bool) :
    Parse (List Node) := do
  let generic := closing == "]"
  let here ← pos
  let first := ((name₀.or type₀).map Node.pos).getD here
  let step (state : Array Param × Option Node × Option Node) :
      Parse ((Array Param × Option Node × Option Node) × Bool) := do
    let (done, name, type) := state
    if name.isNone && ((← atOp closing) || (← atEnd)) then
      return ((done, none, none), false)
    else
      let param ← match type with
        | some t =>
            if generic then pure ⟨name, some (← setElem g (some t))⟩ else pure ⟨name, some t⟩
        | none => paramDecl g name generic
      let done := if param.name.isSome || param.type.isSome then done.push param else done
      if ← atComma closing then
        advance
        return ((done, none, none), true)
      else
        return ((done, none, none), false)
  let (params, _, _) ← iterate step (← rounds) (#[], name₀, type₀)
  let params := params.toList
  let named := params.countP fun p => p.name.isSome && p.type.isSome
  let typed := params.countP fun p => p.type.isSome
  let groups ←
    if params.isEmpty then
      pure []
    else if named == 0 then
      if generic then
        if typed == 0 then complainHere else complain first
      pure (params.filterMap fun p => (p.type.or p.name).map fun t => ⟨[], t⟩)
    else
      let (groups, fault) := distribute (← pos) params
      if named != params.length then
        if let some place := fault then
          if named == typed then complainHere else complain place
      pure groups
  let (groups, misplaced) := withdrawDots dots groups
  if let some place := misplaced then complain place
  return groups.map fun group => fieldNode group.names group.type none

/-- The number of names or types that a field list declares. -/
def fieldCount (list : Node) : Nat :=
  list.children.foldl (fun n f => n + match f.label with
    | .field names _ => max names 1
    | _ => 1) 0

def typeParameters (g : Grammar) : Parse (Option Node) := do
  if ← atOp "[" then
    let opening ← pos
    advance
    let list ← paramList g none none "]" false
    let rbrack ← expectOp "]"
    let node := fieldsNode opening rbrack list
    if fieldCount node == 0 then
      complain rbrack
      return none
    else
      return some node
  else
    return none

def parameters (g : Grammar) (dots : Bool) : Parse Node := do
  let opening ← expectOp "("
  let list ← if ← atOp ")" then pure [] else paramList g none none ")" dots
  let closing ← expectOp ")"
  return fieldsNode opening closing list

def result (g : Grammar) : Parse (Option Node) := do
  if ← atOp "(" then
    return some (← parameters g false)
  else
    match ← g.type? with
    | some t => return some (.mk .fieldList t.pos t.stop [fieldNode [] t none])
    | none => return none

def funcNode (start : Nat) (typeParams : Option Node) (params : Node) (results : Option Node) : Node :=
  .mk (.funcType typeParams.isSome results.isSome) start ((results.getD params).stop)
    (typeParams.toList ++ [params] ++ results.toList)

def funcType (g : Grammar) : Parse Node := do
  let start ← expectWord "func"
  if let some t ← typeParameters g then complain t.pos
  let params ← parameters g true
  let results ← result g
  return funcNode start none params results

def methodType (g : Grammar) : Parse Node := do
  let params ← parameters g true
  let results ← result g
  return funcNode params.pos none params results

/-- A method of an interface, or the first term of an embedded type. -/
def methodSpec (g : Grammar) : Parse (Option Node × Node) := do
  let x ← typeName none
  if !x.isName then
    if ← atOp "[" then return (none, ← typeInstance g x) else return (none, x)
  else if ← atOp "[" then
    let lbrack ← pos
    advance
    let arg ← inBrackets g.expr
    if arg.isName && !(← atOp ",") && !(← atOp "]") then
      let _ ← paramList g (some arg) none "]" false
      let _ ← expectOp "]"
      complain lbrack
      return (some x, ← methodType g)
    else
      let more ←
        if ← atComma "]" then
          inBrackets do
            advance
            commaList "]" (type g)
        else
          pure []
      let rbrack ← expectClosing "]"
      return (none, indexed x (arg :: more) lbrack rbrack)
  else if ← atOp "(" then
    return (some x, ← methodType g)
  else
    return (none, x)

def interfaceElem (g : Grammar) : Parse (Option Node) := do
  let finish (name : Option Node) (t : Node) : Parse (Option Node) := do
    let t ← match name with
      | some _ => pure t
      | none => setElem g (some t)
    expectEnd
    return some (fieldNode name.toList t none)
  match ← token with
  | .name =>
      let (name, t) ← methodSpec g
      finish name t
  | .operator "~" => finish none (← setTerm g)
  | _ =>
      match ← g.type? with
      | some t => finish none t
      | none => return none

def interfaceType (g : Grammar) : Parse Node := do
  let start ← expectWord "interface"
  let lbrace ← expectOp "\x7b"
  let step (done : Array Node) : Parse (Array Node × Bool) := do
    match ← interfaceElem g with
    | some f => return (done.push f, true)
    | none => return (done, false)
  let fields ← iterate step (← rounds) #[]
  let rbrace ← expectOp "\x7d"
  return .mk .interfaceType start (rbrace + 1) [fieldsNode lbrace rbrace fields.toList]

def mapType (g : Grammar) : Parse Node := do
  let start ← expectWord "map"
  let _ ← expectOp "["
  let key ← type g
  let _ ← expectOp "]"
  let value ← type g
  return .mk .mapType start value.stop [key, value]

def chanType (g : Grammar) : Parse Node := do
  let start ← pos
  if ← atWord "chan" then
    advance
    let arrow ← pos
    let sends ← atOp "<-"
    if sends then advance
    let value ← type g
    return .mk (.chanType (!sends) true (if sends then arrow else start)) start value.stop [value]
  else
    let _ ← expectOp "<-"
    let _ ← expectWord "chan"
    let value ← type g
    return .mk (.chanType true false start) start value.stop [value]

def type? (g : Grammar) : Parse (Option Node) := nested do
  match ← token with
  | .name => return some (← qualifiedName g none)
  | .operator "[" =>
      let lbrack ← expectOp "["
      return some (← arrayType g lbrack none)
  | .keyword "struct" => return some (← structType g)
  | .operator "*" => return some (← pointerType g)
  | .keyword "func" => return some (← funcType g)
  | .keyword "interface" => return some (← interfaceType g)
  | .keyword "map" => return some (← mapType g)
  | .keyword "chan" => return some (← chanType g)
  | .operator "<-" => return some (← chanType g)
  | .operator "(" =>
      let lparen ← pos
      advance
      let x ← type g
      let rparen ← expectOp ")"
      return some (.mk .paren lparen (rparen + 1) [x])
  | _ => return none

end CodeAtlas.Source.Parse
