import CodeAtlas.Yaml.Lexer

/-!
The nodes of a YAML document, read from its tokens.  An alias stays a reference to the node it names, so
that a node may even hold a reference to itself.
-/

namespace CodeAtlas.Yaml

/-- A node.  The tag of a scalar is empty unless it was written, and a scalar tells whether it was
written plain; an alias gives its name, the number of its target among the named nodes, and its own
number. -/
inductive Node where
  | scalar (tag text : String) (isPlain : Bool)
  | sequence (items : List Node)
  | mapping (entries : List (Node × Node))
  | alias (name : String) (target number : Nat)
  deriving Inhabited, Repr

namespace Node

/-- A node that was left out. -/
def missing : Node := .scalar "" "" true

end Node

/-- A document: its root, its named nodes, and the number of its aliases. -/
structure Document where
  root : Node
  named : Array Node
  aliases : Nat
  deriving Inhabited

/-- What is known while nodes are read: which named node has a name, the named nodes as far as they are
complete, the number of aliases so far, and the handles of tags. -/
structure Names where
  numbers : List (String × Nat)
  nodes : Array Node
  aliases : Nat
  handles : List (String × String)
  deriving Inhabited

namespace Names

def announce (names : Names) : Option String → Names
  | some name => { names with
      numbers := (name, names.nodes.size) :: names.numbers, nodes := names.nodes.push .missing }
  | none => names

def keep (names : Names) (number : Option Nat) (n : Node) : Names :=
  match number with
  | some i => { names with nodes := names.nodes.setIfInBounds i n }
  | none => names

end Names

def standardTags : String := "tag:yaml.org,2002:"

/-- A tag with its handle replaced; those of the standard are shortened to two exclamation marks. -/
def resolveTag? (handles : List (String × String)) (handle suffix : String) : Option String := do
  let full ←
    if handle == "" then some suffix
    else (handles.lookup handle).map (· ++ suffix)
  if standardTags.toList.isPrefixOf full.toList then
    some ("!!" ++ String.ofList (full.toList.drop standardTags.length))
  else some full

/-- An anchor and a tag, in either order. -/
def properties? (names : Names) : List Token → Option (Option String × String × List Token)
  | .anchor a :: .tag h s :: rest => (resolveTag? names.handles h s).map fun t => (some a, t, rest)
  | .tag h s :: .anchor a :: rest => (resolveTag? names.handles h s).map fun t => (some a, t, rest)
  | .anchor a :: rest => some (some a, "", rest)
  | .tag h s :: rest => (resolveTag? names.handles h s).map fun t => (none, t, rest)
  | rest => some (none, "", rest)

/-- What may be read at some place: a node in a block or not, a node after a key or colon, where a
sequence need not be indented, or the rest of a collection. -/
inductive Goal where
  | node (inBlock unindented : Bool)
  | entries (indented : Bool)
  | pairs
  | flowItems (first : Bool)
  | flowPairs (first : Bool)

inductive Part where
  | node (n : Node)
  | items (ns : List Node)
  | pairs (ps : List (Node × Node))
  deriving Inhabited

def Part.asNode : Part → Node
  | .node n => n
  | _ => .missing

def Part.asItems : Part → List Node
  | .items ns => ns
  | _ => []

def Part.asPairs : Part → List (Node × Node)
  | .pairs ps => ps
  | _ => []

/-- Reads a part, and gives the names known after it and the tokens left; `fuel` bounds the tokens and collections gone through. -/
def read? : (fuel : Nat) → Goal → Names → List Token → Option (Part × Names × List Token)
  | 0, _, _, _ => none
  | fuel + 1, .node inBlock unindented, names, tokens =>
      match tokens with
      | .alias a :: rest => do
          let target ← names.numbers.lookup a
          some (.node (.alias a target names.aliases), { names with aliases := names.aliases + 1 }, rest)
      | _ => do
          let (anchor, tag, rest) ← properties? names tokens
          let number := anchor.map fun _ => names.nodes.size
          let names := names.announce anchor
          let finish (n : Node) (names : Names) (rest : List Token) : Part × Names × List Token :=
            (.node n, names.keep number n, rest)
          let bare : Option (Part × Names × List Token) :=
            if anchor.isSome || tag != "" then some (finish (.scalar tag "" true) names rest) else none
          match rest with
          | .blockEntry :: _ =>
              if unindented then do
                let (p, names, rest) ← read? fuel (.entries false) names rest
                some (finish (.sequence p.asItems) names rest)
              else bare
          | .scalar text isPlain :: rest => some (finish (.scalar tag text isPlain) names rest)
          | .flowSequenceStart :: rest => do
              let (p, names, rest) ← read? fuel (.flowItems true) names rest
              some (finish (.sequence p.asItems) names rest)
          | .flowMappingStart :: rest => do
              let (p, names, rest) ← read? fuel (.flowPairs true) names rest
              some (finish (.mapping p.asPairs) names rest)
          | .blockSequenceStart :: more =>
              if inBlock then do
                let (p, names, rest) ← read? fuel (.entries true) names more
                some (finish (.sequence p.asItems) names rest)
              else bare
          | .blockMappingStart :: more =>
              if inBlock then do
                let (p, names, rest) ← read? fuel .pairs names more
                some (finish (.mapping p.asPairs) names rest)
              else bare
          | [] => none
          | _ => bare
  | fuel + 1, .entries indented, names, tokens =>
      match tokens with
      | .blockEntry :: rest => do
          let empty := match rest with
            | .blockEntry :: _ | .blockEnd :: _ => true
            | .key :: _ | .value :: _ => !indented
            | _ => false
          let (n, names, rest) ←
            if empty then some (Part.node .missing, names, rest)
            else read? fuel (.node true false) names rest
          let (p, names, rest) ← read? fuel (.entries indented) names rest
          some (.items (n.asNode :: p.asItems), names, rest)
      | .blockEnd :: rest => some (.items [], names, if indented then rest else tokens)
      | [] => none
      | _ => if indented then none else some (.items [], names, tokens)
  | fuel + 1, .pairs, names, tokens =>
      let isEmpty : List Token → Bool
        | .key :: _ | .value :: _ | .blockEnd :: _ => true
        | _ => false
      match tokens with
      | .key :: rest => do
          let (k, names, rest) ←
            if isEmpty rest then some (Part.node .missing, names, rest)
            else read? fuel (.node true true) names rest
          let (v, names, rest) ←
            match rest with
            | .value :: rest =>
                if isEmpty rest then some (Part.node .missing, names, rest)
                else read? fuel (.node true true) names rest
            | [] => none
            | rest => some (Part.node .missing, names, rest)
          let (p, names, rest) ← read? fuel .pairs names rest
          some (.pairs ((k.asNode, v.asNode) :: p.asPairs), names, rest)
      | .blockEnd :: rest => some (.pairs [], names, rest)
      | _ => none
  | fuel + 1, .flowItems first, names, tokens =>
      let isEnd : List Token → Bool
        | .flowEntry :: _ | .flowSequenceEnd :: _ => true
        | _ => false
      match tokens with
      | .flowSequenceEnd :: rest => some (.items [], names, rest)
      | _ => do
          let tokens ←
            if first then some tokens
            else match tokens with
              | .flowEntry :: rest => some rest
              | _ => none
          match tokens with
          | .flowSequenceEnd :: rest => some (.items [], names, rest)
          | .key :: rest => do
              -- a key that is left out takes the token after it with it
              let (k, names, rest) ←
                match rest with
                | .value :: rest | .flowEntry :: rest | .flowSequenceEnd :: rest =>
                    some (Part.node .missing, names, rest)
                | _ => read? fuel (.node false false) names rest
              let (v, names, rest) ←
                match rest with
                | .value :: rest =>
                    if isEnd rest then some (Part.node .missing, names, rest)
                    else read? fuel (.node false false) names rest
                | rest => some (Part.node .missing, names, rest)
              let (p, names, rest) ← read? fuel (.flowItems false) names rest
              some (.items (.mapping [(k.asNode, v.asNode)] :: p.asItems), names, rest)
          | _ => do
              let (n, names, rest) ← read? fuel (.node false false) names tokens
              let (p, names, rest) ← read? fuel (.flowItems false) names rest
              some (.items (n.asNode :: p.asItems), names, rest)
  | fuel + 1, .flowPairs first, names, tokens =>
      let isEnd : List Token → Bool
        | .flowEntry :: _ | .flowMappingEnd :: _ => true
        | _ => false
      match tokens with
      | .flowMappingEnd :: rest => some (.pairs [], names, rest)
      | _ => do
          let tokens ←
            if first then some tokens
            else match tokens with
              | .flowEntry :: rest => some rest
              | _ => none
          match tokens with
          | .flowMappingEnd :: rest => some (.pairs [], names, rest)
          | .key :: rest => do
              let (k, names, rest) ←
                match rest with
                | .value :: _ => some (Part.node .missing, names, rest)
                | _ =>
                    if isEnd rest then some (Part.node .missing, names, rest)
                    else read? fuel (.node false false) names rest
              let (v, names, rest) ←
                match rest with
                | .value :: rest =>
                    if isEnd rest then some (Part.node .missing, names, rest)
                    else read? fuel (.node false false) names rest
                | rest => some (Part.node .missing, names, rest)
              let (p, names, rest) ← read? fuel (.flowPairs false) names rest
              some (.pairs ((k.asNode, v.asNode) :: p.asPairs), names, rest)
          | _ => do
              let (k, names, rest) ← read? fuel (.node false false) names tokens
              let (p, names, rest) ← read? fuel (.flowPairs false) names rest
              some (.pairs ((k.asNode, .missing) :: p.asPairs), names, rest)

def standardHandles : List (String × String) := [("!", "!"), ("!!", standardTags)]

/-- The handles that the directives in front of a document give, and the tokens after its start.  There
may be one version, which must be the first, and one directive for each handle. -/
def directives? (versioned : Bool) (handles : List (String × String)) :
    List Token → Option (List (String × String) × List Token)
  | .versionDirective major minor :: rest =>
      if versioned || major != 1 || minor != 1 then none else directives? true handles rest
  | .tagDirective h p :: rest =>
      if handles.any (·.1 == h) then none else directives? versioned ((h, p) :: handles) rest
  | .documentStart :: rest => some (handles ++ standardHandles, rest)
  | _ => none

/-- The first document of a file; `none` inside if the file has no document. -/
def document? (s : Stream) : Option (Option Document) := do
  let all := tokens s
  let fuel := 2 * all.length + 2
  let root (handles : List (String × String)) (rest : List Token) : Option (Option Document) := do
    let (p, names, rest) ← read? fuel (.node true false) ⟨[], #[], 0, handles⟩ rest
    if rest.isEmpty then none else some (some ⟨p.asNode, names.nodes, names.aliases⟩)
  match all with
  | [] => none
  | .streamEnd :: _ => some none
  | .versionDirective _ _ :: _ | .tagDirective _ _ :: _ | .documentStart :: _ => do
      let (handles, rest) ← directives? false [] all
      match rest with
      | [] => none
      | .versionDirective _ _ :: _ | .tagDirective _ _ :: _ | .documentStart :: _ | .documentEnd :: _
      | .streamEnd :: _ => some (some ⟨.missing, #[], 0⟩)
      | _ => root handles rest
  | _ => root standardHandles all

end CodeAtlas.Yaml
