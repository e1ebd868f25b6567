import CodeAtlas.Json.Basic
import CodeAtlas.Json.Reader
import CodeAtlas.Json.Writer
import CodeAtlas.Text.Base64
import CodeAtlas.Text.Blank
import CodeAtlas.Tools.Definition
import CodeAtlas.Tools.Server

/-!
The shapes that the parts of messages must have.  A value that is missing fits every shape, and so does
null; what a shape does not name may be anything.
-/

namespace CodeAtlas

/-- What a value has to be, with the name of its type as clients are told it.  What is `apart` is a
table that is read on its own. -/
inductive Shape where
  | text (type : String)
  | switch
  | anything
  | table
  | apart
  | record (type : String) (members : List (String × Shape))

structure Misfit where
  value : String
  place : String
  type : String
  deriving DecidableEq, Repr

def Misfit.message (m : Misfit) : String :=
  "json: cannot unmarshal " ++ m.value ++ " into Go " ++
    (if m.place == "" then "value" else "struct field " ++ m.place) ++ " of type " ++ m.type

namespace Shape

def tableType : String := "map[string]interface \x7b\x7d"

def type : Shape → String
  | text type => type
  | switch => "bool"
  | anything => "interface \x7b\x7d"
  | table | apart => tableType
  | record type _ => type

def member? (name : String) : Shape → Option Shape
  | record _ members => (members.find? (sameWord name ·.1)).map (·.2)
  | table | apart | anything => some anything
  | _ => none

def misfit (shape : Shape) (place value : String) : Option Misfit :=
  some ⟨value, if shape matches apart then "" else place, shape.type⟩

/-- A part of a place, in which slashes and tildes are written by other signs. -/
def placePart (name : String) : String :=
  "." ++ replaceText "/" "~1" (replaceText "~" "~0" name)

/-- Numbers have to be in the range of doubles. -/
def numberMisfit? (shape : Shape) (place literal : String) : Option Misfit :=
  match shape, doubleOfText? literal with
  | anything, some x => if x.isFinite then none else some ⟨"number " ++ literal, place, "float64"⟩
  | anything, none => none
  | _, _ => shape.misfit place "number"

mutual

def misfit? (shape : Shape) (place : String) : Json → Option Misfit
  | .null => none
  | .bool _ => if shape matches anything | switch then none else shape.misfit place "bool"
  | .number literal => shape.numberMisfit? place literal
  | .real _ => if shape matches anything then none else shape.misfit place "number"
  | .string _ => if shape matches anything | text _ then none else shape.misfit place "string"
  | .array items => if shape matches anything then itemMisfit? place 0 items
      else shape.misfit place "array"
  | .object fields =>
      if shape matches text _ | switch then shape.misfit place "object"
      else memberMisfit? shape (if shape matches apart then "" else place) fields

def itemMisfit? (place : String) (i : Nat) : List Json → Option Misfit
  | [] => none
  | item :: rest =>
      (misfit? anything (place ++ placePart (toString i)) item).or (itemMisfit? place (i + 1) rest)

def memberMisfit? (shape : Shape) (place : String) : List (String × Json) → Option Misfit
  | [] => none
  | (name, value) :: rest =>
      match shape.member? name with
      | none => memberMisfit? shape place rest
      | some inner =>
          (misfit? inner (place ++ placePart name) value).or (memberMisfit? shape place rest)

end

end Shape

end CodeAtlas

/-!
The messages by which clients call tools: requests and answers in JSON, one to a line.
-/

namespace CodeAtlas

namespace Message

def parseError : Int := -32700

def invalidRequest : Int := -32600

def methodNotFound : Int := -32601

def answer (id result : Json) : Json :=
  .object [("jsonrpc", .string "2.0"), ("id", id), ("result", result)]

def refusal (id : Json) (code : Int) (message : String) : Json :=
  .object [("jsonrpc", .string "2.0"), ("id", id),
    ("error", .object [("code", .int code), ("message", .string message)])]

/-- The versions of the protocol, the newest first. -/
def versions : List String := ["2025-06-18", "2025-03-26", "2024-11-05"]

def version (wanted : String) : String :=
  if wanted == "" then "2025-03-26"
  else if versions.contains wanted then wanted
  else "2025-06-18"

def welcome (params : Json) : Json :=
  .object [("protocolVersion", .string (version (params.lastText "protocolVersion"))),
    ("capabilities", .object [("tools", .object [])]),
    ("serverInfo", .object [("name", .string "codeindex"), ("version", .string "1.0.0")])]

/-- The tools by name, from the first whose name is greater than `after` on. -/
def toolList (after : List UInt8) : Json :=
  let sorted := ToolDefinition.all.mergeSort fun a b => a.name ≤ b.name
  .object [("tools", .array ((sorted.filter fun t => after < t.name.toUTF8.toList).map
    ToolDefinition.toJson))]

/-- The list of tools from a cursor on, which spells the name of the last tool that is known. -/
def listTools (id params : Json) : Json :=
  match Base64.decode (params.lastText "cursor") with
  | .ok after => answer id (toolList after)
  | .error place => refusal id ToolFault.invalidParams s!"illegal base64 data at input byte {place}"

/-- Kinds of requests that this server does not serve, with what they are about. -/
def unsupported : List (String × String) :=
  [("logging/setLevel", "logging"), ("resources/list", "resources"),
    ("resources/templates/list", "resources"), ("resources/read", "resources"),
    ("prompts/list", "prompts"), ("prompts/get", "prompts")]

def callTool (s : Server) (around : Surroundings) (id params : Json) : Server × Json :=
  let tool := params.lastText "name"
  match s.call? around tool (params.lastOf "arguments") with
  | none => (s, refusal id ToolFault.invalidParams s!"tool '{tool}' not found: tool not found")
  | some (s, .ok result) =>
      (s, answer id (.object [("content", .array [.object [("type", .string "text"),
        ("text", .string result.render)]])]))
  | some (s, .error f) => (s, refusal id ToolFault.internal f.text)

def envelope : Shape :=
  .record "" [("jsonrpc", .text ""), ("method", .text ""), ("id", .anything), ("result", .anything)]

def noteShape : Shape := .record "" [("params", .table)]

def clientShape : Shape :=
  .record "mcp.ClientCapabilities" [("experimental", .table),
    ("roots", .record "struct \x7b ListChanged bool \"json:\\\"listChanged,omitempty\\\"\" \x7d"
      [("listChanged", .switch)]),
    ("sampling", .record "struct \x7b\x7d" []), ("elicitation", .record "struct \x7b\x7d" [])]

/-- The kinds of requests that have a shape: the name of the request and the shape of its
parameters. -/
def requestShapes : List (String × String × Shape) :=
  [("ping", "PingRequest", .record "mcp.RequestParams" [("_meta", .apart)]),
    ("initialize", "InitializeRequest", .record "mcp.InitializeParams" [
      ("protocolVersion", .text "string"), ("capabilities", clientShape),
      ("clientInfo", .record "mcp.Implementation" [("name", .text "string"),
        ("version", .text "string"), ("title", .text "string")])]),
    ("tools/list", "ListToolsRequest", .record "mcp.PaginatedParams" [
      ("cursor", .text "mcp.Cursor")]),
    ("tools/call", "CallToolRequest", .record "mcp.CallToolParams" [("name", .text "string"),
      ("arguments", .anything), ("_meta", .apart)])]

def unreadable? (method : String) (message : Json) : Option String :=
  match requestShapes.find? (·.1 == method) with
  | none => none
  | some (_, name, shape) =>
      ((Shape.record "" [("params", shape)]).misfit? name message).map fun m =>
        "unparsable " ++ method ++ " request: " ++ m.message

def serve (s : Server) (around : Surroundings) (id : Json) (method : String) (params : Json) :
    Server × Json :=
  match method with
  | "initialize" => (s, answer id (welcome params))
  | "ping" => (s, answer id (.object []))
  | "tools/list" => (s, listTools id params)
  | "tools/call" => callTool s around id params
  | _ =>
      match unsupported.find? (·.1 == method) with
      | some (_, topic) => (s, refusal id methodNotFound (topic ++ " not supported"))
      | none => (s, refusal id methodNotFound s!"Method {method} not found")

def takeRequest (s : Server) (around : Surroundings) (id message : Json) : Server × Json :=
  let method := message.lastText "method"
  match unreadable? method message with
  | some reason => (s, refusal id invalidRequest reason)
  | none => serve s around id method (message.joinedOf "params")

/-- Takes one message from a client.  Notes without an identifier get no answer, nor do answers. -/
def takeMessage (s : Server) (around : Surroundings) (message : Json) : Server × Option Json :=
  let id := (message.lastOf "id").rounded
  if (envelope.misfit? "" message).isSome then
    (s, some (refusal .null parseError "Failed to parse message"))
  else if message.lastText "jsonrpc" != "2.0" then
    (s, some (refusal id invalidRequest "Invalid JSON-RPC version"))
  else if id.isNull then
    (s, (noteShape.misfit? "" message).map fun _ =>
      refusal .null parseError "Failed to parse notification")
  else if !(message.lastOf "result").isNull then (s, none)
  else
    let (s, reply) := takeRequest s around id message
    (s, some reply)

def take (s : Server) (around : Surroundings) (line : String) : Server × Option Json :=
  match Json.parse? line with
  | none => (s, some (refusal .null parseError "Parse error"))
  | some message => takeMessage s around message

def takeAll (around : Server → Surroundings) (s : Server) :
    List String → Server × List Json
  | [] => (s, [])
  | line :: rest =>
      let (s, reply) := take s (around s) line
      let (s, replies) := takeAll around s rest
      (s, reply.toList ++ replies)

end Message

end CodeAtlas
