import CodeAtlas.Index.Search

/-!
Requests to the searcher.
-/

namespace CodeAtlas

/-- What is searched: the texts of documents, the names of symbols, or references to them. -/
inductive SearchMode where
  | text
  | symbol
  | reference
  | other (name : String)
  deriving DecidableEq, Repr, Inhabited

namespace SearchMode

def name : SearchMode → String
  | text => "text"
  | symbol => "symbol"
  | reference => "reference"
  | other name => name

/-- The mode of a name; without one it is text. -/
def ofName (name : String) : SearchMode :=
  if name == "" || name == "text" then text
  else if name == "symbol" then symbol
  else if name == "reference" then reference
  else other name

end SearchMode

/-- A search; empty texts do not restrict.  How long its answer may be kept is in nanoseconds. -/
structure SearchRequest where
  query : String
  mode : SearchMode
  projectId : String
  language : String
  pathGlob : String
  kind : String
  refKind : String
  limit : Int
  contextLines : Int
  useCache : Bool
  keepFor : Int
  deriving DecidableEq, Repr, Inhabited

namespace SearchRequest

def plain (query : String) : SearchRequest := ⟨query, .text, "", "", "", "", "", 0, -1, false, 0⟩

def defaultLimit : Int := 10

def maxLimit : Int := 100

def nanosOfMillis (millis : Int) : Int := wrap64 (millis * 1000000)

def defaultKeepFor : Int := 3600 * 1000000000

/-- A request with its defaults, or a refusal: only a list of all symbols of a kind needs no query. -/
def validated (r : SearchRequest) : Except Fault SearchRequest :=
  let query := trim r.query
  if query == "" && (r.mode != .symbol || r.kind == "") then
    .error ⟨["invalid search request"], .emptyQuery⟩
  else
    let limit := if r.limit ≤ 0 then defaultLimit else r.limit
    .ok { r with
      query
      limit := if limit > maxLimit then maxLimit else limit
      keepFor := if r.keepFor == 0 then defaultKeepFor else r.keepFor }

def key (r : SearchRequest) : String :=
  "\x00".intercalate [r.query, r.mode.name, r.projectId, r.language, r.pathGlob, r.kind, r.refKind,
    toString r.limit, toString r.contextLines]

end SearchRequest

end CodeAtlas
