import CodeAtlas.Cache.Recent
import CodeAtlas.Index.Store
import CodeAtlas.Search.Request
import CodeAtlas.Snippet.Excerpt

/-!
The searcher.  It answers requests from the index and keeps answers until their time is up or the index
has moved on to another generation.
-/

namespace CodeAtlas

/-- What a search found; which list is filled depends on the mode. -/
structure SearchResponse where
  mode : SearchMode
  hits : List SearchHit
  symbols : List SymbolHit
  references : List ReferenceHit
  deriving Inhabited

namespace SearchResponse

def total (r : SearchResponse) : Nat := r.hits.length + r.symbols.length + r.references.length

end SearchResponse

/-- An answer with the generation of the index it was taken from. -/
structure KeptResponse where
  response : SearchResponse
  expiresAt : Instant
  generation : Nat
  deriving Inhabited

structure Searcher where
  cache : Recent String KeptResponse

namespace Searcher

def cacheSize : Nat := 1000

def new : Searcher := ⟨.empty cacheSize⟩

def hitOf (r : SearchRequest) (matcher : Option Matcher) (rank : Nat) (d : DocumentHit) : SearchHit :=
  let excerpt := matcher.map fun m => Excerpt.ofText m d.content r.contextLines
  { rank, score := d.score, fileId := d.fileId, projectId := d.projectId, path := d.relativePath
    language := d.language
    line := (excerpt.map (·.line)).getD 0
    snippet := (excerpt.map (·.text)).getD "" }

def checkedHit (h : SearchHit) : Except Fault SearchHit :=
  match h.fault? with
  | none => .ok h
  | some fault => .error ⟨[s!"invalid hit for {h.path}"], .badHit fault⟩

def answer (ix : Index) (live : Bool) (r : SearchRequest) : Except Fault SearchResponse := do
  match r.mode with
  | .text =>
      let found ← ix.searchDocuments live ⟨r.query, r.projectId, r.language, r.pathGlob, r.limit⟩
      let matcher := Matcher.ofQuery? r.query
      let hits ← (found.mapIdx fun i d => hitOf r matcher (i + 1) d).mapM checkedHit
      return ⟨r.mode, hits, [], []⟩
  | .symbol =>
      return ⟨r.mode, [], ← ix.searchSymbols live ⟨r.query, r.kind, r.projectId, r.limit⟩, []⟩
  | .reference =>
      return ⟨r.mode, [], [], ← ix.searchReferences live ⟨r.query, r.refKind, r.projectId, r.limit⟩⟩
  | .other name => throw (.of (.other s!"unsupported search mode: {name}"))

/-- A kept answer that still holds.  One that does not is dropped. -/
def lookUp (s : Searcher) (now : Instant) (generation : Nat) (r : SearchRequest) :
    Searcher × Option SearchResponse :=
  match s.cache.peek? r.key with
  | none => (s, none)
  | some kept =>
      if kept.expiresAt.before now || kept.generation != generation then
        (⟨s.cache.erase r.key⟩, none)
      else (⟨s.cache.touch r.key⟩, some kept.response)

def keep (s : Searcher) (now : Instant) (generation : Nat) (r : SearchRequest)
    (response : SearchResponse) : Searcher :=
  ⟨s.cache.insert r.key ⟨response, now.addNanos r.keepFor, generation⟩⟩

/-- Answers a request, and says whether the answer was a kept one.  Empty answers are not kept. -/
def search (s : Searcher) (ix : Index) (live : Bool) (now : Instant) (generation : Nat)
    (r : SearchRequest) : Searcher × Except Fault (SearchResponse × Bool) :=
  match r.validated with
  | .error f => (s, .error f)
  | .ok r =>
      let (s, kept) := if r.useCache then s.lookUp now generation r else (s, none)
      match kept with
      | some response => (s, .ok (response, true))
      | none =>
          match answer ix live r with
          | .error f => (s, .error f)
          | .ok response =>
              (if r.useCache && response.total > 0 then s.keep now generation r response else s,
                .ok (response, false))

def clear (s : Searcher) : Searcher := ⟨s.cache.clear⟩

end Searcher

end CodeAtlas
