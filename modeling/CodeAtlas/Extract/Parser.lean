import CodeAtlas.Cache.Recent
import CodeAtlas.Digest.Sha
import CodeAtlas.Extract.Basic
import CodeAtlas.Extract.Heuristic
import CodeAtlas.Extract.TagStream
import CodeAtlas.Source.Outline

/-!
The three ways to find symbols, from the most to the least exact.
-/

namespace CodeAtlas

inductive Strategy where
  | syntaxTree
  | tags
  | heuristic
  deriving DecidableEq, Repr, Inhabited

namespace Strategy

def name : Strategy → String
  | syntaxTree => "syntax-tree"
  | tags => "ctags"
  | heuristic => "heuristic"

def ofNumber? : Nat → Option Strategy
  | 0 => some syntaxTree
  | 1 => some tags
  | 2 => some heuristic
  | _ => none

def nameOfNumber (n : Nat) : String :=
  ((ofNumber? n).map name).getD "unknown"

/-- Whether sources of the language are read as syntax trees. -/
def hasSyntaxTree (language : Language) : Bool := language == .go

def first (language : Language) : Strategy :=
  if hasSyntaxTree language then syntaxTree
  else if (tagLanguage? language).isSome then tags
  else heuristic

def chain : Strategy → List Strategy
  | syntaxTree => [syntaxTree, tags, heuristic]
  | tags => [tags, heuristic]
  | heuristic => [heuristic]

end Strategy

/-!
Reading the symbols of files, with a memory of the last result for each file.
-/

structure ParserConfig where
  preferSyntaxTree : Bool
  fallbackToTags : Bool
  cacheResults : Bool
  maxFileSize : Int
  cacheSize : Int
  deriving DecidableEq, Repr, Inhabited

namespace ParserConfig

def defaultMaxFileSize : Int := 1024 * 1024

def defaultCacheSize : Nat := 4096

def standard : ParserConfig :=
  { preferSyntaxTree := true, fallbackToTags := true, cacheResults := true
    maxFileSize := defaultMaxFileSize, cacheSize := defaultCacheSize }

/-- The bound on the size of a file; a bound that is not positive stands for the usual one. -/
def sizeLimit (config : ParserConfig) : Int :=
  if config.maxFileSize ≤ 0 then defaultMaxFileSize else config.maxFileSize

def cacheCapacity (config : ParserConfig) : Nat :=
  if config.cacheSize ≤ 0 then defaultCacheSize else config.cacheSize.toNat

end ParserConfig

structure ParseRequest where
  fileId : String
  path : String
  content : List UInt8
  language : Language
  deriving Inhabited

structure ParseResult where
  strategy : Strategy
  found : FileSymbols
  deriving DecidableEq, Repr, Inhabited

structure TooLarge where
  path : String
  size : Nat
  limit : Int
  deriving DecidableEq, Repr

def TooLarge.message (e : TooLarge) : String :=
  "file exceeds maximum parse size: " ++ e.path ++ " is " ++ toString e.size ++ " bytes (limit " ++
    toString e.limit ++ ")"

/-- A remembered result and the checksum of the content it belongs to. -/
structure CachedParse where
  checksum : String
  result : ParseResult
  deriving Inhabited

structure Parser where
  config : ParserConfig
  tool : Option TagTool
  cache : Recent String CachedParse

namespace Parser

def new (config : ParserConfig) (tool : Option TagTool) : Parser :=
  ⟨config, tool, .empty config.cacheCapacity⟩

def enabled (config : ParserConfig) (tool : Option TagTool) (language : Language) : Strategy → Bool
  | .syntaxTree => config.preferSyntaxTree && Strategy.hasSyntaxTree language
  | .tags => config.fallbackToTags && tool.any (·.supports language)
  | .heuristic => true

/-- Runs one strategy; only the last resort works for a caller that no longer waits. -/
def attempt (tool : Option TagTool) (live : Bool) (language : Language) (content : List UInt8)
    (glyphs : List Glyph) : Strategy → Option Extraction
  | .syntaxTree => if live && language == .go then Source.extract? glyphs else none
  | .tags =>
      if live then
        (tool.bind (·.report language content)).map fun report =>
          ⟨Tag.symbolsOf report (glyphLines glyphs).toArray, []⟩
      else
        none
  | .heuristic => some (Heuristic.extract language glyphs)

def runChain (config : ParserConfig) (tool : Option TagTool) (live : Bool) (language : Language)
    (content : List UInt8) : Strategy × Extraction :=
  let glyphs := glyphsOfBytes content
  let tried := (Strategy.first language).chain.findSome? fun s =>
    if enabled config tool language s then
      (attempt tool live language content glyphs s).map fun e => (s, e)
    else
      none
  tried.getD (.heuristic, Heuristic.extract language glyphs)

def parseFresh (config : ParserConfig) (tool : Option TagTool) (live : Bool) (r : ParseRequest) :
    Except TooLarge ParseResult :=
  let size := r.content.length
  if size > config.sizeLimit then
    .error ⟨r.path, size, config.sizeLimit⟩
  else
    let (strategy, e) := runChain config tool live r.language r.content
    .ok ⟨strategy, e.finish r.fileId⟩

/-- Reads a file; an unchanged content gives the remembered result, marked as such. -/
def parse (p : Parser) (live : Bool) (r : ParseRequest) :
    Except TooLarge (ParseResult × Bool) × Parser :=
  if r.content.length > p.config.sizeLimit then
    (.error ⟨r.path, r.content.length, p.config.sizeLimit⟩, p)
  else
    let sum := checksum r.content
    let p' := { p with cache := p.cache.touch r.fileId }
    let known := (p.cache.peek? r.fileId).filter fun entry =>
      p.config.cacheResults && entry.checksum == sum
    match known with
    | some entry => (.ok (entry.result, true), p')
    | none =>
        match parseFresh p.config p.tool live r with
        | .error e => (.error e, p')
        | .ok result =>
            let cache :=
              if p.config.cacheResults then p'.cache.insert r.fileId ⟨sum, result⟩ else p'.cache
            (.ok (result, false), { p' with cache := cache })

def invalidate (p : Parser) (fileId : String) : Parser :=
  { p with cache := p.cache.erase fileId }

end Parser

end CodeAtlas
