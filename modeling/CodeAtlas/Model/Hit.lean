import CodeAtlas.Model.Language
import CodeAtlas.Model.Symbol

/-!
Answers of a search.
-/

namespace CodeAtlas

/-- A document that matches a text query; the line is zero if none matches by itself. -/
structure SearchHit where
  rank : Int
  score : Float
  fileId : String
  projectId : String
  path : String
  language : Language
  line : Int
  snippet : String
  deriving Inhabited

inductive HitFault where
  | noFile
  | rankNotPositive
  deriving DecidableEq, Repr

def HitFault.message : HitFault → String
  | noFile => "file info is required"
  | rankNotPositive => "rank must be >= 1"

def SearchHit.fault? (h : SearchHit) : Option HitFault :=
  if h.fileId == "" then some .noFile
  else if h.rank < 1 then some .rankNotPositive
  else none

structure SymbolHit where
  rank : Int
  score : Float
  projectId : String
  path : String
  symbol : Symbol
  deriving Inhabited

structure ReferenceHit where
  rank : Int
  projectId : String
  path : String
  reference : Reference
  symbol : Symbol
  deriving DecidableEq, Repr, Inhabited

end CodeAtlas
