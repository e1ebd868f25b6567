import CodeAtlas.Model.Project
import CodeAtlas.Model.Symbol
import CodeAtlas.Path.Basic

/-!
Documents: what the index holds of one file.
-/

namespace CodeAtlas

structure Document where
  file : IndexedFile
  content : String
  symbols : List Symbol
  references : List Reference
  deriving DecidableEq, Repr, Inhabited

namespace Document

def name (d : Document) : String := Path.base d.file.relativePath

def extension (d : Document) : String := dropPrefix "." (Path.extension d.file.relativePath)

end Document

end CodeAtlas
