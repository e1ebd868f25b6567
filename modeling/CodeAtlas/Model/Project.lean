import CodeAtlas.Model.Instant
import CodeAtlas.Model.Language
import CodeAtlas.Uuid

/-!
Projects and their files.
-/

namespace CodeAtlas

/-- A registered source tree.  The kind of repository found at its root is kept by name. -/
structure Project where
  id : String
  name : String
  rootPath : String
  description : String
  indexed : Bool
  lastIndexed : Instant
  repositoryKind : String
  branch : String
  remoteUrl : String
  createdAt : Instant
  deriving DecidableEq, Repr, Inhabited

/-- A file of a project as it was last indexed. -/
structure IndexedFile where
  id : String
  projectId : String
  path : String
  relativePath : String
  fileType : FileType
  language : Language
  size : Int
  lineCount : Int
  lastModified : Instant
  lastIndexed : Instant
  checksum : String
  encoding : String
  deriving DecidableEq, Repr, Inhabited

def fileNames : Uuid :=
  ⟨[0xb7, 0xe2, 0xf4, 0xa0, 0x3c, 0x1d, 0x4e, 0x8b, 0x9a, 0x52, 0x7d, 0x6c, 0x0f, 0x1e, 0x9b, 0x34]⟩

def fileKey (projectId relativePath : String) : String :=
  projectId ++ "\x00" ++ relativePath

/-- The identifier of a file, the same whenever project and path are. -/
def fileId (projectId relativePath : String) : String :=
  (Uuid.ofName fileNames (fileKey projectId relativePath)).toString

end CodeAtlas
