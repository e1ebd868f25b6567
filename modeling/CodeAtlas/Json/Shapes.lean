import CodeAtlas.Json.Basic
import CodeAtlas.Model.Project
import CodeAtlas.Model.Symbol

/-!
The JSON shapes of symbols, references, usages, projects and files.  What is missing in a shape that is
read is empty.
-/

namespace CodeAtlas

open Json (int strings)

/-- A member that is left out when its text is empty. -/
def optionalText (key value : String) : List (String × Json) :=
  if value == "" then [] else [(key, .string value)]

def Position.toJson (p : Position) : Json :=
  .object [("line", int p.line), ("column", int p.column)]

def Location.toJson (l : Location) : Json :=
  .object [("file_id", .string l.fileId), ("start", l.first.toJson), ("end", l.last.toJson)]

def Symbol.toJson (s : Symbol) : Json :=
  .object ([("id", .string s.id), ("file_id", .string s.fileId), ("name", .string s.name),
    ("kind", .string s.kind.name), ("start", s.first.toJson), ("end", s.last.toJson)] ++
    optionalText "signature" s.signature ++ optionalText "scope" s.scope ++
    optionalText "namespace" s.space ++
    (if s.tags.isEmpty then [] else [("tags", strings s.tags)]))

def Reference.toJson (r : Reference) : Json :=
  .object [("id", .string r.id), ("symbol_id", .string r.symbolId), ("file_id", .string r.fileId),
    ("location", r.location.toJson), ("kind", .string r.kind.name), ("context", .string r.context)]

def Usage.toJson (u : Usage) : Json :=
  .object [("name", .string u.name), ("location", u.location.toJson), ("kind", .string u.kind.name),
    ("context", .string u.context)]

def Instant.toJson (t : Instant) : Json := .string t.toText

def Project.toJson (p : Project) : Json :=
  .object ([("id", .string p.id), ("name", .string p.name), ("root_path", .string p.rootPath)] ++
    optionalText "description" p.description ++
    [("indexed", .bool p.indexed), ("last_indexed", p.lastIndexed.toJson),
      ("repository_kind", .string p.repositoryKind)] ++
    optionalText "branch" p.branch ++ optionalText "remote_url" p.remoteUrl ++
    [("created_at", p.createdAt.toJson)])

def IndexedFile.toJson (f : IndexedFile) : Json :=
  .object [("id", .string f.id), ("project_id", .string f.projectId), ("path", .string f.path),
    ("relative_path", .string f.relativePath), ("file_type", .string f.fileType.name),
    ("language", .string f.language.name), ("size", int f.size), ("line_count", int f.lineCount),
    ("last_modified", f.lastModified.toJson), ("last_indexed", f.lastIndexed.toJson),
    ("checksum", .string f.checksum), ("encoding", .string f.encoding)]

namespace Json

def position (value : Json) : Position := ⟨value.whole "line", value.whole "column"⟩

def location (value : Json) : Location :=
  ⟨value.text "file_id", (value.field "start").position, (value.field "end").position⟩

def symbol (value : Json) : Symbol where
  id := value.text "id"
  fileId := value.text "file_id"
  name := value.text "name"
  kind := .ofName (value.text "kind")
  first := (value.field "start").position
  last := (value.field "end").position
  signature := value.text "signature"
  scope := value.text "scope"
  space := value.text "namespace"
  tags := value.texts "tags"

def reference (value : Json) : Reference :=
  ⟨value.text "id", value.text "symbol_id", value.text "file_id", (value.field "location").location,
    .ofName (value.text "kind"), value.text "context"⟩

def usage (value : Json) : Usage :=
  ⟨value.text "name", (value.field "location").location, .ofName (value.text "kind"),
    value.text "context"⟩

def instant (value : Json) (key : String) : Instant := .ofText (value.text key)

def project (value : Json) : Project where
  id := value.text "id"
  name := value.text "name"
  rootPath := value.text "root_path"
  description := value.text "description"
  indexed := value.isTrue "indexed"
  lastIndexed := value.instant "last_indexed"
  repositoryKind := value.text "repository_kind"
  branch := value.text "branch"
  remoteUrl := value.text "remote_url"
  createdAt := value.instant "created_at"

def indexedFile (value : Json) : IndexedFile where
  id := value.text "id"
  projectId := value.text "project_id"
  path := value.text "path"
  relativePath := value.text "relative_path"
  fileType := ⟨value.text "file_type"⟩
  language := ⟨value.text "language"⟩
  size := value.whole "size"
  lineCount := value.whole "line_count"
  lastModified := value.instant "last_modified"
  lastIndexed := value.instant "last_indexed"
  checksum := value.text "checksum"
  encoding := value.text "encoding"

end Json

end CodeAtlas
