/-!
Languages and categories of files.
-/

namespace CodeAtlas

structure Language where
  name : String
  deriving DecidableEq, Repr, Inhabited, Hashable

namespace Language

def rust : Language := ⟨"rust"⟩
def javascript : Language := ⟨"javascript"⟩
def typescript : Language := ⟨"typescript"⟩
def tsx : Language := ⟨"tsx"⟩
def python : Language := ⟨"python"⟩
def java : Language := ⟨"java"⟩
def c : Language := ⟨"c"⟩
def cpp : Language := ⟨"cpp"⟩
def go : Language := ⟨"go"⟩
def html : Language := ⟨"html"⟩
def css : Language := ⟨"css"⟩
def json : Language := ⟨"json"⟩
def xml : Language := ⟨"xml"⟩
def yaml : Language := ⟨"yaml"⟩
def toml : Language := ⟨"toml"⟩
def markdown : Language := ⟨"markdown"⟩
def shell : Language := ⟨"shell"⟩
def sql : Language := ⟨"sql"⟩
def dockerfile : Language := ⟨"dockerfile"⟩
def makefile : Language := ⟨"makefile"⟩
def cmake : Language := ⟨"cmake"⟩

/-- The language of a file that no rule recognises. -/
def text : Language := ⟨"text"⟩

end Language

/-- The coarse category of a file, by name. -/
structure FileType where
  name : String
  deriving DecidableEq, Repr, Inhabited, Hashable

namespace FileType

def source : FileType := ⟨"source"⟩
def documentation : FileType := ⟨"documentation"⟩
def configuration : FileType := ⟨"configuration"⟩
def data : FileType := ⟨"data"⟩
def binary : FileType := ⟨"binary"⟩
def archive : FileType := ⟨"archive"⟩
def image : FileType := ⟨"image"⟩
def unknown : FileType := ⟨"unknown"⟩

/-- Whether files of the category carry no text worth indexing. -/
def isBinaryLike (t : FileType) : Bool :=
  t == binary || t == archive || t == image

end FileType

end CodeAtlas
