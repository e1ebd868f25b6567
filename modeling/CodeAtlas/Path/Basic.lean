import CodeAtlas.Text.Blank

/-!
Slash-separated paths.
-/

namespace CodeAtlas.Path

def parts (path : String) : List String := splitText '/' path

def joinParts (parts : List String) : String := "/".intercalate parts

/-- The last part of a path that is not empty; a dot for the empty path. -/
def base (path : String) : String :=
  if path == "" then "."
  else
    match (path.toList.reverse.dropWhile (· == '/')) with
    | [] => "/"
    | rest => String.ofList (rest.takeWhile (· != '/')).reverse

def lastPart (path : String) : String :=
  String.ofList (path.toList.reverse.takeWhile (· != '/')).reverse

/-- The end of the last part from its last dot on, if it has one. -/
def extension (path : String) : String :=
  let tail := path.toList.reverse.takeWhile (· != '/')
  match tail.dropWhile (· != '.') with
  | [] => ""
  | _ :: _ => String.ofList ('.' :: (tail.takeWhile (· != '.')).reverse)

def isAbsolute (path : String) : Bool := hasPrefix "/" path

/-- Drops empty parts and dots, and lets two dots take back the part before them; those kept so far
are back to front. -/
def cleanParts (rooted : Bool) : List String → List String → List String
  | done, [] => done.reverse
  | done, part :: rest =>
      if part == "" || part == "." then cleanParts rooted done rest
      else if part == ".." then
        match done with
        | [] => if rooted then cleanParts rooted [] rest else cleanParts rooted [".."] rest
        | ".." :: _ => cleanParts rooted (".." :: done) rest
        | _ :: before => cleanParts rooted before rest
      else cleanParts rooted (part :: done) rest

/-- The shortest path that means the same. -/
def clean (path : String) : String :=
  let rooted := isAbsolute path
  let kept := joinParts (cleanParts rooted [] (parts path))
  if rooted then "/" ++ kept
  else if kept == "" then "."
  else kept

def join (first second : String) : String :=
  if first == "" then (if second == "" then "" else clean second)
  else if second == "" then clean first
  else clean (first ++ "/" ++ second)

def dir (path : String) : String :=
  let before := (path.toList.reverse.dropWhile (· != '/')).reverse
  clean (String.ofList before)

end CodeAtlas.Path

/-!
Addresses of files.  Two slashes at the start lead in the name of a host.  A number sign or a question
mark ends the path in an address, and after a percent sign two hexadecimal digits stand for a byte.
After the question mark stand settings, with ampersands between them.
-/

namespace CodeAtlas.Address

def hexValue? (b : UInt8) : Option Nat :=
  let c := Char.ofNat b.toNat
  if c.isDigit then some (c.toNat - 48)
  else if 'a' ≤ c && c ≤ 'f' then some (c.toNat - 87)
  else if 'A' ≤ c && c ≤ 'F' then some (c.toNat - 55)
  else none

def percent : UInt8 := 0x25

def escaped? : List UInt8 → Option UInt8
  | p :: a :: b :: _ =>
      if p == percent then do
        let high ← hexValue? a
        let low ← hexValue? b
        some (UInt8.ofNat (high * 16 + low))
      else none
  | _ => none

/-- Bytes with escapes undone; `skip` counts the bytes of an escape that is being passed.  A byte of
zero ends the path. -/
def unescape (skip : Nat) : List UInt8 → List UInt8
  | [] => []
  | b :: rest =>
      match skip, escaped? (b :: rest) with
      | skip + 1, _ => unescape skip rest
      | 0, some 0 => []
      | 0, some byte => byte :: unescape 2 rest
      | 0, none => b :: unescape 0 rest

def query (address : String) : List Char := (address.toList.dropWhile (· != '?')).drop 1

def hasWholeEscapes : List UInt8 → Bool
  | [] => true
  | b :: rest => (b != percent || (escaped? (b :: rest)).isSome) && hasWholeEscapes rest

def splitHost : List Char → Option (List Char) × List Char
  | '/' :: '/' :: rest => (some (rest.takeWhile (· != '/')), rest.dropWhile (· != '/'))
  | address => (none, address)

/-- Whether files of the host can be reached: it is this one. -/
def isLocal (address : String) : Bool :=
  match (splitHost address.toList).1 with
  | some host => host.isEmpty || host == "localhost".toList
  | none => true

/-- The values of a setting, for those that allow some only. -/
def allowedValues? (key : String) : Option (List String) :=
  if key == "mode" then some ["ro", "rw", "rwc", "memory"]
  else if key == "cache" then some ["shared", "private"]
  else if key == "vfs" then some ["unix"]
  else if key == "_txlock" then some ["deferred", "immediate", "exclusive"]
  else if key == "_time_format" then some ["sqlite"]
  else if key == "_pragma" then some []
  else none

/-- Whether the settings are allowed ones.  The last one runs into those that every connection has, so
that its value is not the one that is written. -/
def hasAllowedSettings (address : String) : Bool :=
  let settings := splitText '&' (String.ofList (query address))
  (settings.zipIdx 1).all fun (setting, n) =>
    let key := String.ofList (setting.toList.takeWhile (· != '='))
    let value := String.ofList (setting.toList.drop (key.length + 1))
    match allowedValues? key with
    | some values => key == setting || (n < settings.length && values.contains value)
    | none => true

/-- Whether an address can be used: its host is this one, and the part after a question mark has no
semicolons, no stray percent signs, and allowed settings only. -/
def isSound (address : String) : Bool :=
  let query := query address
  isLocal address && !query.contains ';' && hasWholeEscapes (String.ofList query).toUTF8.toList &&
    hasAllowedSettings address

def filePath (address : String) : String :=
  let path := String.ofList
    ((splitHost address.toList).2.takeWhile fun c => c != '?' && c != '#')
  (String.fromUTF8? ⟨(unescape 0 path.toUTF8.toList).toArray⟩).getD path

end CodeAtlas.Address
