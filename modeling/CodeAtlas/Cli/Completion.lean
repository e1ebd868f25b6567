import CodeAtlas.Cli.Command

/-!
How the last word of a command line may go on.  Shells ask for it while their users type.
-/

namespace CodeAtlas

inductive FileChoice where
  | allowed
  | barred
  deriving DecidableEq, Repr

def FileChoice.number : FileChoice → Nat
  | allowed => 0
  | barred => 4

structure Completion where
  choices : List (String × String)
  files : FileChoice
  deriving DecidableEq, Repr

/-- What the last word is: a word of its own, the value of a flag, or that of a flag that does not
exist. -/
inductive Role where
  | plain
  | value
  | valueOfUnknown
  deriving DecidableEq, Repr

/-- The word that is to be completed: its role, the words before it without the flag whose value it is,
and the part of it that is there. -/
structure Unfinished where
  role : Role
  before : List String
  start : String
  deriving DecidableEq, Repr

namespace Completion

def nothing : Completion := ⟨[], .allowed⟩

def isFlagWord (word : String) : Bool :=
  match word.toList with
  | '-' :: '-' :: _ :: _ => true
  | '-' :: c :: _ => c != '-'
  | _ => false

/-- The name in a word that names a flag: after two hyphens, or else its last letter. -/
def nameIn (word : List Char) : String :=
  match word with
  | '-' :: '-' :: name => String.ofList name
  | _ => String.ofList (word.drop (word.length - 1))

def flag? (flags : List Flag) (name : String) : Option Flag :=
  match name.toList with
  | [c] => flags.find? (·.letter == some c)
  | _ => flags.find? (·.name == name)

def afterFlag (flags : List Flag) (words : List String) (whole start : String) : Unfinished :=
  let word := words.getLast?.getD ""
  if isFlagWord word && !word.toList.contains '=' then
    match flag? flags (nameIn word.toList) with
    | none => ⟨.valueOfUnknown, words, whole⟩
    | some f => if f.kind == .switch then ⟨.plain, words, start⟩ else ⟨.value, words.dropLast, start⟩
  else ⟨.plain, words, start⟩

def unfinished (flags : List Flag) (words : List String) (last : String) : Unfinished :=
  match hasPrefix "-" last, last.toList.dropWhile (· != '=') with
  | false, _ => afterFlag flags words last last
  | true, [] => ⟨.plain, words, last⟩
  | true, _ :: value =>
      match nameIn (last.toList.takeWhile (· != '=')) with
      | "" => afterFlag flags words last (String.ofList value)
      | name => if (flag? flags name).isSome then ⟨.value, words, String.ofList value⟩
          else ⟨.valueOfUnknown, words, last⟩

/-- Flags that are not to be given any more: those that were, and those that exclude one that was. -/
def isSpent (c : Command) (p : ParsedFlags) (name : String) : Bool :=
  p.isGiven name || c.exclusive.any fun (a, b) =>
    (a == name && p.isGiven b) || (b == name && p.isGiven a)

/-- A flag by its name and by its letter, as far as they begin with a text. -/
def flagChoices (start : String) (f : Flag) : List (String × String) :=
  let spellings := ("--" ++ f.name) :: (f.letter.map fun c => "-" ++ String.singleton c).toList
  (spellings.filter (hasPrefix start)).map (·, f.usage)

/-- The flags that begin with a text: first those of the commands above, then those of the command. -/
def flagsFrom (c : Command) (p : ParsedFlags) (start : String) : List (String × String) :=
  let inherited := if c.isRoot then [] else Command.globalFlags
  let sorted (flags : List Flag) : List Flag := flags.mergeSort fun a b => a.name ≤ b.name
  ((sorted inherited ++ sorted (c.givenFlags ++ c.flags)).filter fun f => !isSpent c p f.name).flatMap
    (flagChoices start)

def commandsFrom (c : Command) (start : String) : List (String × String) :=
  (c.listed.filter fun child => hasPrefix start child.name).map fun child =>
    (child.name, child.summary)

def offered? (c : Command) (arguments : List String) (start : String) : Option Completion :=
  if c.name == Command.help.name then
    some ⟨((Command.find arguments).toOption.map fun (topic, _) => commandsFrom topic start).getD [],
      .barred⟩
  else if c.name == Command.completion.name || c.above.contains Command.completion.name then
    some ⟨[], .barred⟩
  else none

def below (c : Command) (arguments : List String) (start : String) : Completion :=
  if arguments.isEmpty && !c.listed.isEmpty then ⟨commandsFrom c start, .barred⟩ else nothing

def argument (c : Command) (arguments : List String) (start : String) : Completion :=
  let commands := below c arguments start
  match offered? c arguments start with
  | some own => ⟨commands.choices ++ own.choices, own.files⟩
  | none => commands

/-- Whether the flags are over before the last word. -/
def flagsAreOver (flags : List Flag) (words : List String) (p : ParsedFlags) : Bool :=
  match Flag.parse flags (words ++ ["--"]) with
  | .ok q => p.arguments.length < q.arguments.length
  | .error _ => false

def isFlagStart (word : String) : Bool := hasPrefix "-" word && !word.toList.contains '='

/-- The choices for a word of a command whose flags have been read; `isPast` says that no flag may
follow. -/
def ofFlags (c : Command) (p : ParsedFlags) (isPast : Bool) (u : Unfinished) : Completion :=
  match u.role, isPast with
  | .valueOfUnknown, false => nothing
  | _, _ =>
      if p.isGiven "help" || (c.isRoot && p.isGiven "version") then ⟨[], .barred⟩
      else
        match u.role, isPast with
        | .value, false => nothing
        | .value, true => (offered? c p.arguments u.start).getD nothing
        | .plain, false =>
            if isFlagStart u.start then ⟨flagsFrom c p u.start, .barred⟩
            else argument c p.arguments u.start
        | _, _ => argument c p.arguments u.start

/-- The choices for the last word of a command line.  Who asks for help or for the version needs no
more. -/
def ofWords (words : List String) : Completion :=
  let last := words.getLast?.getD ""
  match Command.find words.dropLast with
  | .error _ => nothing
  | .ok (c, rest) =>
      if !c.readsFlags then
        if isFlagStart last then ⟨flagsFrom c ⟨[], []⟩ last, .barred⟩ else nothing
      else
        let u := unfinished c.allFlags rest last
        match Flag.parse c.allFlags u.before with
        | .error _ => nothing
        | .ok p => ofFlags c p (flagsAreOver c.allFlags u.before p) u

/-- What shells are told: a choice on each line, then what to do with them. -/
def answer (described : Bool) (words : List String) : String :=
  let found := ofWords words
  String.join (found.choices.map fun (choice, description) =>
    choice ++ (if described then "\t" ++ description else "") ++ "\n") ++
    s!":{found.files.number}\n"

end Completion

end CodeAtlas
