import CodeAtlas.Cli.Flag
import CodeAtlas.Text.Blank
import CodeAtlas.Text.Decimal

/-!
The commands of the program.
-/

namespace CodeAtlas

inductive ArgumentRule where
  | none
  | exactly (count : Nat)
  | atLeast (count : Nat)
  | atMost (count : Nat)
  | any
  deriving DecidableEq, Repr

/-- A command; `above` are the commands between the program and it, and `runs` says whether it does
anything by itself. -/
structure Command where
  name : String
  above : List String := []
  usage : String
  aliases : List String
  summary : String
  description : String
  rule : ArgumentRule
  flags : List Flag
  exclusive : List (String × String)
  runs : Bool
  isListed : Bool := true
  /-- Whether flags are read; if not, all words are arguments. -/
  readsFlags : Bool := true
  mentionsFlags : Bool := true
  deriving DecidableEq, Repr

namespace Command

def program : String := "codeindex"

def textFlag (name usage : String) : Flag := ⟨name, none, .text, usage, ""⟩

def switchFlag (name usage : String) : Flag := ⟨name, none, .switch, usage, "false"⟩

def integerFlag (name usage : String) (standard : Int) : Flag :=
  ⟨name, none, .integer, usage, toString standard⟩

def helpFlag (name : String) : Flag := ⟨"help", some 'h', .switch, "help for " ++ name, "false"⟩

def versionFlag : Flag := ⟨"version", some 'v', .switch, "version for " ++ program, "false"⟩

def globalFlags : List Flag :=
  [textFlag "db"
      "Index database path (env CODEINDEX_DB_PATH, default ~/.codeindex/index.db)",
    integerFlag "workers" "Parse workers (env CODEINDEX_WORKERS, default: number of CPUs)" 0,
    textFlag "log-level"
      "Log level: debug, info, warn, error (env CODEINDEX_LOG_LEVEL, default info)",
    textFlag "format" "Output format: human or json (default: human on a terminal)",
    switchFlag "no-ctags" "Never fall back to universal-ctags"]

def lines (text : List String) : String := "\n".intercalate text

def root : Command where
  name := program
  usage := program
  aliases := []
  summary := "Multi-language code indexing and search"
  description := lines [
    "codeindex classifies, parses and cross-references source trees and keeps",
    "a full-text index of them.", "",
    "Register a project, index it, then search it or inspect its symbol graph:",
    "  codeindex add ~/src/shop --index",
    "  codeindex search \"checkout total\" --language go",
    "  codeindex graph shop --symbol CalculateTotal", "",
    "Run \"codeindex serve\" to expose the same operations to MCP clients over stdio."]
  rule := .any
  flags := globalFlags
  exclusive := []
  runs := false

def serve : Command where
  name := "serve"
  usage := "serve"
  aliases := []
  summary := "Run the MCP server on stdio"
  description := lines [
    "Run the Model Context Protocol server on stdin/stdout. Logs go to stderr.", "",
    "Configure it in an MCP client:",
    "  \x7b",
    "    \"mcpServers\": \x7b",
    "      \"codeindex\": \x7b",
    "        \"command\": \"codeindex\",",
    "        \"args\": [\"serve\"],",
    "        \"env\": \x7b\"CODEINDEX_DB_PATH\": \"/home/me/.codeindex/index.db\"\x7d",
    "      \x7d",
    "    \x7d",
    "  \x7d"]
  rule := .none
  flags := []
  exclusive := []
  runs := true

def add : Command where
  name := "add"
  usage := "add <path>"
  aliases := []
  summary := "Register a source tree as a project"
  description := lines [
    "Register a source tree as a project. Registering a root that is already",
    "known prints the existing project.", "",
    "Examples:",
    "  codeindex add .",
    "  codeindex add ~/src/shop --name shop --index"]
  rule := .exactly 1
  flags := [textFlag "name" "Display name (default: directory name)",
    textFlag "description" "Free-form description",
    switchFlag "index" "Index the project right after registering it"]
  exclusive := []
  runs := true

def runDescription (summary : String) : String :=
  lines [summary ++ ". The project may be given by id, root path or name.",
    "Interrupting the run leaves the previous index untouched."]

def index : Command where
  name := "index"
  usage := "index <project>"
  aliases := []
  summary := "Index a project incrementally"
  description := runDescription "Index a project incrementally"
  rule := .exactly 1
  flags := []
  exclusive := []
  runs := true

def reindex : Command where
  name := "reindex"
  usage := "reindex <project>"
  aliases := []
  summary := "Discard a project's index and rebuild it"
  description := runDescription "Discard a project's index and rebuild it"
  rule := .exactly 1
  flags := []
  exclusive := []
  runs := true

def remove : Command where
  name := "remove"
  usage := "remove <project>"
  aliases := ["rm"]
  summary := "Remove a project and everything indexed for it"
  description := ""
  rule := .exactly 1
  flags := []
  exclusive := []
  runs := true

def projects : Command where
  name := "projects"
  usage := "projects"
  aliases := ["ls"]
  summary := "List registered projects"
  description := ""
  rule := .none
  flags := []
  exclusive := []
  runs := true

def stats : Command where
  name := "stats"
  usage := "stats"
  aliases := []
  summary := "Show totals across all projects"
  description := ""
  rule := .none
  flags := []
  exclusive := []
  runs := true

def search : Command where
  name := "search"
  usage := "search <query>"
  aliases := []
  summary := "Search indexed files or symbols"
  description := lines [
    "Search indexed files with BM25 ranking and print a snippet around the",
    "best matching line of each hit. With --symbols, search declarations by name,",
    "signature and scope instead. With --references, list where symbols with",
    "exactly the given name are used.", "",
    "Examples:",
    "  codeindex search \"checkout total\"",
    "  codeindex search 'parse*' --language rust --glob 'src/*'",
    "  codeindex search Handler --symbols --kind interface",
    "  codeindex search --symbols --kind struct --project shop",
    "  codeindex search Checkout --references --project shop"]
  rule := .atMost 1
  flags := [textFlag "project" "Restrict results to one project (id, root path or name)",
    textFlag "language" "Restrict text results to one language",
    textFlag "glob" "Restrict text results to project-relative paths matching a glob",
    switchFlag "symbols" "Search symbol declarations instead of file content",
    textFlag "kind" "Restrict symbol results to one kind (implies --symbols)",
    switchFlag "references" "List usages of symbols with exactly this name",
    textFlag "ref-kind" "Restrict references to one kind (implies --references)",
    integerFlag "limit" "Maximum number of results" 10,
    integerFlag "context" "Lines of context around a text match" 2]
  exclusive := [("ref-kind", "kind"), ("ref-kind", "symbols"), ("references", "kind"),
    ("references", "symbols")]
  runs := true

def graph : Command where
  name := "graph"
  usage := "graph <project>"
  aliases := []
  summary := "Analyze the symbol graph of a project"
  description := lines [
    "Build the cross-reference graph of an indexed project and report its",
    "dependency cycles, layers and most coupled symbols. With --symbol, list what a",
    "symbol depends on and what depends on it.", "",
    "Usages are not stored in the database, so the project is indexed",
    "incrementally first to recover them; unchanged files are not rewritten.", "",
    "Examples:",
    "  codeindex graph shop",
    "  codeindex graph shop --symbol Cart::Total"]
  rule := .exactly 1
  flags := [integerFlag "top" "Number of most coupled symbols to list" 10,
    textFlag "symbol" "Show dependencies of the symbol with this name or qualified name"]
  exclusive := []
  runs := true

def version : Command where
  name := "version"
  usage := "version"
  aliases := []
  summary := "Print version and build information"
  description := ""
  rule := .none
  flags := []
  exclusive := []
  runs := true

def help : Command where
  name := "help"
  usage := "help [command]"
  aliases := []
  summary := "Help about any command"
  description := lines [
    "Help provides help for any command in the application.",
    "Simply type codeindex help [path to command] for full details."]
  rule := .any
  flags := []
  exclusive := []
  runs := true

def completion : Command where
  name := "completion"
  usage := "completion"
  aliases := []
  summary := "Generate the autocompletion script for the specified shell"
  description := lines [
    "Generate the autocompletion script for codeindex for the specified shell.",
    "See each sub-command's help for details on how to use the generated script."]
  rule := .none
  flags := []
  exclusive := []
  runs := false

def shell (name : String) (guide : List String) : Command where
  name
  above := ["completion"]
  usage := name
  aliases := []
  summary := "Generate the autocompletion script for " ++ name
  description := lines guide
  rule := .none
  flags := [switchFlag "no-descriptions" "disable completion descriptions"]
  exclusive := []
  runs := true

def sessions (now : String) (always : List String) : List String :=
  ["", "To load completions in your current shell session:", "", "\t" ++ now, "",
    "To load completions for every new session, execute once:", ""] ++ always ++ ["",
    "You will need to start a new shell for this setup to take effect."]

def bash : Command :=
  { shell "bash" (["Generate the autocompletion script for the bash shell.", "",
      "This script depends on the 'bash-completion' package.",
      "If it is not installed already, you can install it via your OS's package manager."] ++
      sessions "source <(codeindex completion bash)" ["#### Linux:", "",
        "\tcodeindex completion bash > /etc/bash_completion.d/codeindex", "", "#### macOS:", "",
        "\tcodeindex completion bash > $(brew --prefix)/etc/bash_completion.d/codeindex"]) with
    mentionsFlags := false }

def fish : Command :=
  shell "fish" ("Generate the autocompletion script for the fish shell." ::
    sessions "codeindex completion fish | source"
      ["\tcodeindex completion fish > ~/.config/fish/completions/codeindex.fish"])

def powershell : Command :=
  shell "powershell" ["Generate the autocompletion script for powershell.", "",
    "To load completions in your current shell session:", "",
    "\tcodeindex completion powershell | Out-String | Invoke-Expression", "",
    "To load completions for every new session, add the output of the above command",
    "to your powershell profile."]

def zsh : Command :=
  shell "zsh" (["Generate the autocompletion script for the zsh shell.", "",
      "If shell completion is not already enabled in your environment you will need",
      "to enable it.  You can execute the following once:", "",
      "\techo \"autoload -U compinit; compinit\" >> ~/.zshrc"] ++
    sessions "source <(codeindex completion zsh)" ["#### Linux:", "",
      "\tcodeindex completion zsh > \"$\x7bfpath[1]\x7d/_codeindex\"", "", "#### macOS:", "",
      "\tcodeindex completion zsh > $(brew --prefix)/share/zsh/site-functions/_codeindex"])

/-- A command by which shells ask how words may go on. -/
def request (name : String) : Command where
  name
  usage := name ++ " [command-line]"
  aliases := []
  summary := "Request shell completion choices for the specified command-line"
  description := lines [
    name ++ " is a special command that is used by the shell completion logic",
    "to request completion choices for the specified command-line."]
  rule := .atLeast 1
  flags := []
  exclusive := []
  runs := true
  isListed := false
  readsFlags := false
  mentionsFlags := false

def complete : Command := request "__complete"

def completeNames : Command := request "__completeNoDesc"

/-- The commands below the program itself that are listed. -/
def all : List Command :=
  [serve, add, index, reindex, remove, projects, stats, search, graph, version, help, completion]

def isRoot (c : Command) : Bool := c.name == program

def children (c : Command) : List Command :=
  if c.isRoot then all ++ [complete, completeNames]
  else if c.name == completion.name then [bash, zsh, fish, powershell]
  else []

def listed (c : Command) : List Command :=
  (c.children.filter (·.isListed)).mergeSort fun a b => a.name ≤ b.name

/-- The command with the words before it. -/
def path (c : Command) : String :=
  if c.isRoot then program else " ".intercalate (program :: c.above ++ [c.name])

def declaredFlags (c : Command) : List Flag := c.flags ++ if c.isRoot then [] else globalFlags

/-- The flags that a command has before it declares any. -/
def givenFlags (c : Command) : List Flag :=
  if !c.readsFlags then [] else helpFlag c.name :: if c.isRoot then [versionFlag] else []

def allFlags (c : Command) : List Flag := c.givenFlags ++ c.declaredFlags

/-- Whether a word is a flag that takes the next word as its value.  So are unknown ones. -/
def takesNext (flags : List Flag) (word : String) : Bool :=
  !word.toList.contains '=' && match word.toList with
    | '-' :: '-' :: name =>
        !flags.any fun f => f.name == String.ofList name && f.kind == .switch
    | ['-', c] => isAscii c && !flags.any fun f => f.letter == some c && f.kind == .switch
    | _ => false

/-- The words that are neither flags nor their values. -/
def plainWords (flags : List Flag) : List String → List String
  | [] => []
  | [word] => if word == "" || hasPrefix "-" word then [] else [word]
  | word :: next :: rest =>
      if word == "--" then []
      else if takesNext flags word then (if rest.isEmpty then [] else plainWords flags rest)
      else if word == "" || hasPrefix "-" word then plainWords flags (next :: rest)
      else word :: plainWords flags (next :: rest)

def withoutWord (flags : List Flag) (name : String) : List String → List String
  | [] => []
  | [word] => if word == name then [] else [word]
  | word :: next :: rest =>
      if word == "--" then word :: next :: rest
      else if takesNext flags word then word :: next :: withoutWord flags name rest
      else if word == name then next :: rest
      else word :: withoutWord flags name (next :: rest)

def named? (c : Command) (name : String) : Option Command :=
  c.children.find? fun child => child.name == name || child.aliases.contains name

/-- The least number of bytes to insert, drop or replace, row by row; `row` is the distances to the
starts of the second text. -/
def distanceFrom (row : List Nat) (other : List UInt8) : List UInt8 → List Nat
  | [] => row
  | c :: rest =>
      let first := (row.head?.getD 0) + 1
      let next := (other.zip (row.zip (row.drop 1))).foldl (fun (done, left) (d, diagonal, above) =>
        let cost := min (min (left + 1) (above + 1)) (if c == d then diagonal else diagonal + 1)
        (done ++ [cost], cost)) ([first], first)
      distanceFrom next.1 other rest

def distance (a b : String) : Nat :=
  let other := b.toUTF8.toList
  ((distanceFrom (List.range (other.length + 1)) other a.toUTF8.toList).getLast?).getD 0

def suggestions (word : String) : List String :=
  (all.filter fun c => c.name != "help" &&
    (distance (lowerText word) c.name ≤ 2 || hasPrefix (lowerText word) c.name)).map (·.name)

def unknown (word : String) : String :=
  let near := suggestions word
  "unknown command " ++ quoted word ++ " for " ++ quoted program ++
    if near.isEmpty then ""
    else "\n\nDid you mean this?\n" ++ String.join (near.map fun n => "\t" ++ n ++ "\n")

def next? (c : Command) (words : List String) : Option (Command × List String) :=
  match plainWords c.declaredFlags words with
  | [] => none
  | word :: _ => (c.named? word).map fun child => (child, withoutWord c.declaredFlags word words)

/-- The command that words call for, with the words that are left for it.  Commands are at most two
deep. -/
def find (words : List String) : Except String (Command × List String) :=
  match root.next? words, plainWords root.declaredFlags words with
  | some (c, rest), _ => .ok ((c.next? rest).getD (c, rest))
  | none, [] => .ok (root, words)
  | none, word :: _ => .error (unknown word)

def complaint? (c : Command) (arguments : List String) : Option String :=
  let n := arguments.length
  match c.rule, arguments with
  | .none, word :: _ => some ("unknown command " ++ quoted word ++ " for " ++ quoted c.path)
  | .exactly k, _ => if n == k then none else some s!"accepts {k} arg(s), received {n}"
  | .atLeast k, _ =>
      if k ≤ n then none else some s!"requires at least {k} arg(s), only received {n}"
  | .atMost k, _ => if n ≤ k then none else some s!"accepts at most {k} arg(s), received {n}"
  | _, _ => none

/-- The first pair of flags that were both given though they exclude each other. -/
def conflict? (c : Command) (p : ParsedFlags) : Option String :=
  (c.exclusive.find? fun (a, b) => p.isGiven a && p.isGiven b).map fun (a, b) =>
    let given := " ".intercalate ([a, b].mergeSort (· ≤ ·))
    s!"if any flags in the group [{a} {b}] are set none of the others can be; [{given}] were all set"

end Command

/-!
The help texts of commands.
-/

namespace Flag

def head (f : Flag) : String :=
  (match f.letter with
    | some c => "  -" ++ String.singleton c ++ ", --" ++ f.name
    | none => "      --" ++ f.name) ++
  match f.kind with
  | .text => " string"
  | .integer => " int"
  | .switch => ""

def isPlain (f : Flag) : Bool :=
  match f.kind with
  | .text => f.standard == ""
  | .integer => f.standard == "0"
  | .switch => f.standard == "false"

def table (flags : List Flag) : String :=
  let sorted := flags.mergeSort fun a b => a.name ≤ b.name
  let width := (sorted.map fun f => f.head.length).foldl max 0 + 3
  "\n".intercalate (sorted.map fun f =>
    f.head ++ String.ofList (List.replicate (width - f.head.length) ' ') ++ f.usage ++
      if f.isPlain then "" else " (default " ++ f.standard ++ ")")

end Flag

namespace Command

def minPadding : Nat := 11

def commandTable (commands : List Command) : String :=
  let width := (commands.map fun c => c.name.length).foldl max minPadding
  String.join (commands.map fun c =>
    "\n  " ++ c.name ++ String.ofList (List.replicate (width - c.name.length) ' ') ++ " " ++ c.summary)

def usageLine (c : Command) : String :=
  " ".intercalate (program :: c.above ++ [c.usage]) ++ if c.mentionsFlags then " [flags]" else ""

def usageWith (c : Command) (flags : List Flag) : String :=
  let below := c.listed
  "Usage:" ++
  (if c.runs then "\n  " ++ c.usageLine else "") ++
  (if below.isEmpty then "" else "\n  " ++ c.path ++ " [command]") ++
  (if c.aliases.isEmpty then ""
    else "\n\nAliases:\n  " ++ ", ".intercalate (c.name :: c.aliases)) ++
  (if below.isEmpty then "" else "\n\nAvailable Commands:" ++ commandTable below) ++
  "\n\nFlags:\n" ++ Flag.table flags ++
  (if c.isRoot then "" else "\n\nGlobal Flags:\n" ++ Flag.table globalFlags) ++
  (if below.isEmpty then ""
    else "\n\nUse \"" ++ c.path ++ " [command] --help\" for more information about a command.") ++
  "\n"

def usageText (c : Command) : String := c.usageWith (c.givenFlags ++ c.flags)

def helpText (c : Command) : String :=
  (if c.description == "" then c.summary else c.description) ++ "\n\n" ++ c.usageText

/-- A word of a command line between backquotes, or between double quotes if it has signs that cannot
stand there. -/
def topic (word : String) : String :=
  let isPlain (c : Char) : Bool :=
    c == '\t' || (c.toNat ≥ 0x20 && c.toNat != 0x7F && c.toNat != 0x60 && c.toNat != 0xFEFF)
  if word.toList.all isPlain then "\x60" ++ word ++ "\x60" else quoted word

/-- The answer to a request for help.  The usage of the program is shown for what is no command. -/
def helpOn (words : List String) : String :=
  match find words with
  | .ok (c, _) => if c.isListed then c.helpText else unknownTopic
  | .error _ => unknownTopic
where
  unknownTopic : String := "Unknown help topic [" ++ " ".intercalate (words.map topic) ++ "]\n" ++
    root.usageWith root.flags

end Command

end CodeAtlas
