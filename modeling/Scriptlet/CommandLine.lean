import Scriptlet.Repl

/-!
# The command line

Arguments are read from left to right. The first one that asks for help or for the version, or that
is wrong, settles the matter. Letters may share one dash, and `--` makes files of all arguments
behind it. A script that fails, or that cannot be read, ends the program also where a prompt was to
follow.
-/
namespace Scriptlet

namespace CommandLine

def helpText : String :=
  "A small expression-oriented scripting language\n\nUsage: tern [OPTIONS] [FILE]\n\n" ++
  "Arguments:\n  [FILE]  The script file to execute\n\nOptions:\n" ++
  "  -i, --interactive   Start in interactive REPL mode (after running FILE, if given)\n" ++
  "  -p, --print-result  Print the script's final value\n" ++
  "  -v, --verbose       Enable debug logging (overridden by RUST_LOG)\n" ++
  "  -h, --help          Print help\n  -V, --version       Print version\n"

def versionText : String := "tern 0.1.0\n"

/-- Options that can be on or off. -/
inductive Flag where
  | interactive | printResult | verbose
  deriving DecidableEq, Repr

/-- What an option asks for. -/
inductive Switch where
  | flag (flag : Flag)
  | help
  | version
  deriving DecidableEq, Repr

namespace Switch

def ofLetter? : Char → Option Switch
  | 'i' => some (flag .interactive)
  | 'p' => some (flag .printResult)
  | 'v' => some (flag .verbose)
  | 'h' => some help
  | 'V' => some version
  | _ => none

def ofWord? : String → Option Switch
  | "interactive" => some (flag .interactive)
  | "print-result" => some (flag .printResult)
  | "verbose" => some (flag .verbose)
  | "help" => some help
  | "version" => some version
  | _ => none

end Switch

structure Options where
  file : Option String := none
  flags : List Flag := []
  deriving DecidableEq, Repr

inductive Misuse where
  | unknownOption (text : String)
  | repeatedFlag (flag : Flag)
  | surplusFile (path : String)
  | emptyFile
  deriving DecidableEq, Repr

/-- What the arguments ask for. -/
inductive Request where
  | help
  | version
  | run (options : Options)
  deriving DecidableEq, Repr

namespace Options

def addFile (options : Options) (path : String) : Except Misuse Options :=
  if options.file.isSome then .error (.surplusFile path)
  else if path.isEmpty then .error .emptyFile
  else .ok { options with file := some path }

/-- Carries out an option, up to a request that settles the matter. -/
def addSwitch (options : Options) : Switch → Except Misuse (Options ⊕ Request)
  | .help => .ok (.inr .help)
  | .version => .ok (.inr .version)
  | .flag flag =>
    if flag ∈ options.flags then .error (.repeatedFlag flag)
    else .ok (.inl { options with flags := flag :: options.flags })

/-- The letters behind one dash. -/
def addLetters (options : Options) : List Char → Except Misuse (Options ⊕ Request)
  | [] => .ok (.inl options)
  | letter :: rest =>
    match Switch.ofLetter? letter with
    | none => .error (.unknownOption (String.ofList ['-', letter]))
    | some switch =>
      match options.addSwitch switch with
      | .ok (.inl next) => next.addLetters rest
      | settled => settled

/-- One argument in front of `--`. A dash alone is a file. -/
def addArgument (options : Options) (arg : String) : Except Misuse (Options ⊕ Request) :=
  match arg.toList with
  | '-' :: '-' :: word =>
    match Switch.ofWord? (String.ofList word) with
    | some switch => options.addSwitch switch
    | none => .error (.unknownOption arg)
  | '-' :: letter :: letters => options.addLetters (letter :: letters)
  | _ => (options.addFile arg).map .inl

def readFiles (options : Options) : List String → Except Misuse Request
  | [] => .ok (.run options)
  | path :: rest => do (← options.addFile path).readFiles rest

def read (options : Options) : List String → Except Misuse Request
  | [] => .ok (.run options)
  | arg :: rest =>
    if arg = "--" then options.readFiles rest
    else
      match options.addArgument arg with
      | .error misuse => .error misuse
      | .ok (.inr request) => .ok request
      | .ok (.inl next) => next.read rest

end Options

/-- Why a file cannot be read. -/
inductive FileFault where
  | notFound | isDirectory | notText
  deriving DecidableEq, Repr

namespace FileFault

def reason : FileFault → String
  | notFound => "No such file or directory (os error 2)"
  | isDirectory => "Is a directory (os error 21)"
  | notText => Repl.notText

def notice (path : String) (fault : FileFault) : Notice :=
  .line ("Error reading file '" ++ path ++ "': " ++ fault.reason)

end FileFault

/-- The bytes of a file. -/
abbrev ReadFile := String → Except FileFault ByteArray

def readText (readFile : ReadFile) (path : String) : Except FileFault String := do
  match String.fromUTF8? (← readFile path) with
  | some text => .ok text
  | none => .error .notText

/-- The end of the program, or the point from which it goes on at the prompt. -/
structure Progress where
  notices : List Notice
  machine : Machine
  /-- The exit code, unless the prompt follows. -/
  exit : Option Nat

def success : Nat := 0

def failure : Nat := 1

def misuse : Nat := 2

/-- Runs the script, if one is given. -/
def runFile (setup : Setup) (options : Options) (readFile : ReadFile) (scope : ScopeId)
    (machine : Machine) : Progress :=
  match options.file with
  | none => ⟨[], machine, none⟩
  | some path =>
    match readText readFile path with
    | .error fault => ⟨[fault.notice path], machine, some failure⟩
    | .ok source =>
      let result := Script.runIn setup scope source (some path) machine
      match result.outcome with
      | .value value =>
        let shown :=
          if .printResult ∈ options.flags then result.machine.say (value.render ++ "\n")
          else result.machine
        ⟨result.notices, shown, if .interactive ∈ options.flags then none else some success⟩
      | _ => ⟨result.notices, result.machine, some failure⟩

/-- What happens before the prompt, and the scope that the prompt works in. -/
def start (setup : Setup) (args : List String) (readFile : ReadFile) : ScopeId × Progress :=
  let (scope, machine) := Machine.initial.newGlobalScope
  let progress :=
    match Options.read {} args with
    | .error _ => ⟨[], machine, some misuse⟩
    | .ok .help => ⟨[], machine.say helpText, some success⟩
    | .ok .version => ⟨[], machine.say versionText, some success⟩
    | .ok (.run options) => runFile setup options readFile scope machine
  (scope, progress)

structure Ending where
  exit : Nat
  output : String
  notices : List Notice

/-- The whole program: its arguments, the files it can see and the bytes of its input decide what it
prints and how it ends. -/
def run (setup : Setup) (args : List String) (readFile : ReadFile) (input : List UInt8) : Ending :=
  let (scope, progress) := start setup args readFile
  match progress.exit with
  | some code => ⟨code, progress.machine.sink.written, progress.notices⟩
  | none =>
    let (notices, machine) := Repl.run setup scope input progress.machine
    ⟨success, machine.sink.written, progress.notices ++ notices⟩

end CommandLine

end Scriptlet
