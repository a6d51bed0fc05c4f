import DocComment.Text.Search

/-! The arguments of the command. Options and files mix freely, two hyphens end the options, and
the first thing that is wrong, or the first request for help, decides. -/
namespace DocComment

structure Options where
  files : List Text := []
  output : Option Text := none
  ns : Option Text := none
deriving DecidableEq, Repr

inductive Command where
  | help
  | convert (options : Options)
deriving DecidableEq, Repr

/-- An option that takes a value. -/
inductive Setting where
  | output
  | ns
deriving DecidableEq, Repr

inductive UsageError where
  | unknown (argument : Text)
  | repeated (setting : Setting)
  | missing (setting : Setting)
  | empty (setting : Setting)
deriving DecidableEq, Repr

/-- What an argument is where options are still looked for. -/
inductive Argument where
  | file (name : Text)
  | endOfOptions
  | help
  | setting (s : Setting) (value : Option Text)
  | unknown
deriving DecidableEq, Repr

namespace Setting

def letter : Setting → Char
  | .output => 'o'
  | .ns => 'n'

def name : Setting → Text
  | .output => "output".toList
  | .ns => "namespace".toList

def all : List Setting := [.output, .ns]

end Setting

def Argument.ofLong (body : Text) : Argument :=
  let name := body.takeWhile (· ≠ '=')
  let value := if '=' ∈ body then some (body.drop (name.length + 1)) else none
  if name = "help".toList && value.isNone then .help
  else
    match Setting.all.find? fun s => s.name = name with
    | some s => .setting s value
    | none => .unknown

/-- Reads a short option from its letter on. A value may follow at once or behind an equals sign. -/
def Argument.ofShort (letter : Char) (rest : Text) : Argument :=
  if letter = 'h' then .help
  else
    match Setting.all.find? fun s => s.letter = letter with
    | none => .unknown
    | some s =>
      match rest with
      | [] => .setting s none
      | '=' :: value => .setting s (some value)
      | value => .setting s (some value)

def Argument.read : Text → Argument
  | ['-', '-'] => .endOfOptions
  | '-' :: '-' :: body => .ofLong body
  | '-' :: letter :: rest => .ofShort letter rest
  | name => .file name

/-- A single hyphen is a file or a value like any other. -/
def startsOption (arg : Text) : Bool := arg.head? = some '-' && arg ≠ ['-']

namespace Options

/-- Only a namespace may be empty, and neither setting is given twice. -/
def assign (o : Options) (s : Setting) (value : Text) : Except UsageError Options :=
  match s with
  | .output =>
    if value = [] then .error (.empty s)
    else if o.output.isSome then .error (.repeated s)
    else .ok { o with output := some value }
  | .ns => if o.ns.isSome then .error (.repeated s) else .ok { o with ns := some value }

def readFrom (o : Options) : List Text → Except UsageError Command
  | [] => .ok (.convert o)
  | arg :: args =>
    match Argument.read arg with
    | .file name => readFrom { o with files := o.files ++ [name] } args
    | .endOfOptions => .ok (.convert { o with files := o.files ++ args })
    | .help => .ok .help
    | .unknown => .error (.unknown arg)
    | .setting s (some value) => do readFrom (← o.assign s value) args
    | .setting s none =>
      match args with
      | [] => .error (.missing s)
      | value :: args =>
        if startsOption value then .error (.missing s) else do readFrom (← o.assign s value) args

end Options

def Command.read (args : List Text) : Except UsageError Command := Options.readFrom {} args

def Command.usage : Text := "Usage: xqdoc [OPTIONS] [FILES]...\n".toList

def Command.helpText : Text :=
  "Convert xqDoc comment blocks into xqDoc XML\n\n".toList ++ Command.usage ++
  "\nArguments:\n".toList ++
  "  [FILES]...  Input files (glob patterns supported). If omitted, reads from stdin\n".toList ++
  "\nOptions:\n".toList ++
  "  -o, --output <OUTPUT>        Output directory (required when files are given)\n".toList ++
  "  -n, --namespace <NAMESPACE>  Namespace prefix for the generated elements, ".toList ++
  "e.g. \"xqdoc\"\n  -h, --help                   Print help\n".toList

def UsageError.message : UsageError → Text
  | .unknown argument => "unexpected argument '".toList ++ argument ++ ['\'']
  | .repeated s => "--".toList ++ s.name ++ " cannot be used multiple times".toList
  | .missing s => "a value is required for --".toList ++ s.name
  | .empty s => "the value for --".toList ++ s.name ++ " is empty".toList

def UsageError.exitCode : Nat := 2

example : Command.read ["a".toList, "-n=".toList, "-oout".toList, "-".toList] =
    .ok (.convert ⟨["a".toList, "-".toList], some "out".toList, some []⟩) := rfl

example : [Command.read ["-n".toList, "-o".toList], Command.read ["--output=".toList],
      Command.read ["-na".toList, "-nb".toList], Command.read ["--out=x".toList]] =
    [.error (.missing .ns), .error (.empty .output), .error (.repeated .ns),
      .error (.unknown "--out=x".toList)] := rfl

end DocComment
