import EcmaSyntax.Options
import EcmaSyntax.Grammar.Program
import EcmaSyntax.Json.Writer
import EcmaSyntax.Print.Program
import EcmaSyntax.Tree.Json
import EcmaSyntax.Unicode.IdentifierRanges

/-!
The command line. A switch is given at most once, one option takes the path of a file, and every
other argument is the path of a program. Arguments are read from left to right, and the first that
decides the answer ends the reading. What the program says about itself lists the switches.

Files are looked up in a function from paths to texts, so that a run depends on its arguments and on
the files alone. What goes wrong with one file does not keep the others from being written.
-/

namespace EcmaSyntax.CommandLine

open EcmaSyntax.Diagnostic EcmaSyntax.Grammar EcmaSyntax.Text EcmaSyntax.Tree

structure Switch where
  name : String
  /-- What the switch does. -/
  purpose : String
deriving DecidableEq, Repr

/-- The switches for the settings of the parser, in the order of the settings. -/
def settingSwitches : List Switch :=
  [⟨"module", "Parse as a module instead of a script"⟩,
    ⟨"next", "Enable syntax that is not yet standard"⟩,
    ⟨"ranges", "Emit `start`, `end` and `range` on every node"⟩,
    ⟨"loc", "Emit `loc` line/column information on every node"⟩,
    ⟨"raw", "Emit `raw` source text on literals"⟩,
    ⟨"preserve-parens", "Keep parenthesized expressions as nodes"⟩,
    ⟨"web-compat", "Accept legacy web syntax (HTML comments, block functions in sloppy mode)"⟩,
    ⟨"jsx", "Parse JSX markup"⟩,
    ⟨"unique-keys-in-patterns", "Reject duplicate keys in destructuring patterns"⟩,
    ⟨"global-return", "Allow `return` at the top level of a script"⟩,
    ⟨"implied-strict", "Start scripts in strict mode"⟩]

/-- The switches for the form of the output. -/
def outputSwitches : List Switch :=
  [⟨"print", "Print regenerated source instead of JSON"⟩,
    ⟨"compact", "Print JSON on a single line"⟩,
    ⟨"comments", "Include collected comments in the JSON output"⟩,
    ⟨"tokens", "Include consumed tokens in the JSON output"⟩]

def switches : List Switch := settingSwitches ++ outputSwitches

/-- Why a command line is refused. -/
inductive Misuse where
  | unknown (argument : String)
  | repeated (name : String)
  | unwantedValue (name value : String)
  | missingValue
  | emptyPath
  | noFile
deriving DecidableEq, Repr

def Misuse.message : Misuse → String
  | .unknown argument => "unexpected argument '" ++ argument ++ "' found"
  | .repeated name => "the argument '--" ++ name ++ "' cannot be used multiple times"
  | .unwantedValue name value =>
    "unexpected value '" ++ value ++ "' for '--" ++ name ++ "' found; no more were expected"
  | .missingValue => "a value is required for '--config <FILE>' but none was supplied"
  | .emptyPath => "a value is required for '<FILE>' but none was supplied"
  | .noFile => "the following required arguments were not provided: <FILE>..."

/-- A single argument by its form. -/
inductive Argument where
  /-- Only paths follow. -/
  | pathsOnly
  | help
  | version
  | switch (name : String)
  /-- The option that names a file of settings, with a value in the same argument or not. -/
  | config (value : Option String)
  | path (text : String)
deriving DecidableEq, Repr

namespace Argument

/-- An argument that takes no value. -/
def withoutValue (name : String) (value : Option String) (argument : Argument) :
    Except Misuse Argument :=
  match value with
  | none => .ok argument
  | some text => .error (.unwantedValue name text)

/-- An argument after its two hyphens, with the value that follows the equals sign. -/
def ofLong (name : String) (value : Option String) : Except Misuse Argument :=
  if name == "config" then .ok (.config value)
  else if name == "help" then withoutValue name value .help
  else if name == "version" then withoutValue name value .version
  else if switches.any (·.name == name) then withoutValue name value (.switch name)
  else .error (.unknown ("--" ++ name))

/-- The form of an argument. Of letters after one hyphen the first decides. -/
def ofText (text : String) : Except Misuse Argument :=
  match text.toList with
  | [] => .error .emptyPath
  | ['-', '-'] => .ok .pathsOnly
  | '-' :: '-' :: long =>
    let name := String.ofList (long.takeWhile (· != '='))
    match long.dropWhile (· != '=') with
    | [] => ofLong name none
    | _ :: value => ofLong name (some (String.ofList value))
  | '-' :: letter :: _ =>
    if letter == 'h' then .ok .help
    else if letter == 'V' then .ok .version
    else .error (.unknown (String.ofList ['-', letter]))
  | _ => .ok (.path text)

end Argument

/-- What a command line gives, apart from requests about the program itself. -/
structure Arguments where
  /-- Names of the switches given. -/
  switches : List String
  config : Option String
  paths : List String
deriving DecidableEq, Repr

namespace Arguments

def none : Arguments := ⟨[], .none, []⟩

def has (arguments : Arguments) (name : String) : Bool := arguments.switches.contains name

/-- The settings that switches turn on. -/
def settings (arguments : Arguments) : Options :=
  Options.ofList (settingSwitches.map fun switch => arguments.has switch.name)

def addSwitch (arguments : Arguments) (name : String) : Except Misuse Arguments :=
  if arguments.has name then .error (.repeated name)
  else .ok { arguments with switches := name :: arguments.switches }

def addPath (arguments : Arguments) (path : String) : Except Misuse Arguments :=
  if path.isEmpty then .error .emptyPath
  else .ok { arguments with paths := arguments.paths ++ [path] }

def setConfig (arguments : Arguments) (path : String) : Except Misuse Arguments :=
  if path.isEmpty then .error .missingValue
  else if arguments.config.isSome then .error (.repeated "config")
  else .ok { arguments with config := some path }

end Arguments

inductive Request where
  | help
  | version
  | run (arguments : Arguments)
deriving DecidableEq, Repr

namespace Request

/-- A run needs some file. -/
def ofArguments (arguments : Arguments) : Except Misuse Request :=
  if arguments.paths.isEmpty then .error .noFile else .ok (.run arguments)

/-- An argument can be the value of the option before it. -/
def isValue (text : String) : Bool :=
  match text.toList with
  | ['-'] => true
  | '-' :: _ => false
  | _ => true

def ofTexts (given : Arguments) : List String → Except Misuse Request
  | [] => ofArguments given
  | text :: rest => do
    match ← Argument.ofText text with
    | .pathsOnly => ofArguments (← rest.foldlM Arguments.addPath given)
    | .help => return .help
    | .version => return .version
    | .switch name => ofTexts (← given.addSwitch name) rest
    | .path path => ofTexts (← given.addPath path) rest
    | .config (some value) => ofTexts (← given.setConfig value) rest
    | .config none =>
      match rest with
      | [] => .error .missingValue
      | value :: rest =>
        if isValue value then ofTexts (← given.setConfig value) rest else .error .missingValue

end Request

def versionText : String := "sable 0.1.0\n"

/-- A line of the table of options: the purposes stand in one column. -/
def helpLine (short form purpose : String) : String :=
  let widest := (switches.map fun switch => switch.name.length + 2).foldl max 0
  "  " ++ short ++ form ++ String.ofList (List.replicate (widest + 2 - form.length) ' ') ++
    purpose ++ "\n"

def helpText : String :=
  "sable - A fast JavaScript parser producing ESTree JSON\n\n" ++
    "Usage: sable [OPTIONS] <FILE>...\n\n" ++
    "Arguments:\n  <FILE>...  JavaScript files to parse\n\n" ++
    "Options:\n" ++
    helpLine "    " "--config <FILE>" "Read parse options from a JSON file" ++
    String.join (switches.map fun switch =>
      helpLine "    " ("--" ++ switch.name) switch.purpose) ++
    helpLine "-h, " "--help" "Print help" ++
    helpLine "-V, " "--version" "Print version"

/-- Why a path gives no text. -/
inductive ReadFault where
  | missing
  | isDirectory
  /-- Something on the way to the file is no directory. -/
  | notDirectory
  | notText
  | other (reason : String)
deriving DecidableEq, Repr

def ReadFault.message : ReadFault → String
  | .missing => "No such file or directory (os error 2)"
  | .isDirectory => "Is a directory (os error 21)"
  | .notDirectory => "Not a directory (os error 20)"
  | .notText => "stream did not contain valid UTF-8"
  | .other reason => reason

abbrev Files := String → Except ReadFault String

/-- There is a file at a path, whether or not it can be read. -/
def Files.isFile (files : Files) (path : String) : Bool :=
  match files path with
  | .ok _ | .error .notText | .error (.other _) => true
  | .error .missing | .error .isDirectory | .error .notDirectory => false

inductive Complaint where
  | misuse (fault : Misuse)
  | unreadable (path : String) (fault : ReadFault)
  | badSettings (error : Options.Error)
  /-- A file holds no program. -/
  | refused (path : String) (report : Report)
deriving DecidableEq, Repr

namespace Complaint

def message : Complaint → String
  | .misuse fault => "error: " ++ fault.message
  | .unreadable path fault => "error: cannot read " ++ path ++ ": " ++ fault.message
  | .badSettings error =>
    "error: " ++ error.message?.getD "invalid options: expected an object of booleans"
  | .refused path report => path ++ ": " ++ report.display

def isRefusal : Complaint → Bool
  | .refused _ _ => true
  | _ => false

def severity (complaint : Complaint) : Nat := if complaint.isRefusal then 1 else 2

end Complaint

/-- What a run writes and what it complains about. -/
structure Outcome where
  output : String
  complaints : List Complaint
deriving DecidableEq, Repr

/-- The exit status is that of the gravest complaint. -/
def Outcome.status (outcome : Outcome) : Nat :=
  (outcome.complaints.map Complaint.severity).foldl max 0

/-- Where settings are looked for when no file is named. -/
def defaultConfig : String := "sable.json"

def readSettings (files : Files) (path : String) : Except Complaint Options :=
  match files path with
  | .error fault => .error (.unreadable path fault)
  | .ok text =>
    match Options.ofText text with
    | .error error => .error (.badSettings error)
    | .ok options => .ok options

/-- The settings of a run: those of a file, with those of the switches. -/
def settings (files : Files) (arguments : Arguments) : Except Complaint Options := do
  let base ← match arguments.config with
    | some path => readSettings files path
    | none =>
      if files.isFile defaultConfig then readSettings files defaultConfig else pure Options.script
  return base.merge arguments.settings

def commentJson (comment : Lexer.Comment) : Json :=
  Json.ofFields [("type", .string comment.kind.name), ("value", .string comment.value),
    ("start", Json.ofNat comment.start), ("end", Json.ofNat comment.stop)]

def tokenJson (record : TokenRecord) : Json :=
  Json.ofFields [("type", .string record.token.category), ("value", .string record.raw),
    ("start", Json.ofNat record.span.start), ("end", Json.ofNat record.span.stop)]

/-- A tree with the comments and tokens that were asked for. -/
def withObservations (arguments : Arguments) (seen : Observations) : Json → Json
  | .object fields =>
    let fields := if arguments.has "comments" then
        Json.insertField "comments" (.array (seen.comments.toList.map commentJson)) fields
      else fields
    let fields := if arguments.has "tokens" then
        Json.insertField "tokens" (.array (seen.tokens.toList.map tokenJson)) fields
      else fields
    .object fields
  | value => value

/-- What is written for the text of a program. -/
def textOutput (arguments : Arguments) (options : Options) (text : String) :
    Except Failure String :=
  match observe options text with
  | (.error failure, _) => .error failure
  | (.ok program, seen) =>
    if arguments.has "print" then .ok (print Print.Style.standard program)
    else
      let tree := program.toJson (NodeFormat.ofOptions options text.toList)
      let document := withObservations arguments seen tree
      .ok ((if arguments.has "compact" then document.compact else document.pretty) ++ "\n")

def fileOutput (files : Files) (arguments : Arguments) (options : Options) (path : String) :
    Except Complaint String :=
  match files path with
  | .error fault => .error (.unreadable path fault)
  | .ok text =>
    match textOutput arguments options text with
    | .error failure => .error (.refused path (failure.report (LineMap.ofText text.toList)))
    | .ok output => .ok output

/-- Outputs and complaints, each in the order of the files. -/
def gather : List (Except Complaint String) → Outcome
  | [] => ⟨"", []⟩
  | .ok output :: rest =>
    let later := gather rest
    ⟨output ++ later.output, later.complaints⟩
  | .error complaint :: rest =>
    let later := gather rest
    ⟨later.output, complaint :: later.complaints⟩

def runArguments (files : Files) (arguments : Arguments) : Outcome :=
  match settings files arguments with
  | .error complaint => ⟨"", [complaint]⟩
  | .ok options => gather (arguments.paths.map (fileOutput files arguments options))

/-- The run for a command line. -/
def run (files : Files) (texts : List String) : Outcome :=
  match Request.ofTexts Arguments.none texts with
  | .error fault => ⟨"", [.misuse fault]⟩
  | .ok .help => ⟨helpText, []⟩
  | .ok .version => ⟨versionText, []⟩
  | .ok (.run arguments) => runArguments files arguments

/-- The paths whose files a run may look up. -/
def consulted (texts : List String) : List String :=
  match Request.ofTexts Arguments.none texts with
  | .ok (.run arguments) => arguments.config.getD defaultConfig :: arguments.paths
  | _ => []

end EcmaSyntax.CommandLine
