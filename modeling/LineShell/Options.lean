/-
# LineShell.Options -- the options of the command line

The shell is started with options. Each has one or more names; some take a value. A name
of two hyphens may be shortened as long as it is clear which one is meant, and its value
follows as the next argument or behind an equals sign. A name of one hyphen and a letter may
have its value attached, with or without an equals sign, and options without a value may
share one hyphen. A value that is the next argument must not look like an option: it does
not begin with a hyphen, or it is a single hyphen, a negative number, or holds a space. Behind
the argument `--` nothing is an option; as an attached value `--` is taken away. The last
of a repeated option counts. In two of these rules readers of options differ from version to
version: later ones than this keep an attached `--`, and show the help for `-hx`.

Arguments are first told apart (`classify`), all of them, and then carried out in order
(`interpret`). Asking for help or for the version takes effect at once, whatever follows;
arguments that belong to no option are refused at the end.
-/

import LineShell.Text.Classes
import LineShell.Text.Quoted
import LineShell.Settings

namespace LineShell

/-- **Switch** — what an option is about. -/
inductive Switch
  | help
  | version
  | command
  | level
  | showSettings
  deriving DecidableEq, Repr

namespace Switch

/-- The switches in the order in which help lists them. -/
def all : List Switch := [help, version, command, level, showSettings]

/-- The names of a switch. -/
def names : Switch → List Text
  | help => ["-h", "--help"]
  | version => ["--version"]
  | command => ["--command", "-c"]
  | level => ["--log-level", "-l"]
  | showSettings => ["--show-config"]

/-- The switch needs a value. -/
def takesValue : Switch → Bool
  | command | level => true
  | _ => false

/-- The switch as error messages call it. -/
def title (s : Switch) : Text := ['/'].intercalate s.names

/-- All names, each with its switch. -/
def table : List (Text × Switch) := all.flatMap fun s => s.names.map (·, s)

/-- The switch with a given name. -/
def named? (name : Text) : Option Switch := table.lookup name

theorem named?_of_mem_names : ∀ s ∈ all, ∀ name ∈ s.names, named? name = some s := by decide

end Switch

namespace Options

/-! ## Telling arguments apart -/

/-- **Kind** — what an argument is: a plain one, the mark behind which all are plain, an
option that does not exist, or an option by its name and what is attached to it. -/
inductive Kind
  | plain
  | mark
  | unknown
  | option (name : Text) (switch : Switch) (attached : Option Text)
  deriving DecidableEq, Repr

/-- The parts of an argument before and behind its first equals sign, if it has one. -/
def cutAtEquals (argument : Text) : Text × Option Text :=
  match argument.dropWhile (· ≠ '=') with
  | [] => (argument, none)
  | _ :: value => (argument.takeWhile (· ≠ '='), some value)

/-- The argument is a negative number; a line feed at its end does not count. -/
def isNegativeNumber (argument : Text) : Bool :=
  match argument with
  | '-' :: body =>
    let body := if body.getLast? = some '\n' then body.dropLast else body
    match body.dropWhile Text.isDigit with
    | [] => body ≠ []
    | '.' :: fraction => fraction ≠ [] && fraction.all Text.isDigit
    | _ => false
  | _ => false

/-- The argument begins with two hyphens. -/
def isLong (argument : Text) : Bool := ("--" : Text).isPrefixOf argument

/-- What an argument is that begins with a hyphen and is no full name, as far as names go:
the readings of it as a shortened name or as a letter with something attached. -/
def readings (argument : Text) : List (Text × Switch × Option Text) :=
  if isLong argument then
    let (beginning, value) := cutAtEquals argument
    (Switch.table.filter fun (name, _) => beginning.isPrefixOf name).map
      fun (name, switch) => (name, switch, value)
  else
    (Switch.table.filter fun (name, _) => name = argument.take 2).map
      fun (name, switch) => (name, switch, some (argument.drop 2))

/-- What an argument is where options may stand; an error if a shortened name could mean
several options. -/
def classify (argument : Text) : Except Text Kind :=
  match argument, Switch.named? argument with
  | '-' :: _ :: _, some switch => .ok (.option argument switch none)
  | '-' :: _ :: _, none =>
    let (beginning, value) := cutAtEquals argument
    match value, Switch.named? beginning with
    | some value, some switch => .ok (.option beginning switch (some value))
    | _, _ =>
      match readings argument with
      | [(name, switch, attached)] => .ok (.option name switch attached)
      | [] =>
        if isNegativeNumber argument ∨ ' ' ∈ argument then .ok .plain else .ok .unknown
      | several =>
        .error ("ambiguous option: " ++ argument ++ " could match "
          ++ ", ".toList.intercalate (several.map (·.1)))
  | _, _ => .ok .plain

/-- What each of a list of arguments is. -/
def classifyAll : List Text → Except Text (List (Text × Kind))
  | [] => .ok []
  | argument :: rest =>
    if argument = "--" then .ok ((argument, .mark) :: rest.map (·, .plain))
    else do
      let kind ← classify argument
      return (argument, kind) :: (← classifyAll rest)

/-! ## One option -/

/-- The value that a text gives an option. The mark `--` is taken away wherever it stands,
so that an option with it for a value is left without one. -/
def valueOf (text : Text) : Option Text := if text = "--" then none else some text

/-- **Act** — a switch with its value, if it is left with one. -/
structure Act where
  switch : Switch
  value : Option Text
  deriving DecidableEq, Repr

/-- **Unfolding** — what one argument comes to: acts that are complete; or acts behind
which a last switch still takes what follows; or a text that a switch has no use for. -/
inductive Unfolding
  | complete (acts : List Act)
  | open (acts : List Act) (last : Switch)
  | ignored (switch : Switch) (text : Text)
  deriving DecidableEq, Repr

/-- A letter with text attached to it. A switch that takes a value takes the text; any
other one reads it as further letters, each of which has to be an option. -/
def unfoldLetters (acts : List Act) (switch : Switch) : Text → Unfolding
  | [] => .open acts switch
  | c :: rest =>
    if switch.takesValue then .complete (acts ++ [⟨switch, valueOf (c :: rest)⟩])
    else match Switch.named? ['-', c] with
      | none => .ignored switch (c :: rest)
      | some next => unfoldLetters (acts ++ [⟨switch, none⟩]) next rest

/-- What an option comes to with what is attached to it. -/
def unfold (name : Text) (switch : Switch) : Option Text → Unfolding
  | none => .open [] switch
  | some text =>
    if switch.takesValue then .complete [⟨switch, valueOf text⟩]
    else if text = [] ∨ isLong name then .ignored switch text
    else unfoldLetters [] switch text

/-! ## All arguments -/

/-- **Choices** — what the options ask for when the shell is to run. A command may be
asked for and be left without its text. -/
structure Choices where
  command : Option (Option Text)
  level : Option Text
  showSettings : Bool
  deriving DecidableEq, Repr

def Choices.none : Choices := ⟨Option.none, Option.none, false⟩

/-- **Request** — what the arguments ask for altogether. -/
inductive Request
  | help
  | version
  | misuse (message : Text)
  | run (choices : Choices)
  deriving DecidableEq, Repr

/-- The choices after acts in order, unless one of them asks for help or the version. -/
def apply (choices : Choices) : List Act → Except Request Choices
  | [] => .ok choices
  | ⟨.help, _⟩ :: _ => .error .help
  | ⟨.version, _⟩ :: _ => .error .version
  | ⟨.command, value⟩ :: rest => apply { choices with command := some value } rest
  | ⟨.level, value⟩ :: rest => apply { choices with level := value } rest
  | ⟨.showSettings, _⟩ :: rest => apply { choices with showSettings := true } rest

/-- The request once all arguments have been used up. -/
def conclude (choices : Choices) (leftover : List Text) : Request :=
  if leftover = [] then .run choices
  else .misuse ("unrecognized arguments: " ++ [' '].intercalate leftover)

/-- Arguments carried out in order; `leftover` are the ones that belong to no option. -/
def interpret (choices : Choices) (leftover : List Text) :
    List (Text × Kind) → Request
  | [] => conclude choices leftover
  | (_, .option name switch attached) :: rest =>
    match unfold name switch attached with
    | .ignored switch text =>
      .misuse ("argument " ++ switch.title ++ ": ignored explicit argument " ++ Text.quoted text)
    | .complete acts =>
      match apply choices acts with
      | .error request => request
      | .ok choices => interpret choices leftover rest
    | .open acts last =>
      if last.takesValue then
        match rest with
        | (value, .plain) :: rest =>
          match apply choices (acts ++ [⟨last, valueOf value⟩]) with
          | .error request => request
          | .ok choices => interpret choices leftover rest
        | _ => .misuse ("argument " ++ last.title ++ ": expected one argument")
      else
        match apply choices (acts ++ [⟨last, none⟩]) with
        | .error request => request
        | .ok choices => interpret choices leftover rest
  | (argument, _) :: rest => interpret choices (leftover ++ [argument]) rest

/-- **Reading** the arguments of the command line. -/
def read (arguments : List Text) : Request :=
  match classifyAll arguments with
  | .error message => .misuse message
  | .ok kinds => interpret .none [] kinds

/-! ## Help -/

def usageLines : List Text :=
  ["usage: minish [-h] [--version] [--command COMMAND] [--log-level LOG_LEVEL]",
   "              [--show-config]"]

def helpLines : List Text :=
  usageLines ++
  ([[],
   "minish - a minimal interactive shell",
   [],
   "options:",
   "  -h, --help            show this help message and exit",
   "  --version             show program's version number and exit",
   "  --command COMMAND, -c COMMAND",
   "                        Run a single command line and return",
   "  --log-level LOG_LEVEL, -l LOG_LEVEL",
   "                        Logging level: QUIET, ERROR, WARNING, INFO or DEBUG",
   "  --show-config         Print the configuration and return"] : List Text)

/-- The lines about a misuse of the options. -/
def misuseLines (message : Text) : List Text :=
  usageLines ++ [programName ++ (": error: " ++ message)]

end Options
end LineShell
