/-
# LineShell.Settings -- configuration by environment variables

Two variables configure the shell: one names the log level, one gives the prompt. The
settings in force are those read when they were last loaded; changing a variable has no
effect before the next load. The log level in force is a third thing: loading sets it,
and so does naming a level directly. `Control` holds the three side by side, and
`Control.perform` says what each operation on them does.
-/

import LineShell.Environment
import LineShell.Log
import LineShell.SystemError

namespace LineShell

/-- The version of the shell. -/
def version : Text := "0.1.0"

/-- The name that the shell goes by. -/
def programName : Text := "minish"

def levelVariable : Text := "MINISH_LOG_LEVEL"

def promptVariable : Text := "MINISH_PROMPT"

/-- **Settings** — what the variables say: the name of the log level in upper case, as
yet unchecked, and the prompt. -/
structure Settings where
  levelName : Text
  prompt : Text
  deriving DecidableEq, Repr

namespace Settings

def defaultPrompt : Text := "$ "

/-- The settings that an environment asks for. An empty prompt counts as none. -/
def ofVariables (environment : Environment) : Settings where
  levelName := Text.upper ((environment.value? levelVariable).getD Level.error.name)
  prompt := match environment.value? promptVariable with
    | none | some [] => defaultPrompt
    | some prompt => prompt

/-- The level that settings ask for, and the message about a name that is no level. -/
def level (settings : Settings) : Level × List Message :=
  match Level.ofName? settings.levelName with
  | some level => (level, [])
  | none =>
    (.error,
      [⟨.error, programName ++ ": ignoring invalid " ++ levelVariable ++ "="
        ++ Text.quoted settings.levelName ++ ", using ERROR"⟩])

end Settings

/-! ## The configuration page -/

/-- **Summary** — the configuration as it is in force. -/
structure Summary where
  version : Text
  level : Level
  prompt : Text
  deriving DecidableEq, Repr

/-- The lines of the configuration page. -/
def Summary.page (summary : Summary) : List Text :=
  let rule : Text := List.replicate 60 '='
  [rule, "MINISH CONFIGURATION", rule,
   "Version: " ++ summary.version,
   [], "LOGGING:",
   "  " ++ levelVariable ++ " = " ++ summary.level.name,
   [], "PROMPT:",
   "  " ++ promptVariable ++ " = " ++ Text.quoted summary.prompt,
   [], rule,
   "Set environment variables to customize these defaults",
   "Example: export " ++ levelVariable ++ "=DEBUG",
   rule]

/-- Lines as they are printed. -/
def printedLines (lines : List Text) : Text := lines.flatMap (· ++ ['\n'])

/-! ## Operations -/

/-- **Control** — the variables, the settings last loaded, and the level in force. -/
structure Control where
  environment : Environment
  settings : Settings
  level : Level
  deriving DecidableEq, Repr

namespace Control

/-- The control before anything was set. -/
def initial : Control := ⟨[], Settings.ofVariables [], .error⟩

/-- **Operation** — what can be asked of the control. -/
inductive Operation
  | setVariable (name value : Text)
  | unsetVariable (name : Text)
  | readSettings
  | reload
  | applyLevel
  | summarize
  | printPage
  | chooseLevel (name : Text)
  | log (message : Message)
  | admits (level : Level)
  deriving DecidableEq, Repr

/-- **Refusal** — why an operation was not carried out. -/
inductive Refusal
  | invalidLevel (name : Text)
  | fault (fault : Fault)
  deriving DecidableEq, Repr

def Refusal.message : Refusal → Text
  | .invalidLevel name => Level.invalidNameMessage name
  | .fault cause => cause.message

/-- **Answer** — what an operation gives back. -/
inductive Answer
  | nothing
  | settings (settings : Settings)
  | summary (summary : Summary)
  | flag (value : Bool)
  | refused (refusal : Refusal)
  deriving DecidableEq, Repr

/-- **Effect** — the control after an operation, its answer, and what it printed. -/
structure Effect where
  control : Control
  answer : Answer
  output : Text
  errors : Text
  deriving Repr

def summary (c : Control) : Summary := ⟨version, c.level, c.settings.prompt⟩

/-- The messages as printed at the level in force. -/
def printed (c : Control) (messages : List Message) : Text :=
  messages.flatMap (Message.printed c.level)

/-- The level asked for by the settings is put in force. -/
def applied (c : Control) : Control := { c with level := c.settings.level.1 }

/-- The settings are read again and put in force. -/
def reloaded (c : Control) : Control :=
  { c with settings := Settings.ofVariables c.environment }.applied

/-- Why the system takes no such variable. -/
def variableFault (name value : Text) : Option Fault :=
  if name.contains '\x00' ∨ value.contains '\x00' then some .embeddedNul
  else if name.contains '=' then some .badVariableName
  else if name = [] then some (.ofCause .invalid)
  else none

/-- **Performing** an operation. -/
def perform (c : Control) : Operation → Effect
  | .setVariable name value =>
    match variableFault name value with
    | some fault => ⟨c, .refused (.fault fault), [], []⟩
    | none => ⟨{ c with environment := c.environment.withValue name value }, .nothing, [], []⟩
  | .unsetVariable name =>
    ⟨{ c with environment := c.environment.without name }, .nothing, [], []⟩
  | .readSettings => ⟨c, .settings (Settings.ofVariables c.environment), [], []⟩
  | .reload =>
    let c := c.reloaded
    ⟨c, .settings c.settings, [], c.printed c.settings.level.2⟩
  | .applyLevel =>
    let c := c.applied
    ⟨c, .nothing, [], c.printed c.settings.level.2⟩
  | .summarize => ⟨c, .summary c.summary, [], []⟩
  | .printPage => ⟨c, .nothing, printedLines c.summary.page, []⟩
  | .chooseLevel name =>
    match Level.ofName? name with
    | some level => ⟨{ c with level := level }, .nothing, [], []⟩
    | none => ⟨c, .refused (.invalidLevel name), [], []⟩
  | .log message => ⟨c, .nothing, [], c.printed [message]⟩
  | .admits level => ⟨c, .flag (c.level.admits level), [], []⟩

end Control
end LineShell
