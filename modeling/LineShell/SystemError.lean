/-
# LineShell.SystemError -- what can go wrong outside the shell

An operation on the directory tree, and the start or the reading of a program, fails
for a cause. A cause has a number and a reason, as the operating system numbers and
words them; programs may report further numbers with reasons of their own. Where the
failed operation was about a path, the error names it.

An error has two written forms. `message` is what the user of the shell sees.
`shown` is what diagnostics show; it begins with the name of the error's kind, which
depends on the number alone, and leaves the path out.

A `Fault` is whatever ends a command: a system error, text handed to the system that
the system cannot take, or directories inside one another that are too many to make.
-/

import LineShell.Text.Quoted

namespace LineShell

/-- **Cause** — why an operation failed. -/
inductive Cause
  | noSuchFile
  | noDevice
  | argumentsTooLong
  | badFormat
  | denied
  | fileExists
  | notDirectory
  | isDirectory
  | invalid
  | fileBusy
  | noSpace
  | nameTooLong
  | tooManyLinks
  | reported (number : Int) (reason : Text)
  deriving DecidableEq, Repr

namespace Cause

/-- The number of a cause. -/
def number : Cause → Int
  | noSuchFile => 2
  | noDevice => 6
  | argumentsTooLong => 7
  | badFormat => 8
  | denied => 13
  | fileExists => 17
  | notDirectory => 20
  | isDirectory => 21
  | invalid => 22
  | fileBusy => 26
  | noSpace => 28
  | nameTooLong => 36
  | tooManyLinks => 40
  | reported number _ => number

/-- The wording of a cause. -/
def reason : Cause → Text
  | noSuchFile => "No such file or directory"
  | noDevice => "No such device or address"
  | argumentsTooLong => "Argument list too long"
  | badFormat => "Exec format error"
  | denied => "Permission denied"
  | fileExists => "File exists"
  | notDirectory => "Not a directory"
  | isDirectory => "Is a directory"
  | invalid => "Invalid argument"
  | fileBusy => "Text file busy"
  | noSpace => "No space left on device"
  | nameTooLong => "File name too long"
  | tooManyLinks => "Too many levels of symbolic links"
  | reported _ reason => reason

end Cause

/-- **System error** — a cause and the path that the failed operation was about. -/
structure SystemError where
  cause : Cause
  path : Option Text
  deriving DecidableEq, Repr

namespace SystemError

/-- The kinds of errors that have a name of their own, by number. -/
def kinds : List (Int × String) :=
  [(1, "PermissionError"), (2, "FileNotFoundError"), (3, "ProcessLookupError"),
   (4, "InterruptedError"), (10, "ChildProcessError"), (11, "BlockingIOError"),
   (13, "PermissionError"), (17, "FileExistsError"), (20, "NotADirectoryError"),
   (21, "IsADirectoryError"), (32, "BrokenPipeError"), (103, "ConnectionAbortedError"),
   (104, "ConnectionResetError"), (108, "BrokenPipeError"), (110, "TimeoutError"),
   (111, "ConnectionRefusedError"), (114, "BlockingIOError"), (115, "BlockingIOError")]

/-- The name of an error's kind. -/
def kind (e : SystemError) : Text :=
  (kinds.lookup e.cause.number).getD "OSError"

/-- **Message** — the error as the user sees it. -/
def message (e : SystemError) : Text :=
  "[Errno " ++ Text.ofInt e.cause.number ++ "] " ++ e.cause.reason
    ++ match e.path with
      | none => []
      | some path => ": " ++ Text.quoted path

/-- The error as diagnostics show it. -/
def shown (e : SystemError) : Text :=
  e.kind ++ "(" ++ Text.ofInt e.cause.number ++ ", " ++ Text.quoted e.cause.reason ++ ")"

end SystemError

/-- **Fault** — what ends a command before it is done. -/
inductive Fault
  | system (error : SystemError)
  | embeddedNul
  | badVariableName
  | tooDeep
  deriving DecidableEq, Repr

namespace Fault

/-- A cause that names no path. -/
def ofCause (cause : Cause) : Fault := .system ⟨cause, none⟩

/-- A cause about a path. -/
def about (cause : Cause) (path : Text) : Fault := .system ⟨cause, some path⟩

/-- The fault as the user sees it. -/
def message : Fault → Text
  | .system error => error.message
  | .embeddedNul => "embedded null byte"
  | .badVariableName => "illegal environment variable name"
  | .tooDeep => "maximum recursion depth exceeded"

end Fault
end LineShell
