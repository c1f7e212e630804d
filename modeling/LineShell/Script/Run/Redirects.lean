/-
# LineShell.Script.Run.Redirects -- what descriptors are made to stand for

The words of all redirects of a command are expanded first; then the descriptors change,
one after the other. If one cannot, the others are not tried. A document is expanded when
its descriptor changes.
-/

import LineShell.Script.Expansion

namespace LineShell.Script

/-- **Opening** — a redirect whose words are expanded. -/
inductive Opening
  | file (descriptor : Nat) (access : Access) (path : Text)
  | copy (descriptor : Nat) (source : Option Nat)
  | document (descriptor : Nat) (word : Word)

/-- The descriptor that a redirect changes. -/
def Redirect.descriptor : Redirect → Nat
  | .file descriptor _ _ | .copy descriptor _ | .named descriptor _ | .document descriptor _ =>
    descriptor

namespace Step

/-- The words of a redirect are expanded. -/
def expandRedirect (capture : Capture) : Redirect → Step Opening
  | .file descriptor access target =>
    return .file descriptor access (← expandText capture Mode.fixed target)
  | .copy descriptor source => return .copy descriptor source
  | .named descriptor source => do
    match ← expandText capture Mode.fixed source with
    | ['-'] => return .copy descriptor none
    | text =>
      match text, number? text with
      | [_], some source => return .copy descriptor (some source)
      | _, _ =>
        change fun p => { p with line := p.lineRead }
        fail "Syntax error: Bad fd number"
  | .document descriptor index => do
    return .document descriptor (((← get).documents.lookup index).getD [])

/-- A descriptor changes. -/
def perform (capture : Capture) : Opening → Step Unit
  | .file descriptor access path => do
    setDescriptor descriptor (some (← openFor access path))
  | .copy descriptor none => setDescriptor descriptor none
  | .copy descriptor (some source) => do
    if source = descriptor then return ()
    match (← ask (·.descriptors)).lookup source with
    | some index => setDescriptor descriptor (some index)
    | none => fail (Text.ofInt source ++ ": Bad file descriptor")
  | .document descriptor word => do
    let bytes ← expandText capture Mode.document word
    let index ← addFile (.document bytes)
    setDescriptor descriptor (some index)

/-- The descriptors change as the openings ask, unless one of them fails. -/
def openAll (capture : Capture) (openings : List Opening) : Step Bool :=
  tryCatch (do openings.forM (perform capture); return true) fun why =>
    if why = .failed then return false else throw why

/-- Runs a step with redirects, or not at all if one of them fails. -/
def redirecting (capture : Capture) (redirects : List Redirect) (step : Step Unit) :
    Step Unit := do
  let openings ← redirects.mapM (expandRedirect capture)
  keepingDescriptors (redirects.map Redirect.descriptor) do
    if ← openAll capture openings then step

end Step
end LineShell.Script
