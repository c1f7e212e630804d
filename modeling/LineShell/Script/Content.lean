/-
# LineShell.Script.Content -- the bytes of files in use and of pipes

A file that a script opens is held as its bytes, one after the other. They are read in
slices and written over from any position on; what lies between the end of the file and a
later position is filled with NUL.

What is written into a pipe waits there, in order, until it is read. The bytes in front
are at hand; behind them stand the pieces that were written since, the last one first.
-/

import LineShell.Script.Bytes
import LineShell.Tree.Basic

namespace LineShell.Script

/-! ## Files -/

/-- **Content** — the bytes of the file at a location. -/
structure Content where
  place : Location
  bytes : Array Char

namespace Content

/-- The content of a file that holds a text. -/
def ofText (place : Location) (text : Text) : Content := ⟨place, (bytesOf text).toArray⟩

/-- The text that the bytes stand for. -/
def toText (c : Content) : Text := textOf c.bytes.toList

/-- The bytes from a position on, at most `count`. -/
def slice (c : Content) (position count : Nat) : Text :=
  (c.bytes.extract position (position + count)).toList

/-- Bytes put over others, or behind them, one after the other from a position on. -/
def overwrite (bytes : Array Char) (position : Nat) : Text → Array Char
  | [] => bytes
  | c :: rest =>
    let bytes := if position < bytes.size then bytes.setIfInBounds position c else bytes.push c
    overwrite bytes (position + 1) rest

/-- Bytes are written from a position on. -/
def write (c : Content) (position : Nat) (bytes : Text) : Content :=
  let gap := List.replicate (position - c.bytes.size) '\x00'
  { c with bytes := overwrite (overwrite c.bytes c.bytes.size gap) position bytes }

/-- Nothing is left. -/
def clear (c : Content) : Content := { c with bytes := #[] }

end Content

/-! ## Pipes -/

/-- **Queue** — bytes that wait, and how many they are. -/
structure Queue where
  front : Text
  pieces : List Text
  size : Nat

namespace Queue

def empty : Queue := ⟨[], [], 0⟩

/-- All bytes that wait, in order. -/
def toText (q : Queue) : Text := q.front ++ q.pieces.reverse.flatten

/-- More bytes come behind those that wait. -/
def push (q : Queue) (bytes : Text) : Queue :=
  { q with pieces := bytes :: q.pieces, size := q.size + bytes.length }

/-- The same bytes, `count` of them at hand if there are as many. -/
def reaching (q : Queue) (count : Nat) : Queue :=
  if count ≤ (q.front.take count).length then q
  else { q with front := q.toText, pieces := [] }

/-- The bytes behind the first ones. -/
def drop (q : Queue) (count : Nat) : Queue :=
  let q := q.reaching count
  { q with front := q.front.drop count, size := q.size - count }

end Queue
end LineShell.Script
