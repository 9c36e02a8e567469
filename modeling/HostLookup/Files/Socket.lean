import HostLookup.Files.Tree

/-!
# Socket files

A socket is put where nothing is yet. `listen` first clears its place, whatever
is there, and makes the directories above it; what it did stays done where a
later step fails. A path that is empty or begins with a zero byte stands for an
abstract name, and the socket there is no part of the tree.
-/

namespace HostLookup

open Bytes

/-- The first length of a path that no socket can have; an abstract name may have it. -/
def socketPathLimit : Nat := 108

/-- The path is no path to a socket: the system picks a name, or the path is one. -/
def Path.isAbstract (p : Path) : Bool := p.text.head?.all (· == 0)

namespace FileTree

def socketPathFault? (p : Path) : Option Fault :=
  if p.text.contains 0 then some .zeroInSocketPath
  else if socketPathLimit ≤ p.text.length then some .longSocketPath
  else none

/-- What is wrong with an abstract name; an empty one is left to the system. -/
def abstractNameFault? (t : FileTree) (p : Path) : Option Fault :=
  if socketPathLimit < p.text.length then some .longSocketName
  else if !p.text.isEmpty && t.namesInUse.contains p.text then some .addressInUse
  else none

/-- Puts a socket at a path; a path that asks for a directory never gets one. -/
def putSocket (t : FileTree) (p : Path) : Except Fault FileTree :=
  match socketPathFault? p with
  | some fault => .error fault
  | none =>
    match t.entrySpot p with
    | .error fault => .error (if fault = .alreadyExists then .addressInUse else fault)
    | .ok l =>
      if (t.get? l).isSome then .error .addressInUse
      else if p.endsInSlash then .error .noEntry
      else .ok (t.put l .socket)

def bind (t : FileTree) (p : Path) : Except Fault FileTree :=
  if p.isAbstract then
    match t.abstractNameFault? p with
    | some fault => .error fault
    | none => .ok t
  else t.putSocket p

def clear (t : FileTree) (p : Path) : Except Fault FileTree :=
  if t.isPresent p then t.unlink p else .ok t

/-- Makes way for a socket at a path and puts it there. -/
def listen (t : FileTree) (p : Path) : FileTree × Option Fault :=
  match t.clear p with
  | .error fault => (t, some fault)
  | .ok t =>
    match t.makeParents p with
    | (t, some fault) => (t, some fault)
    | (t, none) =>
      match t.bind p with
      | .error fault => (t, some fault)
      | .ok t => (t, none)

/-- Takes a path away as well as that goes. -/
def discard (t : FileTree) (p : Path) : FileTree := (t.unlink p).toOption.getD t

/-- Whether an entry of any kind is at a path, a link that leads nowhere included. -/
def isOccupied (t : FileTree) (p : Path) : Bool :=
  match t.locate false p with
  | .ok l => (t.get? l).isSome
  | .error _ => false

end FileTree

end HostLookup
