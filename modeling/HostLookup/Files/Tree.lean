import HostLookup.Files.Fault
import HostLookup.Files.Path

/-!
# File trees

Files, directories, symbolic links and sockets by location. A path is walked as
the operating system walks it, from the top or from the working directory: links
are followed up to forty times, a name has at most 255 bytes, and every step but
the last must lead to a directory.
-/

namespace HostLookup

open Bytes

structure Timestamp where
  seconds : Int
  nanoseconds : Int
  deriving DecidableEq, Repr, Inhabited

abbrev Location := List Bytes

inductive FileNode where
  | file (content : Bytes) (modified : Timestamp)
  | directory
  | link (target : Path)
  | socket
  deriving DecidableEq, Repr

structure FileTree where
  entries : List (Location × FileNode) := []
  /-- The working directory. -/
  here : Location := []
  /-- The length and time that the system reports for a directory. -/
  directoryStat : Location → Nat × Timestamp := fun _ => (4096, ⟨0, 0⟩)
  /-- The abstract names that sockets of other programs have. -/
  namesInUse : List Bytes := []
  deriving Inhabited

namespace FileTree

/-- The entry at a location; the top is a directory. -/
def get? (t : FileTree) (l : Location) : Option FileNode :=
  if l.isEmpty then some .directory else t.entries.lookup l

def put (t : FileTree) (l : Location) (n : FileNode) : FileTree :=
  { t with entries := (l, n) :: t.entries.filter (·.1 != l) }

def erase (t : FileTree) (l : Location) : FileTree :=
  { t with entries := t.entries.filter (·.1 != l) }

def isDirectoryAt (t : FileTree) (l : Location) : Bool := t.get? l == some .directory

/-- The longest chain of links that a walk follows. -/
def maxLinks : Nat := 40

def maxNameLength : Nat := 255

def maxPathLength : Nat := 4095

/-- The location that steps lead to from a directory; `jump` goes on from a link to its target. -/
def walkBy (t : FileTree) (follow : Bool)
    (jump : Path → Location → List Bytes → Except Fault Location) :
    Location → List Bytes → Except Fault Location
  | here, [] => .ok here
  | here, step :: rest =>
    match t.get? here with
    | none => .error .noEntry
    | some .directory =>
      if step = dot then walkBy t follow jump here rest
      else if step = dotdot then walkBy t follow jump here.dropLast rest
      else if maxNameLength < step.length then .error .nameTooLong
      else
        match t.get? (here ++ [step]) with
        | none => if rest.isEmpty then .ok (here ++ [step]) else .error .noEntry
        | some (.link target) =>
          if rest.isEmpty && !follow then .ok (here ++ [step]) else jump target here rest
        | some _ => walkBy t follow jump (here ++ [step]) rest
    | some _ => .error .notDirectory

/--
The location that steps lead to from a directory, over a number of links at most. The last name need
not exist, and a link there is followed only on demand.
-/
def walk (t : FileTree) (follow : Bool) : Nat → Location → List Bytes → Except Fault Location
  | 0 => t.walkBy follow fun _ _ _ => .error .tooManyLinks
  | links + 1 =>
    t.walkBy follow fun target here rest =>
      if target.text.isEmpty then .error .noEntry
      else walk t follow links (if target.isAbsolute then [] else here) (target.steps ++ rest)

theorem walk_nil (t : FileTree) (follow : Bool) (links : Nat) (here : Location) :
    t.walk follow links here [] = .ok here := by
  cases links <;> rfl

theorem walk_cons (t : FileTree) (follow : Bool) (links : Nat) (here : Location) (step : Bytes)
    (rest : List Bytes) :
    t.walk follow links here (step :: rest) =
      match t.get? here with
      | none => .error .noEntry
      | some .directory =>
        if step = dot then t.walk follow links here rest
        else if step = dotdot then t.walk follow links here.dropLast rest
        else if maxNameLength < step.length then .error .nameTooLong
        else
          match t.get? (here ++ [step]) with
          | none => if rest.isEmpty then .ok (here ++ [step]) else .error .noEntry
          | some (.link target) =>
            if rest.isEmpty && !follow then .ok (here ++ [step])
            else
              match links with
              | 0 => .error .tooManyLinks
              | links + 1 =>
                if target.text.isEmpty then .error .noEntry
                else
                  t.walk follow links (if target.isAbsolute then [] else here)
                    (target.steps ++ rest)
          | some _ => t.walk follow links (here ++ [step]) rest
      | some _ => .error .notDirectory := by
  cases links <;> rfl

def pathFault? (p : Path) : Option Fault :=
  if p.text.contains 0 then some .zeroInPath
  else if p.text.isEmpty then some .noEntry
  else if maxPathLength < p.text.length then some .nameTooLong
  else none

def origin (t : FileTree) (p : Path) : Location := if p.isAbsolute then [] else t.here

def locate (t : FileTree) (follow : Bool) (p : Path) : Except Fault Location :=
  match pathFault? p with
  | some fault => .error fault
  | none => t.walk follow maxLinks (t.origin p) p.steps

def find (t : FileTree) (p : Path) : Except Fault FileNode :=
  match t.locate true p with
  | .error fault => .error fault
  | .ok l =>
    match t.get? l with
    | some n => .ok n
    | none => .error .noEntry

def isPresent (t : FileTree) (p : Path) : Bool := (t.find p).toOption.isSome

def isFile (t : FileTree) (p : Path) : Bool :=
  match t.find p with
  | .ok (.file _ _) => true
  | _ => false

def isDirectory (t : FileTree) (p : Path) : Bool :=
  match t.find p with
  | .ok .directory => true
  | _ => false

/-- What can be opened for reading. -/
inductive Opened where
  | file (content : Bytes) (modified : Timestamp)
  | directory (length : Nat) (modified : Timestamp)
  deriving DecidableEq, Repr

namespace Opened

def length : Opened → Nat
  | file content _ => content.length
  | directory length _ => length

def modified : Opened → Timestamp
  | file _ modified => modified
  | directory _ modified => modified

/-- The bytes that can be mapped; what has length zero needs no mapping, a directory has none. -/
def mapped? : Opened → Option Bytes
  | file content _ => some content
  | directory length _ => if length = 0 then some [] else none

theorem length_of_mapped? {o : Opened} {content : Bytes} (h : o.mapped? = some content) :
    o.length = content.length := by
  cases o with
  | file text _ =>
    cases h
    rfl
  | directory n _ =>
    rw [mapped?] at h
    split at h
    · next hn =>
      cases h
      exact hn
    · cases h

end Opened

def openForReading (t : FileTree) (p : Path) : Except Fault Opened :=
  match t.locate true p with
  | .error fault => .error fault
  | .ok l =>
    match t.get? l with
    | some (.file content modified) => .ok (.file content modified)
    | some .directory => .ok (.directory (t.directoryStat l).1 (t.directoryStat l).2)
    | some _ => .error .noDevice
    | none => .error .noEntry

/--
The location for an entry at the end of `steps`: its directory exists, its name is a plain one. No
steps lead to the top, which is there already.
-/
def spotOfSteps (t : FileTree) (origin : Location) (steps : List Bytes) : Except Fault Location :=
  match steps.getLast? with
  | none => .error .alreadyExists
  | some last =>
    match t.walk true maxLinks origin steps.dropLast with
    | .error fault => .error fault
    | .ok here =>
      match t.get? here with
      | none => .error .noEntry
      | some .directory =>
        if last = dot ∨ last = dotdot then .error .alreadyExists
        else if maxNameLength < last.length then .error .nameTooLong
        else .ok (here ++ [last])
      | some _ => .error .notDirectory

def spot (t : FileTree) (p : Path) : Except Fault Location :=
  match pathFault? p with
  | some fault => .error fault
  | none => t.spotOfSteps (t.origin p) p.steps

/-- The location of the entry itself, where a slash at the end may ask for a directory. -/
def entrySpot (t : FileTree) (p : Path) : Except Fault Location :=
  match pathFault? p with
  | some fault => .error fault
  | none => t.spotOfSteps (t.origin p) p.names

def makeDirectory (t : FileTree) (p : Path) : Except Fault FileTree :=
  match t.entrySpot p with
  | .error fault => .error fault
  | .ok l => if (t.get? l).isSome then .error .alreadyExists else .ok (t.put l .directory)

/-- What it comes to that a directory could not be made; one that is there will do. -/
def unlessDirectory (t : FileTree) (p : Path) (fault : Fault) : FileTree × Option Fault :=
  (t, if t.isDirectory p then none else some fault)

/--
Makes a directory and those above it that are missing, each by the text of its path. What was made
stays, also where a later one fails.
-/
def makeDirectories (t : FileTree) (p : Path) : FileTree × Option Fault :=
  if p.text.isEmpty then (t, none)
  else
    match t.makeDirectory p with
    | .ok t => (t, none)
    | .error fault =>
      if fault ≠ .noEntry then t.unlessDirectory p fault
      else
        match _hparent : p.parent? with
        | none => (t, some (.custom (ascii "failed to create whole tree")))
        | some q =>
          match makeDirectories t q with
          | (t, some fault) => (t, some fault)
          | (t, none) =>
            match t.makeDirectory p with
            | .ok t => (t, none)
            | .error fault => t.unlessDirectory p fault
termination_by p.components.length
decreasing_by exact Path.length_components_of_parent? _hparent

/-- Makes the directories above a path; a path of one name alone asks for none. -/
def makeParents (t : FileTree) (p : Path) : FileTree × Option Fault :=
  match p.parent? with
  | none => (t, none)
  | some q => t.makeDirectories q

def unlink (t : FileTree) (p : Path) : Except Fault FileTree :=
  match t.entrySpot p with
  | .error fault => .error (if fault = .alreadyExists then .isDirectory else fault)
  | .ok l =>
    match t.get? l with
    | none => .error .noEntry
    | some .directory => .error .isDirectory
    | some _ => if p.endsInSlash then .error .notDirectory else .ok (t.erase l)

/--
The location of a file opened for appending from a directory; it is made if
nothing is there. A path with a slash at its end never gets one, nor does a link
to such a path.
-/
def openForAppendingFrom (t : FileTree) (now : Timestamp) (origin : Location) (p : Path)
    (links : Nat) : Except Fault (FileTree × Location) :=
  match p.names.getLast? with
  | none => .error .isDirectory
  | some last =>
    match t.walk true maxLinks origin p.names.dropLast with
    | .error fault => .error fault
    | .ok here =>
      match t.get? here with
      | none => .error .noEntry
      | some .directory =>
        if p.endsInSlash ∨ last = dot ∨ last = dotdot then .error .isDirectory
        else if maxNameLength < last.length then .error .nameTooLong
        else
          match t.get? (here ++ [last]) with
          | none => .ok (t.put (here ++ [last]) (.file [] now), here ++ [last])
          | some (.file _ _) => .ok (t, here ++ [last])
          | some .directory => .error .isDirectory
          | some .socket => .error .noDevice
          | some (.link target) =>
            match links with
            | 0 => .error .tooManyLinks
            | links + 1 =>
              if target.text.isEmpty then .error .noEntry
              else t.openForAppendingFrom now (if target.isAbsolute then [] else here) target links
      | some _ => .error .notDirectory

def openForAppending (t : FileTree) (p : Path) (now : Timestamp) :
    Except Fault (FileTree × Location) :=
  match pathFault? p with
  | some fault => .error fault
  | none => t.openForAppendingFrom now (t.origin p) p maxLinks

end FileTree

inductive FileChange where
  /-- A new file is put in place, its directories made. -/
  | write (path : Path) (content : Bytes) (modified : Timestamp)
  | touch (path : Path) (modified : Timestamp)
  /-- An entry goes, with all that is below it. -/
  | remove (path : Path)
  | makeDirectory (path : Path)
  | rename (path target : Path)
  | symlink (path target : Path)
  deriving DecidableEq, Repr

namespace FileTree

def move (t : FileTree) (l m : Location) : FileTree :=
  { t with
    entries := (t.entries.filter (·.1 != m)).map fun (place, n) =>
      if l.isPrefixOf place then (m ++ place.drop l.length, n) else (place, n) }

def prune (t : FileTree) (l : Location) : FileTree :=
  { t with entries := t.entries.filter fun e => !l.isPrefixOf e.1 }

def replaceFile (t : FileTree) (p : Path) (content : Bytes) (modified : Timestamp) :
    Except Fault FileTree :=
  match t.makeParents p with
  | (_, some fault) => .error fault
  | (t, none) =>
    match t.spot p with
    | .error fault => .error fault
    | .ok l =>
      if t.isDirectoryAt l then .error .isDirectory
      else .ok (t.put l (.file content modified))

/-- Where an entry that is renamed is and where it goes; a slash at an end asks for a directory. -/
def movement (t : FileTree) (p q : Path) : Except Fault (Location × Location) :=
  match t.entrySpot p, t.entrySpot q with
  | .ok l, .ok m =>
    let fromDirectory := t.isDirectoryAt l
    if (t.get? l).isNone then .error .noEntry
    else if (p.endsInSlash || q.endsInSlash) && !fromDirectory then .error .notDirectory
    else if l = m then .ok (l, m)
    else if t.isDirectoryAt m && !fromDirectory then .error .isDirectory
    else if (t.get? m).isSome && !t.isDirectoryAt m && fromDirectory then .error .notDirectory
    else if l.isPrefixOf m then .error .invalidArgument
    else if t.entries.any fun (place, _) => m.isPrefixOf place && place != m then
      .error .notEmpty
    else .ok (l, m)
  | .error fault, _ => .error fault
  | _, .error fault => .error fault

def change (t : FileTree) : FileChange → Except Fault FileTree
  | .write p content modified => t.replaceFile p content modified
  | .touch p modified =>
    match t.locate true p with
    | .error fault => .error fault
    | .ok l =>
      match t.get? l with
      | some (.file content _) => .ok (t.put l (.file content modified))
      | some _ => .ok t
      | none => .error .noEntry
  | .remove p =>
    match t.entrySpot p with
    | .error fault => .error fault
    | .ok l => if (t.get? l).isNone then .error .noEntry else .ok (t.prune l)
  | .makeDirectory p =>
    match t.makeDirectories p with
    | (_, some fault) => .error fault
    | (t, none) => .ok t
  | .rename p q =>
    match t.movement p q with
    | .ok (l, m) => if l = m then .ok t else .ok (t.move l m)
    | .error fault => .error fault
  | .symlink p target =>
    match t.spot p with
    | .error fault => .error fault
    | .ok l => if (t.get? l).isSome then .error .alreadyExists else .ok (t.put l (.link target))

/-- The tree after a change; one that fails leaves it alone. -/
def after (t : FileTree) (c : FileChange) : FileTree := (t.change c).toOption.getD t

/-- Where the entry at `l` is after a change; nowhere if it is gone or another took its place. -/
def placeAfter (t : FileTree) (c : FileChange) (l : Location) : Option Location :=
  match t.change c, c with
  | .ok after, .write p _ _ => if (after.spot p).toOption = some l then none else some l
  | .ok _, .remove p =>
    if (t.entrySpot p).toOption.any (·.isPrefixOf l) then none else some l
  | .ok _, .rename p q =>
    match t.movement p q with
    | .ok (m, n) =>
      if m.isPrefixOf l then some (n ++ l.drop m.length) else if n = l then none else some l
    | .error _ => some l
  | _, _ => some l

end FileTree

end HostLookup
