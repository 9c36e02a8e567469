import HostLookup.Config.File

/-!
# Configurations that follow their file

A live configuration can be read again; a file that gives none leaves it as it
is. A watch sees the changes of its file: each raises events, which arrive in a
queue. The watch takes an event, drops those that follow while there are any,
reads the file again and announces what it read. One announcement at most waits
to be received.
-/

namespace HostLookup

structure LiveConfig where
  path : Path
  current : Config
  deriving DecidableEq, Repr

namespace LiveConfig

def ofFile (files : FileTree) (path : Path) : Except Failure LiveConfig :=
  (Config.load files path).map fun current => ⟨path, current⟩

def reload (c : LiveConfig) (files : FileTree) : Except Failure LiveConfig :=
  ofFile files c.path

end LiveConfig

namespace FileTree

def directoryOf (t : FileTree) (p : Path) : Except Fault Location :=
  match p.parent? with
  | none => .ok t.here
  | some q => if q.text.isEmpty then .ok t.here else t.locate true q

/-- Where a change of the tree is seen; what is removed is not. -/
def seenAt (t : FileTree) (c : FileChange) : List Location :=
  let places : List (Except Fault Location) :=
    match c with
    | .touch p _ => [t.locate true p]
    | .remove _ => []
    | .write p _ _ => [(t.after c).spot p]
    | .makeDirectory p => [(t.after c).entrySpot p]
    | .symlink p _ => [t.spot p]
    | .rename p q => [t.entrySpot p, t.entrySpot q]
  places.filterMap (·.toOption)

end FileTree

inductive WatchPhase where
  | idle
  | settling
  | reloading
  | announcing
  deriving DecidableEq, Repr

structure Watch where
  live : LiveConfig
  directory : Location
  name : Bytes
  /-- The events that did not arrive yet. -/
  raised : Nat := 0
  /-- The events that arrived and were not taken. -/
  queued : Nat := 0
  phase : WatchPhase := .idle
  /-- Whether an announcement waits to be received. -/
  announced : Bool := false
  reloads : Nat := 0
  announcements : Nat := 0
  deriving DecidableEq, Repr

inductive WatchStep where
  | arrive
  | wake
  | drain
  | rest
  | reload
  | announce
  | receive
  deriving DecidableEq, Repr

namespace Watch

def start (live : LiveConfig) (files : FileTree) : Except Failure Watch :=
  match live.path.fileName? with
  | none => .error (.configInvalid .noFileName)
  | some name =>
    match files.directoryOf live.path with
    | .ok directory => .ok { live, directory, name }
    | .error fault => .error (.watch fault.message)

def sees (w : Watch) (files : FileTree) (c : FileChange) : Bool :=
  (files.seenAt c).contains (w.directory ++ [w.name])

/-- The watch after a change of the tree `files`. -/
def observe (w : Watch) (files : FileTree) (c : FileChange) : Watch :=
  if w.sees files c then { w with raised := w.raised + 1 } else w

/-- A step that is not possible yet does nothing. -/
def step (w : Watch) (files : FileTree) : WatchStep → Watch
  | .arrive =>
    if w.raised = 0 then w else { w with raised := w.raised - 1, queued := w.queued + 1 }
  | .wake =>
    if w.phase = .idle ∧ w.queued ≠ 0 then { w with phase := .settling, queued := w.queued - 1 }
    else w
  | .drain =>
    if w.phase = .settling ∧ w.queued ≠ 0 then { w with queued := w.queued - 1 } else w
  | .rest => if w.phase = .settling ∧ w.queued = 0 then { w with phase := .reloading } else w
  | .reload =>
    if w.phase = .reloading then
      match w.live.reload files with
      | .ok live => { w with live, phase := .announcing, reloads := w.reloads + 1 }
      | .error _ => { w with phase := .idle }
    else w
  | .announce =>
    if w.phase = .announcing ∧ !w.announced then
      { w with phase := .idle, announced := true, announcements := w.announcements + 1 }
    else w
  | .receive => { w with announced := false }

def run (w : Watch) (files : FileTree) (steps : List WatchStep) : Watch :=
  steps.foldl (·.step files) w

/-- The steps that take all events, read the file once and announce it. -/
def settling (w : Watch) : List WatchStep :=
  List.replicate w.raised .arrive ++ [.wake] ++
    List.replicate (w.raised + w.queued) .drain ++ [.rest, .reload, .announce]

/-- The watch when the tree has been quiet for long enough. -/
def settle (w : Watch) (files : FileTree) : Watch := w.run files w.settling

end Watch

end HostLookup
