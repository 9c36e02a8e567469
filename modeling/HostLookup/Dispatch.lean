import HostLookup.Command
import HostLookup.Reply

/-!
# Dispatch

Commands come in, and each accepted one gets a worker. A worker first waits for
the resolution lock, refreshes the tracker and answers under it; then it hands
the reply to its client; then it gives back its slot and ends. `step` performs
one action of one party, so a list of actions is an interleaving. A worker's
action that is not its next one, or needs a lock that is held, does nothing.
The system may run out of threads, and then an accepted command fails.
-/

namespace HostLookup

open Bytes Hosts

inductive Phase where
  | waiting
  | answered (reply : Reply)
  | delivered
  | ended
  deriving DecidableEq, Repr

structure Worker where
  seq : UInt32
  request : Request
  /-- The position of the client that asked. -/
  client : Nat
  /-- Whether the worker counts against the limit. -/
  slotted : Bool
  phase : Phase := .waiting
  deriving DecidableEq, Repr

/-- Where replies go; a broken client loses them. -/
inductive Medium where
  | memory
  | stream
  | broken
  deriving DecidableEq, Repr

structure Client where
  medium : Medium
  /-- The replies received, in the order sent. -/
  received : List (UInt32 × Reply) := []
  deriving DecidableEq, Repr

namespace Client

def receive (c : Client) (seq : UInt32) (reply : Reply) : Client :=
  if c.medium = .broken then c else { c with received := c.received ++ [(seq, reply)] }

end Client

structure Dispatcher where
  files : FileTree
  services : ServiceTable := []
  tracker : Tracker
  /-- The most slotted workers at a time; zero is no bound. -/
  limit : Nat := 0
  active : Nat := 0
  workers : List Worker := []
  clients : List Client := []
  /-- Whether someone other than a worker holds the resolution lock. -/
  held : Bool := false
  poisoned : Bool := false
  /-- Whether the system has a thread for another worker. -/
  threads : Bool := true

inductive Guard where
  | sound (tracker : Tracker)
  /-- Someone panicked while holding the lock. -/
  | poisoned (tracker : Tracker)

/-- What the lock guards; from a poisoned lock it is recovered. -/
def Guard.tracker : Guard → Tracker
  | sound tracker => tracker
  | poisoned tracker => tracker

inductive Action where
  | change (what : FileChange)
  | retarget (path : Path)
  | connect (medium : Medium)
  | dispatch (client : Nat) (seq : UInt32) (words : List Bytes)
  | line (client : Nat) (text : Bytes)
  | work (client : Nat) (seq : UInt32) (request : Request)
  | hold
  | release
  | poison
  | threads (available : Bool)
  | resolve (worker : Nat)
  | deliver (worker : Nat)
  | finish (worker : Nat)
  deriving DecidableEq, Repr

namespace Dispatcher

def saturated (d : Dispatcher) : Bool := d.limit != 0 && d.limit ≤ d.active

/-- Why a command is refused before it takes a slot, if it is. -/
def accept (d : Dispatcher) (words : List Bytes) : Except Failure Request :=
  match Request.ofArguments words with
  | .error failure => .error failure
  | .ok request => if d.saturated then .error (.busy d.limit) else .ok request

def start (d : Dispatcher) (client : Nat) (seq : UInt32) (request : Request) : Dispatcher :=
  { d with
    active := d.active + 1
    workers := d.workers ++ [{ seq, request, client, slotted := true }] }

def takeSlot (d : Dispatcher) : Dispatcher := { d with active := d.active + 1 }

def freeSlot (d : Dispatcher) : Dispatcher := { d with active := d.active - 1 }

/--
Dispatches a command, and says why that failed if it did. A slot whose worker
finds no thread is given back at once.
-/
def dispatch (d : Dispatcher) (client : Nat) (seq : UInt32) (words : List Bytes) :
    Dispatcher × Option Failure :=
  match d.accept words with
  | .error failure => (d, some failure)
  | .ok request =>
    if d.threads then (d.start client seq request, none)
    else (d.takeSlot.freeSlot, some (.io .noThread))

def send (d : Dispatcher) (client : Nat) (seq : UInt32) (reply : Reply) : Dispatcher :=
  { d with clients := d.clients.modify client (·.receive seq reply) }

def setPhase (d : Dispatcher) (worker : Nat) (phase : Phase) : Dispatcher :=
  { d with workers := d.workers.modify worker fun w => { w with phase } }

/-- Hands a line to the dispatcher; a refusal is answered at once. -/
def handleLine (d : Dispatcher) (client : Nat) (text : Bytes) : Dispatcher :=
  match Command.ofLine? text with
  | none => d
  | some command =>
    match d.dispatch client command.seq command.words with
    | (after, none) => after
    | (after, some failure) => after.send client command.seq (.ofRefusal command.words failure)

def lock? (d : Dispatcher) : Option Guard :=
  if d.held then none else some (if d.poisoned then .poisoned d.tracker else .sound d.tracker)

def step (d : Dispatcher) : Action → Dispatcher
  | .change what => { d with files := d.files.after what }
  | .retarget path => { d with tracker := d.tracker.retarget path }
  | .connect medium => { d with clients := d.clients ++ [{ medium }] }
  | .dispatch client seq words => (d.dispatch client seq words).1
  | .line client text => d.handleLine client text
  | .work client seq request =>
    { d with workers := d.workers ++ [{ seq, request, client, slotted := false }] }
  | .hold => { d with held := true }
  | .release => { d with held := false }
  | .poison => if d.held then d else { d with poisoned := true }
  | .threads available => { d with threads := available }
  | .resolve i =>
    match d.workers[i]? with
    | some w =>
      if w.phase = .waiting then
        match d.lock? with
        | some guard =>
          let tracker := (guard.tracker.refresh d.files).1
          let reply := w.request.reply tracker d.services
          ({ d with tracker } : Dispatcher).setPhase i (.answered reply)
        | none => d
      else d
    | none => d
  | .deliver i =>
    match d.workers[i]? with
    | some w =>
      match w.phase with
      | .answered reply => (d.send w.client w.seq reply).setPhase i .delivered
      | _ => d
    | none => d
  | .finish i =>
    match d.workers[i]? with
    | some w =>
      if w.phase = .delivered then
        ({ d with active := if w.slotted then d.active - 1 else d.active } : Dispatcher).setPhase i
          .ended
      else d
    | none => d

def run (d : Dispatcher) (actions : List Action) : Dispatcher := actions.foldl step d

/-- Brings one worker to its end, as far as the lock lets it. -/
def complete (d : Dispatcher) (worker : Nat) : Dispatcher :=
  d.run [.resolve worker, .deliver worker, .finish worker]

def unfinished (d : Dispatcher) : List Nat :=
  d.workers.zipIdx.filterMap fun (w, i) => if w.phase = .ended then none else some i

def settle (d : Dispatcher) : Dispatcher := d.unfinished.foldl complete d

def serve (d : Dispatcher) (client : Nat) (stream : Bytes) : Dispatcher × StreamEnd :=
  let (lines, ending) := Command.linesOf stream
  (d.run (lines.map (.line client)), ending)

end Dispatcher

end HostLookup
