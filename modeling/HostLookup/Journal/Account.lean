import HostLookup.Config.Live
import HostLookup.Dispatch
import HostLookup.Journal.Event

/-!
# What the daemon's steps report

The events of a step are read off the state before it, so that the steps
themselves keep no journal.
-/

namespace HostLookup

open Bytes Journal

namespace Hosts.Tracker

def refreshEvents (t : Tracker) (files : FileTree) : List Event :=
  let changed : List Event := if t.snapshot.isSome then [.hostsChanged] else []
  match files.openForReading t.path with
  | .error _ => [.hostsUnavailable]
  | .ok opened =>
    if t.holds opened.length opened.modified then [.hostsCurrent]
    else
      match opened.mapped? with
      | none => changed ++ [.hostsUnavailable]
      | some content =>
        let skipped := (splitOn newline content).filter isSkipped
        changed ++ skipped.map (fun _ => .lineSkipped) ++ [.hostsRebuilt]

end Hosts.Tracker

namespace ServiceTable

def portEvents (table : ServiceTable) (service : Option Bytes) (socktype : Int32) : List Event :=
  match service with
  | none => []
  | some s =>
    if (decimalPort? s).isSome || (table.port? s (protocolOf socktype)).isSome then []
    else [.serviceUnknown]

end ServiceTable

namespace Hosts.Snapshot

def forwardEvents (s : Snapshot) (services : ServiceTable) (host : Bytes)
    (service : Option Bytes) (hints : Option Hints) : List Event :=
  let hints := hints.getD {}
  match s.lookup host with
  | none => [.hostMissing]
  | some e =>
    match Address.ofText? (s.addressToken e) with
    | none => [.addressMalformed]
    | some x =>
      if hints.family.admits x then services.portEvents service hints.socktype ++ [.addressFound]
      else [.familyMismatch]

def hostByNameEvents (s : Snapshot) (name : Bytes) (family : Family) : List Event :=
  match s.lookup name with
  | none => [.nameMissing]
  | some e =>
    match (Address.ofText? (s.nameToken e)).filter family.admits with
    | none => [.nameMalformed]
    | some _ => []

end Hosts.Snapshot

namespace Request

def lookupEvents (s : Hosts.Snapshot) (services : ServiceTable) : Request → List Event
  | forward none _ _ => []
  | forward (some host) service hints => s.forwardEvents services host service hints
  | byAddress octets family =>
    match Address.ofOctets? octets with
    | none => []
    | some x => s.hostByNameEvents x.text family
  | byName name family => s.hostByNameEvents name family

def answerEvents (t : Hosts.Tracker) (services : ServiceTable) (r : Request) : List Event :=
  let lookup :=
    match t.snapshot with
    | some s => r.lookupEvents s services
    | none => []
  let outcome : List Event :=
    match r.answer t services with
    | .ok _ => []
    | .error failure => if failure.isNotFound then [.lookupMissed] else [.lookupFailed]
  lookup ++ outcome

end Request

namespace Dispatcher

/-- Whether what is sent to a client is lost. -/
def loses (d : Dispatcher) (client : Nat) : Bool :=
  match d.clients[client]? with
  | some c => c.medium == .broken
  | none => false

def acceptEvents (d : Dispatcher) (words : List Bytes) : List Event :=
  match d.accept words with
  | .ok _ => [.workerStarted]
  | .error (.busy _) => [.limitReached]
  | .error _ => [.commandRefused]

def lineEvents (d : Dispatcher) (client : Nat) (text : Bytes) : List Event :=
  match Command.ofLine? text with
  | none => []
  | some command =>
    let refused := (d.dispatch client command.seq command.words).2.isSome
    .commandReceived :: d.acceptEvents command.words ++
      if refused && d.loses client then [.refusalLost] else []

def events (d : Dispatcher) : Action → List Event
  | .retarget path => if d.tracker.path.same path then [] else [.retargeted]
  | .dispatch _ _ words => d.acceptEvents words
  | .line client text => d.lineEvents client text
  | .resolve i =>
    match d.workers[i]? with
    | some w =>
      if d.held || w.phase != .waiting then []
      else
        (if d.poisoned then [.lockRecovered] else []) ++ d.tracker.refreshEvents d.files ++
          w.request.answerEvents (d.tracker.refresh d.files).1 d.services
    | none => []
  | .deliver i =>
    match d.workers[i]? with
    | some w =>
      match w.phase with
      | .answered _ => (if d.loses w.client then [.replyLost] else []) ++ [.workerFinished]
      | _ => []
    | none => []
  | _ => []

def runEvents (d : Dispatcher) : List Action → List Event
  | [] => []
  | a :: actions => d.events a ++ (d.step a).runEvents actions

end Dispatcher

namespace LiveConfig

def reloadEvents (c : LiveConfig) (files : FileTree) : List Event :=
  match c.reload files with
  | .ok fresh => .reloading :: if fresh.current = c.current then [] else [.reloaded]
  | .error _ => [.reloading, .reloadRejected]

end LiveConfig

namespace Watch

def events (w : Watch) (files : FileTree) : WatchStep → List Event
  | .reload => if w.phase = .reloading then w.live.reloadEvents files else []
  | _ => []

def runEvents (w : Watch) (files : FileTree) : List WatchStep → List Event
  | [] => []
  | s :: steps => w.events files s ++ (w.step files s).runEvents files steps

end Watch

end HostLookup
