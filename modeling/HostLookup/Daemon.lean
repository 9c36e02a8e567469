import HostLookup.CommandLine
import HostLookup.Journal.Filter
import HostLookup.Server

/-!
# The daemon

The daemon reads its configuration, opens its journal and serves the control
socket. While it serves, a watch may read the configuration again; a follower
then points the tracker at the hosts file that the configuration names. `step`
performs one action of one party.
-/

namespace HostLookup

open Bytes Journal

inductive Follower where
  | idle
  | told
  | holding (path : Path)
  deriving DecidableEq, Repr

inductive JournalPlace where
  | output
  | errors
  | file (place : Location)
  /-- A file that can be found no more. -/
  | lost
  deriving DecidableEq, Repr

def JournalPlace.after (files : FileTree) (c : FileChange) : JournalPlace → JournalPlace
  | file place =>
    match files.placeAfter c place with
    | some place => file place
    | none => lost
  | other => other

structure Daemon where
  server : Server
  watch : Option Watch := none
  follower : Follower := .idle
  /-- The journal's place and filter, if it could be opened. -/
  journal : Option (JournalPlace × Filter) := none

inductive DaemonAction where
  | act (a : Action)
  | watch (s : WatchStep)
  | hear
  | read
  | retarget
  deriving DecidableEq, Repr

namespace Daemon

def files (d : Daemon) : FileTree := d.server.dispatcher.files

/-- Follows what the other parties do to the files. -/
def observe (d : Daemon) : Action → Daemon
  | .change c =>
    { d with
      watch := d.watch.map (·.observe d.files c)
      journal := d.journal.map fun (place, filter) => (place.after d.files c, filter) }
  | _ => d

/-- An action that is not possible yet does nothing. -/
def step (d : Daemon) : DaemonAction → Daemon
  | .act a => { d.observe a with server := d.server.perform [a] }
  | .watch s =>
    match d.watch with
    | some w =>
      { d with
        watch := some (w.step d.files s)
        server := d.server.record (w.events d.files s) }
    | none => d
  | .hear =>
    match d.watch with
    | some w =>
      if w.announced ∧ d.follower = .idle then
        { d with watch := some (w.step d.files .receive), follower := .told }
      else d
    | none => d
  | .read =>
    match d.watch with
    | some w =>
      if d.follower = .told then { d with follower := .holding ⟨w.live.current.hosts.path⟩ } else d
    | none => d
  | .retarget =>
    match d.follower with
    | .holding path =>
      if d.server.dispatcher.held then d
      else { d with server := d.server.perform [.retarget path], follower := .idle }
    | _ => d

def run (d : Daemon) (actions : List DaemonAction) : Daemon := actions.foldl step d

def recorded (d : Daemon) : List Event :=
  match d.journal with
  | some (_, filter) => d.server.journal.reverse.filter filter.admits
  | none => []

def settle (d : Daemon) : Daemon :=
  match d.watch with
  | some w => d.run (w.settling.map .watch ++ [.hear, .read, .retarget])
  | none => d

/-! ## Start and end -/

def searchPath : List Path := [⟨ascii "./hostsd.yaml"⟩, ⟨ascii "/etc/hostsd/config.yaml"⟩]

def ignoringNote (path : Path) (failure : Failure) : Bytes :=
  ascii "hostsd: ignoring " ++ path.text ++ ascii ": " ++ failure.message ++
    ascii "; using defaults"

def journalNote (fault : Fault) : Bytes :=
  ascii "hostsd: cannot initialize logging: " ++ fault.message

/-- The configuration of a file, if one is found and can be used, with notes on it. -/
def findConfig (files : FileTree) (named : Option Path) : Option LiveConfig × List Bytes :=
  match named.or (searchPath.find? files.isFile) with
  | none => (none, [])
  | some path =>
    match LiveConfig.ofFile files path with
    | .ok live => (some live, [])
    | .error failure => (none, [ignoringNote path failure])

def override (o : Options) (c : Config) : Config :=
  { c with
    server := { c.server with socketPath := o.socket.getD c.server.socketPath }
    hosts := { c.hosts with path := o.hosts.getD c.hosts.path } }

def openJournal (files : FileTree) (output : Bytes) (now : Timestamp) :
    Except Fault (FileTree × JournalPlace) :=
  if output = ascii "stdout" then .ok (files, .output)
  else if output = ascii "stderr" then .ok (files, .errors)
  else (files.openForAppending ⟨output⟩ now).map fun (files, place) => (files, .file place)

/--
The filter of the environment, or that of the options and the configuration where
the first is missing or malformed.
-/
def chooseFilter (o : Options) (c : LoggingConfig) (environment : Option Bytes) :
    Except DirectiveFault Filter :=
  let own := Filter.ofText (filterText (o.level?.getD c.level) o.verboseLibraries)
  match environment with
  | none => own
  | some text =>
    match Filter.ofText text with
    | .error .malformed => own
    | other => other

inductive Outcome where
  | serving
  /-- It could not open its journal or its socket. -/
  | failed
  /-- It broke off at a filter that it could not cut. -/
  | aborted
  deriving DecidableEq, Repr

structure Launch where
  daemon : Daemon
  config : Config
  notes : List Bytes
  outcome : Outcome

namespace Launch

def serving (l : Launch) : Bool := l.outcome == .serving

def exitStatus (l : Launch) : Nat :=
  match l.outcome with
  | .serving => 0
  | .failed => 1
  | .aborted => 101

end Launch

def startWatch (o : Options) (live : Option LiveConfig) (d : Daemon) : Daemon :=
  match live, o.hosts with
  | some live, none =>
    match Watch.start live d.files with
    | .ok watch =>
      { d with
        watch := some watch
        server := d.server.record [.sourceRegistered, .directoryWatched, .watching] }
    | .error _ => { d with server := d.server.record [.watchFailed] }
  | _, _ => d

def start (files : FileTree) (services : ServiceTable) (o : Options) (environment : Environment)
    (now : Timestamp) : Launch :=
  let (live, notes) := findConfig files (o.config.map Path.mk)
  let config := override o ((live.map (·.current)).getD {})
  let daemonOn (files : FileTree) : Daemon :=
    { server :=
        { path := ⟨config.server.socketPath⟩
          dispatcher :=
            { files, services, tracker := { path := ⟨config.hosts.path⟩ }
              limit := config.server.maxWorkers } } }
  match chooseFilter o config.logging environment.filter with
  | .error _ => { daemon := daemonOn files, config, notes, outcome := .aborted }
  | .ok filter =>
    match openJournal files config.logging.output now with
    | .error fault =>
      { daemon := daemonOn files, config, notes := notes ++ [journalNote fault]
        outcome := .failed }
    | .ok (files, place) =>
      let d := { daemonOn files with journal := some (place, filter) }
      let d := startWatch o live { d with server := d.server.record [.journalReady, .starting] }
      let (server, failure) := d.server.listen
      let server := if failure.isSome then server.record [.bindFailed] else server
      { daemon := { d with server }, config, notes
        outcome := if failure.isSome then .failed else .serving }

def stop (d : Daemon) : Daemon :=
  { d with server := (d.server.record [.interrupted]).close }

end Daemon

end HostLookup
