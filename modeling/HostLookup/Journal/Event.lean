import HostLookup.Config

/-!
# Journal events

What the daemon reports of its work. Every event has a level, the part of the
program it comes from, a fixed message, and fields that go with it; `layout`
writes it on a line.
-/

namespace HostLookup.Journal

inductive Event where
  | journalReady
  | starting
  | interrupted
  | bindFailed
  | watchFailed
  | sourceRegistered
  | directoryWatched
  | watching
  | reloading
  | reloaded
  | reloadRejected
  | retargeted
  | hostsCurrent
  | hostsChanged
  | lineSkipped
  | hostsRebuilt
  | hostsUnavailable
  | hostMissing
  | nameMissing
  | addressMalformed
  | familyMismatch
  | addressFound
  | nameMalformed
  | serviceUnknown
  | commandRefused
  | limitReached
  | workerStarted
  | workerFinished
  | lockRecovered
  | lookupMissed
  | lookupFailed
  | replyLost
  | refusalLost
  | socketReady
  | socketKept
  | connectionOpened
  | connectionClosed
  | connectionBroken
  | commandReceived
  deriving DecidableEq, Repr

inductive Source where
  | main
  | logging
  | config
  | hosts
  | resolver
  | proxy
  | server
  | polling
  | watcher
  deriving DecidableEq, Repr

namespace Source

def target : Source → String
  | main => "hostsd"
  | logging => "hostsd::logging"
  | config => "hostsd::config"
  | hosts => "hostsd::hosts"
  | resolver => "hostsd::resolver"
  | proxy => "hostsd::proxy"
  | server => "hostsd::server"
  | polling => "mio::poll"
  | watcher => "notify::inotify"

end Source

namespace Event

/-- The fields that go with every event of a library. -/
def recordFields : List String := ["log.target", "log.module_path", "log.file", "log.line"]

/-- Level, source and message of an event, and the names of its other fields. -/
def describe : Event → Level × Source × String × List String
  | journalReady => (.debug, .logging, "Logging initialized", ["level", "format"])
  | starting =>
    (.info, .main, "hostsd starting", ["version", "socket", "hosts", "max_workers"])
  | interrupted => (.info, .main, "Interrupted, shutting down", [])
  | bindFailed => (.error, .main, "Cannot bind control socket", ["socket", "error"])
  | watchFailed => (.warn, .main, "Configuration hot reload disabled", ["error"])
  | sourceRegistered => (.trace, .polling, "registering event source with poller", recordFields)
  | directoryWatched => (.trace, .watcher, "adding inotify watch", recordFields)
  | watching => (.info, .config, "Watching configuration for changes", ["path"])
  | reloading => (.debug, .config, "Reloading configuration", ["path"])
  | reloaded => (.info, .config, "Configuration reloaded", ["path"])
  | reloadRejected => (.error, .config, "Configuration reload rejected", ["path", "error"])
  | retargeted => (.info, .hosts, "Hosts file path changed", ["old", "new"])
  | hostsCurrent => (.trace, .hosts, "Hosts snapshot is current", ["path"])
  | hostsChanged => (.debug, .hosts, "Hosts file changed, rebuilding index", ["path"])
  | lineSkipped => (.trace, .hosts, "Skipping hosts line", ["line_offset", "addr_len"])
  | hostsRebuilt => (.info, .hosts, "Hosts index rebuilt", ["path", "bytes", "entries"])
  | hostsUnavailable =>
    (.warn, .hosts, "Hosts file unavailable, keeping previous snapshot", ["error", "has_snapshot"])
  | hostMissing => (.debug, .resolver, "Not in hosts file", ["host"])
  | nameMissing => (.debug, .resolver, "Not in hosts file", ["name"])
  | addressMalformed => (.debug, .resolver, "Hosts entry address is not a literal", ["host"])
  | familyMismatch => (.debug, .resolver, "Address family mismatch", ["host", "ip", "family"])
  | addressFound => (.debug, .resolver, "Resolved from hosts file", ["host", "ip", "port"])
  | nameMalformed =>
    (.debug, .resolver, "Hosts name is not a matching literal", ["name", "family"])
  | serviceUnknown => (.trace, .resolver, "Unknown service, using port 0", ["service"])
  | commandRefused => (.debug, .proxy, "Rejected command", ["seq", "error"])
  | limitReached => (.warn, .proxy, "Worker limit reached", ["seq", "error"])
  | workerStarted => (.trace, .proxy, "Starting worker", ["seq", "request"])
  | workerFinished => (.trace, .proxy, "Worker finished", ["seq"])
  | lockRecovered =>
    (.warn, .proxy, "Resolution lock poisoned by a panicked worker, recovering", [])
  | lookupMissed => (.debug, .proxy, "Lookup miss", ["seq", "error"])
  | lookupFailed => (.warn, .proxy, "Lookup failed", ["seq", "error"])
  | replyLost => (.warn, .proxy, "Failed to write reply to client", ["seq", "error"])
  | refusalLost => (.warn, .server, "Failed to write rejection to client", ["seq", "error"])
  | socketReady => (.info, .server, "Control socket listening", ["socket"])
  | socketKept => (.debug, .server, "Could not remove control socket", ["socket", "error"])
  | connectionOpened => (.debug, .server, "Control connection opened", [])
  | connectionClosed => (.debug, .server, "Control connection closed", [])
  | connectionBroken => (.debug, .server, "Control connection ended with error", ["error"])
  | commandReceived => (.trace, .server, "Command received", ["seq", "command"])

def level (e : Event) : Level := e.describe.1

def target (e : Event) : String := e.describe.2.1.target

def message (e : Event) : String := e.describe.2.2.1

def fields (e : Event) : List String := "message" :: e.describe.2.2.2

/-- A name and a text as a member of an object; neither holds what would need an escape. -/
def member (name text : String) : Bytes :=
  ascii "\"" ++ ascii name ++ ascii "\":\"" ++ ascii text ++ ascii "\""

def layout (config : LoggingConfig) (e : Event) : Bytes :=
  let level := e.level.name.toUpper
  let line :=
    match config.format with
    | .json =>
      let target := if config.includeTarget then [member "target" e.target] else []
      let message := ascii "\"fields\":\x7b" ++ member "message" e.message ++ ascii "\x7d"
      ascii "\x7b" ++ (ascii ",").intercalate ([member "level" level, message] ++ target) ++
        ascii "\x7d"
    | _ =>
      let target := if config.includeTarget then ascii e.target ++ ascii ": " else []
      ascii level ++ ascii " " ++ target ++ ascii e.message
  line ++ [Bytes.newline]

end Event

end HostLookup.Journal
