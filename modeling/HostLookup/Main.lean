import HostLookup.Daemon

/-!
# The program

Reads the files that the daemon asks for, starts it, and serves one connection
over standard input and output. Everything that is decided is decided by the
daemon.
-/

namespace HostLookup.Program

def bytesOf (s : String) : Bytes := s.toUTF8.toList

def writeAll (h : IO.FS.Stream) (bytes : Bytes) : IO Unit := do
  h.write ⟨bytes.toArray⟩
  h.flush

/-- Names from the top, with what stands for the directory above carried out. -/
def placeOf (here : Location) (path : Path) : Location :=
  let start := if path.isAbsolute then [] else here
  path.steps.foldl (fun place name =>
    if name = dot then place else if name = dotdot then place.dropLast else place ++ [name]) start

def putDirectories (t : FileTree) (place : Location) : FileTree :=
  (List.range place.length).foldl (fun t n => t.put (place.take (n + 1)) .directory) t

def putPath (t : FileTree) (path : Path) : IO FileTree := do
  let some text := Bytes.Utf8.decode? path.text | return t
  let place := placeOf t.here path
  try
    let name ← IO.FS.realPath (String.ofList text)
    let data ← name.metadata
    let t := putDirectories t place.dropLast
    if data.type == .dir then return t.put place .directory
    let content ← IO.FS.readBinFile name
    return t.put place (.file content.toList ⟨data.modified.sec, data.modified.nsec.toNat⟩)
  catch _ => return t

def readTree (paths : List Path) : IO FileTree := do
  let directory ← IO.currentDir
  let here := (Path.mk (bytesOf directory.toString)).steps
  paths.foldlM putPath (putDirectories { here } here)

def readEnvironment : IO Environment := do
  let read (name : String) : IO (Option Bytes) := do return (← IO.getEnv name).map bytesOf
  return {
    config := ← read "HOSTSD_CONFIG"
    socket := ← read "HOSTSD_SOCKET"
    hosts := ← read "HOSTSD_HOSTS"
    filter := ← read "RUST_LOG" }

def writeJournal (l : Daemon.Launch) (written : Nat) : IO Nat := do
  let events := l.daemon.recorded
  let text := (events.drop written).flatMap (·.layout l.config.logging)
  match l.daemon.journal with
  | some (.output, _) => writeAll (← IO.getStdout) text
  | some (.errors, _) => writeAll (← IO.getStderr) text
  | some (.file _, _) =>
    let some name := Bytes.Utf8.decode? l.config.logging.output | return events.length
    let h ← IO.FS.Handle.mk (String.ofList name) .append
    h.write ⟨text.toArray⟩
  | _ => return written
  return events.length

/-- How a path differs between two trees, as a change. -/
def changeBetween? (before after : FileTree) (path : Path) : Option FileChange :=
  let found := (before.openForReading path).toOption
  match (after.openForReading path).toOption with
  | some (.file content modified) =>
    if found = some (.file content modified) then none
    else some (.write path content modified)
  | _ => if found.isSome then some (.remove path) else none

def refresh (d : Daemon) (paths : List Path) : IO Daemon := do
  let files ← readTree paths
  return paths.foldl (fun d path =>
    match changeBetween? d.files files path with
    | some c => d.step (.act (.change c))
    | none => d) d

/-- Serves the lines of standard input; gives how many events were written as well. -/
partial def serve (l : Daemon.Launch) (read written : Nat) : IO (Daemon.Launch × Nat) := do
  let line ← (← IO.getStdin).getLine
  let d ← refresh l.daemon (l.daemon.watch.map (·.live.path)).toList
  let d := d.settle
  let d ← refresh d [d.server.dispatcher.tracker.path]
  if line.isEmpty then
    return ({ l with daemon := { d with server := d.server.hangUp 0 } }, written)
  let server := d.server.receive 0 (bytesOf line)
  writeAll (← IO.getStdout) ((server.replies 0).drop read).flatten
  let l := { l with daemon := { d with server } }
  serve l (server.replies 0).length (← writeJournal l written)

def run (arguments : List String) : IO UInt32 := do
  let environment ← readEnvironment
  match CommandLine.read (arguments.map bytesOf) environment with
  | .error refusal =>
    writeAll (← IO.getStdout) refusal.output
    writeAll (← IO.getStderr) refusal.message
    return refusal.exitStatus.toUInt32
  | .ok options =>
    let configs := (options.config.map Path.mk).toList ++ Daemon.searchPath
    let files ← readTree configs
    let config := (Daemon.findConfig files (options.config.map Path.mk)).1
    let hosts := options.hosts.getD ((config.map (·.current.hosts.path)).getD
      ({} : HostsConfig).path)
    let files ← readTree (⟨hosts⟩ :: configs)
    let l := Daemon.start files [] options environment ⟨0, 0⟩
    for note in l.notes do writeAll (← IO.getStderr) (note ++ [Bytes.newline])
    if !l.serving then
      discard <| writeJournal l 0
      return l.exitStatus.toUInt32
    let l := { l with daemon := { l.daemon with server := l.daemon.server.connect } }
    let written ← writeJournal l 0
    let (l, written) ← serve l 0 written
    let l := { l with daemon := l.daemon.stop }
    discard <| writeJournal l written
    return l.exitStatus.toUInt32

end HostLookup.Program

def main (arguments : List String) : IO UInt32 := HostLookup.Program.run arguments
