import HostLookup.Config
import HostLookup.Files.Tree
import HostLookup.Yaml.Value

/-!
# Configuration files

A configuration file is a YAML document of three sections. A section or a field
that is missing has its default, an unknown one is passed over. `load` reads the
file at a path and validates what it says.
-/

namespace HostLookup

open Bytes Yaml

abbrev Fields := List (Bytes × Node)

/-- Reads a field, or takes the default of one that is missing. -/
def Fields.get? {α : Type} (fields : Fields) (name : String) (default : α)
    (read : Node → Option α) : Option α :=
  match fields.lookup (ascii name) with
  | some n => read n
  | none => some default

/-- The fields of a mapping by the names that a section has. -/
def sectionFields? (d : Document) (names : List String) (n : Node) : Option Fields :=
  d.fields? (names.map ascii) n

namespace ServerConfig

def ofNode? (d : Document) (n : Node) : Option ServerConfig := do
  let base : ServerConfig := {}
  let fields ← sectionFields? d ["socket_path", "max_workers"] n
  let socketPath ← fields.get? "socket_path" base.socketPath d.text?
  let maxWorkers ← fields.get? "max_workers" base.maxWorkers d.unsigned?
  return { socketPath, maxWorkers }

end ServerConfig

namespace HostsConfig

def ofNode? (d : Document) (n : Node) : Option HostsConfig := do
  let base : HostsConfig := {}
  let fields ← sectionFields? d ["path"] n
  let path ← fields.get? "path" base.path d.text?
  return { path }

end HostsConfig

namespace LoggingConfig

def ofNode? (d : Document) (n : Node) : Option LoggingConfig := do
  let base : LoggingConfig := {}
  let fields ← sectionFields? d ["level", "output", "format", "include_target"] n
  let level ← fields.get? "level" base.level fun n => (d.name? n).bind Level.ofName?
  let output ← fields.get? "output" base.output d.text?
  let format ← fields.get? "format" base.format fun n => (d.name? n).bind LogFormat.ofName?
  let includeTarget ← fields.get? "include_target" base.includeTarget d.truth?
  return { level, output, format, includeTarget }

end LoggingConfig

namespace Config

def ofDocument? (d : Document) : Option Config := do
  let base : Config := {}
  let fields ← sectionFields? d ["server", "hosts", "logging"] d.root
  let server ← fields.get? "server" base.server (ServerConfig.ofNode? d)
  let hosts ← fields.get? "hosts" base.hosts (HostsConfig.ofNode? d)
  let logging ← fields.get? "logging" base.logging (LoggingConfig.ofNode? d)
  return { server, hosts, logging }

def ofText (text : List Char) : Except Failure Config :=
  match (Document.ofText? text).bind ofDocument? with
  | some c => .ok c
  | none => .error (.configSyntax [])

def ofContent (content : Bytes) : Except Failure Config :=
  match Utf8.decode? content with
  | none => .error (.io .malformedText)
  | some text => do
    let c ← ofText text
    c.validate
    return c

def load (files : FileTree) (path : Path) : Except Failure Config :=
  match files.openForReading path with
  | .ok (.file content _) => ofContent content
  | .ok (.directory _ _) => .error (.io .isDirectory)
  | .error fault =>
    if fault = .noEntry then .error (.configMissing path.text) else .error (.io fault)

end Config

end HostLookup
