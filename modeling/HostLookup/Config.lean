import HostLookup.Bytes.Space
import HostLookup.Failure

/-!
# Configuration

Where the control socket and the hosts file are, how many workers may run, and
what is logged. `validate` refuses what no reader of the file can: paths without
a visible character.
-/

namespace HostLookup

open Bytes

inductive Level where
  | trace
  | debug
  | info
  | warn
  | error
  deriving DecidableEq, Repr, Inhabited

namespace Level

def all : List Level := [trace, debug, info, warn, error]

def name : Level → String
  | trace => "trace"
  | debug => "debug"
  | info => "info"
  | warn => "warn"
  | error => "error"

def rank : Level → Nat
  | trace => 0
  | debug => 1
  | info => 2
  | warn => 3
  | error => 4

def ofName? (s : Bytes) : Option Level := all.find? fun l => ascii l.name == s

end Level

inductive LogFormat where
  | pretty
  | compact
  | json
  deriving DecidableEq, Repr, Inhabited

namespace LogFormat

def all : List LogFormat := [pretty, compact, json]

def name : LogFormat → String
  | pretty => "pretty"
  | compact => "compact"
  | json => "json"

def ofName? (s : Bytes) : Option LogFormat := all.find? fun f => ascii f.name == s

end LogFormat

structure ServerConfig where
  socketPath : Bytes := ascii "/run/hostsd/dnsproxyd.sock"
  /-- The most workers at a time; zero is no bound. -/
  maxWorkers : Nat := 0
  deriving DecidableEq, Repr, Inhabited

structure HostsConfig where
  path : Bytes := ascii "/etc/hosts"
  deriving DecidableEq, Repr, Inhabited

structure LoggingConfig where
  level : Level := .info
  /-- `stdout`, `stderr` or the path of a file to append to. -/
  output : Bytes := ascii "stdout"
  format : LogFormat := .pretty
  includeTarget : Bool := true
  deriving DecidableEq, Repr, Inhabited

structure Config where
  server : ServerConfig := {}
  hosts : HostsConfig := {}
  logging : LoggingConfig := {}
  deriving DecidableEq, Repr, Inhabited

namespace Config

/-- The first field that must not be blank and is. -/
def validate (c : Config) : Except Failure Unit :=
  if isBlankText c.server.socketPath then
    .error (.configInvalid (.emptyField "server.socket_path"))
  else if isBlankText c.hosts.path then .error (.configInvalid (.emptyField "hosts.path"))
  else .ok ()

end Config

end HostLookup
