import HostLookup.Bytes.Utf8
import HostLookup.Config

/-!
# The command line

Options come from arguments and, where those leave one out, from the
environment. Arguments are read from left to right: the first thing wrong, or the
first request for help or the version, decides.
-/

namespace HostLookup

inductive Setting where
  | config
  | socket
  | hosts
  deriving DecidableEq, Repr

namespace Setting

def all : List Setting := [config, socket, hosts]

def name : Setting → String
  | config => "config"
  | socket => "socket"
  | hosts => "hosts"

end Setting

inductive Flag where
  | setting (s : Setting)
  | verbose
  | quiet
  | help
  | version
  deriving DecidableEq, Repr

namespace Flag

def all : List Flag := Setting.all.map setting ++ [verbose, quiet, help, version]

def longName : Flag → String
  | setting s => s.name
  | verbose => "verbose"
  | quiet => "quiet"
  | help => "help"
  | version => "version"

def shortName? : Flag → Option Char
  | setting .config => some 'c'
  | setting .socket => some 's'
  | setting .hosts => none
  | verbose => some 'v'
  | quiet => some 'q'
  | help => some 'h'
  | version => some 'V'

def ofLongName? (name : Bytes) : Option Flag := all.find? fun f => ascii f.longName == name

def ofShortName? (b : UInt8) : Option Flag :=
  all.find? fun f => f.shortName?.any fun c => c.toNat == b.toNat

end Flag

structure Options where
  config : Option Bytes := none
  socket : Option Bytes := none
  hosts : Option Bytes := none
  verbosity : Nat := 0
  quiet : Bool := false
  deriving DecidableEq, Repr, Inhabited

namespace Options

def get : Options → Setting → Option Bytes
  | o, .config => o.config
  | o, .socket => o.socket
  | o, .hosts => o.hosts

def set (o : Options) (s : Setting) (value : Bytes) : Options :=
  match s with
  | .config => { o with config := some value }
  | .socket => { o with socket := some value }
  | .hosts => { o with hosts := some value }

def level? (o : Options) : Option Level :=
  if o.quiet then some .error
  else
    match o.verbosity with
    | 0 => none
    | 1 => some .info
    | 2 => some .debug
    | _ => some .trace

/-- Whether events of libraries are wanted as well. -/
def verboseLibraries (o : Options) : Bool := 3 < o.verbosity

end Options

inductive Refusal where
  | help
  | version
  | unknown (argument : Bytes)
  | noValue (name : String)
  | needlessValue (name : String)
  | repeated (name : String)
  | quietAndVerbose
  deriving DecidableEq, Repr

structure Environment where
  config : Option Bytes := none
  socket : Option Bytes := none
  hosts : Option Bytes := none
  filter : Option Bytes := none
  deriving DecidableEq, Repr

namespace Environment

def get : Environment → Setting → Option Bytes
  | e, .config => e.config
  | e, .socket => e.socket
  | e, .hosts => e.hosts

end Environment

namespace CommandLine

structure Progress where
  options : Options := {}
  pending : Option Setting := none
  /-- Whether no argument is an option any more. -/
  operandsOnly : Bool := false

def equalsSign : UInt8 := 61

namespace Progress

/-- Sets a value, which is not empty and not the second. -/
def store (p : Progress) (s : Setting) (value : Bytes) : Except Refusal Progress :=
  if value.isEmpty then .error (.noValue s.name)
  else if (p.options.get s).isSome then .error (.repeated s.name)
  else .ok { p with options := p.options.set s value, pending := none }

def resolve (p : Progress) : Except Refusal Unit :=
  match p.pending with
  | some s => .error (.noValue s.name)
  | none => .ok ()

def switch (p : Progress) : Flag → Except Refusal Progress
  | .setting s => .ok { p with pending := some s }
  | .verbose => .ok { p with options := { p.options with verbosity := p.options.verbosity + 1 } }
  | .quiet =>
    if p.options.quiet then .error (.repeated "quiet")
    else .ok { p with options := { p.options with quiet := true } }
  | .help => .error .help
  | .version => .error .version

def takeLong (p : Progress) (text : Bytes) : Except Refusal Progress := do
  let name := text.takeWhile (· != equalsSign)
  let value := (text.drop name.length).drop 1
  let valued := name.length < text.length
  p.resolve
  match Flag.ofLongName? name with
  | none => .error (.unknown text)
  | some flag =>
    if !valued then p.switch flag
    else
      match flag with
      | .setting s => p.store s value
      | _ => .error (.needlessValue flag.longName)

/-- Takes the letters that follow one dash; a setting takes the rest of them as its value. -/
def takeShort (p : Progress) : Bytes → Except Refusal Progress
  | [] => .ok p
  | b :: rest => do
    p.resolve
    match Flag.ofShortName? b with
    | none => .error (.unknown [b])
    | some (.setting s) =>
      if rest.isEmpty then p.switch (.setting s)
      else p.store s (if rest.head? = some equalsSign then rest.drop 1 else rest)
    | some flag => (← p.switch flag).takeShort rest

def take (p : Progress) (argument : Bytes) : Except Refusal Progress :=
  if p.operandsOnly then .error (.unknown argument)
  else
    match argument with
    | 45 :: 45 :: [] => .ok { p with operandsOnly := true }
    | 45 :: 45 :: text => p.takeLong text
    | 45 :: b :: text => p.takeShort (b :: text)
    | _ =>
      match p.pending with
      | some s => p.store s argument
      | none => .error (.unknown argument)

/-- Takes a setting from the environment unless it has a value. -/
def fill (environment : Environment) (p : Progress) (s : Setting) : Except Refusal Progress :=
  match p.options.get s, environment.get s with
  | none, some value => p.store s value
  | _, _ => .ok p

end Progress

def read (arguments : List Bytes) (environment : Environment) : Except Refusal Options := do
  let p ← arguments.foldlM Progress.take {}
  p.resolve
  let p ← Setting.all.foldlM (Progress.fill environment) p
  if p.options.quiet && p.options.verbosity != 0 then .error .quietAndVerbose
  else return p.options

end CommandLine

namespace Refusal

def programName : Bytes := ascii "hostsd"

def programVersion : Bytes := ascii "0.1.0"

def helpText : List String :=
  [
    "Serves hosts-file lookups on the resolver control socket",
    "",
    "Usage: hostsd [OPTIONS]",
    "",
    "Options:",
    "  -c, --config <CONFIG>  Configuration file [env: HOSTSD_CONFIG=]",
    "  -s, --socket <SOCKET>  Control socket path [env: HOSTSD_SOCKET=]",
    "      --hosts <HOSTS>    Hosts file, kept when the configuration changes [env: HOSTSD_HOSTS=]",
    "  -v, --verbose...       More output, up to four times",
    "  -q, --quiet            Errors only",
    "  -h, --help             Print help",
    "  -V, --version          Print version"
  ]

def output : Refusal → Bytes
  | help => helpText.flatMap fun line => ascii line ++ [Bytes.newline]
  | version => programName ++ ascii " " ++ programVersion ++ [Bytes.newline]
  | _ => []

def message : Refusal → Bytes
  | help | version => []
  | unknown argument => ascii "error: unexpected argument '" ++ argument ++ ascii "' found\n"
  | noValue name => ascii "error: a value is required for '--" ++ ascii name ++ ascii "'\n"
  | needlessValue name => ascii "error: unexpected value for '--" ++ ascii name ++ ascii "'\n"
  | repeated name =>
    ascii "error: the argument '--" ++ ascii name ++ ascii "' cannot be used multiple times\n"
  | quietAndVerbose => ascii "error: '--quiet' cannot be used with '--verbose'\n"

def exitStatus : Refusal → Nat
  | help | version => 0
  | _ => 2

end Refusal

end HostLookup
