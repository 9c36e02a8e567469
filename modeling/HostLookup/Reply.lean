import HostLookup.Bytes.Hex
import HostLookup.Request

/-!
# Replies

A reply is lines that carry the sequence number of their command: one `222` line
for each result, then `200`; or one `401` line with a status; or one `500` line
with what is wrong with the command.
-/

namespace HostLookup

open Bytes

inductive Reply where
  | addresses (records : List AddressRecord)
  | host (entry : HostEntry)
  | failed (status : Status)
  | badArguments (text : Bytes)
  deriving DecidableEq, Repr

/-- Words with a space between each two, and a line feed. -/
def wordLine (words : List Bytes) : Bytes := (ascii " ").intercalate words ++ [newline]

namespace Reply

def sequenceText (seq : UInt32) : Bytes := Decimal.ofNat seq.toNat

def doneLine (seq : UInt32) : Bytes := wordLine [ascii "200", sequenceText seq, ascii "0"]

def recordLine (seq : UInt32) (r : AddressRecord) : Bytes :=
  wordLine [ascii "222", sequenceText seq, ascii "addrinfo", Decimal.ofInt32 r.family.raw,
    Decimal.ofInt32 r.socktype, Decimal.ofInt32 r.protocol, Hex.encode r.endpoint.layout]

def hostLine (seq : UInt32) (e : HostEntry) (x : Address) : Bytes :=
  wordLine [ascii "222", sequenceText seq, ascii "hostent", e.name, Decimal.ofInt32 e.family.raw,
    x.text]

/-- A text on one line: its line feeds become spaces. -/
def oneLine (s : Bytes) : Bytes := s.map fun b => if b = newline then 32 else b

def encode (seq : UInt32) : Reply → Bytes
  | addresses records => records.flatMap (recordLine seq) ++ doneLine seq
  | host entry => entry.addresses.flatMap (hostLine seq entry) ++ doneLine seq
  | failed status =>
    wordLine [ascii "401", sequenceText seq, Decimal.ofNat status.code, status.name]
  | badArguments text => wordLine [ascii "500", sequenceText seq, oneLine text]

/-- The kind of query that the words of a command name. -/
def kindOfArguments : List Bytes → QueryKind
  | command :: _ => if command = ascii Request.forwardName then .forward else .host
  | [] => .host

def ofRefusal (args : List Bytes) (failure : Failure) : Reply :=
  match failure with
  | .badCommand _ => .badArguments failure.message
  | _ => .failed (failure.status (kindOfArguments args))

end Reply

namespace Request

def answer (t : Hosts.Tracker) (services : ServiceTable) : Request → Except Failure Reply
  | forward host service hints => (t.forward services host service hints).map Reply.addresses
  | byAddress octets family =>
    match Address.ofOctets? octets with
    | none => .error (.badCommand .addressLength)
    | some x => (t.hostByName x.text family).map Reply.host
  | byName name family => (t.hostByName name family).map Reply.host

def reply (t : Hosts.Tracker) (services : ServiceTable) (r : Request) : Reply :=
  match r.answer t services with
  | .ok reply => reply
  | .error failure => .failed (failure.status r.kind)

end Request

end HostLookup
