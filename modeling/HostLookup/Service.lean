import HostLookup.Address
import HostLookup.Bytes.Decimal

/-!
# Named services

A service table gives ports to names and aliases, each under one protocol. The
port of a request is the number that its service text spells, else the port of
the first row of that name, else zero.
-/

namespace HostLookup

open Bytes

structure Service where
  name : Bytes
  aliases : List Bytes := []
  protocol : Bytes
  port : UInt16
  deriving DecidableEq, Repr

abbrev ServiceTable := List Service

namespace Service

/-- Whether the row answers to `name` under the protocol asked for, if one is. -/
def answers (row : Service) (name : Bytes) (protocol : Option Bytes) : Bool :=
  (row.name == name || row.aliases.contains name) &&
    match protocol with
    | none => true
    | some p => row.protocol == p

end Service

def protocolOf (socktype : Int32) : Option Bytes :=
  if socktype = 2 then some (ascii "udp")
  else if socktype = 1 then some (ascii "tcp")
  else none

/-- A non-empty run of digits of value at most 65535. -/
def decimalPort? (s : Bytes) : Option UInt16 :=
  (natBelow? 10 65536 s).map (·.toUInt16)

namespace ServiceTable

/-- The port of the first row that answers; a name with a zero byte is never looked up. -/
def port? (table : ServiceTable) (name : Bytes) (protocol : Option Bytes) : Option UInt16 :=
  if name.contains 0 then none
  else (table.find? fun row => row.answers name protocol).map (·.port)

def resolvePort (table : ServiceTable) (service : Option Bytes) (socktype : Int32) : UInt16 :=
  match service with
  | none => 0
  | some s =>
    match decimalPort? s with
    | some port => port
    | none => (table.port? s (protocolOf socktype)).getD 0

end ServiceTable

end HostLookup
