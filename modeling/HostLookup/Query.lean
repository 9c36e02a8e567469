import HostLookup.Address.Endpoint
import HostLookup.Address.Literal
import HostLookup.Failure
import HostLookup.Hosts.Tracker
import HostLookup.Service

/-!
# Queries

A forward query turns a name into an address record: the address that the hosts
file lists for it, with a port. A host query by name answers for names that are
themselves address literals. Either takes the first entry of the name and no
other.
-/

namespace HostLookup

open Hosts

structure Hints where
  flags : Int32 := 0
  family : Family := .unspecified
  socktype : Int32 := 0
  protocol : Int32 := 0
  deriving DecidableEq, Repr

structure AddressRecord where
  family : Family
  socktype : Int32
  protocol : Int32
  endpoint : Endpoint
  deriving DecidableEq, Repr

structure HostEntry where
  name : Bytes
  family : Family
  addresses : List Address
  deriving DecidableEq, Repr

/-- The address records of a host in a snapshot. -/
def Hosts.Snapshot.forward (s : Snapshot) (services : ServiceTable) (host : Bytes)
    (service : Option Bytes) (hints : Option Hints) : Except Failure (List AddressRecord) :=
  let hints := hints.getD {}
  match (s.lookup host).bind fun e => Address.ofText? (s.addressToken e) with
  | none => .error (.notFound host)
  | some x =>
    if hints.family.admits x then
      .ok [{
        family := .ofAddress x
        socktype := hints.socktype
        protocol := hints.protocol
        endpoint := .ofAddress x (services.resolvePort service hints.socktype) }]
    else .error (.notFound host)

/-- The host entry of a name that is an address literal in a snapshot. -/
def Hosts.Snapshot.hostByName (s : Snapshot) (name : Bytes) (family : Family) :
    Except Failure HostEntry :=
  match (s.lookup name).bind fun e => (Address.ofText? (s.nameToken e)).map (s.nameToken e, ·) with
  | none => .error (.notFound name)
  | some (word, x) =>
    if family.admits x then .ok ⟨word, .ofAddress x, [x]⟩ else .error (.notFound name)

namespace Hosts.Tracker

def forward (t : Tracker) (services : ServiceTable) (host service : Option Bytes)
    (hints : Option Hints) : Except Failure (List AddressRecord) :=
  match host with
  | none => .error (.notFound (ascii "(null)"))
  | some host =>
    match t.snapshot with
    | none => .error (.notFound host)
    | some s => s.forward services host service hints

def hostByName (t : Tracker) (name : Bytes) (family : Family) : Except Failure HostEntry :=
  match t.snapshot with
  | none => .error (.notFound name)
  | some s => s.hostByName name family

end Hosts.Tracker

end HostLookup
