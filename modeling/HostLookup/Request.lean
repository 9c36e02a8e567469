import HostLookup.Bytes.Decimal
import HostLookup.Query

/-!
# Requests

A request is one query with its arguments. `ofArguments` reads it from the words
of a command: the name of the query, then its arguments, where `^` stands for no
host or no service and four times `-1` for no hints. `arguments` writes it back.
-/

namespace HostLookup

open Bytes

inductive Request where
  | forward (host service : Option Bytes) (hints : Option Hints)
  | byAddress (octets : Bytes) (family : Family)
  | byName (name : Bytes) (family : Family)
  deriving DecidableEq, Repr

/-- The argument that stands for nothing. -/
def nullArgument : Bytes := ascii "^"

def optionalArgument (s : Bytes) : Option Bytes := if s = nullArgument then none else some s

def integerArgument (field : String) (s : Bytes) : Except Failure Int32 :=
  match Decimal.int32? s with
  | some n => .ok n
  | none => .error (.badCommand (.notInteger field s))

namespace Hints

/-- The hints of four numbers; four times -1 are none. -/
def ofNumbers (flags family socktype protocol : Int32) : Option Hints :=
  if flags = -1 ∧ family = -1 ∧ socktype = -1 ∧ protocol = -1 then none
  else some ⟨flags, .ofRaw family, socktype, protocol⟩

end Hints

namespace Request

def forwardName : String := "getaddrinfo"

def byAddressName : String := "gethostbyaddr"

def byNameName : String := "gethostbyname"

def kind : Request → QueryKind
  | forward .. => .forward
  | _ => .host

def forwardOfArguments : List Bytes → Except Failure Request
  | [host, service, flags, family, socktype, protocol] => do
    let flags ← integerArgument "flags" flags
    let family ← integerArgument "family" family
    let socktype ← integerArgument "socktype" socktype
    let protocol ← integerArgument "protocol" protocol
    return .forward (optionalArgument host) (optionalArgument service)
      (Hints.ofNumbers flags family socktype protocol)
  | args => .error (.badCommand (.arity forwardName 6 args.length))

def octetsOfText? : Family → Bytes → Option Bytes
  | .inet, s => (V4.ofText? s).map V4.octets
  | _, s => (V6.ofText? s).map V6.octets

def byAddressOfArguments : List Bytes → Except Failure Request
  | [address, length, family] => do
    let length ← integerArgument "length" length
    let raw ← integerArgument "family" family
    let family := Family.ofRaw raw
    match family.addressLength? with
    | none => .error (.badCommand (.unsupportedFamily raw))
    | some expected =>
      if length.toInt ≠ expected then .error (.badCommand (.lengthMismatch length raw))
      else
        match octetsOfText? family address with
        | none => .error (.badCommand (.malformedAddress address))
        | some octets => .ok (.byAddress octets family)
  | args => .error (.badCommand (.arity byAddressName 3 args.length))

def byNameOfArguments : List Bytes → Except Failure Request
  | [name, family] => do
    let family ← integerArgument "family" family
    return .byName name (.ofRaw family)
  | args => .error (.badCommand (.arity byNameName 2 args.length))

def ofArguments : List Bytes → Except Failure Request
  | [] => .error (.badCommand .empty)
  | command :: args =>
    if command = ascii forwardName then forwardOfArguments args
    else if command = ascii byAddressName then byAddressOfArguments args
    else if command = ascii byNameName then byNameOfArguments args
    else .error (.badCommand (.unknown command))

/-- The text of four or sixteen octets; nothing for any other number of them. -/
def addressText (octets : Bytes) : Bytes := ((Address.ofOctets? octets).map Address.text).getD []

def arguments : Request → List Bytes
  | forward host service hints =>
    let numbers :=
      match hints with
      | some h => [h.flags, h.family.raw, h.socktype, h.protocol]
      | none => [-1, -1, -1, -1]
    ascii forwardName :: host.getD nullArgument :: service.getD nullArgument ::
      numbers.map Decimal.ofInt32
  | byAddress octets family =>
    [ascii byAddressName, addressText octets, Decimal.ofNat octets.length,
      Decimal.ofInt32 family.raw]
  | byName name family => [ascii byNameName, name, Decimal.ofInt32 family.raw]

end Request

end HostLookup
