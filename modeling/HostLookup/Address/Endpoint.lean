import HostLookup.Address.Text

/-!
# Socket addresses

An endpoint is an address with a port. `layout` is its socket address
structure: family and scope least significant byte first, port and flow label
most significant byte first.
-/

namespace HostLookup

open Bytes

inductive Endpoint where
  | v4 (address : V4) (port : UInt16)
  | v6 (address : V6) (port : UInt16) (flow scope : UInt32)
  deriving DecidableEq, Repr

/-- The `n` low bytes of a number, least significant first. -/
def littleEndian : Nat → Nat → Bytes
  | 0, _ => []
  | n + 1, x => (x % 256).toUInt8 :: littleEndian n (x / 256)

def bigEndian (n x : Nat) : Bytes := (littleEndian n x).reverse

namespace Endpoint

def ofAddress (x : Address) (port : UInt16) : Endpoint :=
  match x with
  | .v4 x => v4 x port
  | .v6 x => v6 x port 0 0

def address : Endpoint → Address
  | v4 x _ => .v4 x
  | v6 x _ _ _ => .v6 x

def port : Endpoint → UInt16
  | v4 _ p => p
  | v6 _ p _ _ => p

def layout : Endpoint → Bytes
  | v4 x p => littleEndian 2 2 ++ bigEndian 2 p.toNat ++ x.octets ++ List.replicate 8 0
  | v6 x p flow scope =>
    littleEndian 2 10 ++ bigEndian 2 p.toNat ++ bigEndian 4 flow.toNat ++ x.octets ++
      littleEndian 4 scope.toNat

def text : Endpoint → Bytes
  | v4 x p => x.text ++ [colon] ++ Decimal.ofNat p.toNat
  | v6 x p _ scope =>
    ascii "[" ++ x.text ++
      (if scope = 0 then [] else ascii "%" ++ Decimal.ofNat scope.toNat) ++
      ascii "]:" ++ Decimal.ofNat p.toNat

end Endpoint

end HostLookup
