import HostLookup.Bytes

/-!
# Internet addresses

An address is four octets or eight 16-bit groups. A `Family` is what a caller
asks for: any address, one of the two kinds, or a number that names neither
and so admits nothing.
-/

namespace HostLookup

structure V4 where
  a : UInt8
  b : UInt8
  c : UInt8
  d : UInt8
  deriving DecidableEq, Repr

structure V6 where
  groups : List UInt16
  length_groups : groups.length = 8
  deriving DecidableEq, Repr

inductive Address where
  | v4 (address : V4)
  | v6 (address : V6)
  deriving DecidableEq, Repr

namespace V4

def octets (x : V4) : Bytes := [x.a, x.b, x.c, x.d]

end V4

/-- The group of two octets, the more significant first. -/
def groupOf (hi lo : UInt8) : UInt16 := (hi.toNat * 256 + lo.toNat).toUInt16

def groupOctets (g : UInt16) : Bytes := [(g.toNat / 256).toUInt8, (g.toNat % 256).toUInt8]

namespace V6

def octets (x : V6) : Bytes := x.groups.flatMap groupOctets

def ofGroups? (gs : List UInt16) : Option V6 :=
  if h : gs.length = 8 then some ⟨gs, h⟩ else none

end V6

/-- The groups of an even number of octets. -/
def groupsOfOctets : Bytes → List UInt16
  | hi :: lo :: rest => groupOf hi lo :: groupsOfOctets rest
  | _ => []

namespace Address

def octets : Address → Bytes
  | v4 x => x.octets
  | v6 x => x.octets

def ofOctets? : Bytes → Option Address
  | [a, b, c, d] => some (v4 ⟨a, b, c, d⟩)
  | s => if s.length = 16 then (V6.ofGroups? (groupsOfOctets s)).map v6 else none

end Address

inductive Family where
  | unspecified
  | inet
  | inet6
  | other (raw : Int32)
  deriving DecidableEq, Repr, Inhabited

namespace Family

def ofRaw (raw : Int32) : Family :=
  if raw = 0 then unspecified
  else if raw = 2 then inet
  else if raw = 10 then inet6
  else other raw

def raw : Family → Int32
  | unspecified => 0
  | inet => 2
  | inet6 => 10
  | other raw => raw

@[simp] theorem raw_ofRaw (n : Int32) : (ofRaw n).raw = n := by
  unfold ofRaw
  split
  · simp_all [raw]
  · split
    · simp_all [raw]
    · split <;> simp_all [raw]

def ofAddress : Address → Family
  | .v4 _ => inet
  | .v6 _ => inet6

/-- Whether a caller who asks for this family takes the address. -/
def admits : Family → Address → Bool
  | unspecified, _ => true
  | inet, .v4 _ => true
  | inet6, .v6 _ => true
  | _, _ => false

/-- Octets in an address of this family. -/
def addressLength? : Family → Option Nat
  | inet => some 4
  | inet6 => some 16
  | _ => none

end Family

end HostLookup
