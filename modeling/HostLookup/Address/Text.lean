import HostLookup.Address
import HostLookup.Bytes.Decimal
import HostLookup.Bytes.Hex

/-!
# Canonical address text

Octets are written in decimal between points. Groups are written in lower-case
hexadecimal between colons; the first longest run of at least two zero groups
becomes `::`, and an address that embeds four octets after `ffff` ends in them.
-/

namespace HostLookup

open Bytes

def point : UInt8 := 46

def colon : UInt8 := 58

namespace V4

def text (x : V4) : Bytes :=
  [point].intercalate (x.octets.map fun o => Decimal.ofNat o.toNat)

end V4

def groupsText (gs : List UInt16) : Bytes :=
  [colon].intercalate (gs.map fun g => Hex.ofNat g.toNat)

structure ZeroRun where
  start : Nat
  length : Nat
  deriving DecidableEq, Repr

/-- The first longest stretch of zeros in the groups from position `start` on. -/
def longestZeroRun (start : Nat) : List UInt16 → ZeroRun
  | [] => ⟨start, 0⟩
  | g :: gs =>
    let here := ((g :: gs).takeWhile (· == 0)).length
    let later := longestZeroRun (start + 1) gs
    if here < later.length then later else ⟨start, here⟩

namespace V6

/-- The four octets after five zero groups and `ffff`. -/
def embedded? (x : V6) : Option V4 :=
  match x.groups with
  | [0, 0, 0, 0, 0, 0xffff, hi, lo] =>
    some ⟨(hi.toNat / 256).toUInt8, (hi.toNat % 256).toUInt8,
      (lo.toNat / 256).toUInt8, (lo.toNat % 256).toUInt8⟩
  | _ => none

def text (x : V6) : Bytes :=
  match x.embedded? with
  | some inner => ascii "::ffff:" ++ inner.text
  | none =>
    let run := longestZeroRun 0 x.groups
    if 1 < run.length then
      groupsText (x.groups.take run.start) ++ ascii "::" ++
        groupsText (x.groups.drop (run.start + run.length))
    else groupsText x.groups

end V6

namespace Address

def text : Address → Bytes
  | v4 x => x.text
  | v6 x => x.text

end Address

end HostLookup
