import HostLookup.Bytes

/-!
# Numerals

Numbers to a base of at most sixteen. `digits` writes one without leading zeros
in lower case; `natBelow?` reads any non-empty run of digits of either case whose
value is below a limit.
-/

namespace HostLookup.Bytes

def lowerCase (b : UInt8) : UInt8 := if 65 ≤ b && b ≤ 90 then b + 32 else b

def digit (n : Nat) : UInt8 := n.digitChar.toNat.toUInt8

def digits (base n : Nat) : Bytes := (Nat.toDigits base n).map fun c => c.toNat.toUInt8

def digitValue? (b : UInt8) : Option Nat :=
  if 48 ≤ b && b ≤ 57 then some (b.toNat - 48)
  else if 97 ≤ b && b ≤ 102 then some (b.toNat - 87)
  else if 65 ≤ b && b ≤ 70 then some (b.toNat - 55)
  else none

def digit? (base : Nat) (b : UInt8) : Option Nat := (digitValue? b).filter (· < base)

/-- The value of digits after the value `n`, if it stays below the limit. -/
def valueFrom? (base limit n : Nat) : Bytes → Option Nat
  | [] => some n
  | b :: rest =>
    (digit? base b).bind fun d =>
      if base * n + d < limit then valueFrom? base limit (base * n + d) rest else none

def natBelow? (base limit : Nat) (s : Bytes) : Option Nat :=
  if s.isEmpty then none else valueFrom? base limit 0 s

/-- The bytes of characters; those beyond ASCII become a byte that is no digit. -/
def ofChars (cs : List Char) : Bytes := cs.map fun c => if c.toNat < 128 then c.toNat.toUInt8 else 0

end HostLookup.Bytes
