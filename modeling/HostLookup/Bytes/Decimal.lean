import HostLookup.Bytes.Numeral

/-!
# Decimal numbers

`ofNat` and `ofInt` write numbers without leading zeros. `int32?` reads a run of
digits with an optional sign in front, `uint32?` one without.
-/

namespace HostLookup.Bytes.Decimal

def ofNat (n : Nat) : Bytes := digits 10 n

def ofInt : Int → Bytes
  | .ofNat n => ofNat n
  | .negSucc n => 45 :: ofNat (n + 1)

def ofInt32 (n : Int32) : Bytes := ofInt n.toInt

def int32? : Bytes → Option Int32
  | 43 :: ds => (natBelow? 10 2147483648 ds).map fun n => Int32.ofNat n
  | 45 :: ds => (natBelow? 10 2147483649 ds).map fun n => Int32.ofInt (-(Int.ofNat n))
  | ds => (natBelow? 10 2147483648 ds).map fun n => Int32.ofNat n

def uint32? (s : Bytes) : Option UInt32 := (natBelow? 10 4294967296 s).map (·.toUInt32)

end HostLookup.Bytes.Decimal
