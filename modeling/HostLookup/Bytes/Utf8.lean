import HostLookup.Bytes

/-!
# UTF-8

`decode?` reads well-formed UTF-8 and nothing else: no overlong form, no
surrogate, nothing above U+10FFFF. `encode` is its inverse on characters.
-/

namespace HostLookup.Bytes.Utf8

def isTail (b : UInt8) : Bool := 0x80 ≤ b && b ≤ 0xBF

def isPair (a b : UInt8) : Bool := 0xC2 ≤ a && a ≤ 0xDF && isTail b

def isTriple (a b c : UInt8) : Bool :=
  isTail c &&
    ((a == 0xE0 && 0xA0 ≤ b && b ≤ 0xBF) ||
      (0xE1 ≤ a && a ≤ 0xEF && a != 0xED && isTail b) ||
      (a == 0xED && 0x80 ≤ b && b ≤ 0x9F))

def isQuad (a b c d : UInt8) : Bool :=
  isTail c && isTail d &&
    ((a == 0xF0 && 0x90 ≤ b && b ≤ 0xBF) ||
      (0xF1 ≤ a && a ≤ 0xF3 && isTail b) ||
      (a == 0xF4 && 0x80 ≤ b && b ≤ 0x8F))

/-- The low six bits of a continuing byte. -/
def payload (b : UInt8) : Nat := b.toNat % 64

def decode? : Bytes → Option (List Char)
  | [] => some []
  | a :: r =>
    if a < 0x80 then (decode? r).map (Char.ofNat a.toNat :: ·)
    else
      match r with
      | [] => none
      | b :: r =>
        if isPair a b then
          (decode? r).map (Char.ofNat (a.toNat % 32 * 64 + payload b) :: ·)
        else
          match r with
          | [] => none
          | c :: r =>
            if isTriple a b c then
              (decode? r).map
                (Char.ofNat (a.toNat % 16 * 4096 + payload b * 64 + payload c) :: ·)
            else
              match r with
              | [] => none
              | d :: r =>
                if isQuad a b c d then
                  (decode? r).map
                    (Char.ofNat
                      (a.toNat % 8 * 262144 + payload b * 4096 + payload c * 64 + payload d) :: ·)
                else none

def valid (s : Bytes) : Bool := (decode? s).isSome

def encode (cs : List Char) : Bytes := cs.flatMap String.utf8EncodeChar

end HostLookup.Bytes.Utf8
