import HostLookup.Bytes.Numeral

/-!
# Hexadecimal

`encode` writes two lower-case digits a byte, `ofNat` a number without leading
zeros. `charOfCode?` reads the code of a character, of as many digits as
`codeLength?` says for the letter in front.
-/

namespace HostLookup.Bytes.Hex

def encode (s : Bytes) : Bytes :=
  s.flatMap fun b => [digit (b.toNat / 16), digit (b.toNat % 16)]

def ofNat (n : Nat) : Bytes := digits 16 n

def digit? (b : UInt8) : Option Nat := Bytes.digit? 16 b

def codeLength? (c : Char) : Option Nat :=
  match c with
  | 'x' => some 2
  | 'u' => some 4
  | 'U' => some 8
  | _ => none

/-- The character of a code; surrogates have none. -/
def charOfCode? (code : List Char) : Option Char := do
  let n ← natBelow? 16 0x110000 (ofChars code)
  if 0xD800 ≤ n && n ≤ 0xDFFF then none else some (Char.ofNat n)

end HostLookup.Bytes.Hex
