import HostLookup.Bytes.Utf8

/-!
# White space

The characters that count as space around a text, the text without those, and
the test for a text that has nothing else.
-/

namespace HostLookup.Bytes

/-- The characters with the property White_Space. -/
def isSpace (c : Char) : Bool :=
  let n := c.toNat
  (0x9 ≤ n && n ≤ 0xD) || n == 0x20 || n == 0x85 || n == 0xA0 || n == 0x1680 ||
    (0x2000 ≤ n && n ≤ 0x200A) || n == 0x2028 || n == 0x2029 || n == 0x202F || n == 0x205F ||
    n == 0x3000

def withoutSpace (cs : List Char) : List Char :=
  ((cs.dropWhile isSpace).reverse.dropWhile isSpace).reverse

def isBlankText (s : Bytes) : Bool :=
  match Utf8.decode? s with
  | some cs => cs.all isSpace
  | none => false

end HostLookup.Bytes
