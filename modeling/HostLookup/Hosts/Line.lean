import HostLookup.Bytes

/-!
# Lines of a hosts file

A line lists an address and the names it has. `mentions` gives what a file
lists in file order: for each name, where the name stands and where the address
of its line does. A line that starts with `#`, or whose first word is longer
than 64 bytes, lists nothing; a name of 256 bytes or more is passed over.
-/

namespace HostLookup.Hosts

open Bytes

def maxAddressLength : Nat := 64

/-- The first length at which a name is passed over. -/
def nameLengthLimit : Nat := 256

def commentMark : UInt8 := 35

/-- A name in a file and the offset of the address on its line. -/
structure Mention where
  address : Nat
  name : Word
  deriving DecidableEq, Repr

def lineMentions (offset : Nat) (line : Bytes) : List Mention :=
  if line.head? = some commentMark then []
  else
    match wordsFrom isBlank offset line with
    | [] => []
    | address :: names =>
      if address.text.length ≤ maxAddressLength then
        (names.filter fun w => w.text.length < nameLengthLimit).map fun w => ⟨address.offset, w⟩
      else []

/-- The names of consecutive lines; the first starts at `offset`, and one byte ends each line. -/
def mentionsOfLines (offset : Nat) : List Bytes → List Mention
  | [] => []
  | line :: lines =>
    lineMentions offset line ++ mentionsOfLines (offset + line.length + 1) lines

def mentions (data : Bytes) : List Mention := mentionsOfLines 0 (splitOn newline data)

/-- Whether a line is neither empty nor a comment and still lists nothing. -/
def isSkipped (line : Bytes) : Bool :=
  !line.isEmpty && line.head? != some commentMark &&
    match wordsFrom isBlank 0 line with
    | [] => true
    | address :: _ => maxAddressLength < address.text.length

end HostLookup.Hosts
