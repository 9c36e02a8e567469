import HostLookup.Bytes.Decimal
import HostLookup.Bytes.Utf8

/-!
# Command lines

A command is the words of a line. A first word that is a decimal number below
2^32 is the sequence number of the command; without one it is zero. A stream is
cut into lines at line feeds, up to the first line that is no UTF-8.
-/

namespace HostLookup

open Bytes

structure Command where
  seq : UInt32
  words : List Bytes
  deriving DecidableEq, Repr

namespace Command

/-- Space, tab, line feed, form feed and carriage return. -/
def isSeparator (b : UInt8) : Bool := b == 32 || b == 9 || b == 10 || b == 12 || b == 13

def wordsOfLine (line : Bytes) : List Bytes := (wordsFrom isSeparator 0 line).map (·.text)

def ofLine? (line : Bytes) : Option Command :=
  match wordsOfLine line with
  | [] => none
  | first :: rest =>
    match Decimal.uint32? first with
    | some seq => some ⟨seq, rest⟩
    | none => some ⟨0, first :: rest⟩

end Command

inductive StreamEnd where
  | complete
  | malformed
  deriving DecidableEq, Repr

namespace Command

def withoutReturn (line : Bytes) : Bytes :=
  if line.getLast? = some carriageReturn then line.dropLast else line

/-- The lines of a stream; the last one may lack its line feed, and then keeps all its bytes. -/
def rawLines (stream : Bytes) : List Bytes :=
  let pieces := splitOn newline stream
  let last := pieces.getLast?.getD []
  pieces.dropLast.map withoutReturn ++ if last.isEmpty then [] else [last]

/-- The lines before the first malformed one. -/
def readable (lines : List Bytes) : List Bytes × StreamEnd :=
  let good := lines.takeWhile Utf8.valid
  (good, if good.length = lines.length then .complete else .malformed)

def linesOf (stream : Bytes) : List Bytes × StreamEnd := readable (rawLines stream)

end Command

end HostLookup
