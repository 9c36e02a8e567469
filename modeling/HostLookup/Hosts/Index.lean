import HostLookup.Hosts.Line

/-!
# The index of a hosts file

An entry keeps two offsets into the file. The index has one entry for each name
of the file, sorted by name and, for one name, in file order; `search` halves it
until one position is left.
-/

namespace HostLookup.Hosts

open Bytes

structure Entry where
  address : Nat
  name : Nat
  deriving DecidableEq, Repr, Inhabited

/-- The word that starts at an offset; empty past the end. -/
def token (data : Bytes) (offset : Nat) : Bytes :=
  (data.drop offset).takeWhile fun b => !isBlank b

/-- The order of two byte strings of one length. -/
def compareBytes : Bytes → Bytes → Ordering
  | a :: as, b :: bs => if a < b then .lt else if b < a then .gt else compareBytes as bs
  | _, _ => .eq

/-- By the common length first, then the shorter before the longer. -/
def compareTokens (a b : Bytes) : Ordering :=
  let common := min a.length b.length
  (compareBytes (a.take common) (b.take common)).then (compare a.length b.length)

abbrev Index := Array Entry

namespace Index

/-- The entries of a file, sorted by name; equal names stay in file order. -/
def build (data : Bytes) : Index :=
  let sorted := (mentions data).mergeSort fun m n =>
    compareTokens m.name.text n.name.text != .gt
  (sorted.map fun m => ⟨m.address, m.name.offset⟩).toArray

/-- The first position from `lo` to `hi` whose name is not before `name`. -/
def lowerBound (data : Bytes) (entries : Index) (name : Bytes) (lo hi : Nat)
    (h : hi ≤ entries.size) : Nat :=
  if hlt : lo < hi then
    let mid := lo + (hi - lo) / 2
    have hmid : mid < entries.size := by omega
    if compareTokens (token data entries[mid].name) name = .lt then
      lowerBound data entries name (mid + 1) hi h
    else lowerBound data entries name lo mid (by omega)
  else lo
termination_by hi - lo

def search (data : Bytes) (entries : Index) (name : Bytes) : Option Entry :=
  entries[lowerBound data entries name 0 entries.size (Nat.le_refl _)]?.filter
    fun e => token data e.name == name

end Index

end HostLookup.Hosts
