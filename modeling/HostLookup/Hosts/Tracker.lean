import HostLookup.Hosts.Snapshot

/-!
# Tracking a hosts file

A tracker follows the file at one path and holds at most one snapshot.
`refresh` reads the file again when length, modification time or path differ
from those of the snapshot; a file that cannot be read leaves it in place.
-/

namespace HostLookup.Hosts

structure Tracker where
  path : Path
  snapshot : Option Snapshot := none
  /-- The serial of the next snapshot. -/
  next : Nat := 0

inductive Refresh where
  | unchanged
  | rebuilt (entries : Nat)
  | unavailable
  deriving DecidableEq, Repr

namespace Tracker

/-- The content and time of the tracked file, if it can be opened and mapped. -/
def current? (t : Tracker) (files : FileTree) : Option (Bytes × Timestamp) :=
  match files.openForReading t.path with
  | .ok opened => opened.mapped?.map fun content => (content, opened.modified)
  | .error _ => none

def holds (t : Tracker) (length : Nat) (modified : Timestamp) : Bool :=
  match t.snapshot with
  | some s => s.isCurrent t.path length modified
  | none => false

def replace (t : Tracker) (content : Bytes) (modified : Timestamp) : Tracker :=
  { t with snapshot := some (.take t.next t.path content modified), next := t.next + 1 }

/-- A snapshot that is current is kept before anything is mapped. -/
def refresh (t : Tracker) (files : FileTree) : Tracker × Refresh :=
  match files.openForReading t.path with
  | .error _ => (t, .unavailable)
  | .ok opened =>
    if t.holds opened.length opened.modified then (t, .unchanged)
    else
      match opened.mapped? with
      | none => (t, .unavailable)
      | some content =>
        (t.replace content opened.modified, .rebuilt (Index.build content).size)

/-- Follows another path from now on; the same path keeps its text. -/
def retarget (t : Tracker) (path : Path) : Tracker :=
  if t.path.same path then t else { t with path := path }

def lookup (t : Tracker) (name : Bytes) : Option Entry :=
  t.snapshot.bind (·.lookup name)

end Tracker

end HostLookup.Hosts
