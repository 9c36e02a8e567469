import HostLookup.Files.Tree
import HostLookup.Hosts.Index

/-!
# Snapshots of the hosts file

A snapshot is one content of a hosts file with its index. It remembers the path
it was read through and the file's length and modification time, by which it is
recognised as current. `serial` tells snapshots of one tracker apart.
-/

namespace HostLookup.Hosts

open Bytes

structure Snapshot where
  serial : Nat
  source : Path
  modified : Timestamp
  data : Bytes
  entries : Index
  entries_eq : entries = Index.build data

namespace Snapshot

def take (serial : Nat) (source : Path) (data : Bytes) (modified : Timestamp) : Snapshot :=
  ⟨serial, source, modified, data, Index.build data, rfl⟩

/-- Whether the snapshot was read through `source` from a file of this length and time. -/
def isCurrent (s : Snapshot) (source : Path) (length : Nat) (modified : Timestamp) : Bool :=
  s.source.same source && s.data.length == length && s.modified == modified

def addressToken (s : Snapshot) (e : Entry) : Bytes := token s.data e.address

def nameToken (s : Snapshot) (e : Entry) : Bytes := token s.data e.name

/-- The first entry of a name; an empty name or one with a blank has none. -/
def lookup (s : Snapshot) (name : Bytes) : Option Entry :=
  if name.isEmpty || name.any isBlank then none else s.entries.search s.data name

end Snapshot

end HostLookup.Hosts
