import HostLookup.Files.Socket
import HostLookup.Journal.Account

/-!
# The control server

A server listens on a socket and hands the lines that its connections deliver to
a dispatcher. A connection keeps the bytes after its last whole line; a line
that is no UTF-8 ends the reading of it. The server's journal is all events so
far.
-/

namespace HostLookup

open Bytes Journal

structure Connection where
  /-- The client at the dispatcher that gets the replies. -/
  client : Nat
  /-- The bytes after the last whole line. -/
  pending : Bytes := []
  reading : Bool := true
  deriving DecidableEq, Repr

namespace Connection

/-- The lines that new bytes complete. -/
def receive (c : Connection) (data : Bytes) : List Bytes × Connection :=
  if !c.reading then ([], c)
  else
    let pieces := splitOn newline (c.pending ++ data)
    match Command.readable (pieces.dropLast.map Command.withoutReturn) with
    | (lines, .complete) => (lines, { c with pending := pieces.getLast?.getD [] })
    | (lines, .malformed) => (lines, { c with pending := [], reading := false })

/-- The line that the end of the stream completes, and whether all was readable. -/
def finish (c : Connection) : List Bytes × StreamEnd × Connection :=
  let last := if c.reading && !c.pending.isEmpty then [c.pending] else []
  let (lines, ending) := Command.readable last
  (lines, ending, { c with pending := [], reading := false })

end Connection

structure Server where
  path : Path
  dispatcher : Dispatcher
  connections : List Connection := []
  /-- The events so far, the latest first. -/
  journal : List Event := []

namespace Server

def record (s : Server) (events : List Event) : Server :=
  { s with journal := events.reverse ++ s.journal }

def perform (s : Server) (actions : List Action) : Server :=
  { s.record (s.dispatcher.runEvents actions) with dispatcher := s.dispatcher.run actions }

def listen (s : Server) : Server × Option Failure :=
  let (files, fault) := s.dispatcher.files.listen s.path
  let s := { s with dispatcher := { s.dispatcher with files } }
  match fault with
  | none => (s.record [.socketReady], none)
  | some fault => (s, some (.io fault))

def close (s : Server) : Server :=
  let s := if (s.dispatcher.files.unlink s.path).toOption.isSome then s else s.record [.socketKept]
  { s with dispatcher := { s.dispatcher with files := s.dispatcher.files.discard s.path } }

def connect (s : Server) : Server :=
  let client := s.dispatcher.clients.length
  let s := (s.perform [.connect .stream]).record [.connectionOpened]
  { s with connections := s.connections ++ [{ client }] }

/-- Handles a line and lets its worker finish. -/
def handle (client : Nat) (s : Server) (line : Bytes) : Server :=
  let worker := s.dispatcher.workers.length
  s.perform [.line client line, .resolve worker, .deliver worker, .finish worker]

def setConnection (s : Server) (i : Nat) (c : Connection) : Server :=
  { s with connections := s.connections.set i c }

def receive (s : Server) (i : Nat) (data : Bytes) : Server :=
  match s.connections[i]? with
  | none => s
  | some c =>
    let (lines, after) := c.receive data
    let s := (lines.foldl (handle c.client) s).setConnection i after
    if c.reading && !after.reading then s.record [.connectionBroken] else s

def hangUp (s : Server) (i : Nat) : Server :=
  match s.connections[i]? with
  | none => s
  | some c =>
    let (lines, ending, after) := c.finish
    let s := (lines.foldl (handle c.client) s).setConnection i after
    if c.reading then
      s.record [if ending = .complete then .connectionClosed else .connectionBroken]
    else s

def replies (s : Server) (i : Nat) : List Bytes :=
  match s.connections[i]?.bind fun c => s.dispatcher.clients[c.client]? with
  | some client => client.received.map fun (seq, reply) => reply.encode seq
  | none => []

end Server

end HostLookup
