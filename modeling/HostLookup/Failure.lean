import HostLookup.Files.Fault

/-!
# Failures and statuses

`Failure` has one constructor for each cause and `message` words it. A failure
of a lookup reaches the client as a `Status`, taken from the namespace of the
query: `EAI_` codes for forward queries, resolver codes for host queries.
-/

namespace HostLookup

open Bytes

inductive BadCommand where
  | empty
  | unknown (name : Bytes)
  | arity (command : String) (expected got : Nat)
  | notInteger (field : String) (text : Bytes)
  | unsupportedFamily (raw : Int32)
  | lengthMismatch (length family : Int32)
  | malformedAddress (text : Bytes)
  | addressLength
  | custom (text : Bytes)
  deriving DecidableEq, Repr

namespace BadCommand

def message : BadCommand → Bytes
  | empty => ascii "Empty command"
  | unknown name => ascii "Unknown command: " ++ name
  | arity command expected got =>
    ascii command ++ ascii ": expected " ++ Decimal.ofNat expected ++ ascii " arguments, got " ++
      Decimal.ofNat got
  | notInteger field text => ascii "Invalid " ++ ascii field ++ ascii ": " ++ text
  | unsupportedFamily raw => ascii "Unsupported family: " ++ Decimal.ofInt32 raw
  | lengthMismatch length family =>
    ascii "Address length " ++ Decimal.ofInt32 length ++ ascii " does not match family " ++
      Decimal.ofInt32 family
  | malformedAddress text => ascii "inet_pton(\"" ++ text ++ ascii "\") failed"
  | addressLength => ascii "Address has no valid length"
  | custom text => text

end BadCommand

inductive BadConfig where
  | emptyField (field : String)
  | noFileName
  | custom (text : Bytes)
  deriving DecidableEq, Repr

namespace BadConfig

def message : BadConfig → Bytes
  | emptyField field => ascii field ++ ascii " cannot be empty"
  | noFileName => ascii "configuration path has no file name"
  | custom text => text

end BadConfig

inductive Failure where
  | notFound (name : Bytes)
  | badCommand (cause : BadCommand)
  | unavailable (path : Bytes) (fault : Fault)
  | exhausted (text : Bytes)
  | busy (limit : Nat)
  | configMissing (path : Bytes)
  | configSyntax (text : Bytes)
  | configInvalid (cause : BadConfig)
  | watch (text : Bytes)
  | io (fault : Fault)
  deriving DecidableEq, Repr

/-- The two kinds of query, each with statuses of its own. -/
inductive QueryKind where
  | forward
  | host
  deriving DecidableEq, Repr

inductive Status where
  | again
  | fail
  | memory
  | noName
  | hostNotFound
  | tryAgain
  | noRecovery
  deriving DecidableEq, Repr

namespace Status

def code : Status → Nat
  | again => 2
  | fail => 4
  | memory => 6
  | noName => 8
  | hostNotFound => 1
  | tryAgain => 2
  | noRecovery => 3

def name : Status → Bytes
  | again => ascii "EAI_AGAIN"
  | fail => ascii "EAI_FAIL"
  | memory => ascii "EAI_MEMORY"
  | noName => ascii "EAI_NONAME"
  | hostNotFound => ascii "HOST_NOT_FOUND"
  | tryAgain => ascii "TRY_AGAIN"
  | noRecovery => ascii "NO_RECOVERY"

def all : List Status := [again, fail, memory, noName, hostNotFound, tryAgain, noRecovery]

end Status

namespace Failure

def message : Failure → Bytes
  | notFound name => ascii "No such name: " ++ name
  | badCommand cause => ascii "Bad arguments: " ++ cause.message
  | unavailable path fault =>
    ascii "Hosts file unavailable at " ++ path ++ ascii ": " ++ fault.message
  | exhausted text => ascii "Allocation failure: " ++ text
  | busy limit =>
    ascii "Too many concurrent requests (limit " ++ Decimal.ofNat limit ++ ascii ")"
  | configMissing path => ascii "Configuration file not found: " ++ path
  | configSyntax text => ascii "Failed to parse configuration: " ++ text
  | configInvalid cause => ascii "Invalid configuration: " ++ cause.message
  | watch text => ascii "File watch error: " ++ text
  | io fault => ascii "I/O error: " ++ fault.message

def isNotFound : Failure → Bool
  | notFound _ => true
  | _ => false

def status : Failure → QueryKind → Status
  | notFound _, .forward => .noName
  | notFound _, .host => .hostNotFound
  | busy _, .forward => .again
  | busy _, .host => .tryAgain
  | exhausted _, .forward => .memory
  | _, .forward => .fail
  | _, .host => .noRecovery

end Failure

end HostLookup
