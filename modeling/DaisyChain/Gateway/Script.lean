import DaisyChain.Gateway.Environment

/-!
# Scripted lines

A script is a line that answers as it is told: whenever something is sent, the next reply
arrives.  Nothing ever arrives later, so waiting for more is in vain.  A script can also be
told to fail: after some calls of a kind, the next one of that kind fails and does nothing.
All calls are logged.
-/

namespace DaisyChain.Gateway

/-- The calls that can fail. -/
inductive CallKind where
  | write
  | read
  | flush
  | wait
  deriving DecidableEq, Repr

/-- A call of the gateway to its line. -/
inductive Call where
  | write (bytes : List UInt8)
  /-- Of `count` bytes, to wait for up to `timeout`, those given arrived. -/
  | read (count timeout : Nat) (bytes : List UInt8)
  /-- So many bytes were dropped. -/
  | flush (dropped : Nat)
  | wait
  | delay (ms : Nat)
  | failed (kind : CallKind)
  deriving DecidableEq, Repr

/-- A line that answers as it is told. -/
structure Script where
  replies : List (List UInt8) := []
  /-- What has arrived. -/
  input : List UInt8 := []
  /-- How many calls of a kind are to succeed before one fails, if one is to fail. -/
  failing : CallKind → Option Nat := fun _ => none
  /-- The calls so far, the last one first. -/
  log : List Call := []

namespace Script

/-- Log a call. -/
def note (s : Script) (call : Call) : Script :=
  { s with log := call :: s.log }

/-- Let a call of a kind fail after some others, or never. -/
def plan (s : Script) (kind : CallKind) (after : Option Nat) : Script :=
  { s with failing := fun k => if k = kind then after else s.failing k }

/-- Perform a call, unless it is to fail. -/
def attempt {α : Type} (kind : CallKind) (failure : α) (f : StateM Script α) :
    StateM Script α :=
  fun s => match s.failing kind with
    | some 0 => (failure, (s.plan kind none).note (.failed kind))
    | some (k + 1) => f (s.plan kind (some k))
    | none => f s

/-- Let the next reply arrive. -/
def reply (s : Script) : Script :=
  match s.replies with
  | [] => s
  | r :: rest => { s with replies := rest, input := s.input ++ r }

instance : Transport Script where
  send bytes := attempt .write false fun s => (true, (s.note (.write bytes)).reply)
  receive count timeout := attempt .read none fun s =>
    let bytes := s.input.take count
    (some bytes, { s with input := s.input.drop count }.note (.read count timeout bytes))
  flush := attempt .flush false fun s =>
    (true, { s with input := [] }.note (.flush s.input.length))
  drain := attempt .wait false fun s => (true, s.note .wait)
  pause ms s := ((), s.note (.delay ms))

end Script

end DaisyChain.Gateway
