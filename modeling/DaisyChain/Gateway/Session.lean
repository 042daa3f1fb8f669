import DaisyChain.Frame.Collector
import DaisyChain.Gateway.Failure
import DaisyChain.Gateway.Environment
import DaisyChain.Gateway.Settings
import DaisyChain.Header

/-!
# Sessions with a chain

A session is the state that the gateway works with, together with the length of the chain
as last seen.  An `Act` is something that the gateway does in a session and that may fail;
whatever it did before it failed stays done.

The acts of this module send and receive bytes, headers and frames.
-/

namespace DaisyChain

/-- What a gateway knows of its chain beforehand. -/
structure Gateway (M : Type) where
  table : Table M
  settings : Gateway.Settings := {}

namespace Gateway

/-- The state that a gateway works with. -/
structure Session (S : Type) where
  env : S
  /-- The number of nodes in the last header that came back. -/
  chainLength : Nat := 0

/-- Something that a gateway does in a session. -/
abbrev Act (S : Type) : Type → Type :=
  ExceptT Failure (StateM (Session S))

variable {S M α : Type}

/-- Do something in the state that the session works with. -/
def inside (f : StateM S α) : StateM (Session S) α :=
  Part.run ⟨Session.env, fun env s => { s with env := env }⟩ f

/-- Do something in the state that the session works with, as an act that does not fail. -/
def within (f : StateM S α) : Act S α :=
  ExceptT.lift (inside f)

/-- Do something that may fail in the state that the session works with. -/
def onLine (f : StateM S Bool) : Act S Unit := do
  unless ← within f do throw .transport

/-- Give the result of a computation that may fail. -/
def check {ε : Type} (cause : ε → Failure) : Except ε α → Act S α
  | .ok a => return a
  | .error e => throw (cause e)

variable [Transport S]

/-! ### Bytes -/

/-- Send the given bytes. -/
def send (bytes : List UInt8) : Act S Unit :=
  onLine (Transport.send bytes)

/-- Drop all that has arrived. -/
def flush : Act S Unit :=
  onLine Transport.flush

/-- Wait until every byte sent has left. -/
def drain : Act S Unit :=
  onLine Transport.drain

/-- Receive the given number of bytes. -/
def receive (g : Gateway M) (count : Nat) : Act S (List UInt8) := do
  match ← within (Transport.receive count (g.settings.receiveTimeout count)) with
  | none => throw .transport
  | some bytes => if bytes.length < count then throw .timeout else return bytes.take count

/-- Receive one byte. -/
def receiveByte (g : Gateway M) : Act S UInt8 := do
  match ← g.receive 1 with
  | [b] => return b
  | _ => throw .timeout

/-- Let the nodes recover from a fault. -/
def recover (g : Gateway M) : Act S Unit :=
  within (Transport.pause g.settings.pause)

/-! ### Headers and frames -/

/-- Receive an action header. -/
def receiveHeader (g : Gateway M) : Act S RawHeader := do
  match ← g.receive Header.actionLength with
  | [b0, b1, b2] =>
    let header : RawHeader := ⟨b0, b1, b2⟩
    if header.evenParity then return header else throw .headerMismatch
  | _ => throw .timeout

/-- Receive the rest of a frame of which some bytes have been collected. -/
def receiveRest (g : Gateway M) (collector : Frame.Collector) : Act S Frame := do
  let byte ← g.receiveByte
  match _h : collector.feed byte with
  | (.ok false, collector') => g.receiveRest collector'
  | (.ok true, collector') => check Failure.ofFrame collector'.decode
  | (.error e, _) => throw (.ofFrame e)
termination_by collector.room
decreasing_by exact Frame.Collector.room_feed_lt _h

/-- Receive a frame. -/
def receiveFrame (g : Gateway M) : Act S Frame :=
  g.receiveRest .start

/-- Open a read: send its header and receive it as it comes back from the chain. -/
def openRead (g : Gateway M) (property : PropertyId) : Act S RawHeader := do
  match ActionHeader.of? .read false property 0 with
  | none => throw .invalidArgument
  | some header =>
    flush
    send header.pack.toList
    let echo ← g.receiveHeader
    if echo.action = header.action ∧ echo.property = header.property then
      return echo
    else
      throw .headerMismatch

/-- Send a sync header and receive it as it comes back from the chain. -/
def sync (g : Gateway M) (kind : SyncKind) : Act S SyncHeader := do
  flush
  drain
  send [SyncHeader.pack ⟨kind, Categories.empty⟩]
  match SyncHeader.unpack (← g.receiveByte) with
  | .error _ => throw .headerMismatch
  | .ok header => if header.kind = kind then return header else throw .headerMismatch

variable [Replica S M]

/-- Take note of the length of the chain. -/
def updateCount (count : Nat) : Act S Unit := do
  modify fun s : Session S => { s with chainLength := count }
  let known ← within (Replica.count (S := S))
  let capacity := Replica.capacity (← get).env
  if known ≠ min count capacity then within (Replica.countChanged count)

end Gateway

end DaisyChain
