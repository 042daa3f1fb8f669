import DaisyChain.Chain.Settling
import DaisyChain.Gateway.Environment

/-!
# The gateway at a chain

Time in a chain stands still until the gateway waits: it sends its bytes, the chain settles,
and only when the gateway misses bytes, or pauses, does a millisecond pass, after which the
chain settles again.  With this a chain is a `Transport`.
-/

namespace DaisyChain.Chain

variable {M : Type}

/-- Let the given time pass, a millisecond at a time. -/
def advance (c : Chain M) : Nat → Chain M
  | 0 => c
  | ms + 1 => ({ c with now := c.now + 1 }.settle).advance ms

/-- Put bytes on the link of the given index. -/
def inject (c : Chain M) (index : Nat) (bytes : List UInt8) : Chain M :=
  (c.modifyLink index fun l => l.pushAll bytes).settle

/-- Take at most the given number of bytes from the link back to the gateway. -/
def take (c : Chain M) (count : Nat) : List UInt8 × Chain M :=
  (c.exit.queue.take count, c.modifyExit fun l => l.drop count)

/-- Wait for the given number of bytes for at most the given time. -/
def await (count : Nat) : Nat → Chain M → List UInt8 × Chain M
  | 0, c => c.settle.take count
  | ms + 1, c =>
    let (bytes, c') := c.settle.take count
    if bytes.length = count then
      (bytes, c')
    else
      let (more, c'') := await (count - bytes.length) ms (c'.advance 1)
      (bytes ++ more, c'')

/-- Drop the bytes that have come back to the gateway. -/
def clearExit (c : Chain M) : Chain M :=
  c.settle.modifyExit Link.clear

instance : Gateway.Transport (Chain M) where
  send bytes c := (true, c.inject 0 bytes)
  receive count timeout c := let (bytes, c') := await count timeout c; (some bytes, c')
  flush c := (true, c.clearExit)
  drain c := (true, c.settle)
  pause ms c := ((), c.advance ms)

end DaisyChain.Chain
