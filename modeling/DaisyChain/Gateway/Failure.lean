import DaisyChain.Property.Table
import DaisyChain.Report

/-!
# Failures of a transaction

A `Failure` says why a transaction with the chain did not succeed.  Faults of frames, sizes
and properties that the gateway itself meets become failures; what the nodes report is the
failure `nodes` with the categories of their faults.
-/

namespace DaisyChain.Gateway

/-- The reasons for which a transaction fails. -/
inductive Failure where
  /-- The chain did not answer in time. -/
  | timeout
  | checksumMismatch
  /-- A frame is not well formed. -/
  | malformedFrame
  /-- The header came back damaged. -/
  | headerMismatch
  /-- A broadcast came back changed. -/
  | payloadMismatch
  | sizeMismatch
  /-- The property is unknown or does not travel in this direction. -/
  | notSupported
  | handler
  /-- Nodes reported faults of these categories. -/
  | nodes (categories : Categories)
  | invalidArgument
  | bufferTooSmall
  /-- The line itself failed. -/
  | transport
  deriving DecidableEq, Repr

namespace Failure

/-- What fails is the ability to do what was asked, which no repetition mends. -/
def isNotSupported : Failure → Bool
  | .notSupported => true
  | .nodes categories => categories.onlyNotSupported
  | _ => false

/-- Another attempt may succeed. -/
def isRetryable (f : Failure) : Bool :=
  !f.isNotSupported && f != .invalidArgument && f != .bufferTooSmall

/-- The text of a failure. -/
def message : Failure → String
  | .timeout => "chain timeout"
  | .checksumMismatch => "frame checksum mismatch"
  | .malformedFrame => "frame decoding failed"
  | .headerMismatch => "header corrupted"
  | .payloadMismatch => "broadcast payload corrupted"
  | .sizeMismatch => "property size mismatch"
  | .notSupported => "property not supported"
  | .handler => handlerMessage
  | .nodes categories =>
    "node errors reported (0x" ++ String.singleton (Nat.digitChar categories.toNat) ++ ")"
  | .invalidArgument => "invalid argument"
  | .bufferTooSmall => "buffer too small"
  | .transport => "transport error"

/-- The failure that a faulty frame causes. -/
def ofFrame : Frame.Error → Failure
  | .invalidChecksum => .checksumMismatch
  | .valueTooLarge => .bufferTooSmall
  | .stuffing _ | .overflow => .malformedFrame

/-- The failure that a value of the wrong size causes. -/
def ofSize : PropertySize.Error → Failure
  | .mismatch | .tooLarge => .sizeMismatch

/-- The failure that a definition causes. -/
def ofProperty : PropertyError → Failure
  | .notSupported => .notSupported
  | .handler => .handler
  | .size error => ofSize error

end Failure

end DaisyChain.Gateway
