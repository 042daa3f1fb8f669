import DaisyChain.Property.Description
import DaisyChain.SplitFlap.Properties
import DaisyChain.Node.Station
import DaisyChain.Gateway.Worker
import DaisyChain.Gateway.Journal
import DaisyChain.Gateway.Script
import DaisyChain.Chain.Transport
import DaisyChain.Proofs.Gateway.Convergence
import DaisyChain.Proofs.Gateway.LostUpdates
import DaisyChain.Proofs.Gateway.Earned
import DaisyChain.Proofs.Gateway.Stale
import DaisyChain.Proofs.Gateway.Refusals
import DaisyChain.Proofs.Gateway.QuietReads
import DaisyChain.Proofs.Gateway.Reaching
import DaisyChain.Proofs.Gateway.Records
import DaisyChain.Proofs.Gateway.Precedence
import DaisyChain.Proofs.Gateway.FlippedReads
import DaisyChain.Proofs.Gateway.FlippedWrites
import DaisyChain.Proofs.Gateway.Healing
import DaisyChain.Proofs.Node.Schedules
import DaisyChain.Proofs.Node.Provenance
import DaisyChain.Proofs.Node.Staging
import DaisyChain.Proofs.Node.Keeping
import DaisyChain.Proofs.Chain.Ripple
import DaisyChain.Proofs.Node.Delays
import DaisyChain.Proofs.Stuffing.Buffers
import DaisyChain.Proofs.Frame.Codec
import DaisyChain.Proofs.Gateway.Notices
import DaisyChain.Proofs.SplitFlap.Layouts
import DaisyChain.Proofs.Stuffing.Canonical
import DaisyChain.Proofs.Gateway.StreamReads
import DaisyChain.Proofs.Node.Silence
import DaisyChain.Proofs.Gateway.Promotion
import DaisyChain.Proofs.Node.Recovery
import DaisyChain.Proofs.SplitFlap.Refusing
import DaisyChain.Proofs.Gateway.Orderly
import DaisyChain.Proofs.Node.Bookkeeping
import DaisyChain.Proofs.Property.Sizes
import DaisyChain.Proofs.SplitFlap.Symbols
import DaisyChain.Proofs.Gateway.Lengths
import DaisyChain.Proofs.Frame.Cutting
