import KeyedRpc.Memory.Module
import KeyedRpc.Proofs.Message.Histories
import KeyedRpc.Proofs.Message.RoundTrip
import KeyedRpc.Proofs.Serving.Invocations
import KeyedRpc.Proofs.Stream.Connections
import KeyedRpc.Proofs.Stream.Synchrony
import KeyedRpc.Proofs.Transport.Agreement
import KeyedRpc.Stream.Loopback
import KeyedRpc.Transport.InProcess
import KeyedRpc.Transport.Scripted
import KeyedRpc.Proofs.Serving.Gating
import KeyedRpc.Proofs.Message.Positions
import KeyedRpc.Proofs.Transport.InProcess
import KeyedRpc.Proofs.Transport.Calls
import KeyedRpc.Proofs.Memory.Endpoints
import KeyedRpc.Proofs.Memory.Array
import KeyedRpc.Proofs.Memory.Runs
import KeyedRpc.Proofs.Stream.Omissions
import KeyedRpc.Proofs.Stream.Delivery
import KeyedRpc.Proofs.Transport.Isolation
import KeyedRpc.Proofs.Memory.Survival
import KeyedRpc.Proofs.Message.Delimiting
import KeyedRpc.Proofs.Serving.Bounds
import KeyedRpc.Proofs.Memory.Styles
import KeyedRpc.Proofs.Transport.ReplyTags
import KeyedRpc.Proofs.Message.Malformed
import KeyedRpc.Proofs.Message.Maps
import KeyedRpc.Proofs.Message.Sequences
import KeyedRpc.Proofs.Message.Layout
import KeyedRpc.Proofs.Transport.Answers
import KeyedRpc.Proofs.Stream.Parsing
import KeyedRpc.Proofs.Stream.Interruptions
import KeyedRpc.Proofs.Stream.Truncation
import KeyedRpc.Proofs.Serving.Registrations
import KeyedRpc.Proofs.Memory.Accesses
import KeyedRpc.Proofs.Remote.Frames
import KeyedRpc.Proofs.Message.Overflow
import KeyedRpc.Proofs.Message.WordSequences
