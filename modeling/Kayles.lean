import Kayles.Lib.Double
import Kayles.Lib.Driver
import Kayles.Lib.Fallible
import Kayles.Lib.Ledger
import Kayles.Lib.Loop
import Kayles.Lib.Network
import Kayles.Lib.OncePerKey
import Kayles.Lib.PackedBits
import Kayles.Lib.Run
import Kayles.Lib.Search
import Kayles.Lib.Tokens
import Kayles.Lib.Traversal
import Kayles.Implementation.Common
import Kayles.Implementation.Conversions
import Kayles.Implementation.GameLogic
import Kayles.Implementation.Arguments
import Kayles.Implementation.Sockets
import Kayles.Implementation.MessageHandlers
import Kayles.Implementation.Server
import Kayles.Implementation.ClientMessages
import Kayles.Implementation.Client
import Kayles.Implementation.Programs
import Kayles.Spec.Session
import Kayles.Spec.Service
import Kayles.Spec.Mirror
import Kayles.Proofs.Arguments
import Kayles.Proofs.Board
import Kayles.Proofs.Packing
import Kayles.Proofs.Configuration
import Kayles.Proofs.Timeval
import Kayles.Proofs.Messages
import Kayles.Proofs.Handlers
import Kayles.Proofs.Steps
import Kayles.Proofs.Invariants
import Kayles.Proofs.Progress
import Kayles.Proofs.Termination
import Kayles.Proofs.Moves
import Kayles.Proofs.Replies
import Kayles.Proofs.Sessions
import Kayles.Proofs.Lifecycle
import Kayles.Proofs.Isolation
import Kayles.Proofs.Matchmaking
import Kayles.Proofs.Creation
import Kayles.Proofs.Availability
import Kayles.Proofs.Clock
import Kayles.Proofs.Buffer
import Kayles.Proofs.Reports
import Kayles.Proofs.KeepAlive
import Kayles.Proofs.Display
import Kayles.Proofs.Decoding
import Kayles.Proofs.Splitting
import Kayles.Proofs.Validation
import Kayles.Proofs.Numerals
import Kayles.Proofs.Serializers
import Kayles.Proofs.Requests
import Kayles.Proofs.Programs
import Kayles.Proofs.Wakeups
import Kayles.Proofs.Epoch
import Kayles.Proofs.Network
import Kayles.Proofs.Journal
import Kayles.Proofs.Service
import Kayles.Proofs.Printing
import Kayles.Proofs.Calls
import Kayles.Proofs.Retries
import Kayles.Proofs.Output
import Kayles.Proofs.Reuse
import Kayles.Proofs.Traffic
import Kayles.Proofs.Strategy
