import Deepstream.RoundTrip
import Deepstream.Reentrant.Machine
import Deepstream.Client.Connection
import Deepstream.Client.Rules
import Deepstream.Client.Runs
import Deepstream.Injection
import Deepstream.Client.Aside
import Deepstream.Client.Socket
import Deepstream.Closing
import Deepstream.Forbidden
import Deepstream.Pairing
import Deepstream.Querying
import Deepstream.ReadLoop
import Deepstream.Rejection
import Deepstream.Retrying
import Deepstream.Stages
import Deepstream.Stale
import Deepstream.Watching
import Deepstream.Alternation
import Deepstream.Listening
import Deepstream.Registration
import Deepstream.Delivery
import Deepstream.Notification
import Deepstream.Refusal
import Deepstream.Bounds
import Deepstream.Copying
import Deepstream.Tiling
import Deepstream.Acknowledgement
import Deepstream.Values
import Deepstream.Batching
import Deepstream.Handshake
import Deepstream.Random
import Deepstream.Ledger
import Deepstream.LinkedClient
