import Seameet.Library.Table
import Seameet.Library.Runs
import Seameet.Library.Leases
import Seameet.Signaling.Message
import Seameet.Signaling.State
import Seameet.Signaling.Index
import Seameet.Signaling.Dispatch
import Seameet.Media.Lines
import Seameet.Library.Traced
import Seameet.Library.Text
import Seameet.Media.Sdp
import Seameet.Media.Task
import Seameet.Sfu.Server
import Seameet.Engine.World
import Seameet.Engine.Outcome
import Seameet.Engine.Capacity
import Seameet.Engine.Stepping
import Seameet.Engine.Authentication
import Seameet.Engine.Names
import Seameet.Engine.Speech
import Seameet.Engine.Protocol
import Seameet.Engine.Admission
import Seameet.Engine.Refusal
import Seameet.Engine.Reconnect
import Seameet.Engine.Handshake
import Seameet.Engine.Others
import Seameet.Engine.Accounts
import Seameet.Engine.Cleanup
import Seameet.Engine.Status
import Seameet.Engine.History
import Seameet.Engine.Chat
import Seameet.Engine.Registration
import Seameet.Engine.Negotiation
import Seameet.Media.Turns
import Seameet.Media.Exclusive
import Seameet.Media.Assignment
import Seameet.Media.Sequence
import Seameet.Media.Continuity
import Seameet.Media.Order
import Seameet.Media.Deficit
import Seameet.Client.Pool
import Seameet.Client.Agreement
import Seameet.Library.BigEndian
import Seameet.Library.Chunks
import Seameet.Library.Ordered
import Seameet.Library.Window
import Seameet.Rtp.Packet
import Seameet.Rtp.Rtcp
import Seameet.Rtp.Jitter
import Seameet.Rtp.Extended
import Seameet.Rtp.Overflow
import Seameet.Rtp.Lateness
import Seameet.Rtp.Sender
import Seameet.Rtp.Fragments
import Seameet.Pipeline.Outbound
import Seameet.Pipeline.Inbound
import Seameet.E2ee.Crypto
import Seameet.E2ee.Requests
import Seameet.E2ee.Worker
import Seameet.E2ee.Replay
import Seameet.E2ee.Delivery
import Seameet.E2ee.ClearHeader
import Seameet.E2ee.Lockstep
import Seameet.E2ee.Forgery
import Seameet.E2ee.Renewal
import Seameet.E2ee.Succession
import Seameet.E2ee.Burst
import Seameet.E2ee.Session
import Seameet.E2ee.Chat
import Seameet.E2ee.Exchange
import Seameet.E2ee.Lobby
import Seameet.E2ee.Provenance
import Seameet.E2ee.Prospects
import Seameet.E2ee.Introduction
import Seameet.E2ee.Rekeying
import Seameet.E2ee.Ratchets
import Seameet.Library.Mailbox
import Seameet.Media.Holding
import Seameet.Media.Waiting
import Seameet.Media.Hush
import Seameet.Media.Speaker
import Seameet.Engine.Commands
import Seameet.Engine.Service
import Seameet.Engine.Routes
import Seameet.Engine.Backlog
import Seameet.Engine.Departure
import Seameet.Engine.ScreenShare
import Seameet.Engine.Generations
import Seameet.Engine.Replacement
import Seameet.Engine.Staff
import Seameet.Engine.Readers
import Seameet.Engine.Counts
import Seameet.Engine.MuteFlag
import Seameet.Engine.Mute
import Seameet.Engine.Flags
import Seameet.Library.Alternation
import Seameet.Library.Records
import Seameet.Facade.Room
import Seameet.Facade.Membership
import Seameet.Facade.EventLog
import Seameet.Facade.Forwarder
import Seameet.Facade.Allocation
import Seameet.Engine.Inflight
import Seameet.E2ee.SafetyNumber
import Seameet.E2ee.Verification
import Seameet.Library.Ledger
import Seameet.Library.Tenure
import Seameet.Facade.Server
import Seameet.Facade.Calls
import Seameet.Facade.Audit
import Seameet.Client.Socket
import Seameet.Client.Renegotiation
import Seameet.E2ee.Authenticity
import Seameet.Engine.Relaying
import Seameet.Pipeline.Passthrough
import Seameet.Library.Quota
import Seameet.Engine.RateLimit
import Seameet.Client.Devices
import Seameet.Engine.KeyRelay
import Seameet.Media.Timers
import Seameet.Library.Since
import Seameet.E2ee.Trust
import Seameet.Library.Firsts
import Seameet.Client.Grid
import Seameet.Meet.Participants
import Seameet.Client.Switches
import Seameet.Library.Allotment
import Seameet.Client.Pairs
