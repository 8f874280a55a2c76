import DahuaBridge.Lib.SeqNum
import DahuaBridge.Lib.Tiling
import DahuaBridge.Lib.Utf8
import DahuaBridge.Ptcp.Packet
import DahuaBridge.Ptcp.Session
import DahuaBridge.Ptcp.Accounting
import DahuaBridge.Ptcp.Receive
import DahuaBridge.Ptcp.Reassembly
import DahuaBridge.Ptcp.Link
import DahuaBridge.Ptcp.Conservation
import DahuaBridge.Handshake.Handoff
import DahuaBridge.Lib.Text
import DahuaBridge.Manager.State
import DahuaBridge.Manager.Step
import DahuaBridge.Manager.Threads
import DahuaBridge.Manager.Lifecycle
import DahuaBridge.Manager.Online
import DahuaBridge.Manager.Backoff
import DahuaBridge.Api.Database
import DahuaBridge.Api.Handlers
import DahuaBridge.Api.Capacity
import DahuaBridge.Api.Agreement
import DahuaBridge.Lib.Tokens
import DahuaBridge.Http.Message
import DahuaBridge.Http.Rewrite
import DahuaBridge.Http.Relay
import DahuaBridge.Http.Framing
import DahuaBridge.Http.Segments
import DahuaBridge.Ptcp.Codec
import DahuaBridge.Ptcp.Receiver
import DahuaBridge.Ptcp.Skip
import DahuaBridge.Ptcp.VideoGap
import DahuaBridge.Ptcp.GapTimer
import DahuaBridge.Ptcp.Ahead
import DahuaBridge.Vendor.Worker
import DahuaBridge.Vendor.Handles
import DahuaBridge.Engine.State
import DahuaBridge.Engine.Step
import DahuaBridge.Engine.Downstream
import DahuaBridge.Engine.Isolation
import DahuaBridge.Engine.Upstream
import DahuaBridge.Easy4ip.Negotiation
import DahuaBridge.Easy4ip.Routing
import DahuaBridge.Ptcp.Calls
import DahuaBridge.Lib.Cutoff
import DahuaBridge.Ptcp.SendWindow
import DahuaBridge.Lib.Locks
import DahuaBridge.Manager.Locking
import DahuaBridge.Manager.Backend
import DahuaBridge.Manager.Journal
import DahuaBridge.Manager.Transient
import DahuaBridge.Manager.PeerRestart
import DahuaBridge.Api.Writes
import DahuaBridge.Http.Declared
import DahuaBridge.Lib.Base64
import DahuaBridge.Vendor.Wait
import DahuaBridge.Lib.Python
import DahuaBridge.Easy4ip.LocalAddr
import DahuaBridge.Api.LiveView
import DahuaBridge.Api.Auth
import DahuaBridge.Http.Survivors
import DahuaBridge.Lib.Fields
import DahuaBridge.Http.Redact
import DahuaBridge.Ptcp.Recovery
import DahuaBridge.Engine.Onvif
import DahuaBridge.Engine.Stall
import DahuaBridge.Engine.Tunnel
import DahuaBridge.Handshake.OneSession
import DahuaBridge.Api.Lifespan
