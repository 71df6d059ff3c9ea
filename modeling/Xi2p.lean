import Xi2p.I2NP
import Xi2p.Identity
import Xi2p.Lib.Bytes
import Xi2p.Lib.KeyedSet
import Xi2p.Lib.Reassembly
import Xi2p.Streaming.Packet
import Xi2p.Tunnel.Containment
import Xi2p.Tunnel.Endpoint
import Xi2p.Tunnel.Fragments
import Xi2p.Tunnel.Gateway
import Xi2p.Tunnel.Packing
import Xi2p.Tunnel.Reassembly
import Xi2p.Tunnel.Reordering
import Xi2p.Tunnel.RoundTrip
import Xi2p.Lib.Runs
import Xi2p.Streaming.Receiver
import Xi2p.Streaming.Delivery
import Xi2p.Streaming.Header
import Xi2p.Streaming.Acknowledgement
import Xi2p.Streaming.Connection
import Xi2p.SSU.Data
import Xi2p.SSU.Acks
import Xi2p.SSU.Fragmentation
import Xi2p.SSU.Reassembly
import Xi2p.Lib.CBC
import Xi2p.NTCP.Payload
import Xi2p.NTCP.Framing
import Xi2p.NTCP.Transmission
import Xi2p.SSU.Capacity
import Xi2p.Tunnel.Capacity
import Xi2p.Lib.Timers
import Xi2p.SSU.PacketSize
import Xi2p.SSU.Timers
import Xi2p.ByteStream
import Xi2p.SSU.Packet
import Xi2p.SSU.Validation
import Xi2p.SSU.RoundTrip
import Xi2p.SSU.Messages
import Xi2p.SSU.Relay
import Xi2p.SSU.PeerTest
import Xi2p.SSU.Server
import Xi2p.Tunnel.Layers
import Xi2p.Tunnel.Build
import Xi2p.Tunnel.Onion
import Xi2p.Tunnel.Acceptance
import Xi2p.Tunnel.BuildBounds
import Xi2p.Tunnel.Batch
import Xi2p.Tunnel.Pool
import Xi2p.Tunnel.Lifecycle
import Xi2p.Router.RouterInfo
import Xi2p.Router.LeaseSet
import Xi2p.Lib.AssocMap
import Xi2p.Router.NetDb
import Xi2p.Router.KeyIntegrity
import Xi2p.Router.WellFormed
import Xi2p.Router.StoreAtomicity
import Xi2p.Router.LeaseSetBounds
import Xi2p.Router.Lookup
import Xi2p.Router.HandlerBounds
import Xi2p.Router.Requests
import Xi2p.Transports.Delivery
import Xi2p.Transports.Fallback
import Xi2p.Router.Writing
import Xi2p.Router.RoundTrip
import Xi2p.Garlic.Destination
import Xi2p.Garlic.RoundTrip
import Xi2p.Garlic.Containment
import Xi2p.Garlic.SingleUse
import Xi2p.Garlic.TagExchange
import Xi2p.Garlic.LeaseSetUpdate
import Xi2p.Client.Destination
import Xi2p.Client.LeaseSetRequests
import Xi2p.Client.Publishing
import Xi2p.PrivateKeys
import Xi2p.Client.TunnelConnection
import Xi2p.Lib.Text
import Xi2p.Client.HTTPTunnel
import Xi2p.Client.HTTPMessage
import Xi2p.Client.HTTPHeaders
import Xi2p.Client.HTTPFraming
import Xi2p.Client.Datagram
import Xi2p.Router.Context
import Xi2p.Router.OwnRouterInfo
import Xi2p.Client.ZIP
import Xi2p.Client.Archive
import Xi2p.Client.SOCKS
import Xi2p.SSU.Cleanup
import Xi2p.Tunnel.BuildCapacity
import Xi2p.Tunnel.Config
import Xi2p.Tunnel.PeerSelection
import Xi2p.Tunnel.Transit
import Xi2p.Router.Asking
import Xi2p.Tunnel.GatewayMsg
import Xi2p.SSU.Envelope
import Xi2p.Tunnel.BufferSafety
import Xi2p.Lib.Json
import Xi2p.Lib.JsonDocument
import Xi2p.Client.I2PControl
import Xi2p.Lib.JsonWeight
import Xi2p.Client.I2PControlTexts
import Xi2p.Client.I2PControlRoundTrip
import Xi2p.Client.I2PControlEcho
import Xi2p.Lib.LeastElements
import Xi2p.Router.ClosestFloodfills
import Xi2p.Router.Flooding
import Xi2p.Router.Expiry
import Xi2p.Router.ParseSafety
import Xi2p.Router.SignedBuffer
import Xi2p.Lib.ErasingLoop
import Xi2p.Router.IPv6
import Xi2p.Streaming.Leases
import Xi2p.Router.LocalLeaseSet
import Xi2p.Client.RequestLimits
import Xi2p.Garlic.Cleanup
import Xi2p.Identity.Codec
import Xi2p.Identity.Accessors
import Xi2p.Lib.Gaps
import Xi2p.Streaming.QuickAck
import Xi2p.StreamPointers
import Xi2p.Client.DescriptorSearch
import Xi2p.Client.ReseedCertificates
import Xi2p.NTCP.FrameBounds
import Xi2p.SSU.Resending
import Xi2p.Client.Unzipping
import Xi2p.SSU.Resending
import Xi2p.Client.SOCKSMemory
import Xi2p.Client.ClientTunnels
import Xi2p.Client.Downloading
import Xi2p.Streaming.Sender
import Xi2p.Streaming.Segmentation
import Xi2p.Streaming.Reliability
import Xi2p.Streaming.Window
import Xi2p.Client.DataMessage
import Xi2p.NTCP.Handshake
import Xi2p.NTCP.Agreement
import Xi2p.NTCP.Authentication
import Xi2p.SSU.Handshake
import Xi2p.SSU.Establishment
