import SwitchLanPlay.Android.Encapsulation
import SwitchLanPlay.Android.Injection
import SwitchLanPlay.Android.LogView
import SwitchLanPlay.Android.Protocol
import SwitchLanPlay.Android.Relay
import SwitchLanPlay.Android.Replies
import SwitchLanPlay.Android.Sockets
import SwitchLanPlay.Android.TunDatagrams
import SwitchLanPlay.Android.TunParsing
import SwitchLanPlay.Android.VpnService
import SwitchLanPlay.Client.Ages
import SwitchLanPlay.Client.Broadcast
import SwitchLanPlay.Client.Downlink
import SwitchLanPlay.Client.Eviction
import SwitchLanPlay.Client.ExactDelivery
import SwitchLanPlay.Client.FragmentBounds
import SwitchLanPlay.Client.Fragments
import SwitchLanPlay.Client.Integrity
import SwitchLanPlay.Client.OwnBytes
import SwitchLanPlay.Client.Reassembly
import SwitchLanPlay.Client.Straddling
import SwitchLanPlay.Client.Wraparound
import SwitchLanPlay.Lan.ArpCache
import SwitchLanPlay.Lan.Capture
import SwitchLanPlay.Lan.Checksum
import SwitchLanPlay.Lan.Classification
import SwitchLanPlay.Lan.Datagrams
import SwitchLanPlay.Lan.Echo
import SwitchLanPlay.Lan.Footprint
import SwitchLanPlay.Lan.FrameBounds
import SwitchLanPlay.Lan.Interfaces
import SwitchLanPlay.Lan.Pcap
import SwitchLanPlay.Lan.PingPong
import SwitchLanPlay.Lan.SendBuffer
import SwitchLanPlay.Lan.State
import SwitchLanPlay.Library.BasicStrings
import SwitchLanPlay.Library.ExpiringTable
import SwitchLanPlay.Library.Hoare
import SwitchLanPlay.Library.Lines
import SwitchLanPlay.Library.Proc
import SwitchLanPlay.Library.Relational
import SwitchLanPlay.Library.Rest
import SwitchLanPlay.Library.Streams
import SwitchLanPlay.Library.Traces
import SwitchLanPlay.Proxy.Decapsulation
import SwitchLanPlay.Proxy.Isolation
import SwitchLanPlay.Proxy.Socks5
import SwitchLanPlay.Rpc.Address
import SwitchLanPlay.Rpc.AddressGrammar
import SwitchLanPlay.Rpc.Authentication
import SwitchLanPlay.Rpc.Balance
import SwitchLanPlay.Rpc.BufferList
import SwitchLanPlay.Rpc.Commands
import SwitchLanPlay.Rpc.Decoding
import SwitchLanPlay.Rpc.Framing
import SwitchLanPlay.Rpc.Handshake
import SwitchLanPlay.Rpc.LongFrames
import SwitchLanPlay.Rpc.Messages
import SwitchLanPlay.Rpc.Quoting
import SwitchLanPlay.UvLwip.Completion
import SwitchLanPlay.UvLwip.OpenPcb
import SwitchLanPlay.UvLwip.Pcb
import SwitchLanPlay.UvLwip.PcbAgreement
import SwitchLanPlay.UvLwip.Queue
import SwitchLanPlay.UvLwip.QueueAgreement
import SwitchLanPlay.UvLwip.Reading
import SwitchLanPlay.UvLwip.Release
import SwitchLanPlay.UvLwip.Stream
import SwitchLanPlay.Digest.Standard
import SwitchLanPlay.Digest.Transform
import SwitchLanPlay.Digest.Context
import SwitchLanPlay.Client.EventLoop
import SwitchLanPlay.Rpc.Statistics
import SwitchLanPlay.Client.Login
import SwitchLanPlay.Rpc.Base64
import SwitchLanPlay.Rpc.Opening
import SwitchLanPlay.UvLwip.TcpRelay
import SwitchLanPlay.UvLwip.TcpRelayRuns
import SwitchLanPlay.Lan.CaptureThread
import SwitchLanPlay.Client.Relaying
import SwitchLanPlay.Client.Sender
import SwitchLanPlay.Client.Tunnel
