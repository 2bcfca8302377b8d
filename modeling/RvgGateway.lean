import RvgGateway.Lib.Machine
import RvgGateway.Lib.Bytes
import RvgGateway.Lib.Aead
import RvgGateway.Lib.Framing
import RvgGateway.Lib.Dict
import RvgGateway.Lib.Text
import RvgGateway.Links.Link
import RvgGateway.Quota.Gate
import RvgGateway.Quota.Overrun
import RvgGateway.Quota.Totals
import RvgGateway.Quota.Accounting
import RvgGateway.Crypto
import RvgGateway.Shadowsocks.Stream
import RvgGateway.Shadowsocks.Segmentation
import RvgGateway.Shadowsocks.Match
import RvgGateway.Shadowsocks.RoundTrip
import RvgGateway.Vmess.Kdf
import RvgGateway.Vmess.NestedHmac
import RvgGateway.Vmess.Body
import RvgGateway.Vmess.BodyRoundTrip
import RvgGateway.Vmess.Header
import RvgGateway.Vmess.Session
import RvgGateway.Vmess.Response
import RvgGateway.Vmess.Truncation
import RvgGateway.Vmess.WsStream
import RvgGateway.Vmess.NonceReuse
import RvgGateway.Vmess.ReplayWindow
import RvgGateway.Ports.PortManager
import RvgGateway.Groups.Membership
import RvgGateway.Mtproto.Instances
import RvgGateway.Cores.Sync
import RvgGateway.Zeus.Proxy
import RvgGateway.Zeus.Traffic
import RvgGateway.Nodes.Access
import RvgGateway.Nodes.Connect
import RvgGateway.Nodes.Subscription
import RvgGateway.Ports.Admin
import RvgGateway.Ports.Sync
import RvgGateway.Ports.Establish
import RvgGateway.Lib.Reorder
import RvgGateway.Relay.Headers
import RvgGateway.Lib.Reading
import RvgGateway.Relay.Grammar
import RvgGateway.Vmess.CommandHeader
import RvgGateway.Vmess.Supervisor
import RvgGateway.Trojan.HashCache
import RvgGateway.Trojan.Coherence
import RvgGateway.Xhttp.Session
import RvgGateway.Xhttp.Engine
import RvgGateway.Xhttp.Effect
import RvgGateway.Xhttp.Frame
import RvgGateway.Xhttp.Authorization
import RvgGateway.Xhttp.Isolation
import RvgGateway.Xhttp.Registry
import RvgGateway.Xhttp.SessionStep
import RvgGateway.Xhttp.Upload
import RvgGateway.Xhttp.UploadStretch
import RvgGateway.Xhttp.ObjectStep
import RvgGateway.Xhttp.Charging
import RvgGateway.Xhttp.Chunking
import RvgGateway.Xhttp.EndMarker
import RvgGateway.Xhttp.Held
import RvgGateway.Xhttp.Sole
import RvgGateway.Xhttp.Removal
import RvgGateway.Xhttp.PacketUp
import RvgGateway.Xhttp.StreamUp
import RvgGateway.Xhttp.Retries
import RvgGateway.Xhttp.Settlement
import RvgGateway.Xhttp.Successor
import RvgGateway.Lib.Encode
import RvgGateway.Share.CoreLink
import RvgGateway.Share.ShareLink
import RvgGateway.Share.Inbound
import RvgGateway.Share.Agreement
import RvgGateway.Lib.Json
import RvgGateway.Lib.Stages
import RvgGateway.Lib.Assign
import RvgGateway.State.Persistence
import RvgGateway.State.Loading
import RvgGateway.State.HostDetection
import RvgGateway.State.Saving
import RvgGateway.State.Backup
import RvgGateway.Links.UpdateLink
import RvgGateway.Ports.Claims
import RvgGateway.Ports.Requests
import RvgGateway.Links.Records
import RvgGateway.Ports.Distinct
import RvgGateway.Ports.OffPanel
import RvgGateway.Ports.Range
import RvgGateway.Lib.Paths
import RvgGateway.Update.Download
import RvgGateway.Lib.ReadBack
import RvgGateway.Lib.Lines
import RvgGateway.Nodes.NodeKey
import RvgGateway.Update.VersionFile
import RvgGateway.Mtproto.Domain
import RvgGateway.Mtproto.FakeTls
import RvgGateway.Vmess.Client
import RvgGateway.Zeus.Socks5
import RvgGateway.Auth.Sessions
import RvgGateway.Nodes.Cache
import RvgGateway.Update.ManifestCache
import RvgGateway.Update.History
import RvgGateway.Update.Perform
import RvgGateway.State.Restart
import RvgGateway.Relay.Pump
import RvgGateway.Relay.Tunnel
import RvgGateway.Relay.Sealed
import RvgGateway.Xhttp.Download
import RvgGateway.Relay.SocksAddress
import RvgGateway.Relay.SealedTunnel
import RvgGateway.Cores.Current
import RvgGateway.Vmess.Relays
import RvgGateway.Vmess.Tunnel
