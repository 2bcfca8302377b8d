import RvgGateway.Share.CoreLink

/-!
# The inbounds of the external cores

`core_configs.py` writes the configuration of Xray and of sing-box: an inbound for each link of the
core.  The objects of the configuration are records here; a field that the code leaves out is `none`.

* `xrayInbound` : `_xray_inbound`.
* `singboxInbound` : `_singbox_inbound`.
-/

namespace RvgGateway

namespace Share

/-! ### Links -/

/-- `_transport_of`. -/
def transportOf (protocol : String) : String :=
  if Str.endsWith "-ws" protocol then "ws"
  else if Str.endsWith "-httpupgrade" protocol then "httpupgrade"
  else if Str.contains "xhttp" protocol then "xhttp-packet-up"
  else "tcp"

/-- `_base_proto`. -/
def baseProto (protocol : String) : String :=
  (["vless", "vmess", "trojan", "shadowsocks", "mtproto"].find? fun b =>
    protocol = b || Str.startsWith (b ++ "-") protocol).getD protocol

/-- `_listen_port`. -/
def inboundPort (link : CoreLink) : ℤ :=
  if link.listenPort ≠ 0 then link.listenPort else link.mtprotoPort

/-- A certificate and its key, by their paths. -/
structure Cert where
  crt : String
  key : String

/-- `_ensure_tls_cert`; `panelCert` is what `ensure_panel_cert` returns. -/
def ensureTlsCert (panelCert : Cert) (link : CoreLink) : Cert :=
  let user_cert := Str.strip link.tlsCert
  let user_key := Str.strip link.tlsKey
  if user_cert ≠ "" && user_key ≠ "" then ⟨user_cert, user_key⟩ else panelCert

/-- `(link.get("security") or "").strip().lower()`. -/
def security (link : CoreLink) : String := Str.lower (Str.strip link.security)

/-- The name of the server, for the handshake. -/
def serverName (link : CoreLink) : String :=
  textOr (Str.strip link.sni) (textOr (Str.strip link.realityDest) "www.cloudflare.com")

/-- `flow` of a VLESS user, of a link that is `reality` or not. -/
def vlessFlow (reality : Bool) (link : CoreLink) : String :=
  let flow := Str.strip link.flow
  if reality && flow = "" then "xtls-rprx-vision" else flow

/-! ### Xray -/

/-- `wsSettings`, `httpupgradeSettings` or `xhttpSettings`. -/
inductive XrayTransport where
  | none
  | ws (path : String)
  | httpupgrade (path host : String)
  | xhttp (path mode : String)
  deriving DecidableEq

/-- `tlsSettings` or `realitySettings`. -/
inductive XraySecurity where
  | none
  | tls (serverName : String) (certificate : String) (key : String) (alpn : List String)
  | reality (dest : String) (serverNames : List String) (privateKey : String)
    (shortIds : List String)
  deriving DecidableEq

/-- `streamSettings`. -/
structure XrayStream where
  network : String
  security : String
  transport : XrayTransport
  handshake : XraySecurity
  deriving DecidableEq

/-- `settings`. -/
inductive XraySettings where
  | vless (id flow : String)
  | vmess (id : String)
  | trojan (password : String)
  | shadowsocks (method password : String)
  | accounts (user pass : String)
  deriving DecidableEq

/-- An inbound of Xray. -/
structure XrayInbound where
  tag : String
  listen : String
  port : ℤ
  protocol : String
  settings : XraySettings
  sniffing : Bool
  stream : Option XrayStream
  deriving DecidableEq

/-- `_xray_stream`. -/
def xrayStream (panelCert : Cert) (link : CoreLink) (uuid : String) : XrayStream :=
  let transport := transportOf link.protocol
  let sec := security link
  let sni := serverName link
  let net := if ["xhttp-packet-up", "xhttp-stream-up"].contains transport then "xhttp" else transport
  let mode := if Str.contains "packet" link.protocol then "packet-up" else "stream-up"
  { network := net
    security := if sec = "tls" then "tls" else if sec = "reality" then "reality" else "none"
    transport :=
      if net = "ws" then .ws ("/ws/" ++ uuid)
      else if net = "httpupgrade" then .httpupgrade ("/ws/" ++ uuid) sni
      else if net = "xhttp" then .xhttp ("/xhttp-siz10/" ++ mode ++ "/" ++ uuid) mode
      else .none
    handshake :=
      if sec = "tls" then
        let cert := ensureTlsCert panelCert link
        .tls sni cert.crt cert.key
          ((Str.split ',' (textOr link.alpn "h2,http/1.1")).filter fun a => a ≠ "")
      else if sec = "reality" then
        .reality (sni ++ ":443") [sni] link.realityPriv [link.realitySid]
      else .none }

/-- `settings` of an inbound of Xray; `none` for a protocol that it does not serve. -/
def xraySettings (link : CoreLink) (uuid base : String) : Option XraySettings :=
  if base = "vless" then
    some (.vless uuid (vlessFlow (Str.lower link.security = "reality") link))
  else if base = "vmess" then some (.vmess uuid)
  else if base = "trojan" then some (.trojan uuid)
  else if base = "shadowsocks" then
    some (.shadowsocks (textOr (link.ssCipher.getD "") "chacha20-ietf-poly1305") link.ssPassword)
  else if base = "mtproto" then none
  else if ["socks", "http"].contains base then some (.accounts (Str.take 8 uuid) uuid)
  else none

/-- `_xray_inbound`. -/
def xrayInbound (panelCert : Cert) (link : CoreLink) (uuid : String) : Option XrayInbound :=
  let base := baseProto link.protocol
  let port := inboundPort link
  if port = 0 then none
  else
    (xraySettings link uuid base).map fun settings =>
      { tag := "in-" ++ Str.take 8 uuid
        listen := "0.0.0.0"
        port
        protocol := base
        settings
        sniffing := link.sniffing
        stream :=
          if ["shadowsocks", "mtproto", "socks", "http"].contains base then none
          else some (xrayStream panelCert link uuid) }

/-! ### sing-box -/

/-- `transport`. -/
structure SingboxTransport where
  type : String
  path : Option String
  serviceName : Option String
  deriving DecidableEq

/-- `reality` in `tls`. -/
structure SingboxReality where
  server : String
  serverPort : ℤ
  privateKey : String
  shortId : List String
  /-- `utls`. -/
  fingerprint : String
  deriving DecidableEq

/-- `tls`. -/
structure SingboxTls where
  serverName : String
  reality : Option SingboxReality
  /-- `certificate_path` and `key_path`. -/
  certificate : Option (String × String)
  deriving DecidableEq

/-- An inbound of sing-box. -/
structure SingboxInbound where
  type : String
  tag : String
  listen : String
  listenPort : ℤ
  /-- The one user, or the fields of a protocol without users. -/
  user : List (String × String)
  transport : Option SingboxTransport
  tls : Option SingboxTls
  /-- Fields of the inbound itself. -/
  extra : List (String × String)
  deriving DecidableEq

/-- `_singbox_tls`. -/
def singboxTls (panelCert : Cert) (link : CoreLink) (server_name : String) : Option SingboxTls :=
  let sec := security link
  if sec = "reality" then
    some
      { serverName := server_name
        reality := some
          { server := server_name
            serverPort := 443
            privateKey := link.realityPriv
            shortId := if link.realitySid = "" then [] else [link.realitySid]
            fingerprint := textOr link.fingerprint "chrome" }
        certificate := none }
  else if sec = "tls" then
    let cert := ensureTlsCert panelCert link
    some ⟨server_name, none, some (cert.crt, cert.key)⟩
  else none

/-- `transport` of an inbound of sing-box. -/
def singboxTransport (transport uuid : String) : Option SingboxTransport :=
  if ["ws", "httpupgrade", "grpc"].contains transport then
    some
      { type := transport
        path := if transport = "ws" then some ("/ws/" ++ uuid) else none
        serviceName := if transport = "grpc" then some "" else none }
  else none

/-- `tls` of a protocol on QUIC. -/
def quicTls (panelCert : Cert) (link : CoreLink) : SingboxTls :=
  let cert := ensureTlsCert panelCert link
  ⟨serverName link, none, some (cert.crt, cert.key)⟩

/-- `_singbox_inbound`. -/
def singboxInbound (panelCert : Cert) (link : CoreLink) (uuid : String) : Option SingboxInbound :=
  let base := baseProto link.protocol
  let port := inboundPort link
  let sec := security link
  let inbound (user : List (String × String)) (transport : Option SingboxTransport)
      (tls : Option SingboxTls) (extra : List (String × String)) : Option SingboxInbound :=
    some ⟨base, "in-" ++ Str.take 8 uuid, "0.0.0.0", port, user, transport, tls, extra⟩
  let password := [("username", Str.take 8 uuid), ("password", uuid)]
  if port = 0 then none
  else if ["vless", "vmess", "trojan"].contains base then
    let user :=
      if base = "vless" then
        [("name", uuid), ("uuid", uuid), ("flow", vlessFlow (sec = "reality") link)]
      else if base = "vmess" then [("name", uuid), ("uuid", uuid), ("alterId", "0")]
      else [("name", uuid), ("password", uuid)]
    inbound user (singboxTransport (transportOf link.protocol) uuid)
      (if ["tls", "reality"].contains sec then singboxTls panelCert link (serverName link) else none)
      []
  else if base = "shadowsocks" then
    inbound [] none none
      [("method", textOr (link.ssCipher.getD "") "chacha20-ietf-poly1305"),
        ("password", link.ssPassword)]
  else if base = "mixed" then inbound password none none []
  else if base = "http" then inbound password none none []
  else if base = "socks" then inbound password none none []
  else if base = "hysteria2" then
    inbound [("password", uuid)] none (some (quicTls panelCert link)) []
  else if base = "hysteria" then
    inbound [("auth", uuid)] none (some (quicTls panelCert link))
      [("up_mbps", "100"), ("down_mbps", "100")]
  else if base = "tuic" then
    inbound [("uuid", uuid), ("password", Str.take 12 uuid)] none (some (quicTls panelCert link))
      [("congestion_control", "bbr")]
  else none

end Share

end RvgGateway
