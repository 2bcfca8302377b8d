import RvgGateway.Share.CoreLink

/-!
# The text of a link

`generate_share_link` of `main.py` writes the text that a user gives to the client program: a URL, or
for VMess a JSON object in Base64.

* `ShareLink` : the parts of the text, and `ShareLink.text` the text.
* `generateShareLink` : the parts that a link gets.
-/

namespace RvgGateway

namespace Share

/-- What the texts read of `CONFIG`, and `client_secret` of the MTProto module. -/
structure ShareConfig where
  /-- `CONFIG["port"]`. -/
  port : ℤ
  /-- `CONFIG["tls"]`. -/
  tls : Bool
  clientSecret : String → String → String

/-- A parameter in the query of a URL. -/
structure Param where
  key : String
  value : String
  /-- The value is written with `quote`. -/
  quoted : Bool

/-- A URL. -/
structure Url where
  scheme : String
  userinfo : Option String
  host : String
  port : Option ℤ
  /-- A slash stands before the query. -/
  slash : Bool
  params : List Param
  /-- The fragment. -/
  remark : Option String

/-- The parts of the text of a link. -/
inductive ShareLink where
  | url (u : Url)
  /-- The fields of the JSON object. -/
  | vmess (cfg : List (String × String))

/-- `f"{k}={v}"`. -/
def Param.text (p : Param) : String := p.key ++ "=" ++ if p.quoted then Str.quote p.value else p.value

/-- The text of a URL. -/
def Url.text (u : Url) : String :=
  u.scheme ++ "://" ++ (u.userinfo.map (· ++ "@")).getD "" ++ u.host ++
    (u.port.map fun p => ":" ++ toString p).getD "" ++ (if u.slash then "/" else "") ++
    (if u.params = [] then "" else "?" ++ String.intercalate "&" (u.params.map Param.text)) ++
    (u.remark.map fun remark => "#" ++ Str.quote remark).getD ""

/-- The text that is returned. -/
def ShareLink.text : ShareLink → String
  | url u => u.text
  | vmess cfg => "vmess://" ++ Str.b64encode (Str.jsonStrings cfg)

/-! ### The fields of a link -/

/-- `_link_port`. -/
def linkPort (c : ShareConfig) (link : CoreLink) : ℤ :=
  if link.publicPort ≠ 0 then link.publicPort
  else if link.listenPort ≠ 0 then link.listenPort
  else c.port

/-- `_link_security`. -/
def linkSecurity (c : ShareConfig) (link : CoreLink) : String :=
  let sec := Str.lower (Str.strip link.security)
  if ["tls", "reality", "none"].contains sec then sec
  else if c.tls then "tls" else "none"

/-- `_link_sni`. -/
def linkSni (link : CoreLink) (host : String) : String := textOr (Str.strip link.sni) host

/-! ### The kinds of texts -/

/-- `_vmess_link`. -/
def vmessLink (c : ShareConfig) (uuid host : String) (port : ℤ) (remark net path : String) :
    ShareLink :=
  .vmess
    [("v", "2"), ("ps", remark), ("add", host), ("port", toString port), ("id", uuid), ("aid", "0"),
      ("scy", "auto"), ("net", net), ("type", "none"), ("host", if c.tls then host else ""),
      ("path", path), ("tls", if c.tls then "tls" else ""), ("sni", if c.tls then host else "")]

/-- `generate_ss_link`; `wsHost` is `none` without the plugin. -/
def generateSsLink (c : ShareConfig) (host : String) (port : ℤ) (cipher password remark : String)
    (wsHost : Option String) : ShareLink :=
  let userinfo := Str.rstrip '=' (Str.urlsafeB64encode (cipher ++ ":" ++ password))
  match wsHost with
  | some wsHost =>
    let plugin :=
      "v2ray-plugin;" ++ (if c.tls then "tls;" else "") ++ "mux=0;path=/ss-ws;host=" ++ wsHost
    .url ⟨"ss", some userinfo, host, some port, true, [⟨"plugin", plugin, true⟩], some remark⟩
  | none => .url ⟨"ss", some userinfo, host, some port, false, [], some remark⟩

/-- A URL whose parameters are all quoted. -/
def queryLink (scheme uuid host : String) (port : ℤ) (remark : String)
    (params : List (String × String)) : ShareLink :=
  .url ⟨scheme, some uuid, host, some port, false, params.map fun p => ⟨p.1, p.2, true⟩,
    some remark⟩

/-- A Reality link, for VLESS and Trojan on TCP. -/
def realityLink (link : CoreLink) (uuid host : String) (port : ℤ) (remark protocol : String) :
    ShareLink :=
  let scheme := if Str.startsWith "trojan" protocol then "trojan" else "vless"
  let flow := textOr (Str.strip link.flow) (if scheme = "vless" then "xtls-rprx-vision" else "")
  .url ⟨scheme, some uuid, host, some port, false,
    [⟨"type", "tcp", false⟩, ⟨"security", "reality", false⟩, ⟨"pbk", link.realityPub, true⟩,
      ⟨"sni", linkSni link host, true⟩, ⟨"sid", link.realitySid, true⟩,
      ⟨"fp", link.fingerprint, true⟩] ++
      (if scheme = "vless" then [⟨"encryption", "none", false⟩] else []) ++
      (if flow = "" then [] else [⟨"flow", flow, true⟩]),
    some remark⟩

/-- The protocols for which there is a Reality link. -/
def takesReality (protocol : String) : Bool :=
  protocol = "vless" ||
    ["vless-ws", "vless-httpupgrade", "vless-xhttp", "trojan"].any (Str.startsWith · protocol)

/-- The protocols of the external cores on QUIC. -/
def quicLink (link : CoreLink) (uuid host : String) (port : ℤ) (remark protocol : String) :
    ShareLink :=
  let s_ := linkSni link host
  if protocol = "hysteria2" then
    .url ⟨"hy2", some uuid, host, some port, true,
      [⟨"sni", s_, true⟩, ⟨"insecure", "1", false⟩], some remark⟩
  else if protocol = "hysteria" then
    .url ⟨"hysteria", none, host, some port, false,
      [⟨"auth", uuid, false⟩, ⟨"peer", s_, true⟩, ⟨"insecure", "1", false⟩], some remark⟩
  else
    .url ⟨"tuic", some (uuid ++ ":" ++ Str.take 12 uuid), host, some port, false,
      [⟨"sni", s_, true⟩, ⟨"congestion_control", "bbr", false⟩, ⟨"insecure", "1", false⟩,
        ⟨"alpn", "h3", false⟩], some remark⟩

/-- `generate_share_link`. -/
def generateShareLink (c : ShareConfig) (link : CoreLink) (uuid host remark protocol : String) :
    ShareLink :=
  let security := linkSecurity c link
  let sni := linkSni link host
  let port := linkPort c link
  if protocol = "mtproto" then
    if link.mtprotoSecret = "" || link.mtprotoPort = 0 then
      .url ⟨"tg", none, "proxy", none, false,
        [⟨"server", host, false⟩, ⟨"port", "0", false⟩, ⟨"secret", "not_ready", false⟩],
        some remark⟩
    else
      .url ⟨"tg", none, "proxy", none, false,
        [⟨"server", host, false⟩, ⟨"port", toString link.mtprotoPort, false⟩,
          ⟨"secret", c.clientSecret link.mtprotoSecret link.mtprotoDomain, false⟩], none⟩
  else if protocol = "shadowsocks-tcp" then
    generateSsLink c host port (link.ssCipher.getD defaultCipher) link.ssPassword remark none
  else if protocol = "shadowsocks" then
    generateSsLink c host port (link.ssCipher.getD defaultCipher) link.ssPassword remark (some host)
  else if ["hysteria2", "hysteria", "tuic"].contains protocol then
    quicLink link uuid host port remark protocol
  else if ["mixed", "http", "socks"].contains protocol then
    let userinfo := Str.rstrip '=' (Str.urlsafeB64encode (Str.take 8 uuid ++ ":" ++ uuid))
    .url ⟨protocol, some userinfo, host, some port, false, [], some remark⟩
  else if security = "reality" && takesReality protocol then
    realityLink link uuid host port remark protocol
  else if Str.startsWith "vmess" protocol then
    if protocol = "vmess-tcp" then vmessLink c uuid host port remark "tcp" ""
    else
      vmessLink c uuid host port remark (if protocol = "vmess-ws" then "ws" else "httpupgrade")
        ("/vmess-ws/" ++ uuid)
  else if ["trojan-ws", "trojan-httpupgrade"].contains protocol then
    queryLink "trojan" uuid host port remark
      [("security", security), ("type", if protocol = "trojan-ws" then "ws" else "httpupgrade"),
        ("host", host), ("path", "/trojan-ws"), ("sni", sni), ("fp", link.fingerprint),
        ("alpn", link.alpn)]
  else if Str.startsWith "trojan-xhttp-" protocol then
    let mode := Str.remove "trojan-xhttp-" protocol
    queryLink "trojan" uuid host port remark
      [("security", security), ("type", "xhttp"), ("mode", mode), ("host", host),
        ("path", "/txhttp-siz10/" ++ mode ++ "/" ++ uuid), ("sni", sni), ("fp", link.fingerprint),
        ("alpn", link.alpn)]
  else if ["vless-ws", "vless-httpupgrade"].contains protocol then
    queryLink "vless" uuid host port remark
      [("encryption", "none"), ("security", security),
        ("type", if protocol = "vless-ws" then "ws" else "httpupgrade"), ("host", host),
        ("path", "/ws/" ++ uuid), ("sni", sni), ("fp", link.fingerprint), ("alpn", link.alpn)]
  else
    let mode := Str.remove "xhttp-" protocol
    queryLink "vless" uuid host port remark
      [("encryption", "none"), ("security", security), ("type", "xhttp"), ("mode", mode),
        ("host", host), ("path", "/xhttp-siz10/" ++ mode ++ "/" ++ uuid), ("sni", sni),
        ("fp", link.fingerprint), ("alpn", link.alpn)]

end Share

end RvgGateway
