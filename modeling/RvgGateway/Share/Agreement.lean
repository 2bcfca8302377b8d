import RvgGateway.Ports.Sync
import RvgGateway.Share.Inbound
import RvgGateway.Share.ShareLink

/-!
# Do the texts of links describe their inbounds?

A client program reads an *offer* off the text of a link: the proxy protocol, the port, the
transport with its path, and the security.  The core serves the offer of the inbound that it was
configured with.

* `ShareLink.offer`, `XrayInbound.offer`, `SingboxInbound.offer` : the offers.
* `Agrees` : the text of a link makes the offer that the core serves.
* `Fits` : the protocols, with their securities, for which that is so.
* `agrees_iff_fits` : **the text of a new link agrees with its inbound exactly when it fits.**
-/

namespace RvgGateway

namespace Share

open Ports (Host Panel CreateBody MtprotoStart)

/-- What a client has to know of a server. -/
structure Offer where
  protocol : String
  port : ℤ
  transport : String
  path : Option String
  security : String
  deriving DecidableEq

/-- The transport of a protocol that names none. -/
def nativeTransport (protocol : String) : String :=
  if ["hysteria2", "hysteria", "tuic"].contains protocol then "quic" else "tcp"

/-! ### The offer of a text -/

/-- The protocol of a URL scheme. -/
def schemeProtocol (scheme : String) : String :=
  if scheme = "hy2" then "hysteria2"
  else if scheme = "ss" then "shadowsocks"
  else if scheme = "tg" then "mtproto"
  else scheme

/-- The value of a parameter. -/
def Url.param? (u : Url) (key : String) : Option String :=
  (u.params.find? fun p => p.key = key).map Param.value

/-- The security of a URL that names none: the protocols on QUIC have TLS in them. -/
def nativeSecurity (protocol : String) : String :=
  if ["hysteria2", "hysteria", "tuic"].contains protocol then "tls" else "none"

/-- The path among the options of a plugin. -/
def pluginPath (plugin : String) : Option String :=
  ((Str.split ';' plugin).find? (Str.startsWith "path=")).map fun s =>
    String.ofList (s.toList.drop 5)

/-- The offer of a URL; `v2ray-plugin` carries Shadowsocks on a WebSocket. -/
def Url.offer (u : Url) : Offer :=
  let protocol := schemeProtocol u.scheme
  match u.param? "plugin" with
  | some plugin =>
    { protocol
      port := u.port.getD 0
      transport :=
        if Str.startsWith "v2ray-plugin;" plugin then "ws" else nativeTransport protocol
      path := pluginPath plugin
      security := if (Str.split ';' plugin).contains "tls" then "tls" else "none" }
  | none =>
    { protocol
      port := u.port.getD 0
      transport := (u.param? "type").getD (nativeTransport protocol)
      path := u.param? "path"
      security := (u.param? "security").getD (nativeSecurity protocol) }

/-- The offer of the JSON object of a VMess link. -/
def vmessOffer (cfg : List (String × String)) : Offer :=
  let field (key : String) : String := (cfg.lookup key).getD ""
  { protocol := "vmess"
    port := ((field "port").toInt?).getD 0
    transport := field "net"
    path := if field "path" = "" then none else some (field "path")
    security := if field "tls" = "" then "none" else field "tls" }

/-- The offer of the text of a link. -/
def ShareLink.offer : ShareLink → Offer
  | url u => u.offer
  | vmess cfg => vmessOffer cfg

/-! ### The offer of an inbound -/

/-- The path of the transport. -/
def XrayTransport.path : XrayTransport → Option String
  | none => Option.none
  | ws path => some path
  | httpupgrade path _ => some path
  | xhttp path _ => some path

/-- What Xray serves on the inbound. -/
def XrayInbound.offer (ib : XrayInbound) : Offer where
  protocol := ib.protocol
  port := ib.port
  transport := (ib.stream.map XrayStream.network).getD (nativeTransport ib.protocol)
  path := ib.stream.bind fun stream => stream.transport.path
  security := (ib.stream.map XrayStream.security).getD "none"

/-- What sing-box serves on the inbound. -/
def SingboxInbound.offer (ib : SingboxInbound) : Offer where
  protocol := ib.type
  port := ib.listenPort
  transport := (ib.transport.map SingboxTransport.type).getD (nativeTransport ib.type)
  path := ib.transport.bind SingboxTransport.path
  security :=
    match ib.tls with
    | none => "none"
    | some tls => if tls.reality.isSome then "reality" else "tls"

/-- What the core of the link serves for it. -/
def servedOffer (panelCert : Cert) (link : CoreLink) (uuid : String) : Option Offer :=
  if link.core = some "xray" then (xrayInbound panelCert link uuid).map XrayInbound.offer
  else if link.core = some "singbox" then
    (singboxInbound panelCert link uuid).map SingboxInbound.offer
  else none

/-! ### The claim and its condition -/

/-- The text of the link makes the offer that its core serves. -/
def Agrees (c : ShareConfig) (panelCert : Cert) (link : CoreLink) (uuid host remark : String) : Prop :=
  servedOffer panelCert link uuid =
    some (generateShareLink c link uuid host remark link.protocol).offer

/-- The protocols without a transport agree with any security.  The others do with Reality on plain
TCP, and on a WebSocket, or under Xray with HTTPUpgrade, with the security of the panel, unless the
link leaves it to a panel that has TLS. -/
def Fits (tls : Bool) (core protocol security : String) : Bool :=
  ["http", "socks", "mixed", "hysteria2", "hysteria", "tuic"].contains protocol ||
    (security = "reality" && ["vless", "trojan"].contains protocol) ||
    ((security = "tls" || security = "none" || security = "" && !tls) &&
      (protocol = "vless-ws" || core = "xray" && protocol = "vless-httpupgrade"))

/-! ### Links of the external cores -/

/-- The settings of the security of a link. -/
def securities : List String := ["", "none", "tls", "reality"]

/-- The protocols of new links that an external core serves. -/
def coreProtocols (core : String) : List String :=
  (Ports.coreProtocolSupported core).filter Ports.protocols.contains

/-- What `createLinkCore` gives a link of an external core, with a port of its own. -/
structure Served (core : String) (link : CoreLink) : Prop where
  core_mem : core = "xray" ∨ core = "singbox"
  core_eq : link.core = some core
  publicPort_eq : link.publicPort = 0
  listenPort_ne : link.listenPort ≠ 0
  protocol_mem : link.protocol ∈ coreProtocols core
  security_mem : link.security ∈ securities

/-- The security that a core serves for the setting of a link. -/
def servedSecurity (sec : String) : String :=
  if ["tls", "reality"].contains sec then sec else "none"

/-- The security that the text of a link names for its setting. -/
def writtenSecurity (tls : Bool) (sec : String) : String :=
  if sec = "" then (if tls then "tls" else "none") else sec

section Offers

variable {c : ShareConfig} {panelCert : Cert} {core : String} {link : CoreLink}
  {uuid host remark p : String}

theorem security_eq (hsec : link.security ∈ securities) : security link = link.security := by
  simp only [securities, List.mem_cons, List.not_mem_nil, or_false] at hsec
  rcases hsec with hsec | hsec | hsec | hsec <;> rw [security, hsec] <;> rfl

theorem linkSecurity_eq (hsec : link.security ∈ securities) :
    linkSecurity c link = writtenSecurity c.tls link.security := by
  simp only [securities, List.mem_cons, List.not_mem_nil, or_false] at hsec
  rcases hsec with hsec | hsec | hsec | hsec <;> rw [linkSecurity, hsec] <;> rfl

theorem Served.linkPort_eq (hl : Served core link) : linkPort c link = link.listenPort := by
  rw [linkPort, if_neg (not_not.2 hl.publicPort_eq), if_pos hl.listenPort_ne]

theorem Served.inboundPort_eq (hl : Served core link) : inboundPort link = link.listenPort :=
  if_pos hl.listenPort_ne

/-! ### What the cores serve -/

theorem Served.offer_plain (hl : Served core link)
    (hp : link.protocol ∈ ["http", "socks", "shadowsocks"]) :
    servedOffer panelCert link uuid =
      some ⟨link.protocol, link.listenPort, "tcp", none, "none"⟩ := by
  have hip := hl.inboundPort_eq
  obtain ⟨hcore, hc, -, hport, -, -⟩ := hl
  simp only [List.mem_cons, List.not_mem_nil, or_false] at hp
  rcases hcore with rfl | rfl <;> rcases hp with hp | hp | hp <;>
    simp only [servedOffer, hc, xrayInbound, singboxInbound, hp, hip,
      if_neg hport] <;> rfl

/-- Xray does not serve these. -/
theorem Served.offer_singbox (hl : Served core link)
    (hp : link.protocol ∈ ["mixed", "hysteria2", "hysteria", "tuic"]) :
    servedOffer panelCert link uuid =
      some ⟨link.protocol, link.listenPort, nativeTransport link.protocol, none,
        nativeSecurity link.protocol⟩ := by
  have hip := hl.inboundPort_eq
  obtain ⟨hcore, hc, -, hport, hproto, -⟩ := hl
  simp only [List.mem_cons, List.not_mem_nil, or_false] at hp
  rcases hcore with rfl | rfl
  · rcases hp with hp | hp | hp | hp <;> rw [hp] at hproto <;> exact absurd hproto (by decide)
  · rcases hp with hp | hp | hp | hp <;>
      simp only [servedOffer, hc, singboxInbound, hp, hip, if_neg hport] <;> rfl

theorem xrayStream_security (hsec : link.security ∈ securities) :
    (xrayStream panelCert link uuid).security = servedSecurity link.security := by
  have hs := security_eq hsec
  simp only [securities, List.mem_cons, List.not_mem_nil, or_false] at hsec
  rcases hsec with hsec | hsec | hsec | hsec <;> simp only [xrayStream, hs, hsec] <;> rfl

/-- What Xray serves on a stream. -/
theorem Served.offer_xrayStream (hl : Served "xray" link)
    (hbase : baseProto link.protocol ∈ ["vless", "vmess", "trojan"]) :
    servedOffer panelCert link uuid =
      some ⟨baseProto link.protocol, link.listenPort, (xrayStream panelCert link uuid).network,
        (xrayStream panelCert link uuid).transport.path, servedSecurity link.security⟩ := by
  have hip := hl.inboundPort_eq
  rw [← xrayStream_security hl.security_mem, servedOffer, if_pos hl.core_eq, xrayInbound]
  simp only [List.mem_cons, List.not_mem_nil, or_false] at hbase
  rcases hbase with hbase | hbase | hbase <;>
    simp only [hip, if_neg hl.listenPort_ne, hbase] <;> rfl

theorem singboxTls_security (panelCert : Cert) (hsec : link.security ∈ securities) :
    (match (if ["tls", "reality"].contains (security link) then
        singboxTls panelCert link (serverName link) else none) with
      | none => "none"
      | some tls => if tls.reality.isSome then "reality" else "tls") =
        servedSecurity link.security := by
  have hs := security_eq hsec
  simp only [securities, List.mem_cons, List.not_mem_nil, or_false] at hsec
  rcases hsec with hsec | hsec | hsec | hsec <;> simp only [singboxTls, hs, hsec] <;> rfl

theorem singboxInbound_stream (panelCert : Cert) (uuid : String) (hport : inboundPort link ≠ 0)
    (hbase : baseProto link.protocol ∈ ["vless", "vmess", "trojan"]) :
    ∃ user, singboxInbound panelCert link uuid =
      some ⟨baseProto link.protocol, "in-" ++ Str.take 8 uuid, "0.0.0.0", inboundPort link, user,
        singboxTransport (transportOf link.protocol) uuid,
        if ["tls", "reality"].contains (security link) then
          singboxTls panelCert link (serverName link) else none, []⟩ := by
  have hstream : ["vless", "vmess", "trojan"].contains (baseProto link.protocol) = true :=
    List.contains_iff_mem.2 hbase
  unfold singboxInbound
  dsimp only
  rw [if_neg hport, if_pos hstream]
  exact ⟨_, rfl⟩

/-- What sing-box serves on a stream. -/
theorem Served.offer_singboxStream (hl : Served "singbox" link)
    (hbase : baseProto link.protocol ∈ ["vless", "vmess", "trojan"]) :
    servedOffer panelCert link uuid =
      some ⟨baseProto link.protocol, link.listenPort,
        ((singboxTransport (transportOf link.protocol) uuid).map SingboxTransport.type).getD
          (nativeTransport (baseProto link.protocol)),
        (singboxTransport (transportOf link.protocol) uuid).bind SingboxTransport.path,
        servedSecurity link.security⟩ := by
  have hip := hl.inboundPort_eq
  have hcore : link.core ≠ some "xray" := by
    rw [hl.core_eq]
    decide
  have hsec := singboxTls_security panelCert hl.security_mem
  obtain ⟨user, hinbound⟩ := singboxInbound_stream panelCert uuid (hip ▸ hl.listenPort_ne) hbase
  generalize (if ["tls", "reality"].contains (security link) = true then
    singboxTls panelCert link (serverName link) else none) = tls at hinbound hsec
  rw [servedOffer, if_neg hcore, if_pos hl.core_eq, hinbound, Option.map_some, hip, ← hsec]
  rfl

theorem Served.offer_bare (hl : Served core link)
    (hp : link.protocol ∈ ["vless", "vmess", "trojan"]) :
    servedOffer panelCert link uuid =
      some ⟨link.protocol, link.listenPort, "tcp", none, servedSecurity link.security⟩ := by
  simp only [List.mem_cons, List.not_mem_nil, or_false] at hp
  obtain rfl | rfl := hl.core_mem
  · rcases hp with hp | hp | hp <;>
      rw [hl.offer_xrayStream (by rw [hp]; decide), xrayStream, hp] <;> rfl
  · rcases hp with hp | hp | hp <;>
      rw [hl.offer_singboxStream (by rw [hp]; decide), hp] <;> rfl

theorem Served.offer_ws (hl : Served core link)
    (hp : link.protocol ∈ ["vless-ws", "vmess-ws", "trojan-ws"]) :
    servedOffer panelCert link uuid =
      some ⟨baseProto link.protocol, link.listenPort, "ws", some ("/ws/" ++ uuid),
        servedSecurity link.security⟩ := by
  simp only [List.mem_cons, List.not_mem_nil, or_false] at hp
  obtain rfl | rfl := hl.core_mem
  · rcases hp with hp | hp | hp <;>
      rw [hl.offer_xrayStream (by rw [hp]; decide), xrayStream, hp] <;> rfl
  · rcases hp with hp | hp | hp <;>
      rw [hl.offer_singboxStream (by rw [hp]; decide), hp] <;> rfl

/-- The inbound of sing-box gets no path. -/
theorem Served.offer_httpupgrade (hl : Served core link)
    (hp : link.protocol ∈ ["vless-httpupgrade", "vmess-httpupgrade", "trojan-httpupgrade"]) :
    servedOffer panelCert link uuid =
      some ⟨baseProto link.protocol, link.listenPort, "httpupgrade",
        if core = "xray" then some ("/ws/" ++ uuid) else none, servedSecurity link.security⟩ := by
  simp only [List.mem_cons, List.not_mem_nil, or_false] at hp
  obtain rfl | rfl := hl.core_mem
  · rcases hp with hp | hp | hp <;>
      rw [hl.offer_xrayStream (by rw [hp]; decide), xrayStream, hp] <;> rfl
  · rcases hp with hp | hp | hp <;>
      rw [hl.offer_singboxStream (by rw [hp]; decide), hp] <;> rfl

/-- sing-box does not serve these. -/
theorem Served.offer_xhttp (hl : Served core link)
    (hp : link.protocol ∈ ["trojan-xhttp-packet-up", "trojan-xhttp-stream-up"]) :
    servedOffer panelCert link uuid =
      some ⟨"trojan", link.listenPort, "xhttp",
        some ("/xhttp-siz10/" ++ Str.remove "trojan-xhttp-" link.protocol ++ "/" ++ uuid),
        servedSecurity link.security⟩ := by
  have hproto := hl.protocol_mem
  simp only [List.mem_cons, List.not_mem_nil, or_false] at hp
  obtain rfl | rfl := hl.core_mem
  · rcases hp with hp | hp <;>
      rw [hl.offer_xrayStream (by rw [hp]; decide), xrayStream, hp] <;> rfl
  · rcases hp with hp | hp <;> rw [hp] at hproto <;> exact absurd hproto (by decide)

/-! ### What the texts offer -/

theorem offer_text_native (hp : p ∈ ["http", "socks", "mixed", "hysteria2", "hysteria", "tuic"]) :
    (generateShareLink c link uuid host remark p).offer =
      ⟨p, linkPort c link, nativeTransport p, none, nativeSecurity p⟩ := by
  simp only [List.mem_cons, List.not_mem_nil, or_false] at hp
  rcases hp with rfl | rfl | rfl | rfl | rfl | rfl <;> rfl

/-- The plugin says WebSocket. -/
theorem transport_text_shadowsocks :
    (generateShareLink c link uuid host remark "shadowsocks").offer.transport = "ws" := by
  change (if Str.startsWith "v2ray-plugin;"
    ("v2ray-plugin;" ++ (if c.tls then "tls;" else "") ++ "mux=0;path=/ss-ws;host=" ++ host)
    then "ws" else nativeTransport "ss") = _
  rw [if_pos]
  rw [Str.startsWith, List.isPrefixOf_iff_prefix]
  simp only [String.append_assoc, String.toList_append]
  exact List.prefix_append _ _

/-- A text with Reality says TCP. -/
theorem offer_text_reality (hs : linkSecurity c link = "reality")
    (hp : p ∈ ["vless", "vless-ws", "vless-httpupgrade", "trojan", "trojan-ws",
      "trojan-httpupgrade", "trojan-xhttp-packet-up", "trojan-xhttp-stream-up"]) :
    (generateShareLink c link uuid host remark p).offer =
      ⟨baseProto p, linkPort c link, "tcp", none, "reality"⟩ := by
  have htext : generateShareLink c link uuid host remark p =
      realityLink link uuid host (linkPort c link) remark p := by
    simp only [List.mem_cons, List.not_mem_nil, or_false] at hp
    rcases hp with rfl | rfl | rfl | rfl | rfl | rfl | rfl | rfl <;>
      simp +decide only [generateShareLink, hs, ↓reduceIte]
  have hbase : (if Str.startsWith "trojan" p then "trojan" else "vless") = baseProto p := by
    simp only [List.mem_cons, List.not_mem_nil, or_false] at hp
    rcases hp with rfl | rfl | rfl | rfl | rfl | rfl | rfl | rfl <;> rfl
  rw [htext, ← hbase, realityLink]
  -- The parameters end with `flow`, if there is one.
  split_ifs <;> rfl

theorem vmessLink_path {port : ℤ} {net path : String} :
    (vmessLink c uuid host port remark net path).offer.path =
      if path = "" then none else some path := rfl

theorem path_text_vmess (hp : p ∈ ["vmess", "vmess-ws", "vmess-httpupgrade"]) :
    (generateShareLink c link uuid host remark p).offer.path = some ("/vmess-ws/" ++ uuid) := by
  have hne : "/vmess-ws/" ++ uuid ≠ "" := fun h => by
    have hlist := congrArg String.toList h
    simp at hlist
  have hno : ∀ q ∈ ["vmess", "vmess-ws", "vmess-httpupgrade"], takesReality q = false := by decide
  have hnot := hno p hp
  simp only [List.mem_cons, List.not_mem_nil, or_false] at hp
  rcases hp with rfl | rfl | rfl
  all_goals
    simp +decide only [generateShareLink, hnot, Bool.and_false, ↓reduceIte]
    rw [vmessLink_path, if_neg hne]

theorem path_text_trojan (hs : linkSecurity c link ≠ "reality")
    (hp : p ∈ ["trojan-ws", "trojan-httpupgrade"]) :
    (generateShareLink c link uuid host remark p).offer.path = some "/trojan-ws" := by
  simp only [List.mem_cons, List.not_mem_nil, or_false] at hp
  rcases hp with rfl | rfl <;> simp +decide only [generateShareLink, hs, ↓reduceIte] <;> rfl

theorem path_text_xhttp (hs : linkSecurity c link ≠ "reality")
    (hp : p ∈ ["trojan-xhttp-packet-up", "trojan-xhttp-stream-up"]) :
    (generateShareLink c link uuid host remark p).offer.path =
      some ("/txhttp-siz10/" ++ Str.remove "trojan-xhttp-" p ++ "/" ++ uuid) := by
  simp only [List.mem_cons, List.not_mem_nil, or_false] at hp
  rcases hp with rfl | rfl <;> simp +decide only [generateShareLink, hs, ↓reduceIte] <;> rfl

theorem offer_text_vless (hs : linkSecurity c link ≠ "reality")
    (hp : p ∈ ["vless-ws", "vless-httpupgrade"]) :
    (generateShareLink c link uuid host remark p).offer =
      ⟨"vless", linkPort c link, if p = "vless-ws" then "ws" else "httpupgrade",
        some ("/ws/" ++ uuid), linkSecurity c link⟩ := by
  simp only [List.mem_cons, List.not_mem_nil, or_false] at hp
  rcases hp with rfl | rfl <;>
    simp +decide [generateShareLink, hs, queryLink, ShareLink.offer, Url.offer, Url.param?]

/-- The text of a bare name is that of XHTTP. -/
theorem transport_text_bare (hs : linkSecurity c link ≠ "reality") (hp : p ∈ ["vless", "trojan"]) :
    (generateShareLink c link uuid host remark p).offer.transport = "xhttp" := by
  simp only [List.mem_cons, List.not_mem_nil, or_false] at hp
  rcases hp with rfl | rfl <;> simp +decide only [generateShareLink, hs, ↓reduceIte] <;> rfl

/-! ### Agreement -/

theorem agrees_iff {o : Offer} (ho : servedOffer panelCert link uuid = some o) :
    Agrees c panelCert link uuid host remark ↔
      o = (generateShareLink c link uuid host remark link.protocol).offer := by
  rw [Agrees, ho, Option.some.injEq]

theorem not_agrees_transport {o : Offer} (ho : servedOffer panelCert link uuid = some o)
    (hne : o.transport ≠
      (generateShareLink c link uuid host remark link.protocol).offer.transport) :
    ¬ Agrees c panelCert link uuid host remark :=
  fun h => hne (congrArg Offer.transport ((agrees_iff ho).1 h))

theorem not_agrees_path {o : Offer} (ho : servedOffer panelCert link uuid = some o)
    (hne : o.path ≠ (generateShareLink c link uuid host remark link.protocol).offer.path) :
    ¬ Agrees c panelCert link uuid host remark :=
  fun h => hne (congrArg Offer.path ((agrees_iff ho).1 h))

/-- Two paths whose second characters differ. -/
theorem path_ne {s t : String} (h : s.toList[1]? ≠ t.toList[1]?) : some s ≠ some t := by
  rintro ⟨⟩
  exact h rfl

theorem Served.fits_native (hl : Served core link)
    (hp : link.protocol ∈ ["http", "socks", "mixed", "hysteria2", "hysteria", "tuic"]) :
    Agrees c panelCert link uuid host remark ↔ Fits c.tls core link.protocol link.security := by
  have hserved : servedOffer panelCert link uuid =
      some ⟨link.protocol, link.listenPort, nativeTransport link.protocol, none,
        nativeSecurity link.protocol⟩ := by
    by_cases hplain : link.protocol ∈ ["http", "socks"]
    · rw [hl.offer_plain ((by simp : ["http", "socks"] ⊆ _) hplain)]
      simp only [List.mem_cons, List.not_mem_nil, or_false] at hplain
      rcases hplain with hplain | hplain <;> rw [hplain] <;> rfl
    · exact hl.offer_singbox (by simp only [List.mem_cons] at hplain hp ⊢; tauto)
  have hagrees : Agrees c panelCert link uuid host remark := by
    rw [agrees_iff hserved, offer_text_native hp, hl.linkPort_eq]
  simp only [hagrees, true_iff, Fits, Bool.or_eq_true]
  exact .inl (.inl (List.contains_iff_mem.2 hp))

theorem Served.fits_shadowsocks (hl : Served core link) (hp : link.protocol = "shadowsocks") :
    Agrees c panelCert link uuid host remark ↔ Fits c.tls core link.protocol link.security := by
  have hserved : servedOffer panelCert link uuid = _ := hl.offer_plain (by simp [hp])
  refine iff_of_false (not_agrees_transport hserved ?_) ?_
  · rw [hp, transport_text_shadowsocks]
    simp
  · simp [Fits, hp]

theorem linkSecurity_reality (hsec : link.security ∈ securities) :
    linkSecurity c link = "reality" ↔ link.security = "reality" := by
  rw [linkSecurity_eq hsec, writtenSecurity]
  split_ifs with hempty htls <;> simp [hempty]

theorem Served.fits_bare (hl : Served core link) (hp : link.protocol ∈ ["vless", "trojan"]) :
    Agrees c panelCert link uuid host remark ↔ Fits c.tls core link.protocol link.security := by
  have hserved : servedOffer panelCert link uuid = _ :=
    hl.offer_bare ((by simp : ["vless", "trojan"] ⊆ _) hp)
  have hiff : linkSecurity c link = _ ↔ _ := linkSecurity_reality hl.security_mem
  by_cases hr : link.security = "reality"
  · have hbase : ∀ q ∈ ["vless", "trojan"], baseProto q = q := by decide
    have hmem : link.protocol ∈ ["vless", "vless-ws", "vless-httpupgrade", "trojan", "trojan-ws",
        "trojan-httpupgrade", "trojan-xhttp-packet-up", "trojan-xhttp-stream-up"] :=
      (by simp : ["vless", "trojan"] ⊆ _) hp
    have hagrees : Agrees c panelCert link uuid host remark := by
      refine (agrees_iff hserved).2 ?_
      rw [offer_text_reality (hiff.2 hr) hmem, hl.linkPort_eq, hr, hbase _ hp]
      rfl
    simp only [hagrees, true_iff]
    simp only [List.mem_cons, List.not_mem_nil, or_false] at hp
    rcases hp with hp | hp <;> simp [Fits, hp, hr]
  · refine iff_of_false (not_agrees_transport hserved ?_) ?_
    · rw [transport_text_bare (fun h => hr (hiff.1 h)) hp]
      simp
    · simp only [List.mem_cons, List.not_mem_nil, or_false] at hp
      rcases hp with hp | hp <;> simp [Fits, hp, hr]

theorem Served.fits_vmess (hl : Served core link)
    (hp : link.protocol ∈ ["vmess", "vmess-ws", "vmess-httpupgrade"]) :
    Agrees c panelCert link uuid host remark ↔ Fits c.tls core link.protocol link.security := by
  have htext : (generateShareLink c link uuid host remark link.protocol).offer.path = _ :=
    path_text_vmess hp
  have hne : some ("/ws/" ++ uuid) ≠ some ("/vmess-ws/" ++ uuid) := path_ne (by simp)
  simp only [List.mem_cons, List.not_mem_nil, or_false] at hp
  refine iff_of_false ?_ (by rcases hp with hp | hp | hp <;> simp [Fits, hp])
  rcases hp with hp | hp | hp
  · refine not_agrees_path (hl.offer_bare (by simp [hp])) ?_
    rw [htext]
    simp
  · refine not_agrees_path (hl.offer_ws (by simp [hp])) ?_
    rw [htext]
    exact hne
  · refine not_agrees_path (hl.offer_httpupgrade (by simp [hp])) ?_
    rw [htext]
    dsimp only
    split_ifs
    · exact hne
    · simp

/-- The transports of Reality and of the inbound differ, or else the paths do. -/
theorem Served.fits_trojan (hl : Served core link)
    (hp : link.protocol ∈ ["trojan-ws", "trojan-httpupgrade", "trojan-xhttp-packet-up",
      "trojan-xhttp-stream-up"]) :
    Agrees c panelCert link uuid host remark ↔ Fits c.tls core link.protocol link.security := by
  have hiff : linkSecurity c link = _ ↔ _ := linkSecurity_reality hl.security_mem
  have hreality (hr : link.security = "reality") :
      (generateShareLink c link uuid host remark link.protocol).offer.transport = "tcp" := by
    rw [offer_text_reality (hiff.2 hr) ((by simp : ["trojan-ws", "trojan-httpupgrade",
      "trojan-xhttp-packet-up", "trojan-xhttp-stream-up"] ⊆ _) hp)]
  have hws (hr : link.security ≠ "reality")
      (hq : link.protocol ∈ ["trojan-ws", "trojan-httpupgrade"]) :
      (generateShareLink c link uuid host remark link.protocol).offer.path = some "/trojan-ws" :=
    path_text_trojan (fun h => hr (hiff.1 h)) hq
  have hxhttp (hr : link.security ≠ "reality")
      (hq : link.protocol ∈ ["trojan-xhttp-packet-up", "trojan-xhttp-stream-up"]) :
      (generateShareLink c link uuid host remark link.protocol).offer.path = _ :=
    path_text_xhttp (fun h => hr (hiff.1 h)) hq
  simp only [List.mem_cons, List.not_mem_nil, or_false] at hp
  refine iff_of_false ?_ (by rcases hp with hp | hp | hp | hp <;> simp [Fits, hp])
  by_cases hr : link.security = "reality"
  · rcases hp with hp | hp | hp | hp
    · exact not_agrees_transport (hl.offer_ws (by simp [hp])) (by rw [hreality hr]; simp)
    · exact not_agrees_transport (hl.offer_httpupgrade (by simp [hp])) (by rw [hreality hr]; simp)
    all_goals
      exact not_agrees_transport (hl.offer_xhttp (by simp [hp])) (by rw [hreality hr]; simp)
  · rcases hp with hp | hp | hp | hp
    · refine not_agrees_path (hl.offer_ws (by simp [hp])) ?_
      rw [hws hr (by simp [hp])]
      exact path_ne (by simp)
    · refine not_agrees_path (hl.offer_httpupgrade (by simp [hp])) ?_
      rw [hws hr (by simp [hp])]
      dsimp only
      split_ifs
      · exact path_ne (by simp)
      · simp
    all_goals
      refine not_agrees_path (hl.offer_xhttp (by simp [hp])) ?_
      rw [hxhttp hr (by simp [hp])]
      exact path_ne (by simp)

/-- The setting of a link decides about its security, unless it is left to a panel with TLS. -/
theorem servedSecurity_eq_written (hsec : link.security ∈ securities)
    (hr : link.security ≠ "reality") :
    servedSecurity link.security = writtenSecurity c.tls link.security ↔
      (link.security = "tls" ∨ link.security = "none") ∨ link.security = "" ∧ c.tls = false := by
  simp only [securities, List.mem_cons, List.not_mem_nil, or_false] at hsec
  rcases hsec with hsec | hsec | hsec | hsec
  · cases htls : c.tls <;> simp +decide [hsec, writtenSecurity]
  · simp +decide [hsec, writtenSecurity]
  · simp +decide [hsec, writtenSecurity]
  · exact absurd hsec hr

theorem Served.fits_vless (hl : Served core link)
    (hp : link.protocol ∈ ["vless-ws", "vless-httpupgrade"]) :
    Agrees c panelCert link uuid host remark ↔ Fits c.tls core link.protocol link.security := by
  have hiff : linkSecurity c link = _ ↔ _ := linkSecurity_reality hl.security_mem
  by_cases hr : link.security = "reality"
  · have htext : (generateShareLink c link uuid host remark link.protocol).offer = _ :=
      offer_text_reality (hiff.2 hr) ((by simp : ["vless-ws", "vless-httpupgrade"] ⊆ _) hp)
    simp only [List.mem_cons, List.not_mem_nil, or_false] at hp
    refine iff_of_false ?_ (by rcases hp with hp | hp <;> simp [Fits, hp, hr])
    rcases hp with hp | hp
    · exact not_agrees_transport (hl.offer_ws (by simp [hp])) (by rw [htext]; simp)
    · exact not_agrees_transport (hl.offer_httpupgrade (by simp [hp])) (by rw [htext]; simp)
  · have htext : (generateShareLink c link uuid host remark link.protocol).offer = _ :=
      offer_text_vless (fun h => hr (hiff.1 h)) hp
    have hsecs := servedSecurity_eq_written (c := c) hl.security_mem hr
    simp only [List.mem_cons, List.not_mem_nil, or_false] at hp
    rcases hp with hp | hp
    · rw [agrees_iff (hl.offer_ws (by simp [hp])), htext, hl.linkPort_eq,
        linkSecurity_eq hl.security_mem]
      simp +decide [Fits, hp, hr, hsecs]
    · rw [agrees_iff (hl.offer_httpupgrade (by simp [hp])), htext, hl.linkPort_eq,
        linkSecurity_eq hl.security_mem]
      simp +decide [Fits, hp, hr, hsecs, and_comm]

/-- The protocols of new links of the external cores. -/
theorem coreProtocols_subset (hcore : core = "xray" ∨ core = "singbox") :
    coreProtocols core ⊆
      ["http", "socks", "mixed", "hysteria2", "hysteria", "tuic"] ++ ["shadowsocks"] ++
        ["vless", "trojan"] ++ ["vmess", "vmess-ws", "vmess-httpupgrade"] ++
        ["trojan-ws", "trojan-httpupgrade", "trojan-xhttp-packet-up", "trojan-xhttp-stream-up"] ++
        ["vless-ws", "vless-httpupgrade"] := by
  rcases hcore with rfl | rfl <;> decide

theorem Served.fits (hl : Served core link) :
    Agrees c panelCert link uuid host remark ↔ Fits c.tls core link.protocol link.security := by
  have hmem := coreProtocols_subset hl.core_mem hl.protocol_mem
  simp only [List.mem_append] at hmem
  rcases hmem with ((((hp | hp) | hp) | hp) | hp) | hp
  · exact hl.fits_native hp
  · exact hl.fits_shadowsocks (List.mem_singleton.1 hp)
  · exact hl.fits_bare hp
  · exact hl.fits_vmess hp
  · exact hl.fits_trojan hp
  · exact hl.fits_vless hp

end Offers

section Created

variable {h : Host} {s : Panel} {osFree : ℤ → Bool} {body : CreateBody} {mt : MtprotoStart}
  {texts : TextBody} {secrets : Secrets} {link : CoreLink}

theorem protocolName_mem (body : CreateBody) : body.protocolName ∈ Ports.protocols := by
  rw [CreateBody.protocolName]
  split_ifs with hmem
  · exact List.contains_iff_mem.1 hmem
  · decide

theorem securityName_mem (texts : TextBody) : texts.securityName ∈ securities := by
  rw [TextBody.securityName]
  split_ifs with hmem
  · exact List.mem_cons_of_mem _ (List.contains_iff_mem.1 hmem)
  · decide

theorem coreLinkData_security (plain : Link) :
    (coreLinkData texts secrets plain).security = texts.securityName := by
  rw [coreLinkData]

theorem coreName_mem (hcore : body.coreName ≠ "unicorn") :
    body.coreName = "xray" ∨ body.coreName = "singbox" := by
  rw [CreateBody.coreName] at hcore ⊢
  split_ifs at hcore ⊢ with hmem
  · simpa [hcore] using hmem
  · exact absurd rfl hcore

/-- A new link of an external core is one that it serves, if it has a port. -/
theorem served_createLinkCore (hnew : createLinkCore h s osFree body mt texts secrets = .ok link)
    (hcore : body.coreName ≠ "unicorn") (hport : link.listenPort ≠ 0) :
    Served body.coreName link := by
  rw [createLinkCore] at hnew
  cases hlink : Ports.newLink h s osFree body mt with
  | error reply => rw [hlink] at hnew; cases hnew
  | ok plain =>
    rw [hlink] at hnew
    cases hnew
    obtain ⟨hc, hproto, hsupported, -⟩ := Ports.newLink_spec hlink
    have hmem : plain.protocol ∈ coreProtocols body.coreName := by
      have hname := protocolName_mem body
      rw [← hproto] at hname
      rw [coreProtocols, List.mem_filter, List.contains_iff_mem]
      exact ⟨List.contains_iff_mem.1 hsupported, hname⟩
    exact
      { core_mem := coreName_mem hcore
        core_eq := hc
        publicPort_eq := rfl
        listenPort_ne := hport
        protocol_mem := hmem
        security_mem := by rw [coreLinkData_security]; exact securityName_mem texts }

/-- Without a port a link has no inbound. -/
theorem servedOffer_portless (hnew : createLinkCore h s osFree body mt texts secrets = .ok link)
    (hport : link.listenPort = 0) (panelCert : Cert) (uuid : String) :
    servedOffer panelCert link uuid = none := by
  have hmt : link.mtprotoPort = 0 := by
    rw [createLinkCore] at hnew
    cases hlink : Ports.newLink h s osFree body mt with
    | error reply => rw [hlink] at hnew; cases hnew
    | ok plain => rw [hlink] at hnew; cases hnew; rfl
  have hip : inboundPort link = 0 := by rw [inboundPort, hport, hmt]; rfl
  rw [servedOffer, xrayInbound, singboxInbound]
  simp [hip]

/-- **The text of a new link of an external core makes the offer that the core serves exactly when
the link has a port and its protocol and security fit.** -/
theorem agrees_iff_fits (hnew : createLinkCore h s osFree body mt texts secrets = .ok link)
    (hcore : body.coreName ≠ "unicorn") (c : ShareConfig) (panelCert : Cert)
    (uuid host remark : String) :
    Agrees c panelCert link uuid host remark ↔
      link.listenPort ≠ 0 ∧ Fits c.tls body.coreName link.protocol link.security := by
  by_cases hport : link.listenPort = 0
  · simp [Agrees, servedOffer_portless hnew hport, hport]
  · rw [(served_createLinkCore hnew hcore hport).fits]
    simp [hport]

end Created

/-! ### Examples -/

/-- A panel with TLS. -/
def tlsPanel : ShareConfig := ⟨443, true, fun secret _ => secret⟩

/-- A body without texts, but the security. -/
def bareTexts (security : String) : TextBody :=
  ⟨"", "", "", true, security, "", "", "", "", "", "", "", ""⟩

/-- A body that asks for a link of Xray on port 2053. -/
def xrayBody (protocol : String) : CreateBody where
  numbersOk := true
  limitBytes := 0
  expiresAt := .never
  protocol := some protocol
  core := some "xray"
  listenPort := .number 2053
  mtprotoPort := .absent
  textsOk := true

/-- The link of Xray that the body gets. -/
def xrayLink (protocol security : String) : CoreLink :=
  coreLinkData (bareTexts security) ⟨"", "", "", ""⟩ (Ports.linkData (xrayBody protocol) 2053)

/-- A VLESS link on a WebSocket, with TLS. -/
theorem agrees_iff_fits_webSocket :
    Agrees tlsPanel ⟨"panel.crt", "panel.key"⟩ (xrayLink "vless-ws" "tls") "4fd1" "example" "me" := by
  have hnew : createLinkCore Ports.openHost (Ports.started Ports.openHost ∅ Ports.firstBoot)
      (fun _ => true) (xrayBody "vless-ws") (.started 0) (bareTexts "tls") ⟨"", "", "", ""⟩ =
        .ok (xrayLink "vless-ws" "tls") := rfl
  have hfits : Fits true "xray" "vless-ws" "tls" = true := by decide
  exact (agrees_iff_fits hnew (by decide) _ _ _ _ _).2 ⟨by decide, hfits⟩

/-- **A VMess link on a WebSocket is written with another path than Xray serves.** -/
theorem vmess_path_disagrees :
    ¬ ∀ (h : Host) (s : Panel) (osFree : ℤ → Bool) (body : CreateBody) (mt : MtprotoStart)
      (texts : TextBody) (secrets : Secrets) (link : CoreLink),
      createLinkCore h s osFree body mt texts secrets = .ok link → body.coreName ≠ "unicorn" →
        ∀ (c : ShareConfig) (panelCert : Cert) (uuid host remark : String),
          Agrees c panelCert link uuid host remark := by
  intro hall
  have hagrees := hall Ports.openHost (Ports.started Ports.openHost ∅ Ports.firstBoot)
    (fun _ => true) (xrayBody "vmess-ws") (.started 0) (bareTexts "tls") ⟨"", "", "", ""⟩
    (xrayLink "vmess-ws" "tls") rfl (by decide) tlsPanel ⟨"panel.crt", "panel.key"⟩ "4fd1"
    "example" "me"
  have hserved : servedOffer ⟨"panel.crt", "panel.key"⟩ (xrayLink "vmess-ws" "tls") "4fd1" =
      some ⟨"vmess", 2053, "ws", some "/ws/4fd1", "tls"⟩ := by decide
  have hpath := congrArg Offer.path ((agrees_iff hserved).1 hagrees)
  exact absurd hpath (by decide)

end Share

end RvgGateway
