import RvgGateway.Lib.Encode
import RvgGateway.Ports.Admin

/-!
# Links of the external cores

A link with core `xray` or `singbox` is served by a process of its own, from a configuration that
`core_configs.py` writes.  To the fields of a link that decide about traffic and ports come those
that the configuration and the link text read: the security, the name of the server, keys and
passwords.

* `CoreLink` : the link with these fields.
* `createLinkCore` : `_create_link_core`, up to the entry in `LINKS`.
-/

namespace RvgGateway

namespace Share

open Ports (Host Panel CreateBody MtprotoStart Reply)

/-- A link, with the fields that its text and its inbound read.  A text that is absent is empty. -/
structure CoreLink extends Link where
  publicPort : ℤ
  alpn : String
  fingerprint : String
  flow : String
  sniffing : Bool
  /-- `security`: `none`, `tls`, `reality` or empty. -/
  security : String
  sni : String
  tlsCert : String
  tlsKey : String
  realityPriv : String
  realityPub : String
  realitySid : String
  realityDest : String
  /-- `ss_cipher`, if the link has one. -/
  ssCipher : Option String
  ssPassword : String
  mtprotoPort : ℤ
  mtprotoSecret : String
  mtprotoDomain : String

/-- The texts in the body of `create_link`; one that is absent is empty. -/
structure TextBody where
  alpn : String
  fingerprint : String
  flow : String
  sniffing : Bool
  security : String
  sni : String
  tlsCert : String
  tlsKey : String
  realityPriv : String
  realityPub : String
  realitySid : String
  realityDest : String
  ssCipher : String

/-- What a new link draws at random. -/
structure Secrets where
  /-- An X25519 key and its public key. -/
  realityPriv : String
  realityPub : String
  /-- `secrets.token_hex(4)`. -/
  sid : String
  /-- `secrets.token_urlsafe(16)`. -/
  password : String

/-- `DEFAULT_CIPHER`. -/
def defaultCipher : String := "chacha20-ietf-poly1305"

/-- The names in `CIPHERS`. -/
def cipherNames : List String := ["chacha20-ietf-poly1305", "aes-256-gcm"]

/-- `a or b`. -/
def textOr (a b : String) : String := if a = "" then b else a

/-- The security of a new link. -/
def TextBody.securityName (body : TextBody) : String :=
  let security := Str.lower (Str.strip body.security)
  if ["none", "tls", "reality"].contains security then security else ""

/-- The X25519 keys of a new link: those of the body, if both are there. -/
def TextBody.realityKeys (body : TextBody) (secrets : Secrets) : String × String :=
  let rpriv := Str.strip body.realityPriv
  let rpub := Str.strip body.realityPub
  if rpriv ≠ "" && rpub ≠ "" then (rpriv, rpub) else (secrets.realityPriv, secrets.realityPub)

/-- `link_data` of a new link of an external core, whose port is in `link`. -/
def coreLinkData (body : TextBody) (secrets : Secrets) (link : Link) : CoreLink where
  toLink := link
  publicPort := 0
  alpn := Str.take 60 (Str.strip (textOr body.alpn "h2,http/1.1"))
  fingerprint :=
    let fp_val := Str.take 20 (Str.strip (textOr body.fingerprint "chrome"))
    if ["chrome", "firefox", "ios"].contains fp_val then fp_val else "chrome"
  flow := Str.take 40 (Str.strip body.flow)
  sniffing := body.sniffing
  security := body.securityName
  sni := Str.take 253 (Str.strip body.sni)
  tlsCert := Str.take 300 (Str.strip body.tlsCert)
  tlsKey := Str.take 300 (Str.strip body.tlsKey)
  realityPriv := if body.securityName = "reality" then (body.realityKeys secrets).1 else ""
  realityPub := if body.securityName = "reality" then (body.realityKeys secrets).2 else ""
  realitySid :=
    if body.securityName = "reality" then
      Str.take 16 (Str.strip (textOr body.realitySid secrets.sid))
    else ""
  realityDest :=
    if body.securityName = "reality" then Str.take 253 (Str.strip body.realityDest) else ""
  ssCipher :=
    if ["shadowsocks", "shadowsocks-tcp"].contains link.protocol then
      let ss_cipher := textOr body.ssCipher defaultCipher
      some (if cipherNames.contains ss_cipher then ss_cipher else defaultCipher)
    else none
  ssPassword :=
    if ["shadowsocks", "shadowsocks-tcp"].contains link.protocol then secrets.password else ""
  mtprotoPort := 0
  mtprotoSecret := ""
  mtprotoDomain := ""

/-- `_create_link_core` of a link of an external core, up to the entry in `LINKS`. -/
def createLinkCore (h : Host) (s : Panel) (osFree : ℤ → Bool) (body : CreateBody) (mt : MtprotoStart)
    (texts : TextBody) (secrets : Secrets) : Except Reply CoreLink :=
  (Ports.newLink h s osFree body mt).map (coreLinkData texts secrets)

end Share

end RvgGateway
