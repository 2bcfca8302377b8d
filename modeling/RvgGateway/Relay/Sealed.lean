import Mathlib.Data.List.Infix
import RvgGateway.Relay.Pump
import RvgGateway.Shadowsocks.RoundTrip

/-!
# Shadowsocks tunnels

The relays of a Shadowsocks tunnel stand between the target and a client that runs the same stream.
The way up the client seals, its wire comes in in pieces of any size, and the relay opens it; the way
down the relay seals what it reads.

The decoder loses its place when a piece ends inside a payload block, and the encoder seals chunks that
no decoder accepts.  Both end a tunnel early.  Neither changes what has been passed on:

* `sealed_up` : **the target gets a front part of what the client has sealed**, and all of it if the
  relay still waits when the wire is in.
* `sealed_down` : **the client opens a front part of what the target has sent**, and all of it if the
  relay still waits and no read was longer than a chunk may be.
-/

namespace RvgGateway

namespace Relay

open Quota (GateClass)
open Shadowsocks

/-! ### The wire in pieces -/

section Pieces

variable {c : Crypto} (masterKey salt : Bytes) {info : CipherInfo}

/-- A wire that is cut inside a payload block is opened up to that cut. -/
theorem decryptSegments_cut (hnb : c.aead.NonceBound) (hnl : info.nonceLen = Aead.nonceLen)
    {pre post : List Bytes} (hpre : pre ≠ []) (hpost : post ≠ [])
    (hbefore : ∀ p q, pre = p ++ q → q ≠ [] → ∀ n r, ¬ EndsInside c masterKey info p.flatten n r)
    {n : ℕ} {r : Bytes} (hin : EndsInside c masterKey info pre.flatten n r) :
    ∃ ps e, (AEADStream.init c masterKey info salt).decryptSegments c (pre ++ post) = (ps, some e) ∧
      ps <+: ((AEADStream.init c masterKey info salt).decryptSegments c [(pre ++ post).flatten]).1 := by
  obtain ⟨ps, hfirst, hlate⟩ := hin.exhaust salt
  obtain ⟨d, ds, rfl⟩ := List.exists_cons_of_ne_nil hpost
  have hnext : (decoder c).exhaust ((settled c masterKey info salt pre.flatten (n + 1) r).feed d) =
      ⟨[], .error _⟩ := Decoder.exhaust_fail (pass_after_endsInside hnb hnl hin d)
  refine ⟨ps, .valueError "AEAD decrypt (length) failed — bad key/tag", ?_, ?_⟩
  · rw [decryptSegments_flatten salt _ hpre hbefore,
      decryptSegments_eq, Decoder.feedAll_cons hfirst,
      Decoder.feedAll_cons_error hnext]
    simp [Decoder.Outcome.prepend, Shadowsocks.raised]
  · rw [decryptSegments_singleton, List.flatten_append, hlate]
    exact List.prefix_append _ _

/-- However the wire is cut, no more is opened than of the whole wire, and just as much of it if
nothing is raised. -/
theorem decryptSegments_pieces (hnb : c.aead.NonceBound) {name : String}
    (hname : ciphers name = some info) (segs : List Bytes) :
    ((AEADStream.init c masterKey info salt).decryptSegments c segs).1 <+:
        ((AEADStream.init c masterKey info salt).decryptSegments c [segs.flatten]).1 ∧
      (((AEADStream.init c masterKey info salt).decryptSegments c segs).2 = none →
        SameAsOnePiece c masterKey info salt segs) := by
  obtain ⟨hsalt, hnl⟩ := ciphers_sizes hname
  have hpos : 0 < info.saltLen := hsalt ▸ Nat.zero_lt_succ 31
  by_cases hany : ∃ pre post, segs = pre ++ post ∧ post ≠ [] ∧
      ∃ n r, EndsInside c masterKey info pre.flatten n r
  · obtain ⟨pre, post, rfl, hpost, ⟨n, r, hin⟩, hfirst⟩ :=
      exists_first_endsInside hany
    have hpre : pre ≠ [] := by
      rintro rfl
      have := hin.1
      simp [hsalt] at this
    have hbefore : ∀ p q, pre = p ++ q → q ≠ [] →
        ∀ n r, ¬ EndsInside c masterKey info p.flatten n r := by
      rintro p q rfl hq n' r' hin'
      have hle := hfirst p (q ++ post) (by simp) (by simp [hq]) ⟨n', r', hin'⟩
      have hlen := List.length_pos_of_ne_nil hq
      rw [List.length_append] at hle
      omega
    obtain ⟨ps, e, hcut, hfront⟩ := decryptSegments_cut masterKey salt hnb hnl hpre hpost hbefore hin
    rw [hcut]
    exact ⟨hfront, fun h => by cases h⟩
  · push Not at hany
    have hsame : SameAsOnePiece c masterKey info salt segs := sameAsOnePiece_of_not_endsInside hpos hany
    exact ⟨hsame.1 ▸ List.prefix_rfl, fun _ => hsame⟩

/-- A front part of a wire opens to a front part. -/
theorem decryptSegments_front (info : CipherInfo) {a w : Bytes} (h : a <+: w) :
    ((AEADStream.init c masterKey info salt).decryptSegments c [a]).1 <+:
      ((AEADStream.init c masterKey info salt).decryptSegments c [w]).1 := by
  obtain ⟨b, rfl⟩ := h
  rw [decryptSegments_singleton,
    decryptSegments_singleton, ← AEADStream.feed_append]
  exact decoder_stable.items_feed _ b

/-- What a fresh stream with the same key opens of a wire. -/
theorem decryptSegments_wire (salt' : Bytes) (hc : c.aead.Correct) {name : String}
    (hname : ciphers name = some info) (hsalt : salt.length = info.saltLen) {payloads : List Bytes}
    {wire : Bytes} {s : AEADStream}
    (hwire : (AEADStream.init c masterKey info salt).encryptChunks c payloads = .ok (wire, s)) :
    (AEADStream.init c masterKey info salt').decryptSegments c [wire] =
      (payloads.takeWhile (fun p => p.length ≤ maxChunk),
        if ∀ p ∈ payloads, p.length ≤ maxChunk then none
        else some (.valueError "invalid SS AEAD chunk length (exceeds spec limit)")) := by
  obtain ⟨hsize, -⟩ := ciphers_sizes hname
  obtain ⟨⟨hlen, hmax⟩, rfl⟩ := (encryptChunks_eq _ (Nat.zero_le _) payloads wire).1 ⟨s, hwire⟩
  rcases eq_or_ne payloads [] with rfl | hne
  · rw [if_pos rfl]
    exact decryptSegments_empty (hsize ▸ Nat.zero_lt_succ 31)
  · rw [if_neg hne]
    exact decrypt_wire hc hsalt payloads (by simpa [AEADStream.init] using hmax) hlen

end Pieces

/-! ### The way up -/

section Up

variable {c : Crypto} {dir : Direction AEADStream Unit}

/-- The relay that opens, of the WebSocket or of the TCP endpoint. -/
def Opens (c : Crypto) (dir : Direction AEADStream Unit) : Prop :=
  dir = .ssUp c ∨ dir = .ssTcpUp c

/-- What a relay passes on is what the stream opens, without the empty payloads; all of it unless
the stream raises. -/
theorem Opens.readAll (hdir : Opens c dir) (s : AEADStream) (ds : List Bytes) :
    (dir.readAll s ds).1 <+: (s.decryptSegments c ds).1.filter (· ≠ []) ∧
      ((dir.readAll s ds).2.isSome → (s.decryptSegments c ds).2 = none ∧
        (dir.readAll s ds).1 = (s.decryptSegments c ds).1.filter (· ≠ [])) := by
  induction ds generalizing s with
  | nil => exact ⟨List.prefix_rfl, fun _ => ⟨rfl, rfl⟩⟩
  | cons d ds ih =>
    rw [Direction.readAll, AEADStream.decryptSegments]
    cases hchunks : (s.feed d).tryDecryptChunks c with
    | mk ps ending =>
      cases ending with
      | ok s' =>
        have hread : dir.read s d = (ps, some s') := by
          rcases hdir with rfl | rfl <;> simp [Direction.ssUp, Direction.ssTcpUp, hchunks]
        obtain ⟨hfront, hall⟩ := ih s'
        rw [hread]
        simp only [List.filter_append]
        refine ⟨(List.prefix_append_right_inj _).2 hfront, fun hsome => ?_⟩
        obtain ⟨hnone, heq⟩ := hall hsome
        exact ⟨hnone, by rw [heq]⟩
      | error e =>
        obtain ⟨ps', hread, hps'⟩ : ∃ ps', dir.read s d = (ps', none) ∧ ps' <+: ps := by
          rcases hdir with rfl | rfl
          · exact ⟨ps, by simp [Direction.ssUp, hchunks], List.prefix_rfl⟩
          · exact ⟨[], by simp [Direction.ssTcpUp, hchunks], List.nil_prefix⟩
        rw [hread]
        exact ⟨hps'.filter _, fun hsome => by cases hsome⟩

theorem Opens.write (hdir : Opens c dir) : dir.write = Direction.writePlain := by
  rcases hdir with rfl | rfl <;> rfl

/-- What a relay has passed on whose stream has already opened `ps` of the segments `first`. -/
theorem opened_up (hc : c.aead.Correct) (hnb : c.aead.NonceBound) {name : String} {info : CipherInfo}
    (hname : ciphers name = some info) {masterKey clientSalt serverSalt : Bytes}
    (hsalt : clientSalt.length = info.saltLen) {payloads : List Bytes} {wire : Bytes}
    {client : AEADStream}
    (hwire : (AEADStream.init c masterKey info clientSalt).encryptChunks c payloads =
      .ok (wire, client))
    (hdir : Opens c dir) (first ps : List Bytes) {s : AEADStream}
    (hfirst : ∀ ds, (AEADStream.init c masterKey info serverSalt).decryptSegments c (first ++ ds) =
      (ps ++ (s.decryptSegments c ds).1, (s.decryptSegments c ds).2))
    {r : Relay AEADStream Unit} (hkept : Kept dir s () r)
    (hreceived : (first ++ r.received).flatten <+: wire) :
    ps.flatten ++ r.written <+: payloads.flatten ∧
      (r.stage = .waiting → (first ++ r.received).flatten = wire →
        ps.flatten ++ r.written = payloads.flatten) := by
  obtain ⟨⟨rest, hread, hrest⟩, hwritten⟩ := hkept.faithful
  rw [Direction.writeAll_plain hdir.write] at hwritten
  have hflat : r.passed.flatten = r.written := congrArg Prod.fst (Option.some.inj hwritten)
  rw [← hflat]
  obtain ⟨hopened, hall⟩ := hdir.readAll s r.received
  obtain ⟨hpieces, hsame⟩ := decryptSegments_pieces masterKey serverSalt hnb hname (first ++ r.received)
  have hclient := decryptSegments_wire masterKey clientSalt serverSalt hc hname hsalt hwire
  rw [SameAsOnePiece, endsInValueError] at hsame
  rw [hfirst] at hpieces hsame
  constructor
  · have hin := hpieces.trans (decryptSegments_front masterKey serverSalt info hreceived)
    rw [hclient] at hin
    have hpassed : r.passed.flatten <+: ((s.decryptSegments c r.received).1).flatten := by
      rw [← List.flatten_filter_ne_nil (L := (s.decryptSegments c r.received).1)]
      exact ((hread ▸ List.prefix_append _ rest).trans hopened).flatten
    have hplain := hin.flatten
    rw [List.flatten_append] at hplain
    exact (((List.prefix_append_right_inj _).2 hpassed).trans hplain).trans
      (List.takeWhile_prefix _).flatten
  · intro hwaiting hin
    have hfine : r.stage.Fine := by rw [hwaiting]; trivial
    obtain ⟨hnone, heq⟩ := hall (by rw [hkept.input hfine]; rfl)
    obtain ⟨hitems, hend⟩ := hsame hnone
    rw [hin, hclient] at hitems hend
    -- nothing was raised, so no chunk was too long
    have hshort : ∀ p ∈ payloads, p.length ≤ maxChunk := by
      by_contra hlong
      rw [hnone, endsInValueError, if_neg hlong] at hend
      cases hend
    rw [hrest hwaiting, List.append_nil, heq] at hread
    have hpayloads : ps ++ (s.decryptSegments c r.received).1 = payloads :=
      hitems.trans (List.takeWhile_eq_self_iff.2 fun p hp => decide_eq_true (hshort p hp))
    rw [← hpayloads, ← hread, List.flatten_filter_ne_nil, List.flatten_append]

/-- **The way up.**  A client seals `payloads`, and a relay reads as much of the wire as has come in,
in pieces of any size.  In every run, whatever the gate answers and wherever the task is cancelled, the
target has a front part of the plaintext; and all of it if the wire is in and the relay waits for
more. -/
theorem sealed_up (c : Crypto) (hc : c.aead.Correct) (hnb : c.aead.NonceBound) (name : String)
    (info : CipherInfo) (hname : ciphers name = some info) (masterKey clientSalt serverSalt : Bytes)
    (hsalt : clientSalt.length = info.saltLen) (payloads : List Bytes) (wire : Bytes)
    (client : AEADStream)
    (hwire : (AEADStream.init c masterKey info clientSalt).encryptChunks c payloads =
      .ok (wire, client))
    (dir : Direction AEADStream Unit) (hdir : Opens c dir) (cls : GateClass) (uuid : String)
    (monotonic : ℚ) (a : Accounts) (es : List (RelayEvent ⊕ Accounts)) (r : Relay AEADStream Unit)
    (a' : Accounts)
    (h : (relayMachine dir).run
      (start cls uuid monotonic (.init c masterKey info serverSalt) (), a) es = some (r, a'))
    (hreceived : r.received.flatten <+: wire) :
    r.written <+: payloads.flatten ∧
      (r.stage = .waiting → r.received.flatten = wire → r.written = payloads.flatten) :=
  opened_up hc hnb hname hsalt hwire hdir [] [] (fun _ => rfl) (kept_of_run h) hreceived

/-- One sealed byte comes in in two pieces. -/
def sealedRun : Option (Relay AEADStream Unit × Accounts) :=
  (relayMachine (.ssTcpUp .transparent)).run
    (start .vless "u" 0 (.init .transparent [] ⟨32, 32, 12, .AESGCM⟩ []) (),
      ⟨(∅ : Links).set "u" ⟨"shadowsocks", none, 0, true, .never, 0, 0⟩, 0, ∅⟩)
    [.inl (.data (cutChunk.flatten.take 40)), .inl (.data (cutChunk.flatten.drop 40)),
      .inl (.pass (Quota.readingAt 0))]

theorem sealed_up_byte : ∃ r a', sealedRun = some (r, a') ∧ r.written <+: [0xAA] := by
  obtain ⟨⟨r, a'⟩, hr⟩ := Option.isSome_iff_exists.1 (by decide +kernel : sealedRun.isSome)
  have hreceived : sealedRun.map (fun u => u.1.received.flatten) = some cutChunk.flatten := by
    decide +kernel
  rw [hr] at hreceived
  refine ⟨r, a', hr, ?_⟩
  exact (sealed_up .transparent Crypto.transparent_correct Aead.transparent_nonceBound "aes-256-gcm"
    ⟨32, 32, 12, .AESGCM⟩ rfl [] (List.replicate 32 0) [] rfl [[0xAA]] cutChunk.flatten _ rfl
    (.ssTcpUp .transparent) (.inr rfl) .vless "u" 0 _ _ r a' hr
    (Option.some.inj hreceived ▸ List.prefix_rfl)).1

end Up

/-! ### The way down -/

section Down

variable {c : Crypto}

/-- What the relay writes is what the stream seals. -/
theorem writeAll_ssDown (s t : AEADStream) (ps : List Bytes) (out : Bytes) :
    (Direction.ssDown c).writeAll s ps = some (out, t) → s.encryptChunks c ps = .ok (out, t) := by
  induction ps generalizing s out with
  | nil =>
    intro h
    cases h
    rfl
  | cons p ps ih =>
    intro h
    obtain ⟨⟨w, s'⟩, hwrite, h⟩ := Option.bind_eq_some_iff.1 h
    obtain ⟨⟨ws, t'⟩, hrest, h⟩ := Option.map_eq_some_iff.1 h
    cases h
    have hchunk : s.encryptChunk c p = .ok (w, s') := by
      simp only [Direction.ssDown] at hwrite
      split at hwrite <;> cases hwrite
      assumption
    rw [AEADStream.encryptChunks, hchunk]
    simp only [ih s' ws hrest]

/-- What `encrypt_chunk` reads of a stream. -/
def sealing (s : AEADStream) : CipherInfo × Bytes × AeadKey × ℕ × Bool :=
  (s.info, s.encSalt, s.encAead, s.encNonce, s.encSaltSent)

/-- Streams that seal alike. -/
theorem encryptChunks_congr {s s' t : AEADStream} (hs : s.encNonce ≤ 256 ^ s.info.nonceLen)
    (hsealing : sealing s = sealing s') {ps : List Bytes} {out : Bytes}
    (h : s.encryptChunks c ps = .ok (out, t)) : ∃ t', s'.encryptChunks c ps = .ok (out, t') := by
  obtain ⟨hinfo, hsalt, haead, hnonce, hsent⟩ : s.info = s'.info ∧ s.encSalt = s'.encSalt ∧
      s.encAead = s'.encAead ∧ s.encNonce = s'.encNonce ∧ s.encSaltSent = s'.encSaltSent := by
    simpa only [sealing, Prod.mk.injEq] using hsealing
  have hwire := (encryptChunks_eq s hs ps out).1 ⟨t, h⟩
  rw [Fits, saltPart, hinfo, hsalt, haead, hnonce, hsent] at hwire
  exact (encryptChunks_eq s' (hinfo ▸ hnonce ▸ hs) ps out).2 hwire

/-- What a client opens of what a relay has sealed whose stream has not sealed yet. -/
theorem opened_down (hc : c.aead.Correct) {name : String} {info : CipherInfo}
    (hname : ciphers name = some info) {masterKey serverSalt : Bytes} (clientSalt : Bytes)
    (hsalt : serverSalt.length = info.saltLen) {s : AEADStream}
    (hsealing : sealing s = sealing (.init c masterKey info serverSalt))
    {r : Relay Unit AEADStream} (hkept : Kept (.ssDown c) () s r) :
    ∃ opened e, (AEADStream.init c masterKey info clientSalt).decryptSegments c [r.written] =
        (opened, e) ∧ opened.flatten <+: r.received.flatten ∧
      (r.stage = .waiting → (∀ d ∈ r.received, d.length ≤ maxChunk) →
        e = none ∧ opened.flatten = r.received.flatten) := by
  obtain ⟨⟨rest, hread, hrest⟩, hwritten⟩ := hkept.faithful
  rw [Direction.readAll_plain rfl] at hread
  have hflat : r.received.flatten = r.passed.flatten ++ rest.flatten := by
    rw [← List.flatten_filter_ne_nil, hread, List.flatten_append]
  have hnonce : s.encNonce = 0 := congrArg (fun x => x.2.2.2.1) hsealing
  obtain ⟨_, hsealed⟩ := encryptChunks_congr (by rw [hnonce]; exact Nat.zero_le _) hsealing
    (writeAll_ssDown _ _ _ _ hwritten)
  refine ⟨_, _, decryptSegments_wire masterKey serverSalt clientSalt hc hname hsalt hsealed, ?_, ?_⟩
  · rw [hflat]
    exact (List.takeWhile_prefix _).flatten.trans (List.prefix_append _ _)
  · intro hwaiting hshort
    have hpassed : ∀ p ∈ r.passed, p.length ≤ maxChunk := fun p hp =>
      hshort p (List.mem_of_mem_filter (hread ▸ List.mem_append_left rest hp))
    refine ⟨if_pos hpassed, ?_⟩
    rw [hflat, hrest hwaiting, List.flatten_nil, List.append_nil, List.takeWhile_eq_self_iff.2]
    exact fun p hp => decide_eq_true (hpassed p hp)

/-- **The way down.**  A relay seals what the target sends, and a client with the same key opens what
the relay has written.  In every run, whatever the gate answers and wherever the task is cancelled, the
client has a front part of what the target has sent; and all of it, without an error, if the relay
waits for more and no read was longer than a chunk may be. -/
theorem sealed_down (c : Crypto) (hc : c.aead.Correct) (name : String) (info : CipherInfo)
    (hname : ciphers name = some info) (masterKey clientSalt serverSalt : Bytes)
    (hsalt : serverSalt.length = info.saltLen) (cls : GateClass) (uuid : String) (monotonic : ℚ)
    (a : Accounts) (es : List (RelayEvent ⊕ Accounts)) (r : Relay Unit AEADStream) (a' : Accounts)
    (h : (relayMachine (.ssDown c)).run
      (start cls uuid monotonic () (.init c masterKey info serverSalt), a) es = some (r, a')) :
    ∃ opened e, (AEADStream.init c masterKey info clientSalt).decryptSegments c [r.written] =
        (opened, e) ∧ opened.flatten <+: r.received.flatten ∧
      (r.stage = .waiting → (∀ d ∈ r.received, d.length ≤ maxChunk) →
        e = none ∧ opened.flatten = r.received.flatten) :=
  opened_down hc hname clientSalt hsalt rfl (kept_of_run h)

/-- The target sends one byte. -/
def answeredRun : Option (Relay Unit AEADStream × Accounts) :=
  (relayMachine (.ssDown .transparent)).run
    (start .vless "u" 0 () (.init .transparent [] ⟨32, 32, 12, .AESGCM⟩ (List.replicate 32 0)),
      ⟨(∅ : Links).set "u" ⟨"shadowsocks", none, 0, true, .never, 0, 0⟩, 0, ∅⟩)
    [.inl (.data [0xAA]), .inl (.pass (Quota.readingAt 0))]

theorem sealed_down_byte : ∃ r a' opened e, answeredRun = some (r, a') ∧
    (AEADStream.init .transparent [] ⟨32, 32, 12, .AESGCM⟩ []).decryptSegments .transparent
      [r.written] = (opened, e) ∧ opened.flatten <+: r.received.flatten := by
  obtain ⟨⟨r, a'⟩, hr⟩ := Option.isSome_iff_exists.1 (by decide +kernel : answeredRun.isSome)
  obtain ⟨opened, e, hopened, hfront, -⟩ := sealed_down .transparent Crypto.transparent_correct
    "aes-256-gcm" ⟨32, 32, 12, .AESGCM⟩ rfl [] [] (List.replicate 32 0) rfl .vless "u" 0 _ _ r a' hr
  exact ⟨r, a', opened, e, hr, hopened, hfront⟩

end Down

end Relay

end RvgGateway
