import Mathlib.Tactic.FinCases
import RvgGateway.Lib.Assign
import RvgGateway.State.Persistence

/-!
# Editing a link

`update_link` applies the fields of a request to the link in `LINKS` one after another, without a
copy.  Several of them are checked only when their turn comes.

* `Call.updateLink` : the locked section of `update_link`.
* `Call.outcome` : what the code for one field does, from the link as it is before the call.
* `Call.Harmless` : whatever was assigned before the first error was there already.
* `atomic_iff` : **a failed call leaves `LINKS` and the listeners alone exactly then.**
-/

namespace RvgGateway

namespace Links

open State (orElse)

/-- What `update_link` can raise in its locked section. -/
inductive UpdateError where
  /-- `HTTPException`. -/
  | http (status : ℕ) (detail : String)
  /-- `TypeError` or `ValueError` of a conversion. -/
  | conversion
  /-- `OverflowError`. -/
  | overflow
  /-- `AttributeError`. -/
  | attribute
  /-- `KeyError`. -/
  | key
  deriving DecidableEq

/-- A value of `LINKS`. -/
inductive Entry where
  | link (fields : Dict String Json)
  /-- A value that is not an object, from an imported backup. -/
  | other (v : Json) (h : v.isObj = false)

/-- What Python and the clock contribute. -/
structure Runtime where
  /-- `str` of a value that is not a string. -/
  repr : Json → String
  /-- `int` of a string, which may be rejected. -/
  intOfStr : String → Option ℤ
  /-- `float` of a string, which may be rejected. -/
  floatOfStr : String → Option PyFloat
  /-- `float` of an integer, which may be too large. -/
  floatOfInt : ℤ → Option PyFloat
  /-- `(datetime.now() + timedelta(days=n)).isoformat()`, unless it is out of range. -/
  isoAfter : ℤ → Option String

/-! ### Conversions -/

/-- `str(v)`. -/
def Runtime.str (rt : Runtime) : Json → String
  | .str s => s
  | v => rt.repr v

/-- `int(v)`. -/
def Runtime.int (rt : Runtime) (v : Json) : Except UpdateError ℤ :=
  match v.toInt rt.intOfStr with
  | .ok n => .ok n
  | .rejected => .error .conversion
  | .overflow => .error .overflow

/-- `float(v)`. -/
def Runtime.float (rt : Runtime) : Json → Except UpdateError PyFloat
  | .float x => .ok x
  | .bool b => .ok (.finite (if b then 1 else 0))
  | .int n =>
    match rt.floatOfInt n with
    | some x => .ok x
    | none => .error .overflow
  | .str s =>
    match rt.floatOfStr s with
    | some x => .ok x
    | none => .error .conversion
  | _ => .error .conversion

/-- `value * 1024 ** k`, which is exact but for its range. -/
def scale (k : ℕ) : PyFloat → PyFloat
  | .finite q =>
    let r := q * 1024 ^ k
    if |r| < 2 ^ 1024 then .finite r else .infinite (r < 0)
  | x => x

/-- `x <= 0`. -/
def notPositive : PyFloat → Bool
  | .finite q => q ≤ 0
  | .infinite neg => neg
  | .nan => false

/-- `parse_size_to_bytes`. -/
def parseSizeToBytes (rt : Runtime) (value : PyFloat) : Json → Except UpdateError ℤ
  | .str unit =>
    let k := match Str.upper unit with | "GB" => 3 | "MB" => 2 | "KB" => 1 | _ => 0
    rt.int (.float (scale k value))
  | _ => .error .attribute

/-- `0 if lv <= 0 else parse_size_to_bytes(lv, lu)`. -/
def limitBytes (rt : Runtime) (lv : PyFloat) (lu : Json) : Except UpdateError ℤ :=
  if notPositive lv then .ok 0 else parseSizeToBytes rt lv lu

/-- `v == b` for a truth value `b`. -/
def isTruth (b : Bool) : Json → Bool
  | .bool c => c = b
  | .int n => n = if b then 1 else 0
  | .float (.finite q) => q = if b then 1 else 0
  | _ => false

/-- `v in (None, "", 0, "0")`. -/
def noPort : Json → Bool
  | .null => true
  | .bool b => !b
  | .int n => n = 0
  | .float x => x = .finite 0
  | .str s => s = "" || s = "0"
  | _ => false

/-- `int(raw) if raw not in (None, "", 0, "0") else 0`. -/
def portNumber (rt : Runtime) (raw : Json) : Json.IntResult :=
  if noPort raw then .ok 0 else raw.toInt rt.intOfStr

/-! ### The call -/

/-- What a block of `update_link` does besides its assignment. -/
inductive Effect where
  /-- `mtproto_action`, a local variable until the lock is released. -/
  | mtproto (start : Bool) (snap : Dict String Json)
  /-- `port_restart_needed`, likewise. -/
  | restart
  /-- `sync_ports_for_link`, which spawns the change of the listeners at once. -/
  | sync

/-- What a block of `update_link` does. -/
abbrev Change := Write String Json Effect

/-- A block that does nothing. -/
def nothing : Change := ⟨none, []⟩

/-- `link[k] = v`. -/
def assign (k : String) (v : Json) : Change := ⟨some (k, v), []⟩

/-- A call of `update_link`, and what it meets. -/
structure Call where
  rt : Runtime
  /-- `CONFIG["port"]`. -/
  panelPort : ℤ
  /-- `port_manager.port_in_use_by_us`. -/
  portInUseByUs : ℤ → Bool
  links : Dict Json.Key Entry
  uid : String
  body : Dict String Json

/-- The fields of a request in the order of the code; `log` is the entry in the activity log, which
reads the label. -/
inductive Field where
  | active
  | label
  | note
  | resetUsage
  | limitValue
  | expiresDays
  | alpn
  | fingerprint
  | listenPort
  | security
  | sni
  | realityPriv
  | realityPub
  | realitySid
  | publicPort
  | log
  | subId
  deriving DecidableEq

/-- All fields, in the order of the code. -/
def fields : List Field :=
  [.active, .label, .note, .resetUsage, .limitValue, .expiresDays, .alpn, .fingerprint, .listenPort,
    .security, .sni, .realityPriv, .realityPub, .realitySid, .publicPort, .log, .subId]

/-- `link.get(k)`. -/
def read (link : Dict String Json) (k : String) : Json := (link.get? k).getD .null

variable (c : Call)

/-- `if name in body:`. -/
def Call.given (name : String) (f : Json → Except UpdateError Change) : Except UpdateError Change :=
  match c.body.get? name with
  | some v => f v
  | none => .ok nothing

/-- A text that is assigned as it stands. -/
def Call.text (name : String) (n : ℕ) : Except UpdateError Change :=
  c.given name fun v => .ok (assign name (.str (Str.take n (c.rt.str v))))

/-- A text that is stripped; a false value counts as empty. -/
def Call.stripped (name : String) (n : ℕ) : Except UpdateError Change :=
  c.given name fun v =>
    .ok (assign name (.str (Str.take n (Str.strip (c.rt.str (orElse v (.str "")))))))

/-- A text that is stripped; a false value is passed over. -/
def Call.strippedIfTrue (name : String) (n : ℕ) : Except UpdateError Change :=
  c.given name fun v =>
    .ok (if v.truthy then assign name (.str (Str.take n (Str.strip (c.rt.str v)))) else nothing)

/-- `active`. -/
def Call.active (link : Dict String Json) : Except UpdateError Change :=
  c.given "active" fun v =>
    let newActive := v.truthy
    let changed := !isTruth newActive ((link.get? "active").getD (.bool true))
    .ok
      { entry := some ("active", .bool newActive)
        effects :=
          if changed && Json.isText "mtproto" (read link "protocol") then
            [.mtproto newActive (link.set "active" (.bool newActive))]
          else [] }

/-- `reset_usage`. -/
def Call.resetUsage : Except UpdateError Change :=
  c.given "reset_usage" fun v => .ok (if v.truthy then assign "used_bytes" (.int 0) else nothing)

/-- `limit_value` and `limit_unit`. -/
def Call.limitValue : Except UpdateError Change :=
  c.given "limit_value" fun v => do
    let lv ← c.rt.float (orElse v (.int 0))
    let lu := orElse ((c.body.get? "limit_unit").getD .null) (.str "GB")
    let bytes ← limitBytes c.rt lv lu
    .ok (assign "limit_bytes" (.int bytes))

/-- `expires_days`. -/
def Call.expiresDays : Except UpdateError Change :=
  c.given "expires_days" fun v => do
    let ed ← c.rt.int (orElse v (.int 0))
    if 0 < ed then
      match c.rt.isoAfter ed with
      | some stamp => .ok (assign "expires_at" (.str stamp))
      | none => .error .overflow
    else .ok (assign "expires_at" .null)

/-- `alpn`. -/
def Call.alpn : Except UpdateError Change :=
  c.given "alpn" fun v =>
    let alpnVal := Str.take 60 (Str.strip (c.rt.str v))
    .ok (if alpnVal ≠ "" then assign "alpn" (.str alpnVal) else nothing)

/-- `fingerprint`. -/
def Call.fingerprint : Except UpdateError Change :=
  c.given "fingerprint" fun v =>
    let fpVal := Str.strip (c.rt.str v)
    .ok (assign "fingerprint"
      (.str (if ["chrome", "firefox", "ios"].contains fpVal then fpVal else "chrome")))

/-- The ports of the other links. -/
def usedPorts (rt : Runtime) : List Entry → Except UpdateError (List ℤ)
  | [] => .ok []
  | .other _ _ :: _ => .error .attribute
  | .link d :: es => do
    let port ← rt.int (orElse (read d "listen_port") (.int 0))
    let ports ← usedPorts rt es
    .ok (port :: ports)

/-- The port is refused when another link, the panel or one of its listeners has it. -/
def Call.checkPort (newPort : ℤ) : Except UpdateError Unit :=
  if newPort = 0 then .ok ()
  else do
    let used ← usedPorts c.rt
      ((c.links.entries.filter fun e => e.1 ≠ .str c.uid).map Prod.snd)
    if newPort ∈ used ∨ newPort = c.panelPort ∨ c.portInUseByUs newPort then
      .error (.http 409 ("پورت " ++ toString newPort ++ " قبلاً استفاده شده است"))
    else .ok ()

/-- `listen_port`. -/
def Call.listenPort (link : Dict String Json) : Except UpdateError Change :=
  c.given "listen_port" fun raw =>
    match portNumber c.rt raw with
    | .overflow => .error .overflow
    | .rejected => .error (.http 400 "شماره پورت نامعتبر است")
    | .ok newPort =>
      if newPort ≠ 0 ∧ ¬ (1 ≤ newPort ∧ newPort ≤ 65535) then
        .error (.http 400 "شماره پورت نامعتبر است")
      else do
        let oldPort ← c.rt.int (orElse (read link "listen_port") (.int 0))
        if newPort = oldPort then .ok nothing
        else do
          c.checkPort newPort
          .ok
            { entry := some ("listen_port", .int newPort)
              effects := [if Json.isText "mtproto" (read link "protocol") then .restart else .sync] }

/-- `security`. -/
def Call.security : Except UpdateError Change :=
  c.given "security" fun v =>
    let sec := Str.lower (Str.strip (c.rt.str (orElse v (.str ""))))
    .ok (assign "security" (.str (if ["none", "tls", "reality"].contains sec then sec else "")))

/-- `public_port`. -/
def Call.publicPort : Except UpdateError Change :=
  c.given "public_port" fun raw =>
    match portNumber c.rt raw with
    | .ok n => .ok (assign "public_port" (.int n))
    | .rejected => .ok (assign "public_port" (.int 0))
    | .overflow => .error .overflow

/-- The fields whose change is entered in the activity log. -/
def logged : List String :=
  ["label", "note", "limit_value", "expires_days", "alpn", "fingerprint", "listen_port",
    "public_port"]

/-- The entry in the activity log raises when the link has no label. -/
def Call.log (labelled : Bool) : Except UpdateError Change :=
  if logged.any c.body.contains && !labelled then .error .key else .ok nothing

/-- `sub_id`. -/
def Call.subId : Except UpdateError Change :=
  c.given "sub_id" fun newSub =>
    .ok (if Json.isText "UNCHANGED" newSub then nothing else assign "sub_id" (orElse newSub .null))

/-- The code for one field. -/
def Call.block (f : Field) (link : Dict String Json) : Except UpdateError Change :=
  match f with
  | .active => c.active link
  | .label => c.text "label" 60
  | .note => c.text "note" 200
  | .resetUsage => c.resetUsage
  | .limitValue => c.limitValue
  | .expiresDays => c.expiresDays
  | .alpn => c.alpn
  | .fingerprint => c.fingerprint
  | .listenPort => c.listenPort link
  | .security => c.security
  | .sni => c.stripped "sni" 253
  | .realityPriv => c.strippedIfTrue "reality_priv" 100
  | .realityPub => c.strippedIfTrue "reality_pub" 100
  | .realitySid => c.stripped "reality_sid" 16
  | .publicPort => c.publicPort
  | .log => c.log (link.contains "label")
  | .subId => c.subId

/-- What the locked section leaves behind. -/
structure Locked where
  links : Dict Json.Key Entry
  effects : List Effect
  error : Option UpdateError

/-- `update_link`, up to the end of its locked section. -/
def Call.updateLink : Locked :=
  match c.links.get? (.str c.uid) with
  | none => ⟨c.links, [], some (.http 404 "link not found")⟩
  | some (.other _ _) => ⟨c.links, [], some .attribute⟩
  | some (.link link) =>
    let r := assignAll c.block fields link
    ⟨c.links.set (.str c.uid) (.link r.1), r.2.1, r.2.2⟩

/-! ### The condition -/

/-- What the code for one field does, from the link as it is before the call. -/
def Call.outcome (link : Dict String Json) : Field → Except UpdateError Change
  | .log => c.log (c.body.contains "label" || link.contains "label")
  | f => c.block f link

/-- When a field is refused, whatever the fields before it assign is in the link already. -/
def Call.Harmless : Prop :=
  ∀ link, c.links.get? (.str c.uid) = some (.link link) → raised (c.outcome link) fields ≠ none →
    ∀ w ∈ writes (c.outcome link) fields, ∀ e, w.entry = some e → link.get? e.1 = some e.2

/-- The entry of the link that the code for a field assigns; `log` has none. -/
def Field.target : Field → String
  | .active => "active"
  | .label => "label"
  | .note => "note"
  | .resetUsage => "used_bytes"
  | .limitValue => "limit_bytes"
  | .expiresDays => "expires_at"
  | .alpn => "alpn"
  | .fingerprint => "fingerprint"
  | .listenPort => "listen_port"
  | .security => "security"
  | .sni => "sni"
  | .realityPriv => "reality_priv"
  | .realityPub => "reality_pub"
  | .realitySid => "reality_sid"
  | .publicPort => "public_port"
  | .log => ""
  | .subId => "sub_id"

/-! ### What the blocks read and assign -/

theorem nodup_target : (fields.map Field.target).Nodup := by decide

/-- What the code for the entry `k` does to a link. -/
structure Regular (link : Dict String Json) (k : String) (w : Change) : Prop where
  /-- It assigns no other entry. -/
  target : ∀ e, w.entry = some e → e.1 = k
  /-- The listeners are changed only together with the port. -/
  moves : .sync ∈ w.effects →
    ∃ n, w.entry = some ("listen_port", .int n) ∧ link.get? "listen_port" ≠ some (.int n)

/-- The code for the entry `k`, if it does not raise. -/
def Assigns (link : Dict String Json) (k : String) (r : Except UpdateError Change) : Prop :=
  ∀ w, r = .ok w → Regular link k w

section Assigns

variable {α : Type} {k : String} {c : Call} {link : Dict String Json}

theorem assigns_nothing : Assigns link k (.ok nothing) := by
  intro w hw
  cases hw
  exact ⟨fun e he => (by cases he), fun hsync => (by cases hsync)⟩

theorem assigns_entry {v : Json} {fs : List Effect} (hfs : .sync ∉ fs) :
    Assigns link k (.ok ⟨some (k, v), fs⟩) := by
  intro w hw
  cases hw
  refine ⟨fun e he => ?_, fun hsync => absurd hsync hfs⟩
  cases he
  rfl

theorem assigns_assign {v : Json} : Assigns link k (.ok (assign k v)) :=
  assigns_entry List.not_mem_nil

theorem assigns_error {err : UpdateError} : Assigns link k (.error err) := by
  intro w hw
  cases hw

theorem assigns_ite {p : Prop} [Decidable p] {r r' : Except UpdateError Change}
    (h : p → Assigns link k r) (h' : ¬ p → Assigns link k r') :
    Assigns link k (if p then r else r') := by
  split_ifs with hp
  · exact h hp
  · exact h' hp

theorem assigns_bind {x : Except UpdateError α} {f : α → Except UpdateError Change}
    (h : ∀ a, x = .ok a → Assigns link k (f a)) : Assigns link k (x >>= f) := by
  cases x with
  | error err => exact assigns_error
  | ok a => exact h a rfl

theorem assigns_given {name : String} {f : Json → Except UpdateError Change}
    (h : ∀ v, Assigns link k (f v)) : Assigns link k (c.given name f) := by
  unfold Call.given
  cases c.body.get? name with
  | none => exact assigns_nothing
  | some v => exact h v

theorem assigns_ok_ite {p : Prop} [Decidable p] {v : Json} :
    Assigns link k (.ok (if p then assign k v else nothing)) := by
  split_ifs
  · exact assigns_assign
  · exact assigns_nothing

theorem assigns_active : Assigns link "active" (c.active link) := by
  refine assigns_given fun v => assigns_entry ?_
  split_ifs <;> simp

theorem assigns_limitValue : Assigns link "limit_bytes" c.limitValue :=
  assigns_given fun _ => assigns_bind fun _ _ => assigns_bind fun _ _ => assigns_assign

theorem assigns_expiresDays : Assigns link "expires_at" c.expiresDays := by
  refine assigns_given fun v => assigns_bind fun ed _ => ?_
  refine assigns_ite (fun _ => ?_) fun _ => assigns_assign
  cases c.rt.isoAfter ed with
  | none => exact assigns_error
  | some stamp => exact assigns_assign

/-- A port that is stored as a number is the old port. -/
theorem old_port {rt : Runtime} {n : ℤ} (h : link.get? "listen_port" = some (.int n)) :
    rt.int (orElse (read link "listen_port") (.int 0)) = .ok n := by
  rw [read, h, Option.getD_some, orElse]
  by_cases hn : n = 0
  · subst hn
    rfl
  · rw [if_pos (by simpa [Json.truthy] using hn)]
    rfl

theorem assigns_listenPort : Assigns link "listen_port" (c.listenPort link) := by
  refine assigns_given fun raw => ?_
  cases portNumber c.rt raw with
  | overflow => exact assigns_error
  | rejected => exact assigns_error
  | ok newPort =>
    refine assigns_ite (fun _ => assigns_error) fun _ => assigns_bind fun oldPort hold => ?_
    refine assigns_ite (fun _ => assigns_nothing) fun hne => assigns_bind fun _ _ => ?_
    intro w hw
    cases hw
    refine ⟨fun e he => ?_, fun _ => ⟨newPort, rfl, fun hget => hne ?_⟩⟩
    · cases he
      rfl
    · rw [old_port hget] at hold
      exact Except.ok.inj hold

theorem assigns_publicPort : Assigns link "public_port" c.publicPort := by
  refine assigns_given fun raw => ?_
  cases portNumber c.rt raw with
  | overflow => exact assigns_error
  | rejected => exact assigns_assign
  | ok n => exact assigns_assign

theorem assigns_subId : Assigns link "sub_id" c.subId := by
  refine assigns_given fun newSub => ?_
  split_ifs
  · exact assigns_nothing
  · exact assigns_assign

theorem assigns_log {labelled : Bool} : Assigns link k (c.log labelled) :=
  assigns_ite (fun _ => assigns_error) fun _ => assigns_nothing

/-- The code for a field assigns its entry or none. -/
theorem assigns_block (f : Field) : Assigns link f.target (c.block f link) := by
  cases f with
  | active => exact assigns_active
  | label => exact assigns_given fun _ => assigns_assign
  | note => exact assigns_given fun _ => assigns_assign
  | resetUsage => exact assigns_given fun _ => assigns_ok_ite
  | limitValue => exact assigns_limitValue
  | expiresDays => exact assigns_expiresDays
  | alpn => exact assigns_given fun _ => assigns_ok_ite
  | fingerprint => exact assigns_given fun _ => assigns_assign
  | listenPort => exact assigns_listenPort
  | security => exact assigns_given fun _ => assigns_assign
  | sni => exact assigns_given fun _ => assigns_assign
  | realityPriv => exact assigns_given fun _ => assigns_ok_ite
  | realityPub => exact assigns_given fun _ => assigns_ok_ite
  | realitySid => exact assigns_given fun _ => assigns_assign
  | publicPort => exact assigns_publicPort
  | log => exact assigns_log
  | subId => exact assigns_subId

theorem assigns_outcome (f : Field) : Assigns link f.target (c.outcome link f) := by
  cases f with
  | log => exact assigns_log
  | _ => exact assigns_block _

/-- The entry that a field assigns is its own. -/
theorem outcome_target (f : Field) (w : Change) (e : String × Json)
    (hw : c.outcome link f = .ok w) (he : w.entry = some e) : e.1 = f.target :=
  (assigns_outcome f w hw).target e he

end Assigns

/-! ### What the blocks read -/

section Reads

variable {c : Call} {link link' : Dict String Json}

/-- The entries of the link that the code for a field reads, without the first one. -/
def Field.reads : Field → List String
  | .listenPort => ["listen_port", "protocol"]
  | .log => ["label"]
  | _ => []

theorem block_congr {f : Field} (hf : f ≠ .active)
    (h : ∀ k ∈ f.reads, link'.get? k = link.get? k) : c.block f link' = c.block f link := by
  cases f with
  | active => exact absurd rfl hf
  | listenPort =>
    have hport : read link' "listen_port" = read link "listen_port" := by
      rw [read, read, h "listen_port" (by decide)]
    have hproto : read link' "protocol" = read link "protocol" := by
      rw [read, read, h "protocol" (by decide)]
    unfold Call.block Call.listenPort
    rw [hport, hproto]
  | log =>
    unfold Call.block Dict.contains
    rw [h "label" (by decide)]
  | _ => rfl

/-- The entry that a field assigns is read by no other field but `log`. -/
theorem target_not_read {f g : Field} (hf : f ≠ .log) (hg : g ≠ f) : g.target ∉ f.reads := by
  cases f <;> cases g <;> simp_all [Field.target, Field.reads]

theorem not_mem_pre {f : Field} {pre post : List Field} (h : fields = pre ++ f :: post) :
    f ∉ pre := by
  have hnodup : fields.Nodup := nodup_target.of_map _
  rw [h, List.nodup_middle, List.nodup_cons, List.mem_append, not_or] at hnodup
  exact hnodup.1.1

theorem pre_eq {f : Field} {pre post : List Field} (h : fields = pre ++ f :: post) :
    pre = fields.takeWhile (· ≠ f) := by
  have hall : ∀ g ∈ pre, decide (g ≠ f) = true := by
    intro g hg
    have hne : g ≠ f := fun heq => not_mem_pre h (heq ▸ hg)
    simpa using hne
  rw [h, List.takeWhile_append_of_pos hall, List.takeWhile_cons_of_neg (by simp), List.append_nil]

theorem target_eq_label {g : Field} (h : g.target = "label") : g = .label := by
  revert h
  cases g <;> decide

theorem nodup_keys {pre post : List Field} (h : fields = pre ++ post) :
    ((entries (writes (c.outcome link) pre)).map Prod.fst).Nodup := by
  have hnodup := nodup_target
  rw [h, List.map_append] at hnodup
  exact hnodup.of_append_left.sublist
    (keys_writes_sublist outcome_target)

/-- Before an error the label is assigned exactly when the request gives one. -/
theorem lookup_label {pre post : List Field} (h : fields = pre ++ post) (hlabel : .label ∈ pre)
    (hraised : raised (c.outcome link) pre = none) :
    (Dict.lookupL "label" (entries (writes (c.outcome link) pre))).isSome =
      c.body.contains "label" := by
  rw [Bool.eq_iff_iff, Option.isSome_iff_exists]
  have hout : c.outcome link .label = c.text "label" 60 := rfl
  constructor
  · rintro ⟨v, hv⟩
    obtain ⟨w, hw, he⟩ := List.mem_filterMap.1 ((Dict.lookupL_eq_some (nodup_keys h)).1 hv)
    obtain ⟨g, -, hgw⟩ := mem_writes hw
    have hg : g = .label := target_eq_label (outcome_target g w _ hgw he).symm
    -- without a label in the request the field would have assigned nothing
    rw [hg, hout, Call.text, Call.given] at hgw
    cases hbody : c.body.get? "label" with
    | none =>
      rw [hbody] at hgw
      cases hgw
      cases he
    | some x => rw [Dict.contains, hbody, Option.isSome_some]
  · intro hcontains
    obtain ⟨x, hx⟩ := Option.isSome_iff_exists.1 hcontains
    obtain ⟨w, hw, hlw⟩ := mem_writes_of_raised hraised hlabel
    rw [hout, Call.text, Call.given, hx] at hlw
    cases hlw
    refine ⟨_, (Dict.lookupL_eq_some (nodup_keys h)).2 (List.mem_filterMap.2 ⟨_, hw, rfl⟩)⟩

/-- At the entry in the activity log the link has a label when it had one or is given one. -/
theorem labelled {pre post : List Field} (hpre : fields = pre ++ .log :: post)
    (hraised : raised (c.outcome link) pre = none) :
    (Dict.setAll (entries (writes (c.outcome link) pre)) link).contains "label" =
      (c.body.contains "label" || link.contains "label") := by
  have hlabel : Field.label ∈ pre := by
    rw [pre_eq hpre]
    decide
  rw [Dict.contains, Dict.setAll, Dict.get?_foldl_set (nodup_keys hpre), Option.isSome_or,
    lookup_label hpre hlabel hraised]
  rfl

theorem steady : Steady c.block (c.outcome link) fields link := by
  intro pre f post hfields hraised
  by_cases hactive : f = .active
  · subst hactive
    have hpre : pre = [] := pre_eq hfields
    subst hpre
    rfl
  · by_cases hlog : f = .log
    · subst hlog
      change c.log _ = c.log _
      rw [labelled hfields hraised]
    · have hout : c.outcome link f = c.block f link := by
        cases f with
        | log => exact absurd rfl hlog
        | _ => rfl
      rw [hout]
      refine block_congr hactive fun k hk => ?_
      refine get?_setAll_writes outcome_target fun hmem => ?_
      obtain ⟨g, hg, rfl⟩ := List.mem_map.1 hmem
      exact target_not_read hlog (fun heq => not_mem_pre hfields (heq ▸ hg)) hk

end Reads

/-! ### Failed calls -/

section Atomic

variable {c : Call} {link : Dict String Json}

/-- The blocks of a call, from the link as it is before. -/
theorem run_eq : assignAll c.block fields link =
    (Dict.setAll (entries (writes (c.outcome link) fields)) link,
      (writes (c.outcome link) fields).flatMap Write.effects, raised (c.outcome link) fields) :=
  assignAll_eq steady

theorem unchanged_iff (hget : c.links.get? (.str c.uid) = some (.link link)) :
    c.updateLink.links = c.links ↔
      ∀ w ∈ writes (c.outcome link) fields, ∀ e, w.entry = some e → link.get? e.1 = some e.2 := by
  rw [← setAll_writes_eq_self_iff outcome_target nodup_target]
  have hlinks : c.updateLink.links = c.links.set (.str c.uid)
      (.link (Dict.setAll (entries (writes (c.outcome link) fields)) link)) := by
    unfold Call.updateLink
    simp only [hget, run_eq]
  rw [hlinks]
  constructor
  · intro h
    have hself := congrArg (fun d => d.get? (Json.Key.str c.uid)) h
    simp only [Dict.get?_set_self, hget, Option.some.injEq, Entry.link.injEq] at hself
    exact hself
  · intro h
    rw [h]
    exact Dict.set_eq_self hget

/-- A call without a link raises at once. -/
theorem updateLink_of_no_link (h : ∀ link, c.links.get? (.str c.uid) ≠ some (.link link)) :
    c.updateLink.links = c.links ∧ c.updateLink.effects = [] := by
  unfold Call.updateLink
  cases hget : c.links.get? (.str c.uid) with
  | none => exact ⟨rfl, rfl⟩
  | some entry =>
    cases entry with
    | other v hv => exact ⟨rfl, rfl⟩
    | link link => exact absurd hget (h link)

/-- `update_link` is atomic on failure exactly when it has assigned nothing new by then. -/
theorem atomic_iff (c : Call) :
    (c.updateLink.error ≠ none → c.updateLink.links = c.links ∧ .sync ∉ c.updateLink.effects) ↔
      c.Harmless := by
  by_cases hlink : ∃ link, c.links.get? (.str c.uid) = some (.link link)
  · obtain ⟨link, hget⟩ := hlink
    have heffects : c.updateLink.effects =
        (writes (c.outcome link) fields).flatMap Write.effects := by
      unfold Call.updateLink
      simp only [hget, run_eq]
    have herror : c.updateLink.error = raised (c.outcome link) fields := by
      unfold Call.updateLink
      simp only [hget, run_eq]
    rw [herror, heffects]
    constructor
    · intro h link' hget' hraised
      obtain rfl : link = link' := by
        cases hget.symm.trans hget'
        rfl
      exact (unchanged_iff hget).1 (h hraised).1
    · intro h hraised
      have hthere := h link hget hraised
      refine ⟨(unchanged_iff hget).2 hthere, fun hsync => ?_⟩
      obtain ⟨w, hw, hsync⟩ := List.mem_flatMap.1 hsync
      obtain ⟨f, -, hfw⟩ := mem_writes hw
      obtain ⟨n, hentry, hne⟩ := (assigns_outcome f w hfw).moves hsync
      exact hne (hthere w hw _ hentry)
  · rw [not_exists] at hlink
    obtain ⟨hlinks, heffects⟩ := updateLink_of_no_link hlink
    constructor
    · intro _ link hget
      exact absurd hget (hlink link)
    · intro _ _
      rw [hlinks, heffects]
      exact ⟨rfl, List.not_mem_nil⟩

/-- A request that renames the link `"u"` and gives a limit that is not a number. -/
def renameRequest : Call where
  rt :=
    { repr := fun _ => ""
      intOfStr := fun _ => none
      floatOfStr := fun _ => none
      floatOfInt := fun n => some (.finite n)
      isoAfter := fun _ => none }
  panelPort := 8000
  portInUseByUs := fun _ => false
  links := Dict.set ∅ (.str "u") (.link (Dict.set ∅ "label" (.str "a")))
  uid := "u"
  body := Dict.set (Dict.set ∅ "label" (.str "b")) "limit_value" (.str "x")

/-- The label of a link. -/
def labelOf (links : Dict Json.Key Entry) (uid : String) : Json :=
  match links.get? (.str uid) with
  | some (.link d) => read d "label"
  | _ => .null

/-- The limit is refused, and the link has its new label. -/
theorem refused_limit_renames : ¬ ∀ c : Call, c.updateLink.error ≠ none →
    c.updateLink.links = c.links ∧ .sync ∉ c.updateLink.effects := by
  intro h
  have hlinks := (h renameRequest (by decide +kernel)).1
  have hnew : Json.isText "b" (labelOf renameRequest.updateLink.links "u") = true := by decide +kernel
  have hold : Json.isText "b" (labelOf renameRequest.links "u") = false := by decide +kernel
  rw [hlinks, hold] at hnew
  cases hnew

end Atomic

end Links

end RvgGateway
