import RvgGateway.Lib.Machine
import RvgGateway.Mtproto.Domain
import RvgGateway.Ports.Claims
import RvgGateway.Share.ShareLink

/-!
# FakeTLS links and their processes

The domain of a link stands in two places: behind `-D` in the command line with which
`start_instance` launches the process of the link, and in the secret that `generate_share_link` gives
to the client.  The two are worked out at different times from what is stored: a proxy is started when
its link is created, after a restart of the panel, when the link is switched on or moved to another
port, and for a new ad tag; only some of these write the domain back.

* `startInstance` : `start_instance`, with the command lines that it executes.
* `Life` : a link, its process and the calls that are under way, from the time when it is loaded or
  created until it is deleted or an import of a backup replaces it.
* `Life.Named` : all of them come from one domain.
* `fakeTlsDomain_agrees` : **every process of a link runs with the domain that the link names.**
-/

namespace RvgGateway

namespace Mtproto

open Ports (portOrNone)
open Share (CoreLink ShareConfig ShareLink generateShareLink)

/-! ### `start_instance` -/

/-- What `generate_secret` returns, and the only secrets that a process is started with. -/
abbrev RawSecret := { secret : String // secret.length = 32 }

/-- A domain that `sanitize_domain` returns. -/
structure CleanDomain where
  text : String
  clean : sanitizeDomain text = text

/-- `sanitize_domain`. -/
def CleanDomain.of (raw : String) : CleanDomain :=
  ⟨sanitizeDomain raw, sanitizeDomain_sanitizeDomain raw⟩

/-- An entry of `_instances`, as far as its callers read it. -/
structure ProxyInstance where
  port : ℤ
  secret : RawSecret
  domain : CleanDomain
  /-- `ad_tag`; empty if there is none. -/
  adTag : String

/-- The arguments of `start_instance`; a text that is `None` is empty. -/
structure StartArgs where
  secret : String
  domain : String
  preferredPort : Option ℤ
  forcePort : Bool
  adTag : String

/-- An option of the command line, or a file. -/
inductive Arg where
  | option (name : String) (value : Option String)
  | file (path : String)
  deriving DecidableEq

/-- A command line, without the path of the binary. -/
abbrev Command := List Arg

/-- What the command lines have from the panel. -/
structure Setup where
  maxConn : ℕ
  backendConf : String
  internalIp : String
  externalIp : String
  workers : ℕ

/-- `cmd_base`. -/
def cmdBase (setup : Setup) (aesPwd : String) (port : ℤ) (domain : String) : Command :=
  [.option "-p" (some "2398"), .option "-H" (some (toString port)),
    .option "-C" (some (toString setup.maxConn)), .option "--aes-pwd" (some aesPwd),
    .option "-u" (some "root"), .file setup.backendConf, .option "--allow-skip-dh" none,
    .option "--http-stats" none,
    .option "--nat-info" (some (setup.internalIp ++ ":" ++ setup.externalIp)),
    .option "-M" (some (toString setup.workers))] ++
  if domain ≠ "" then [.option "-D" (some domain)] else []

/-- `tail`. -/
def cmdTail (secret adTag : String) : Command :=
  .option "-S" (some secret) :: if adTag ≠ "" then [.option "-P" (some adTag)] else []

/-- The command lines of the attempts, with IPv6 and without. -/
def attempts (setup : Setup) (aesPwd : String) (port : ℤ) (secret domain adTag : String) :
    List Command :=
  [cmdBase setup aesPwd port domain ++ .option "-6" none :: cmdTail secret adTag,
    cmdBase setup aesPwd port domain ++ cmdTail secret adTag]

/-- An exception that leaves `start_instance`. -/
inductive StartError where
  | runtimeError (exc : String)
  | failed (exc : String)

/-- What `_ensure_aes_pwd_file` meets. -/
structure AesPwdFile where
  path : String
  /-- The file is of a size that the binary takes, and younger than `AES_PWD_MAX_AGE`. -/
  fresh : Bool
  /-- What `mkdir` raises. -/
  directory : Option String
  /-- What the download of the file, or the writing of it, raises. -/
  download : Option String
  /-- Behind that the file is of a size that the binary takes. -/
  usable : Bool

/-- `_ensure_aes_pwd_file`. -/
def ensureAesPwdFile (file : AesPwdFile) : Except StartError String :=
  if file.fresh then .ok file.path
  else
    match file.directory, file.download with
    | some exc, _ => .error (.failed exc)
    | none, none => .ok file.path
    | none, some exc =>
      if file.usable then .ok file.path
      else .error (.runtimeError s!"دریافت proxy-secret از core.telegram.org ناموفق بود: {exc}")

/-- What `start_instance` meets. -/
structure StartWorld where
  /-- `ensure_binary`. -/
  binary : Bool
  /-- `_ensure_backend_conf`. -/
  backendConf : Bool
  /-- `allocate_port_async`. -/
  port : Option ℤ
  /-- `generate_secret`. -/
  generated : RawSecret
  /-- The constants, and what `_detect_ips` returns. -/
  setup : Setup
  aesPwd : AesPwdFile
  /-- The process of this command line is up after `STARTUP_VERIFY_DELAY`. -/
  up : Command → Bool

/-- The loop over the attempts: the command lines that are executed, and whether the last process is
up. -/
def launch (up : Command → Bool) : List Command → List Command × Bool
  | [] => ([], false)
  | cmd :: cmds =>
    if up cmd then ([cmd], true) else (cmd :: (launch up cmds).1, (launch up cmds).2)

/-- The text of the error when there is no port. -/
def noPort (args : StartArgs) : String :=
  match args.forcePort, args.preferredPort with
  | true, some port => s!"پورت {port} در حال حاضر اشغال است"
  | _, _ => "پورت آزادی برای MTProto باقی نمانده"

/-- The secret that a process gets. -/
def rawSecret (w : StartWorld) (secret : String) : RawSecret :=
  if h : secret.length = 32 then ⟨secret, h⟩ else w.generated

/-- `start_instance`, with the command lines that it executes; `existing` is the entry whose process
runs. -/
def startInstance (w : StartWorld) (existing : Option ProxyInstance) (args : StartArgs) :
    Except StartError ProxyInstance × List Command :=
  let domain := CleanDomain.of args.domain
  match existing with
  | some inst => (.ok inst, [])
  | none =>
    if !w.binary then
      (.error (.runtimeError "باینری mtproto-proxy در دسترس نیست (build ناموفق)"), [])
    else if !w.backendConf then
      (.error (.runtimeError "دریافت backend.conf از core.telegram.org ناموفق بود"), [])
    else
      match w.port with
      | none => (.error (.runtimeError (noPort args)), [])
      | some port =>
        let secret := rawSecret w args.secret
        match ensureAesPwdFile w.aesPwd with
        | .error error => (.error error, [])
        | .ok aesPwd =>
          let launched := launch w.up (attempts w.setup aesPwd port secret domain.text args.adTag)
          if launched.2 then (.ok ⟨port, secret, domain, args.adTag⟩, launched.1)
          else
            (.error (.runtimeError "mtproto-proxy در هیچ‌کدام از حالت‌های IPv6/IPv4 بالا نیامد"),
              launched.1)

/-- The value of `-D` in a command line. -/
def passedDomain (cmd : Command) : Option String :=
  cmd.findSome? fun
    | .option "-D" value => value
    | _ => none

theorem mem_launch {up : Command → Bool} {cmd : Command} {cmds : List Command}
    (h : cmd ∈ (launch up cmds).1) : cmd ∈ cmds := by
  induction cmds with
  | nil => exact h
  | cons first cmds ih =>
    rw [launch] at h
    split_ifs at h with hup
    · rw [List.mem_singleton.1 h]
      exact List.mem_cons_self
    · rcases List.mem_cons.1 h with rfl | h
      · exact List.mem_cons_self
      · exact List.mem_cons_of_mem _ (ih h)

theorem passedDomain_append (a b : Command) :
    passedDomain (a ++ b) = (passedDomain a).or (passedDomain b) := List.findSome?_append

/-- The domain stands behind `-D` in the part that all attempts share. -/
theorem passedDomain_cmdBase (setup : Setup) (aesPwd : String) (port : ℤ) (domain : String) :
    passedDomain (cmdBase setup aesPwd port domain) = domainOption domain := by
  unfold cmdBase domainOption
  by_cases hdomain : domain = ""
  · rw [if_neg (not_not.2 hdomain), if_pos hdomain]
    rfl
  · rw [if_pos hdomain, if_neg hdomain]
    rfl

theorem passedDomain_cmdTail (secret adTag : String) :
    passedDomain (cmdTail secret adTag) = none := by
  unfold cmdTail
  split_ifs <;> rfl

/-- The domain stands behind `-D` in all attempts, unless it is empty. -/
theorem passedDomain_of_mem_attempts {setup : Setup} {port : ℤ}
    {aesPwd secret domain adTag : String} {cmd : Command}
    (h : cmd ∈ attempts setup aesPwd port secret domain adTag) :
    passedDomain cmd = domainOption domain := by
  have hipv6 : passedDomain (.option "-6" none :: cmdTail secret adTag) = none :=
    passedDomain_cmdTail secret adTag
  rcases List.mem_cons.1 h with rfl | h
  · rw [passedDomain_append, passedDomain_cmdBase, hipv6, Option.or_none]
  · rw [List.mem_singleton.1 h, passedDomain_append, passedDomain_cmdBase, passedDomain_cmdTail,
      Option.or_none]

/-- What comes out of `start_instance`: the instance that was running, or one with the clean domain;
the command lines have the clean domain too. -/
theorem startInstance_spec (w : StartWorld) (existing : Option ProxyInstance) (args : StartArgs) :
    (∀ inst, (startInstance w existing args).1 = .ok inst →
      existing = some inst ∨ inst.domain.text = sanitizeDomain args.domain) ∧
    ∀ cmd ∈ (startInstance w existing args).2,
      passedDomain cmd = domainOption (sanitizeDomain args.domain) := by
  unfold startInstance
  dsimp only
  cases existing with
  | some running =>
    refine ⟨fun inst h => ?_, nofun⟩
    cases h
    exact .inl rfl
  | none =>
    dsimp only
    split_ifs with hbinary hconf
    · exact ⟨nofun, nofun⟩
    · exact ⟨nofun, nofun⟩
    · cases w.port with
      | none => exact ⟨nofun, nofun⟩
      | some port =>
        cases ensureAesPwdFile w.aesPwd with
        | error error => exact ⟨nofun, nofun⟩
        | ok aesPwd =>
          dsimp only
          split_ifs with hup
          · refine ⟨fun inst h => ?_, fun cmd h => passedDomain_of_mem_attempts (mem_launch h)⟩
            cases h
            exact .inr rfl
          · exact ⟨nofun, fun cmd h => passedDomain_of_mem_attempts (mem_launch h)⟩

/-! ### The life of a link -/

/-- A link of the proxy, with its ad tag, which is empty if there is none. -/
structure MtprotoLink extends CoreLink where
  adTag : String
  isMtproto : protocol = "mtproto"

/-- The callers of `start_instance`. -/
inductive Caller where
  /-- `_create_link_core`, with the domain in the body of the request. -/
  | create (rawDomain : String)
  /-- `_restart_mtproto_instances`. -/
  | restart
  /-- `update_link`, when the link is switched on. -/
  | activate
  /-- `update_link`, when the link gets another port. -/
  | movePort
  /-- `_update_mtproto_ad_tag`, in its first or in its second call. -/
  | adTag (tag : String) (retry : Bool)

/-- The arguments of the call for a link; for `create`, the link is the record so far. -/
def Caller.args (link : MtprotoLink) : Caller → StartArgs
  | .create rawDomain =>
    ⟨"", sanitizeDomain (Str.strip rawDomain), portOrNone link.listenPort, link.listenPort ≠ 0, ""⟩
  | .restart =>
    ⟨link.mtprotoSecret, link.mtprotoDomain, portOrNone link.mtprotoPort, link.listenPort ≠ 0,
      link.adTag⟩
  | .activate =>
    ⟨link.mtprotoSecret, link.mtprotoDomain,
      (portOrNone link.listenPort).or (portOrNone link.mtprotoPort), link.listenPort ≠ 0, link.adTag⟩
  | .movePort =>
    ⟨link.mtprotoSecret, link.mtprotoDomain, portOrNone link.listenPort, link.listenPort ≠ 0,
      link.adTag⟩
  | .adTag tag false =>
    ⟨link.mtprotoSecret, link.mtprotoDomain, portOrNone link.mtprotoPort, true, tag⟩
  | .adTag tag true => ⟨link.mtprotoSecret, link.mtprotoDomain, none, false, tag⟩

/-- The caller reads the stored link and gets as far as its first call; `_restart_mtproto_instances`
takes the record first, and reads it at its turn. -/
def Caller.calls (link : MtprotoLink) : Caller → Bool
  | .create _ => false
  | .restart => false
  | .activate => link.active
  | .movePort => true
  | .adTag _ retry => link.mtprotoSecret ≠ "" && !retry

/-- The port and the secret of an instance are entered into its link. -/
def MtprotoLink.enter (link : MtprotoLink) (inst : ProxyInstance) : MtprotoLink :=
  { link with
    mtprotoPort := inst.port
    mtprotoSecret := inst.secret
    listenPort := if link.listenPort ≠ 0 then inst.port else link.listenPort }

/-- A call of `start_instance` that is under way. -/
structure Call where
  caller : Caller
  /-- The link as the caller has read it. -/
  link : MtprotoLink
  /-- What `start_instance` has returned. -/
  result : Option ProxyInstance

/-- The arguments of a call. -/
def Call.args (call : Call) : StartArgs := call.caller.args call.link

/-- A link from the time when it is loaded or created. -/
structure Life where
  /-- The record of the link; who holds it has it also behind the deletion. -/
  record : Option MtprotoLink
  /-- The record is in `LINKS`. -/
  listed : Bool
  /-- The runs of `_restart_mtproto_instances` that hold the record and have not come to it yet. -/
  targets : ℕ
  /-- The entry in `_instances`, while its process runs. -/
  running : Option ProxyInstance
  calls : List Call
  /-- The command lines that were executed for the link. -/
  launched : List Command

/-- The entry in `LINKS`. -/
def Life.link (s : Life) : Option MtprotoLink := if s.listed then s.record else none

/-- A change of the entry in `LINKS`. -/
def Life.modify (s : Life) (f : MtprotoLink → MtprotoLink) : Life :=
  { s with record := if s.listed then s.record.map f else s.record }

/-- A link that is loaded, or comes with a backup; no process runs. -/
def Life.stored (link : MtprotoLink) : Life := ⟨some link, true, 0, none, [], []⟩

/-- A link that is being created. -/
def Life.created (link : MtprotoLink) (rawDomain : String) : Life :=
  ⟨none, false, 0, none, [⟨.create rawDomain, link, none⟩], []⟩

/-- The beginning of a life. -/
inductive Life.Begins : Life → Prop
  | stored (link : MtprotoLink) : Begins (.stored link)
  | created (link : MtprotoLink) (rawDomain : String) : Begins (.created link rawDomain)

/-- What happens to a link. -/
inductive Event where
  /-- `_restart_mtproto_instances` takes the record into its `targets`. -/
  | target
  /-- It comes to the record, reads it and calls. -/
  | turn
  /-- Another caller reads the link. -/
  | call (caller : Caller)
  /-- The start of this call comes to its end. -/
  | start (i : ℕ) (w : StartWorld)
  /-- This call enters what it got. -/
  | enter (i : ℕ)
  /-- The process ends, or `stop_instance` ends it. -/
  | ended
  /-- Another request changes other fields of the link. -/
  | edit (link : MtprotoLink)
  | delete

/-- A start has failed: the second call of `_update_mtproto_ad_tag`, or the end of the call. -/
def Life.failed (s : Life) (i : ℕ) (call : Call) (error : StartError) : Life :=
  match call.caller, error with
  | .adTag tag false, .runtimeError _ =>
    { s with calls := s.calls.set i { call with caller := .adTag tag true } }
  | .activate, _ =>
    { s with calls := s.calls.eraseIdx i }.modify fun link => { link with active := false }
  | _, _ => { s with calls := s.calls.eraseIdx i }

/-- A start has come to its end. -/
def Life.start (s : Life) (i : ℕ) (call : Call) (w : StartWorld) : Life :=
  let outcome := startInstance w s.running call.args
  let s := { s with launched := s.launched ++ outcome.2 }
  match outcome.1 with
  | .ok inst =>
    { s with running := some inst, calls := s.calls.set i { call with result := some inst } }
  | .error error => s.failed i call error

/-- A caller enters what it got. -/
def Life.enter (s : Life) (call : Call) (inst : ProxyInstance) : Life :=
  match call.caller with
  | .create _ =>
    { s with
      record := some { call.link.enter inst with mtprotoDomain := inst.domain.text }
      listed := true }
  | .adTag tag _ =>
    match s.link with
    | none => { s with running := none }
    | some _ =>
      s.modify fun link =>
        { link with
          mtprotoPort := inst.port
          mtprotoSecret := inst.secret
          mtprotoDomain := inst.domain.text
          adTag := tag }
  | _ => s.modify (MtprotoLink.enter · inst)

/-- The steps in the life of a link. -/
def life : Machine Life Event where
  step s
    | .target =>
      match s.link with
      | some link => if link.active then some { s with targets := s.targets + 1 } else none
      | none => none
    | .turn =>
      match s.targets, s.record with
      | targets + 1, some link =>
        some { s with targets := targets, calls := s.calls ++ [⟨.restart, link, none⟩] }
      | _, _ => none
    | .call caller =>
      match s.link with
      | some link =>
        if caller.calls link then some { s with calls := s.calls ++ [⟨caller, link, none⟩] } else none
      | none => none
    | .start i w =>
      match s.calls[i]? with
      | some ⟨caller, link, none⟩ => some (s.start i ⟨caller, link, none⟩ w)
      | _ => none
    | .enter i =>
      match s.calls[i]? with
      | some ⟨caller, link, some inst⟩ =>
        some (Life.enter { s with calls := s.calls.eraseIdx i } ⟨caller, link, some inst⟩ inst)
      | _ => none
    | .ended => some { s with running := none }
    | .edit link' =>
      match s.link with
      | some link =>
        if link'.mtprotoPort = link.mtprotoPort ∧ link'.mtprotoSecret = link.mtprotoSecret ∧
            link'.mtprotoDomain = link.mtprotoDomain then
          some { s with record := some link' }
        else none
      | none => none
    | .delete => some { s with listed := false }

/-! ### One domain for a whole life -/

section Named

variable {d : String} {s t : Life} {call : Call} {inst : ProxyInstance}

/-- The call is for the domain `d`. -/
structure Call.Named (d : String) (call : Call) : Prop where
  args : sanitizeDomain call.args.domain = d
  result : ∀ inst ∈ call.result, inst.domain.text = d

/-- The link, its process, the calls and the command lines have the domain `d`, once it is clean. -/
structure Life.Named (d : String) (s : Life) : Prop where
  record : ∀ link ∈ s.record, sanitizeDomain link.mtprotoDomain = d
  running : ∀ inst ∈ s.running, inst.domain.text = d
  calls : ∀ call ∈ s.calls, call.Named d
  launched : ∀ cmd ∈ s.launched, passedDomain cmd = domainOption d

theorem Life.mem_record {link : MtprotoLink} (h : link ∈ s.link) : link ∈ s.record := by
  unfold Life.link at h
  split_ifs at h
  · exact h
  · cases h

theorem Life.Named.link (hs : s.Named d) : ∀ link ∈ s.link, sanitizeDomain link.mtprotoDomain = d :=
  fun link h => hs.record link (Life.mem_record h)

/-- A change that keeps the domain of the entry. -/
theorem Life.Named.modify (hs : s.Named d) {f : MtprotoLink → MtprotoLink}
    (hf : ∀ link, sanitizeDomain link.mtprotoDomain = d →
      sanitizeDomain (f link).mtprotoDomain = d) : (s.modify f).Named d := by
  refine ⟨fun link hlink => ?_, hs.running, hs.calls, hs.launched⟩
  unfold Life.modify at hlink
  dsimp only at hlink
  split_ifs at hlink
  · obtain ⟨old, hold, rfl⟩ := Option.map_eq_some_iff.1 hlink
    exact hf old (hs.record old hold)
  · exact hs.record link hlink

theorem Life.Begins.named (h : s.Begins) : ∃ d, s.Named d := by
  cases h with
  | stored link =>
    refine ⟨sanitizeDomain link.mtprotoDomain, ?_, fun inst h => absurd h (Option.not_mem_none inst),
      fun call h => absurd h List.not_mem_nil, fun cmd h => absurd h List.not_mem_nil⟩
    rintro link' ⟨⟩
    rfl
  | created link rawDomain =>
    refine ⟨sanitizeDomain (Str.strip rawDomain), fun link h => absurd h (Option.not_mem_none link),
      fun inst h => absurd h (Option.not_mem_none inst), ?_, fun cmd h => absurd h List.not_mem_nil⟩
    intro call hcall
    rw [List.mem_singleton.1 hcall]
    refine ⟨?_, fun inst h => absurd h (Option.not_mem_none inst)⟩
    rw [Call.args, Caller.args, sanitizeDomain_sanitizeDomain]

/-- The callers that come to a stored link pass its domain on as it is stored. -/
theorem Caller.args_domain {caller : Caller} {link : MtprotoLink}
    (h : caller.calls link = true) : (caller.args link).domain = link.mtprotoDomain := by
  cases caller with
  | create rawDomain => cases h
  | restart => rfl
  | activate => rfl
  | movePort => rfl
  | adTag tag retry => cases retry <;> rfl

theorem Life.Named.calls_set (hs : s.Named d) {i : ℕ} (hcall : call.Named d) :
    ∀ call' ∈ s.calls.set i call, call'.Named d := by
  intro call' hmem
  rcases List.mem_or_eq_of_mem_set hmem with h | rfl
  · exact hs.calls call' h
  · exact hcall

theorem Life.Named.calls_eraseIdx (hs : s.Named d) (i : ℕ) :
    ∀ call' ∈ s.calls.eraseIdx i, call'.Named d :=
  fun call' hmem => hs.calls call' ((List.eraseIdx_sublist s.calls i).subset hmem)

theorem Life.Named.failed (hs : s.Named d) (hcall : call.Named d) (i : ℕ) (error : StartError) :
    (s.failed i call error).Named d := by
  obtain ⟨caller, link, result⟩ := call
  have herase : ({ s with calls := s.calls.eraseIdx i } : Life).Named d :=
    ⟨hs.record, hs.running, hs.calls_eraseIdx i, hs.launched⟩
  unfold Life.failed
  dsimp only
  split
  · rename_i tag exc
    exact ⟨hs.record, hs.running, hs.calls_set ⟨hcall.args, hcall.result⟩, hs.launched⟩
  · exact herase.modify fun _ h => h
  · exact herase

theorem Life.Named.start (hs : s.Named d) (hcall : call.Named d) (i : ℕ) (w : StartWorld) :
    (s.start i call w).Named d := by
  obtain ⟨hinst, hcmds⟩ := startInstance_spec w s.running call.args
  rw [hcall.args] at hinst hcmds
  have hs' : ({ s with launched := s.launched ++ (startInstance w s.running call.args).2 } :
      Life).Named d := by
    refine ⟨hs.record, hs.running, hs.calls, fun cmd hcmd => ?_⟩
    exact (List.mem_append.1 hcmd).elim (hs.launched cmd) (hcmds cmd)
  unfold Life.start
  dsimp only
  cases hout : (startInstance w s.running call.args).1 with
  | error error => exact hs'.failed hcall i error
  | ok inst =>
    have hdomain : inst.domain.text = d := (hinst inst hout).elim (hs.running inst) id
    refine ⟨hs.record, ?_, hs.calls_set ⟨hcall.args, ?_⟩, hs'.launched⟩
    · rintro inst' ⟨⟩
      exact hdomain
    · rintro inst' ⟨⟩
      exact hdomain

/-- What is entered is the domain of the instance, or no domain at all. -/
theorem Life.Named.enter (hs : s.Named d) (call : Call) (hinst : inst.domain.text = d) :
    (s.enter call inst).Named d := by
  have hclean : sanitizeDomain inst.domain.text = d := inst.domain.clean.trans hinst
  obtain ⟨caller, link, result⟩ := call
  unfold Life.enter
  dsimp only
  split
  · refine ⟨?_, hs.running, hs.calls, hs.launched⟩
    rintro link' ⟨⟩
    exact hclean
  · split
    · exact ⟨hs.record, fun inst h => absurd h (Option.not_mem_none inst), hs.calls, hs.launched⟩
    · exact hs.modify fun _ _ => hclean
  · exact hs.modify fun _ h => h

/-- **One step**: whatever happens to a link, the domain stays the same. -/
theorem Life.Named.step {e : Event} (hs : s.Named d) (h : life.step s e = some t) : t.Named d := by
  cases e with
  | target =>
    simp only [life] at h
    split at h
    · split_ifs at h
      cases h
      exact ⟨hs.record, hs.running, hs.calls, hs.launched⟩
    · cases h
  | turn =>
    simp only [life] at h
    split at h
    · rename_i link _ hlink
      cases h
      refine ⟨hs.record, hs.running, fun call hmem => ?_, hs.launched⟩
      rcases List.mem_append.1 hmem with hmem | hmem
      · exact hs.calls call hmem
      · rw [List.mem_singleton.1 hmem]
        exact ⟨hs.record link hlink, fun inst h => absurd h (Option.not_mem_none inst)⟩
    · cases h
  | call caller =>
    simp only [life] at h
    split at h
    · rename_i link hlink
      split_ifs at h with hcalls
      cases h
      refine ⟨hs.record, hs.running, fun call hmem => ?_, hs.launched⟩
      rcases List.mem_append.1 hmem with hmem | hmem
      · exact hs.calls call hmem
      · rw [List.mem_singleton.1 hmem]
        refine ⟨?_, fun inst h => absurd h (Option.not_mem_none inst)⟩
        rw [Call.args, Caller.args_domain hcalls]
        exact hs.link link hlink
    · cases h
  | start i w =>
    simp only [life] at h
    split at h
    · rename_i caller link hcall
      cases h
      exact hs.start (hs.calls _ (List.mem_of_getElem? hcall)) i w
    · cases h
  | enter i =>
    simp only [life] at h
    split at h
    · rename_i caller link inst hcall
      cases h
      have herase : ({ s with calls := s.calls.eraseIdx i } : Life).Named d :=
        ⟨hs.record, hs.running, hs.calls_eraseIdx i, hs.launched⟩
      exact herase.enter _ ((hs.calls _ (List.mem_of_getElem? hcall)).result inst rfl)
    · cases h
  | ended =>
    cases h
    exact ⟨hs.record, fun inst h => absurd h (Option.not_mem_none inst), hs.calls, hs.launched⟩
  | edit link' =>
    simp only [life] at h
    split at h
    · rename_i link hlink
      split_ifs at h with hkept
      cases h
      refine ⟨?_, hs.running, hs.calls, hs.launched⟩
      rintro link'' ⟨⟩
      rw [hkept.2.2]
      exact hs.link link hlink
    · cases h
  | delete =>
    cases h
    exact ⟨hs.record, hs.running, hs.calls, hs.launched⟩

theorem Life.Named.reaches (h : life.Reaches s t) (hs : s.Named d) : t.Named d :=
  h.invariant (fun _ _ _ hs h => hs.step h) hs

end Named

/-! ### The secret in the text of a link -/

/-- A panel with this MTProto module; `generate_share_link` cleans the stored domain before it calls
`generate_mtproto_link`. -/
def withMtproto (c : ShareConfig) : ShareConfig where
  port := c.port
  tls := c.tls
  clientSecret secret domain := clientSecret secret (sanitizeDomain domain)

/-- `generate_share_link` of an MTProto link. -/
def mtprotoShareLink (c : ShareConfig) (link : MtprotoLink) (uuid host remark : String) : ShareLink :=
  generateShareLink (withMtproto c) link.toCoreLink uuid host remark "mtproto"

/-- The parameter `secret` of a link. -/
def linkSecret : ShareLink → String
  | .url u => ((u.params.find? fun p => p.key = "secret").map Share.Param.value).getD ""
  | .vmess _ => ""

section LinkSecret

variable (c : ShareConfig) {link : MtprotoLink} (uuid host remark : String)

theorem linkSecret_ready (hsecret : link.mtprotoSecret ≠ "") (hport : link.mtprotoPort ≠ 0) :
    linkSecret (mtprotoShareLink c link uuid host remark) =
      clientSecret link.mtprotoSecret (sanitizeDomain link.mtprotoDomain) := by
  unfold mtprotoShareLink generateShareLink
  dsimp only
  rw [if_pos rfl, if_neg (by simp [hsecret, hport])]
  rfl

/-- A link without a secret or without a port has no secret to tell yet. -/
theorem linkSecret_notReady (h : link.mtprotoSecret = "" ∨ link.mtprotoPort = 0) :
    linkSecret (mtprotoShareLink c link uuid host remark) = "not_ready" := by
  unfold mtprotoShareLink generateShareLink
  dsimp only
  rw [if_pos rfl, if_pos (by simpa using h)]
  rfl

end LinkSecret

/-- A link as it is stored before its proxy has been started for the first time. -/
def freshLink (domain : String) : MtprotoLink where
  protocol := "mtproto"
  core := some "unicorn"
  listenPort := 0
  active := true
  expiresAt := .never
  limitBytes := 0
  usedBytes := 0
  publicPort := 0
  alpn := "h2"
  fingerprint := "chrome"
  flow := ""
  sniffing := true
  security := ""
  sni := ""
  tlsCert := ""
  tlsKey := ""
  realityPriv := ""
  realityPub := ""
  realitySid := ""
  realityDest := ""
  ssCipher := none
  ssPassword := ""
  mtprotoPort := 0
  mtprotoSecret := ""
  mtprotoDomain := domain
  adTag := ""
  isMtproto := rfl

/-- Everything works, on the first port of the range. -/
def quietWorld : StartWorld where
  binary := true
  backendConf := true
  port := some 8500
  generated := ⟨"0123456789abcdef0123456789abcdef", by decide⟩
  setup := ⟨60000, "backend.conf", "10.0.0.2", "192.0.2.1", 1⟩
  aesPwd := ⟨"aes_pwd", true, none, none, true⟩
  up _ := true

/-- **Every process of a link runs with the domain that the link names**, as soon as the link has a
secret and a port; until then the text of the link has no secret. -/
theorem fakeTlsDomain_agrees :
    (∀ raw, sanitizeDomain (sanitizeDomain raw) = sanitizeDomain raw) ∧
    (∀ raw, sanitizeDomain raw = "" ∨ Hostname (sanitizeDomain raw)) ∧
    ∀ (c : ShareConfig) (uuid host remark : String) (first now : Life), first.Begins →
      life.Reaches first now → ∀ link ∈ now.link,
        let secret := linkSecret (mtprotoShareLink c link uuid host remark)
        (link.mtprotoSecret = "" ∨ link.mtprotoPort = 0 → secret = "not_ready") ∧
        (link.mtprotoSecret ≠ "" → link.mtprotoPort ≠ 0 → ∀ cmd ∈ now.launched,
          passedDomain cmd = eeDomain link.mtprotoSecret.length secret ∧
            (hasDdForm secret = true ↔ passedDomain cmd = none)) := by
  refine ⟨sanitizeDomain_sanitizeDomain, sanitizeDomain_eq, ?_⟩
  intro c uuid host remark first now hfirst hreach link hlink
  refine ⟨linkSecret_notReady c uuid host remark, fun hsecret hport cmd hcmd => ?_⟩
  obtain ⟨d, hd⟩ := hfirst.named
  have hnow := hd.reaches hreach
  obtain ⟨hread, hform⟩ := eeDomain_clientSecret link.mtprotoSecret link.mtprotoDomain
  rw [hnow.link link hlink] at hread hform
  rw [linkSecret_ready c uuid host remark hsecret hport, hnow.link link hlink,
    hnow.launched cmd hcmd]
  refine ⟨hread.symm, hform.trans ?_⟩
  unfold domainOption
  by_cases hempty : d = ""
  · rw [if_pos hempty]
    exact iff_of_true hempty rfl
  · rw [if_neg hempty]
    exact iff_of_false hempty (Option.some_ne_none d)

/-- A link is created with the address of a page in the place of a domain. -/
theorem fakeTlsDomain_agrees_created :
    ∃ now, life.Reaches (.created (freshLink "") " https://www.Example.org/index") now ∧
      ∃ link ∈ now.link, ∃ cmd ∈ now.launched, passedDomain cmd = some "www.example.org" ∧
        passedDomain cmd = eeDomain link.mtprotoSecret.length
          (linkSecret (mtprotoShareLink ⟨443, true, fun _ _ => ""⟩ link "a" "example.net" "b")) := by
  let first := Life.created (freshLink "") " https://www.Example.org/index"
  let events : List Event := [.start 0 quietWorld, .enter 0]
  obtain ⟨now, hnow⟩ := Option.isSome_iff_exists.1
    (by decide +kernel : (life.run first events).isSome = true)
  have hend : (life.run first events).map (fun s =>
      (s.link.map fun link => (link.mtprotoSecret, link.mtprotoPort), s.launched.map passedDomain)) =
        some (some ("0123456789abcdef0123456789abcdef", 8500), [some "www.example.org"]) := by
    decide +kernel
  rw [hnow, Option.map_some, Option.some.injEq, Prod.mk.injEq] at hend
  obtain ⟨hlinks, hcmds⟩ := hend
  obtain ⟨link, hlink, hfields⟩ := Option.map_eq_some_iff.1 hlinks
  obtain ⟨hsecret, hport⟩ := Prod.mk.inj hfields
  obtain ⟨cmd, hcmd, hpassed⟩ := List.mem_map.1 (hcmds ▸ List.mem_singleton_self _)
  obtain ⟨-, hready⟩ := fakeTlsDomain_agrees.2.2 ⟨443, true, fun _ _ => ""⟩ "a" "example.net" "b" first
    now (.created _ _) ⟨events, hnow⟩ link hlink
  refine ⟨now, ⟨events, hnow⟩, link, hlink, cmd, hcmd, hpassed, ?_⟩
  exact (hready (by rw [hsecret]; decide) (by rw [hport]; decide) cmd hcmd).1

/-- The link of a proxy that has been launched, but whose secret is still to be entered, names no
domain. -/
theorem fakeTlsDomain_notReady :
    ¬ ∀ (c : ShareConfig) (uuid host remark : String) (first now : Life), first.Begins →
      life.Reaches first now → ∀ link ∈ now.link, ∀ cmd ∈ now.launched,
        let secret := linkSecret (mtprotoShareLink c link uuid host remark)
        passedDomain cmd = eeDomain link.mtprotoSecret.length secret ∧
          (hasDdForm secret = true ↔ passedDomain cmd = none) := by
  let events : List Event := [.target, .turn, .start 0 quietWorld]
  intro h
  obtain ⟨now, hnow⟩ := Option.isSome_iff_exists.1
    (by decide +kernel : (life.run (.stored (freshLink "www.example.org")) events).isSome = true)
  have hend : (life.run (.stored (freshLink "www.example.org")) events).map (fun s =>
      (s.link.map fun link => link.mtprotoSecret, s.launched.map passedDomain)) =
        some (some "", [some "www.example.org"]) := by
    decide +kernel
  rw [hnow, Option.map_some, Option.some.injEq, Prod.mk.injEq] at hend
  obtain ⟨hlinks, hcmds⟩ := hend
  obtain ⟨link, hlink, hsecret⟩ := Option.map_eq_some_iff.1 hlinks
  obtain ⟨cmd, hcmd, hpassed⟩ := List.mem_map.1 (hcmds ▸ List.mem_singleton_self _)
  obtain ⟨hdomain, -⟩ := h ⟨443, true, fun _ _ => ""⟩ "" "" "" _ now (.stored _) ⟨events, hnow⟩ link
    hlink cmd hcmd
  have hnone : eeDomain "".length "not_ready" = none := by decide +kernel
  rw [linkSecret_notReady _ _ _ _ (.inl hsecret), hpassed, hsecret, hnone] at hdomain
  cases hdomain

end Mtproto

end RvgGateway
