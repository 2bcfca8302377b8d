import RvgGateway.State.Loading

/-!
# The detected host and the state file

`CONFIG["host"]` holds the host that the administrator has set, and in its absence the address that
`_auto_detect_host` finds.  `save_state` writes whatever it holds, and `load_state` of the next
process takes it from the file.

* `hostMachine` : one panel over its restarts, with `save_state` cut at its awaits.
* `HostState.Unpersisted` : what the docstring of `_auto_detect_host` promises.
* `Kept` : no copy that was taken while the host was a detected one reaches the file.
* `unpersisted_of_kept` : **a run of such steps keeps the promise.**

Processes run without `RVG_HOST` and without `--host`.
-/

namespace RvgGateway

namespace State

/-! ### The functions -/

/-- The end of `_auto_detect_host`'s search: the first clean address among the answers of the
services, else the address of a socket, else nothing.  `isdigit` is `str.isdigit`. -/
def detectHost (isdigit : String → Bool) (socket : Option String) : List (Option String) → String
  | [] => socket.getD ""
  | answer :: answers =>
    let ip := Str.strip (answer.getD "")
    if ip ≠ "" ∧ isdigit (Str.remove "." ip) ∧ ip.toList.count '.' = 3 then ip
    else detectHost isdigit socket answers

/-- What `set_server_settings` raises. -/
inductive SettingsError where
  /-- `HTTPException(status_code=400)`. -/
  | badRequest (detail : String)
  /-- `int` of a number out of range. -/
  | overflow

/-- The host of a request as `set_server_settings` writes it. -/
def normalizeHost (s : String) : String :=
  Str.remove "https://" (Str.remove "http://" (Str.rstrip '/' (Str.strip s)))

/-- The host of a request, if it has one, in `CONFIG["host"]`. -/
def setHost (env : Environment) (body : Json) (m : Memory) : Except SettingsError Memory :=
  match body.get? "host" with
  | none => .ok m
  | some v =>
    if env.rvgHost ≠ "" then .error (.badRequest "دامنه با متغیر محیطی RVG_HOST قفل شده است")
    else
      let host := normalizeHost (env.str (orElse v (.str "")))
      if host ≠ "" ∧ (Str.contains "/" host ∨ Str.contains " " host) then
        .error (.badRequest "دامنه نامعتبر است")
      else .ok { m with host := Str.take 253 host }

/-- The range of ports of a request. -/
def setPortRange (env : Environment) (body : Json) (m : Memory) : Memory × Option SettingsError :=
  match body.get? "port_range" with
  | some (.arr [lo, hi]) =>
    match lo.toInt env.intOfStr with
    | .overflow => (m, some .overflow)
    | .rejected => (m, some (.badRequest "بازه‌ی پورت نامعتبر است"))
    | .ok lo =>
      match hi.toInt env.intOfStr with
      | .overflow => (m, some .overflow)
      | .rejected => (m, some (.badRequest "بازه‌ی پورت نامعتبر است"))
      | .ok hi =>
        if 1 ≤ lo ∧ lo ≤ hi ∧ hi ≤ 65535 then ({ m with portRange := (lo, hi) }, none)
        else (m, some (.badRequest "بازه‌ی پورت نامعتبر است"))
  | _ => (m, none)

/-- `set_server_settings` with an object for a body, up to its save.  What it has set before it
raises stays set. -/
def setServerSettings (env : Environment) (body : Json) (m : Memory) :
    Memory × Option SettingsError :=
  match setHost env body m with
  | .error e => (m, some e)
  | .ok m =>
    let m :=
      match body.get? "tls" with
      | some v => if env.rvgTls = "" then { m with tls := v.truthy } else m
      | none => m
    setPortRange env body m

/-- The host in the text of a state file. -/
def fileHost (data : Json) : Option String :=
  match (data.getD "server_settings" .null).getD "host" .null with
  | .str host => some host
  | _ => none

/-! ### Runs -/

/-- The copy of a `save_state` that is writing, with the `stored` and `found` of its moment. -/
structure HostCopy where
  file : StateFile
  stored : Option String
  found : Bool

/-- The panel, its file, and what became of the hosts that the administrator set. -/
structure HostState where
  env : Environment
  memory : Memory
  /-- `_auto_detect_host` is searching. -/
  detecting : Bool
  saving : Option HostCopy
  /-- What the last `save_state` left in `DATA_FILE`. -/
  file : Option StateFile
  /-- The host that the administrator set last; no step reads it. -/
  stored : Option String
  /-- The `stored` of the copy in the file; no step reads it. -/
  fileStored : Option String
  /-- `CONFIG["host"]` was assigned by `_auto_detect_host`; no step reads it. -/
  found : Bool

/-- What happens. -/
inductive HostEvent where
  /-- The process ends, and another one starts and runs `load_state` on a file with this content. -/
  | restart (env : Environment) (readable : Bool) (data : Json)
  /-- `_auto_detect_host` begins. -/
  | detect
  /-- The search of `_auto_detect_host` ends. -/
  | detected (isdigit : String → Bool) (socket : Option String) (answers : List (Option String))
  /-- `set_server_settings`, up to its save. -/
  | settings (body : Json)
  /-- Other requests and tasks leave this memory. -/
  | request (after : Memory)
  /-- A `save_state` gets the lock and copies the state. -/
  | copy
  /-- It replaces the file, or raises. -/
  | replace (ok : Bool)

namespace HostState

/-- A new installation when its first process has run `load_state`. -/
def start (env : Environment) : HostState where
  env := env
  memory := (loadState env true .absent (fresh env)).1
  detecting := false
  saving := none
  file := none
  stored := none
  fileStored := none
  found := false

/-- The file as the next process finds it. -/
def dataFile (s : HostState) (data : Json) : DataFile := if s.file.isSome then .json data else .absent

/-- The state after `load_state` of a new process. -/
def boot (s : HostState) (env : Environment) (readable : Bool) (data : Json) : HostState where
  __ := s
  env := env
  memory := (loadState env readable (s.dataFile data) (fresh env)).1
  detecting := false
  saving := none
  stored := s.fileStored
  found := false

end HostState

/-- One panel over its restarts. -/
def hostMachine : Machine HostState HostEvent where
  step s
    | .restart env readable data =>
      if env.rvgHost = "" ∧ ∀ f ∈ s.file, fileHost data = some f.serverSettings.host then
        some (s.boot env readable data)
      else none
    | .detect => some { s with detecting := s.detecting || Str.strip s.memory.host = "" }
    | .detected isdigit socket answers =>
      let ip := detectHost isdigit socket answers
      if !s.detecting then none
      else if ip ≠ "" ∧ Str.strip s.memory.host = "" then
        some { s with detecting := false, memory := { s.memory with host := ip }, found := true }
      else some { s with detecting := false }
    | .settings body =>
      let memory := (setServerSettings s.env body s.memory).1
      if (body.get? "host").isSome ∧ (setHost s.env body s.memory).isOk then
        some { s with memory, stored := some memory.host, found := false }
      else some { s with memory }
    | .request after => if after.host = s.memory.host then some { s with memory := after } else none
    | .copy =>
      match s.saving with
      | none => some { s with saving := some ⟨saveState s.memory, s.stored, s.found⟩ }
      | some _ => none
    | .replace ok =>
      match s.saving with
      | none => none
      | some copy =>
        if ok then some { s with saving := none, file := some copy.file, fileStored := copy.stored }
        else some { s with saving := none }

/-- What the docstring promises: the file holds no host or the one that the administrator stored,
and without a stored host the next process takes up whatever address is detected then. -/
structure HostState.Unpersisted (s : HostState) : Prop where
  file : ∀ f, s.file = some f →
    f.serverSettings.host = "" ∨ s.fileStored = some f.serverSettings.host
  renewed : s.fileStored.getD "" = "" → ∀ env readable data isdigit socket answers s',
    hostMachine.run s [.restart env readable data, .detect, .detected isdigit socket answers] =
      some s' → s'.memory.host = detectHost isdigit socket answers

/-- The step writes no detected host to the file, and sets no host that `strip` would change, as
`load_state` does. -/
def Kept (s : HostState) : HostEvent → Prop
  | .replace true => ∀ copy, s.saving = some copy → copy.found = false
  | .settings body => ∀ m, setHost s.env body s.memory = .ok m → (body.get? "host").isSome = true →
      Str.strip m.host = m.host
  | _ => True

/-! ### The host that is loaded -/

/-- A file with a host has settings. -/
theorem settings_of_fileHost {data : Json} {host : String} (h : fileHost data = some host) :
    orElse (data.getD "server_settings" .null) (.obj []) = data.getD "server_settings" .null ∧
      (data.getD "server_settings" .null).getD "host" .null = .str host := by
  have hhost : (data.getD "server_settings" .null).getD "host" .null = .str host := by
    unfold fileHost at h
    split at h
    · cases h
      assumption
    · cases h
  refine ⟨if_pos ?_, hhost⟩
  cases hget : (data.getD "server_settings" .null).get? "host" with
  | none =>
    rw [Json.getD, hget] at hhost
    cases hhost
  | some v => exact truthy_of_get? hget

section Load

variable {env : Environment} (henv : env.rvgHost = "")
include henv

/-- A stage of `load_state` leaves the host as it is, or takes over the one in the file. -/
theorem host_loadPart {data : Json} {host : String} (hdata : fileHost data = some host)
    {readable : Bool} (p : Part) {m : Memory} (hm : m.host = "" ∨ m.host = Str.strip host) :
    (loadPart env readable data p m).1.host = "" ∨
      (loadPart env readable data p m).1.host = Str.strip host := by
  cases p with
  | settings =>
    have hloaded : (loadHostTls env (orElse (data.getD "server_settings" .null) (.obj [])) m).host =
        "" ∨ (loadHostTls env (orElse (data.getD "server_settings" .null) (.obj [])) m).host =
          Str.strip host := by
      obtain ⟨hsettings, hhost⟩ := settings_of_fileHost hdata
      simp only [loadHostTls, henv, if_true, hsettings, hhost]
      by_cases hempty : host = ""
      · rw [hempty] at hm ⊢
        rw [show orElse (.str "") (.str m.host) = .str m.host from rfl]
        rcases hm with hm | hm <;> rw [hm] <;> exact .inl rfl
      · rw [show orElse (.str host) (.str m.host) = .str host from if_pos (by simpa [Json.truthy])]
        exact .inr rfl
    simp only [loadPart]
    split_ifs
    · split <;> exact hloaded
    · exact hm
  | nodes =>
    simp only [loadPart]
    split_ifs <;> exact hm
  | _ => exact hm

/-- Wherever `load_state` stops, the process has no host or the one in the file. -/
theorem host_loadState {data : Json} {host : String} (hdata : fileHost data = some host)
    (readable : Bool) :
    (loadState env readable (.json data) (fresh env)).1.host = "" ∨
      (loadState env readable (.json data) (fresh env)).1.host = Str.strip host :=
  runStages_keeps (P := fun m : Memory => m.host = "" ∨ m.host = Str.strip host)
    (fun p _ _ hm => host_loadPart henv hdata p hm) (.inl henv)

end Load

/-! ### Runs of kept steps -/

theorem strip_empty : Str.strip "" = "" := by decide

/-- A stored host is one that `strip` leaves alone. -/
def Stripped (stored : Option String) : Prop := ∀ host, stored = some host → Str.strip host = host

/-- The host in memory, in the copy and in the file: nothing, a detected one, or the stored one; and
in the file no detected one. -/
structure HostState.Inv (s : HostState) : Prop where
  env : s.env.rvgHost = ""
  memory : s.memory.host = "" ∨ s.found = true ∨ s.stored = some s.memory.host
  saving : ∀ copy, s.saving = some copy → copy.file.serverSettings.host = "" ∨ copy.found = true ∨
    copy.stored = some copy.file.serverSettings.host
  file : ∀ f, s.file = some f →
    f.serverSettings.host = "" ∨ s.fileStored = some f.serverSettings.host
  stored : Stripped s.stored
  copied : ∀ copy, s.saving = some copy → Stripped copy.stored
  filed : Stripped s.fileStored

namespace HostState

theorem inv_start {env : Environment} (henv : env.rvgHost = "") : (start env).Inv where
  env := henv
  memory := .inl henv
  saving := fun _ h => by cases h
  file := fun _ h => by cases h
  stored := fun _ h => by cases h
  copied := fun _ h => by cases h
  filed := fun _ h => by cases h

/-- A new process has no host or the stored one. -/
theorem Inv.host_boot {s : HostState} (h : s.Inv) {env : Environment} (henv : env.rvgHost = "")
    (readable : Bool) {data : Json}
    (hdata : ∀ f ∈ s.file, fileHost data = some f.serverSettings.host) :
    (s.boot env readable data).memory.host = "" ∨
      s.fileStored = some (s.boot env readable data).memory.host := by
  cases hfile : s.file with
  | none =>
    left
    simp only [boot, dataFile, hfile]
    exact henv
  | some f =>
    have hload := host_loadState henv (hdata f hfile) readable
    simp only [boot, dataFile, hfile]
    rcases h.file f hfile with hempty | hstored
    · rw [hempty, strip_empty] at hload
      exact .inl (hload.elim id id)
    · rw [h.filed _ hstored] at hload
      exact hload.imp_right fun hhost => hstored.trans (congrArg some hhost.symm)

theorem Inv.boot {s : HostState} (h : s.Inv) {env : Environment} (henv : env.rvgHost = "")
    (readable : Bool) {data : Json}
    (hdata : ∀ f ∈ s.file, fileHost data = some f.serverSettings.host) :
    (s.boot env readable data).Inv where
  env := henv
  memory := (h.host_boot henv readable hdata).imp_right .inr
  saving := fun _ hcopy => by cases hcopy
  file := h.file
  stored := h.filed
  copied := fun _ hcopy => by cases hcopy
  filed := h.filed

/-- `set_server_settings` touches the host only where it sets it. -/
theorem host_setServerSettings (env : Environment) (body : Json) (m : Memory) :
    (∀ m', setHost env body m = .ok m' → (setServerSettings env body m).1.host = m'.host) ∧
      ((setHost env body m).isOk = false → (setServerSettings env body m).1.host = m.host) := by
  have hport : ∀ m : Memory, (setPortRange env body m).1.host = m.host := by
    intro m
    unfold setPortRange
    split
    · split
      · rfl
      · rfl
      · split
        · rfl
        · rfl
        · split_ifs <;> rfl
    · rfl
  unfold setServerSettings
  cases hset : setHost env body m with
  | error e => exact ⟨fun _ h => (by cases h), fun _ => rfl⟩
  | ok m' =>
    refine ⟨fun m'' h => ?_, fun h => by cases h⟩
    cases h
    simp only [hport]
    split
    · split_ifs <;> rfl
    · rfl

theorem setHost_absent {env : Environment} {body : Json} {m : Memory}
    (h : (body.get? "host").isSome = false) : setHost env body m = .ok m := by
  rw [setHost, Option.isSome_eq_false_iff, Option.isNone_iff_eq_none] at *
  rw [h]

/-- A change of the memory that leaves the host alone. -/
theorem Inv.of_host {s : HostState} (h : s.Inv) {memory : Memory}
    (hsame : memory.host = s.memory.host) : ({ s with memory } : HostState).Inv where
  env := h.env
  memory := by
    simp only [hsame]
    exact h.memory
  saving := h.saving
  file := h.file
  stored := h.stored
  copied := h.copied
  filed := h.filed

/-- A host that the administrator stores. -/
theorem Inv.set {s : HostState} (h : s.Inv) {memory : Memory}
    (hstrip : Str.strip memory.host = memory.host) :
    ({ s with memory, stored := some memory.host, found := false } : HostState).Inv where
  env := h.env
  memory := .inr (.inr rfl)
  saving := h.saving
  file := h.file
  stored := by
    rintro host ⟨⟩
    exact hstrip
  copied := h.copied
  filed := h.filed

/-- The copy of a save is written, and has no detected host. -/
theorem Inv.write {s : HostState} (h : s.Inv) {copy : HostCopy} (hcopy : s.saving = some copy)
    (hfound : copy.found = false) :
    ({ s with saving := none, file := some copy.file, fileStored := copy.stored } :
      HostState).Inv where
  env := h.env
  memory := h.memory
  saving _ hnone := by cases hnone
  file := by
    rintro f ⟨⟩
    rcases h.saving copy hcopy with hempty | hdetected | hstored
    · exact .inl hempty
    · rw [hfound] at hdetected
      cases hdetected
    · exact .inr hstored
  stored := h.stored
  copied _ hnone := by cases hnone
  filed := h.copied copy hcopy

end HostState

/-- **The step.** -/
theorem HostState.Inv.step {s s' : HostState} {e : HostEvent} (h : s.Inv) (hkept : Kept s e)
    (hstep : hostMachine.step s e = some s') : s'.Inv := by
  cases e with
  | restart env readable data =>
    simp only [hostMachine, Option.ite_none_right_eq_some, Option.some.injEq] at hstep
    obtain ⟨⟨henv, hdata⟩, rfl⟩ := hstep
    exact h.boot henv readable hdata
  | detect =>
    cases hstep
    exact ⟨h.env, h.memory, h.saving, h.file, h.stored, h.copied, h.filed⟩
  | detected isdigit socket answers =>
    simp only [hostMachine] at hstep
    split_ifs at hstep
    · cases hstep
      exact ⟨h.env, .inr (.inl rfl), h.saving, h.file, h.stored, h.copied, h.filed⟩
    · cases hstep
      exact ⟨h.env, h.memory, h.saving, h.file, h.stored, h.copied, h.filed⟩
  | settings body =>
    obtain ⟨hset, hunset⟩ := HostState.host_setServerSettings s.env body s.memory
    simp only [hostMachine] at hstep
    split_ifs at hstep with hhost
    · cases hstep
      obtain ⟨hsome, hok⟩ := hhost
      refine h.set ?_
      cases hres : setHost s.env body s.memory with
      | error e =>
        rw [hres] at hok
        cases hok
      | ok m =>
        rw [hset m hres]
        exact hkept m hres hsome
    · cases hstep
      have hsame : (setServerSettings s.env body s.memory).1.host = s.memory.host := by
        cases hsome : (body.get? "host").isSome with
        | false => exact hset _ (HostState.setHost_absent hsome)
        | true => exact hunset (by simpa [hsome] using hhost)
      exact h.of_host hsame
  | request after =>
    simp only [hostMachine, Option.ite_none_right_eq_some, Option.some.injEq] at hstep
    obtain ⟨hsame, rfl⟩ := hstep
    exact h.of_host hsame
  | copy =>
    simp only [hostMachine] at hstep
    split at hstep
    · cases hstep
      refine ⟨h.env, h.memory, ?_, h.file, h.stored, ?_, h.filed⟩
      · rintro copy ⟨⟩
        exact h.memory
      · rintro copy ⟨⟩
        exact h.stored
    · cases hstep
  | replace ok =>
    simp only [hostMachine] at hstep
    split at hstep
    · cases hstep
    · rename_i copy hcopy
      split_ifs at hstep with hok
      · cases hstep
        subst hok
        exact h.write hcopy (hkept copy hcopy)
      · cases hstep
        exact ⟨h.env, h.memory, fun _ hnone => (by cases hnone), h.file, h.stored,
          fun _ hnone => (by cases hnone), h.filed⟩

/-- What holds along a run of kept steps is the promise. -/
theorem HostState.Inv.unpersisted {s : HostState} (h : s.Inv) : s.Unpersisted where
  file := h.file
  renewed := by
    intro hnone env readable data isdigit socket answers s' hrun
    obtain ⟨s₁, hrestart, hrun⟩ := Machine.run_cons.1 hrun
    simp only [hostMachine, Option.ite_none_right_eq_some, Option.some.injEq] at hrestart
    obtain ⟨⟨henv, hdata⟩, rfl⟩ := hrestart
    -- without a stored host the new process has none
    have hhost : (s.boot env readable data).memory.host = "" := by
      rcases h.host_boot henv readable hdata with hempty | hstored
      · exact hempty
      · rw [hstored] at hnone
        exact hnone
    obtain ⟨s₂, hdetect, hrun⟩ := Machine.run_cons.1 hrun
    cases hdetect
    obtain ⟨s₃, hdetected, hrun⟩ := Machine.run_cons.1 hrun
    cases hrun
    simp only [hostMachine, hhost, strip_empty] at hdetected
    split_ifs at hdetected with hfound hip
    · cases hdetected
      rfl
    · cases hdetected
      rw [hhost]
      by_contra hne
      exact hip ⟨fun h => hne h.symm, trivial⟩

/-- **A run whose saves never put a detected host into the file keeps the promise** of
`_auto_detect_host`, in every state it reaches and over all its restarts. -/
theorem unpersisted_of_kept (env : Environment) (henv : env.rvgHost = "") (es : List HostEvent)
    (s : HostState) (hrun : hostMachine.run (.start env) es = some s)
    (hkept : hostMachine.Along Kept (.start env) es) : s.Unpersisted :=
  (Machine.run_invariant_along (fun _ _ _ h hk hstep => HostState.Inv.step h hk hstep) hrun hkept
    (HostState.inv_start henv)).unpersisted

/-- A host that is set after the detection, saved, and found again by the next process. -/
theorem unpersisted_of_kept_set : ∃ s,
    hostMachine.run (.start plainServer)
      [.detect, .detected (fun _ => true) none [some "192.0.2.1"],
        .settings (.obj [("host", .str "https://a.example/")]), .copy, .replace true,
        .restart plainServer true
          (.obj [("server_settings", .obj [("host", .str "a.example")])])] = some s ∧
      s.Unpersisted := by
  refine ⟨_, rfl, unpersisted_of_kept plainServer rfl
    [.detect, .detected (fun _ => true) none [some "192.0.2.1"],
      .settings (.obj [("host", .str "https://a.example/")]), .copy, .replace true,
      .restart plainServer true (.obj [("server_settings", .obj [("host", .str "a.example")])])] _
    rfl ?_⟩
  refine ⟨trivial, fun _ h₁ => ⟨trivial, fun _ h₂ => ⟨?_, fun _ h₃ => ⟨trivial, fun _ h₄ =>
    ⟨?_, fun _ h₅ => ⟨trivial, fun _ h₆ => trivial⟩⟩⟩⟩⟩⟩
  · cases h₁
    cases h₂
    rintro m hm -
    cases hm
    decide +kernel
  · cases h₁
    cases h₂
    cases h₃
    cases h₄
    rintro copy hcopy
    cases hcopy
    decide +kernel

/-- The first save after the detection persists the address, and the next process keeps it. -/
theorem detected_host_persists : ¬ ∀ (env : Environment) (es : List HostEvent) (s : HostState),
    env.rvgHost = "" → hostMachine.run (.start env) es = some s → s.Unpersisted := by
  intro h
  obtain ⟨file, -⟩ := h plainServer
    [.detect, .detected (fun _ => true) none [some "192.0.2.1"], .copy, .replace true] _ rfl rfl
  rcases file _ rfl with hempty | hstored
  · exact absurd hempty (by decide +kernel)
  · cases hstored

end State

end RvgGateway
