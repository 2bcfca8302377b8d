import Mathlib.Algebra.Order.Ring.Int
import Mathlib.Logic.Function.Basic
import RvgGateway.Lib.Dict

/-!
# Reorder buffers

Numbered pieces of a stream arrive in any order.  A reorder buffer hands on the piece whose turn it
is and holds back the ones that are early; whenever the next piece is there it *drains*: it hands on
the run of consecutive pieces that it holds.

* `Reorder.drain` : the drain, and `drain_spec`, what it hands on and what it keeps.
* `Reorder.Assembled d arrived next held out` : the state that the buffer is in after the pieces
  `arrived` of the stream `d` : the next piece is the first one missing, the pieces before it are out
  in their order, the later ones are held.
* `Reorder.accepted seqs p` : of the pieces `seqs` that arrived, those that are in no worker's hands.
* `Assembled.hold`, `Assembled.deliver` : an early piece and the next piece keep that description, so
  the order of arrival does not matter; `Assembled.complete` : after all pieces the stream is out.
* `Reorder.Gathered version next held out` : the same for pieces that may come again, in other
  versions, as long as their turn has not come.
-/

namespace RvgGateway

namespace Reorder

variable {β : Type*}

/-- Hand on the consecutive pieces from `next` on: the number of the first piece that is missing,
what is still held, and what is handed on. -/
def drain (next : ℤ) (held : Dict ℤ (List β)) : ℤ × Dict ℤ (List β) × List β :=
  match _h : held.get? next with
  | none => (next, held, [])
  | some piece =>
    let res := drain (next + 1) (held.erase next)
    (res.1, res.2.1, piece ++ res.2.2)
termination_by held.size
decreasing_by
  exact Dict.size_erase_lt (by rw [Dict.contains, _h]; rfl)

/-- The pieces number `start`, `start + 1`, … of the stream `d`, `n` of them. -/
def span (d : ℤ → List β) (start : ℤ) : ℕ → List β
  | 0 => []
  | n + 1 => d start ++ span d (start + 1) n

theorem span_add (d : ℤ → List β) (start : ℤ) (m n : ℕ) :
    span d start (m + n) = span d start m ++ span d (start + m) n := by
  induction m generalizing start with
  | zero => simp [span]
  | succ m ih =>
    rw [Nat.add_right_comm, span, span, ih, List.append_assoc]
    congr 3
    push_cast
    omega

/-- The pieces of a stream that is given as a list. -/
theorem span_ofList {d : ℤ → List β} {start : ℤ} {l : List (List β)}
    (h : ∀ i : ℕ, d (start + i) = (l[i]?).getD []) : span d start l.length = l.flatten := by
  induction l generalizing start with
  | nil => rfl
  | cons piece l ih =>
    have hhead : d start = piece := by simpa using h 0
    have htail : ∀ i : ℕ, d (start + 1 + i) = (l[i]?).getD [] := by
      intro i
      have hi := h (i + 1)
      rw [List.getElem?_cons_succ] at hi
      rw [← hi]
      congr 1
      push_cast
      omega
    rw [List.length_cons, span, hhead, ih htail, List.flatten_cons]

/-- Only the pieces of a span matter to it. -/
theorem span_congr {d d' : ℤ → List β} {start : ℤ} {n : ℕ}
    (h : ∀ k, start ≤ k → k < start + n → d k = d' k) : span d start n = span d' start n := by
  induction n generalizing start with
  | zero => rfl
  | succ n ih =>
    have hhead : d start = d' start := h start le_rfl (by push_cast; omega)
    rw [span, span, hhead, ih fun k h₁ h₂ => h k (by omega) (by push_cast; omega)]

theorem drain_of_none {next : ℤ} {held : Dict ℤ (List β)} (h : held.get? next = none) :
    drain next held = (next, held, []) := by
  rw [drain]
  split
  · rfl
  · rename_i piece hs; rw [h] at hs; cases hs

theorem drain_of_some {next : ℤ} {held : Dict ℤ (List β)} {piece : List β}
    (h : held.get? next = some piece) :
    drain next held = ((drain (next + 1) (held.erase next)).1,
      (drain (next + 1) (held.erase next)).2.1,
      piece ++ (drain (next + 1) (held.erase next)).2.2) := by
  rw [drain]
  split
  · rename_i hn; rw [h] at hn; cases hn
  · rename_i piece' hs
    rw [h] at hs
    cases hs
    rfl

theorem le_drain (next : ℤ) (held : Dict ℤ (List β)) : next ≤ (drain next held).1 := by
  induction next, held using drain.induct with
  | case1 next held hnone => rw [drain_of_none hnone]
  | case2 next held piece hsome ih =>
    rw [drain_of_some hsome]
    exact (Int.le_add_one le_rfl).trans ih

/-- What a drain hands on and what it keeps, for a buffer that holds pieces of `d`. -/
theorem drain_spec (d : ℤ → List β) (next : ℤ) (held : Dict ℤ (List β))
    (hheld : ∀ k v, held.get? k = some v → v = d k) :
    ∃ n : ℕ, (drain next held).1 = next + n ∧
      (∀ k, next ≤ k → k < next + n → held.contains k = true) ∧
      held.get? (next + n) = none ∧
      (∀ k, (drain next held).2.1.get? k =
        if next ≤ k ∧ k < next + n then none else held.get? k) ∧
      (drain next held).2.2 = span d next n := by
  -- the drain's own recursion: every round takes one held piece away
  induction next, held using drain.induct with
  | case1 next held hnone =>
    rw [drain_of_none hnone]
    refine ⟨0, by simp, fun k h₁ h₂ => ?_, by simpa using hnone, fun k => ?_, rfl⟩
    · push_cast at h₂; omega
    · rw [if_neg (by push_cast; omega)]
  | case2 next held piece hsome ih =>
    have hrest : ∀ k v, (held.erase next).get? k = some v → v = d k := by
      intro k v hk
      rw [Dict.get?_erase] at hk
      split_ifs at hk
      exact hheld k v hk
    obtain ⟨n, hnext, hcont, hstop, hkept, hout⟩ := ih hrest
    rw [drain_of_some hsome, hnext, hout]
    refine ⟨n + 1, by push_cast; omega, fun k h₁ h₂ => ?_, ?_, fun k => ?_, ?_⟩
    · by_cases hk : k = next
      · rw [Dict.contains, hk, hsome]; rfl
      · have hc := hcont k (by omega) (by push_cast at h₂; omega)
        rwa [Dict.contains, Dict.get?_erase_ne held (Ne.symm hk)] at hc
    · rw [Dict.get?_erase_ne held (by omega)] at hstop
      rw [← hstop]
      congr 1
      push_cast
      omega
    · rw [hkept]
      by_cases hk : k = next
      · subst hk
        rw [if_neg (by omega), Dict.get?_erase_self, if_pos (by push_cast; omega)]
      · rw [Dict.get?_erase_ne held (Ne.symm hk)]
        refine if_congr ?_ rfl rfl
        push_cast
        omega
    · rw [hheld next piece hsome]; rfl

/-! ### What has arrived -/

/-- The state of the buffer after the pieces `arrived` of the stream `d`, numbered from 0. -/
structure Assembled (d : ℤ → List β) (arrived : ℤ → Prop) (next : ℤ) (held : Dict ℤ (List β))
    (out : List β) : Prop where
  nonneg : 0 ≤ next
  /-- Every piece before `next` has arrived … -/
  before : ∀ k, 0 ≤ k → k < next → arrived k
  /-- … and `next` has not. -/
  missing : ¬ arrived next
  /-- Held is what is early. -/
  early : ∀ k v, held.get? k = some v ↔ arrived k ∧ next < k ∧ v = d k
  /-- Out is what came before `next`. -/
  out_eq : out = span d 0 next.toNat

namespace Assembled

variable {d : ℤ → List β} {arrived : ℤ → Prop} {next : ℤ} {held : Dict ℤ (List β)} {out : List β}

/-- Before the first piece. -/
theorem init (d : ℤ → List β) : Assembled d (fun _ => False) 0 ∅ [] where
  nonneg := le_rfl
  before k h₀ h₁ := by omega
  missing h := h
  early k v := by simp
  out_eq := rfl

/-- Only the pieces that arrived matter. -/
theorem congr (h : Assembled d arrived next held out) {d' : ℤ → List β}
    (hd : ∀ k, arrived k → d' k = d k) : Assembled d' arrived next held out where
  nonneg := h.nonneg
  before := h.before
  missing := h.missing
  early k v := by
    rw [h.early]
    refine and_congr_right fun harr => and_congr_right fun _ => ?_
    rw [hd k harr]
  out_eq := by
    refine h.out_eq.trans (span_congr fun k h₀ h₁ => (hd k ?_).symm)
    exact h.before k h₀ (by rw [Int.zero_add, Int.toNat_of_nonneg h.nonneg] at h₁; exact h₁)

/-- An early piece is held, in place of the version that is held already. -/
theorem overwrite (h : Assembled d arrived next held out) {seq : ℤ} (hseq : next < seq)
    (piece : List β) :
    Assembled (Function.update d seq piece) (fun k => arrived k ∨ k = seq) next
      (held.set seq piece) out where
  nonneg := h.nonneg
  before k h₀ h₁ := .inl (h.before k h₀ h₁)
  missing := by
    rintro (hm | hm)
    · exact h.missing hm
    · omega
  early k v := by
    rw [Dict.get?_set]
    split_ifs with hk
    · subst hk
      rw [Function.update_self]
      constructor
      · intro hv; cases hv; exact ⟨.inr rfl, hseq, rfl⟩
      · rintro ⟨-, -, rfl⟩; rfl
    · rw [h.early, Function.update_of_ne (Ne.symm hk)]
      constructor
      · rintro ⟨ha, hlt, hv⟩; exact ⟨.inl ha, hlt, hv⟩
      · rintro ⟨ha | ha, hlt, hv⟩
        · exact ⟨ha, hlt, hv⟩
        · exact absurd ha.symm hk
  out_eq := by
    refine h.out_eq.trans (span_congr fun k h₀ h₁ => ?_)
    rw [Int.zero_add, Int.toNat_of_nonneg h.nonneg] at h₁
    rw [Function.update_of_ne (by omega)]

/-- An early piece is held. -/
theorem hold (h : Assembled d arrived next held out) {seq : ℤ} (hseq : next < seq) :
    Assembled d (fun k => arrived k ∨ k = seq) next (held.set seq (d seq)) out := by
  have hover := h.overwrite hseq (d seq)
  rwa [Function.update_eq_self] at hover

/-- The next piece is handed on, with all that were waiting for it. -/
theorem deliver (h : Assembled d arrived next held out) :
    Assembled d (fun k => arrived k ∨ k = next) (drain (next + 1) held).1
      (drain (next + 1) held).2.1 (out ++ d next ++ (drain (next + 1) held).2.2) := by
  have hheld : ∀ k v, held.get? k = some v → v = d k := fun k v hk => ((h.early k v).1 hk).2.2
  obtain ⟨n, hnext, hcont, hstop, hkept, hout⟩ := drain_spec d (next + 1) held hheld
  have hnonneg := h.nonneg
  -- what the drain took was held, so it had arrived
  have harrived : ∀ k, next + 1 ≤ k → k < next + 1 + n → arrived k := by
    intro k h₁ h₂
    obtain ⟨v, hv⟩ := Option.isSome_iff_exists.1 (hcont k h₁ h₂)
    exact ((h.early k v).1 hv).1
  rw [hnext, hout]
  refine ⟨by omega, fun k h₀ h₁ => ?_, ?_, fun k v => ?_, ?_⟩
  · rcases lt_trichotomy k next with hk | hk | hk
    · exact .inl (h.before k h₀ hk)
    · exact .inr hk
    · exact .inl (harrived k hk h₁)
  · rintro (hm | hm)
    · have hv := (h.early (next + 1 + n) _).2 ⟨hm, by omega, rfl⟩
      rw [hstop] at hv
      cases hv
    · omega
  · rw [hkept]
    split_ifs with hk
    · constructor
      · intro hv; cases hv
      · rintro ⟨-, hlt, -⟩; omega
    · rw [h.early]
      constructor
      · rintro ⟨ha, hlt, hv⟩
        -- the drain stopped at a piece that is not held
        have hne : k ≠ next + 1 + n := by
          rintro rfl
          have hs := (h.early _ _).2 ⟨ha, hlt, hv⟩
          rw [hstop] at hs
          cases hs
        exact ⟨.inl ha, by omega, hv⟩
      · rintro ⟨ha | ha, hlt, hv⟩
        · exact ⟨ha, by omega, hv⟩
        · omega
  · have hsplit : (next + 1 + (n : ℤ)).toNat = next.toNat + (1 + n) := by omega
    rw [hsplit, span_add, h.out_eq, Nat.add_comm 1 n, span, Int.zero_add, Int.toNat_of_nonneg hnonneg,
      List.append_assoc]

/-- What is out is a prefix of the stream of `n` pieces, when only they arrive. -/
theorem out_prefix (h : Assembled d arrived next held out) {n : ℕ}
    (hn : ∀ k, arrived k → 0 ≤ k ∧ k < n) : out <+: span d 0 n := by
  -- otherwise the piece `n` would have arrived
  have hle : next.toNat ≤ n := by
    by_contra hlt
    have harr := h.before n (by omega) (by omega)
    have := (hn _ harr).2
    omega
  obtain ⟨m, rfl⟩ := Nat.exists_eq_add_of_le hle
  rw [h.out_eq, span_add]
  exact List.prefix_append _ _

/-- After all `n` pieces the stream is out and nothing is held. -/
theorem complete (h : Assembled d arrived next held out) {n : ℕ}
    (hn : ∀ k, arrived k ↔ 0 ≤ k ∧ k < n) :
    next = n ∧ (∀ k, held.get? k = none) ∧ out = span d 0 n := by
  have hnext : next = n := by
    have hnonneg := h.nonneg
    rcases lt_trichotomy next n with hlt | heq | hgt
    · exact absurd ((hn next).2 ⟨hnonneg, hlt⟩) h.missing
    · exact heq
    · have := ((hn n).1 (h.before n (by omega) hgt)).2
      omega
  refine ⟨hnext, fun k => ?_, ?_⟩
  · refine Option.eq_none_iff_forall_ne_some.2 fun v hv => ?_
    obtain ⟨ha, hlt, -⟩ := (h.early k v).1 hv
    have := ((hn k).1 ha).2
    omega
  · rw [h.out_eq, hnext, Int.toNat_natCast]

end Assembled

/-! ### Pieces that come again -/

/-- As `Assembled`, of a stream that has one version of each of its pieces. -/
def Gathered (version : ℤ → List β → Prop) (next : ℤ) (held : Dict ℤ (List β)) (out : List β) :
    Prop :=
  ∃ (d : ℤ → List β) (arrived : ℤ → Prop), Assembled d arrived next held out ∧
    ∀ k, arrived k → version k (d k)

namespace Gathered

variable {version version' : ℤ → List β → Prop} {next : ℤ} {held : Dict ℤ (List β)} {out : List β}

/-- Before the first piece. -/
theorem init (version : ℤ → List β → Prop) : Gathered version 0 ∅ [] :=
  ⟨fun _ => [], _, .init _, fun _ harr => harr.elim⟩

theorem mono (h : Gathered version next held out) (hsub : ∀ k v, version k v → version' k v) :
    Gathered version' next held out := by
  obtain ⟨d, arrived, hasm, hversion⟩ := h
  exact ⟨d, arrived, hasm, fun k harr => hsub k _ (hversion k harr)⟩

/-- An early piece is held, for the first time or again. -/
theorem hold (h : Gathered version next held out) {seq : ℤ} {piece : List β} (hseq : next < seq)
    (hpiece : version seq piece) : Gathered version next (held.set seq piece) out := by
  obtain ⟨d, arrived, hasm, hversion⟩ := h
  refine ⟨_, _, hasm.overwrite hseq piece, fun k harr => ?_⟩
  by_cases hk : k = seq
  · subst hk
    rwa [Function.update_self]
  · rw [Function.update_of_ne hk]
    exact hversion k (harr.resolve_right hk)

/-- The next piece is handed on, with all that were waiting for it. -/
theorem deliver (h : Gathered version next held out) {piece : List β}
    (hpiece : version next piece) :
    Gathered version (drain (next + 1) held).1 (drain (next + 1) held).2.1
      (out ++ piece ++ (drain (next + 1) held).2.2) := by
  obtain ⟨d, arrived, hasm, hversion⟩ := h
  have hmissing := hasm.missing
  have hnew : Assembled (Function.update d next piece) arrived next held out :=
    hasm.congr fun k harr => Function.update_of_ne (by rintro rfl; exact hmissing harr) ..
  have hout := hnew.deliver
  rw [Function.update_self] at hout
  refine ⟨_, _, hout, fun k harr => ?_⟩
  by_cases hk : k = next
  · subst hk
    rwa [Function.update_self]
  · rw [Function.update_of_ne hk]
    exact hversion k (harr.resolve_right hk)

/-- What is held is early. -/
theorem early (h : Gathered version next held out) {k : ℤ} {v : List β}
    (hk : held.get? k = some v) : next < k ∧ version k v := by
  obtain ⟨d, arrived, hasm, hversion⟩ := h
  obtain ⟨harr, hlt, rfl⟩ := (hasm.early k v).1 hk
  exact ⟨hlt, hversion k harr⟩

/-- Each piece is out once at most, in one of its versions. -/
theorem out_eq (h : Gathered version next held out) :
    ∃ (d : ℤ → List β) (n : ℕ), out = span d 0 n ∧ ∀ i : ℕ, i < n → version i (d i) := by
  obtain ⟨d, arrived, hasm, hversion⟩ := h
  refine ⟨d, next.toNat, hasm.out_eq, fun i hi => hversion i (hasm.before i ?_ ?_)⟩
  · exact Int.natCast_nonneg i
  · exact Int.lt_toNat.1 hi

end Gathered

/-! ### Workers

The pieces come through workers that take time: a piece that has arrived is in the hands of a worker
until it is handed to the buffer.  `p w` is the number of the piece that the worker `w` has in its
hands, and whether a part of it is out already. -/

section Workers

variable {W : Type*} [DecidableEq W]

/-- The pieces that arrived and are in no worker's hands. -/
def accepted (seqs : List ℤ) (p : W → Option (ℤ × Bool)) (seq : ℤ) : Prop :=
  seq ∈ seqs ∧ ∀ w b, p w ≠ some (seq, b)

/-- Some worker is in the middle of a piece. -/
def halfway (p : W → Option (ℤ × Bool)) : Prop := ∃ w seq, p w = some (seq, true)

/-- Each piece that arrived is in the hands of one worker at most. -/
structure Once (seqs : List ℤ) (p : W → Option (ℤ × Bool)) : Prop where
  mem : ∀ w seq b, p w = some (seq, b) → seq ∈ seqs
  inj : ∀ w w' seq b b', p w = some (seq, b) → p w' = some (seq, b') → w = w'

namespace Once

variable {seqs : List ℤ} {p : W → Option (ℤ × Bool)} {w : W} {seq : ℤ} {b : Bool}

/-- One worker's hands change; what it takes is in no other worker's hands. -/
theorem update_of (h : Once seqs p) {seqs' : List ℤ} (hsub : ∀ k ∈ seqs, k ∈ seqs')
    {r : Option (ℤ × Bool)} (hr : ∀ k b, r = some (k, b) →
      k ∈ seqs' ∧ ∀ w' b', p w' = some (k, b') → w' = w) :
    Once seqs' (Function.update p w r) where
  mem w' k b' hp := by
    by_cases heq : w' = w
    · rw [heq, Function.update_self] at hp
      exact (hr k b' hp).1
    · rw [Function.update_of_ne heq] at hp
      exact hsub k (h.mem w' k b' hp)
  inj w₁ w₂ k b₁ b₂ h₁ h₂ := by
    by_cases he₁ : w₁ = w <;> by_cases he₂ : w₂ = w
    · exact he₁.trans he₂.symm
    · rw [he₁, Function.update_self] at h₁
      rw [Function.update_of_ne he₂] at h₂
      exact he₁.trans ((hr k b₁ h₁).2 w₂ b₂ h₂).symm
    · rw [he₂, Function.update_self] at h₂
      rw [Function.update_of_ne he₁] at h₁
      exact ((hr k b₂ h₂).2 w₁ b₁ h₁).trans he₂.symm
    · rw [Function.update_of_ne he₁] at h₁
      rw [Function.update_of_ne he₂] at h₂
      exact h.inj _ _ _ _ _ h₁ h₂

/-- A new piece arrives. -/
theorem arrive (h : Once seqs p) (hnew : seq ∉ seqs) :
    Once (seqs ++ [seq]) (Function.update p w (some (seq, false))) := by
  refine h.update_of (fun k hk => List.mem_append_left _ hk) fun k b hk => ?_
  cases hk
  exact ⟨List.mem_append_right _ (List.mem_singleton.2 rfl), fun w' b' hp =>
    absurd (h.mem w' _ b' hp) hnew⟩

/-- A worker gets on with its piece. -/
theorem go_on (h : Once seqs p) (hw : p w = some (seq, b)) (b' : Bool) :
    Once seqs (Function.update p w (some (seq, b'))) := by
  refine h.update_of (fun k hk => hk) fun k b₁ hk => ?_
  cases hk
  exact ⟨h.mem w seq b hw, fun w' b₂ hp => h.inj _ _ _ _ _ hp hw⟩

/-- A worker is done with its piece. -/
theorem done (h : Once seqs p) : Once seqs (Function.update p w none) :=
  h.update_of (fun _ hk => hk) fun _ _ hk => by cases hk

/-- A worker that is not in the middle of a piece, before or after, does not count there. -/
theorem halfway_update {r : Option (ℤ × Bool)} (hw : ∀ k, p w ≠ some (k, true))
    (hr : ∀ k, r ≠ some (k, true)) : halfway (Function.update p w r) = halfway p := by
  refine propext ⟨fun ⟨w', k, hk⟩ => ?_, fun ⟨w', k, hk⟩ => ?_⟩
  · by_cases heq : w' = w
    · rw [heq, Function.update_self] at hk
      exact absurd hk (hr k)
    · rw [Function.update_of_ne heq] at hk
      exact ⟨w', k, hk⟩
  · have hne : w' ≠ w := by
      rintro rfl
      exact hw k hk
    exact ⟨w', k, by rw [Function.update_of_ne hne]; exact hk⟩

/-- A piece that just arrived is not accepted. -/
theorem accepted_arrive (hfree : p w = none) (hnew : seq ∉ seqs) :
    accepted (seqs ++ [seq]) (Function.update p w (some (seq, false))) = accepted seqs p := by
  funext k
  unfold accepted
  rw [List.mem_append, List.mem_singleton]
  refine propext ⟨fun hk => ?_, fun hk => ?_⟩
  · obtain ⟨hmem, hno⟩ := hk
    have hne : k ≠ seq := by
      rintro rfl
      exact hno w false (Function.update_self ..)
    refine ⟨hmem.resolve_right hne, fun w' b' hp => ?_⟩
    have hw : w' ≠ w := by
      rintro rfl
      rw [hfree] at hp
      cases hp
    exact hno w' b' (by rw [Function.update_of_ne hw]; exact hp)
  · obtain ⟨hmem, hno⟩ := hk
    refine ⟨.inl hmem, fun w' b' hp => ?_⟩
    by_cases heq : w' = w
    · rw [heq, Function.update_self] at hp
      cases hp
      exact hnew hmem
    · rw [Function.update_of_ne heq] at hp
      exact hno w' b' hp

/-- A piece is accepted when its worker is done with it. -/
theorem accepted_done (h : Once seqs p) (hw : p w = some (seq, b)) :
    accepted seqs (Function.update p w none) = fun k => accepted seqs p k ∨ k = seq := by
  funext k
  unfold accepted
  refine propext ⟨fun hk => ?_, fun hk => ?_⟩
  · obtain ⟨hmem, hno⟩ := hk
    by_cases hseq : k = seq
    · exact .inr hseq
    · refine .inl ⟨hmem, fun w' b' hp => ?_⟩
      have hne : w' ≠ w := by
        rintro rfl
        rw [hw] at hp
        cases hp
        exact hseq rfl
      exact hno w' b' (by rw [Function.update_of_ne hne]; exact hp)
  · rcases hk with ⟨hmem, hno⟩ | rfl
    · refine ⟨hmem, fun w' b' hp => ?_⟩
      by_cases heq : w' = w
      · rw [heq, Function.update_self] at hp
        cases hp
      · rw [Function.update_of_ne heq] at hp
        exact hno w' b' hp
    · refine ⟨h.mem _ _ _ hw, fun w' b' hp => ?_⟩
      by_cases heq : w' = w
      · rw [heq, Function.update_self] at hp
        cases hp
      · rw [Function.update_of_ne heq] at hp
        exact heq (h.inj _ _ _ _ _ hp hw)

/-- Which pieces are accepted does not depend on how far their workers are. -/
theorem accepted_go_on (hw : p w = some (seq, b)) (b' : Bool) :
    accepted seqs (Function.update p w (some (seq, b'))) = accepted seqs p := by
  funext k
  unfold accepted
  refine propext (and_congr_right fun _ => ⟨fun hno w' b₁ hp => ?_, fun hno w' b₁ hp => ?_⟩)
  · by_cases heq : w' = w
    · rw [heq, hw] at hp
      cases hp
      exact hno w b' (Function.update_self ..)
    · exact hno w' b₁ (by rw [Function.update_of_ne heq]; exact hp)
  · by_cases heq : w' = w
    · rw [heq, Function.update_self] at hp
      cases hp
      exact hno w b hw
    · rw [Function.update_of_ne heq] at hp
      exact hno w' b₁ hp

end Once

end Workers

end Reorder

end RvgGateway
