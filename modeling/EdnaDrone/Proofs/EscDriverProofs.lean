import EdnaDrone.EscDriver
import EdnaDrone.Proofs.EscProofs

/-!
# The cache of the ESC driver is transparent

`Coherent xs e` ties the cache and the channels of a motor to the requests made so far: the cache
holds the pulse that was last asked for and the channel its duty, or neither has been touched. The
sentinel of the cache is below every pulse it can be compared with.
-/

namespace EdnaDrone

open Lib

theorem lastRequest_append (m : Motor) (xs : List EscRequest) (x : EscRequest) :
    lastRequest m (xs ++ [x]) = if x.1 = (m : ℕ) then some x.2 else lastRequest m xs := by
  unfold lastRequest
  rw [List.reverse_append, List.reverse_singleton, List.singleton_append]
  by_cases h : x.1 = (m : ℕ)
  · rw [if_pos h, List.lookup_cons, beq_iff_eq.2 h.symm]
  · have hb : (((m : ℕ) : ℤ) == x.1) = false := beq_eq_false_iff_ne.2 (Ne.symm h)
    rw [if_neg h, List.lookup_cons, hb]

theorem requestedDuty_append (m : Motor) (xs : List EscRequest) (x : EscRequest) :
    requestedDuty m (xs ++ [x]) =
      if x.1 = (m : ℕ) then usToDuty (escClampUs x.2) else requestedDuty m xs := by
  unfold requestedDuty
  rw [lastRequest_append]
  by_cases h : x.1 = (m : ℕ)
  · rw [if_pos h, if_pos h, Option.elim_some]
  · rw [if_neg h, if_neg h]

/-- No pulse that the driver writes is the sentinel. -/
theorem escClampUs_pos (p : ℕ) : 0 < escClampUs p := by
  unfold escClampUs escPwmMinUs escPwmMaxUs
  dsimp only
  split_ifs <;> omega

/-! ## Operations are sequences of requests -/

def escRequest (e : EscState) (x : EscRequest) : EscState := escSetUs .ok x.1 x.2 e

theorem escSetAllUs_requests (p : ℕ) (e : EscState) :
    escSetAllUs (fun _ => .ok) p e = runFrom escRequest e (requestAll p) := by
  rw [escSetAllUs_eq]
  rfl

theorem escStep_requests (e : EscState) (op : EscOp) :
    escStep e op = runFrom escRequest e op.requests := by
  cases op with
  | arm => exact escSetAllUs_requests _ e
  | setUs motor pulseUs => rfl
  | setMotorsUs m1 m2 m3 m4 => rfl
  | setAllUs pulseUs => exact escSetAllUs_requests _ e
  | calibrate =>
    show escCalibrate (fun _ _ => .ok) e = runFrom escRequest e
      (requestAll escPwmMaxUs ++ requestAll escPwmMinUs ++ requestAll escPwmArmUs)
    unfold escCalibrate
    dsimp only
    rw [escSetAllUs_requests, escSetAllUs_requests, escSetAllUs_requests, runFrom_append,
      runFrom_append]

/-! ## Coherence -/

structure Coherent (xs : List EscRequest) (e : EscState) : Prop where
  lastUs : ∀ m, e.lastUs m = (lastRequest m xs).elim 0 escClampUs
  channel : ∀ m, e.channel m = ⟨requestedDuty m xs, requestedDuty m xs⟩

/-- A cache hit finds the duty of the request on the channel already. -/
theorem Coherent.hit {xs : List EscRequest} {e : EscState} (h : Coherent xs e) {m : Motor} {p : ℕ}
    (hp : e.lastUs m = escClampUs p) : requestedDuty m xs = usToDuty (escClampUs p) := by
  have hlast := h.lastUs m
  rw [hp] at hlast
  unfold requestedDuty
  cases hx : lastRequest m xs with
  | none =>
    rw [hx] at hlast
    exact absurd hlast (escClampUs_pos p).ne'
  | some q =>
    rw [hx] at hlast
    have hq : escClampUs p = escClampUs q := hlast
    rw [Option.elim_some, hq]

theorem Coherent.escWrite {xs : List EscRequest} {e : EscState} (h : Coherent xs e) (m : Motor)
    (p : ℕ) : Coherent (xs ++ [(((m : ℕ) : ℤ), p)]) (escWrite .ok m p e) := by
  constructor
  · intro m'
    rw [lastRequest_append]
    by_cases hm : m' = m
    · rw [if_pos (motorIndex_eq_iff.2 hm), hm, escWrite_lastUs_self]
      rfl
    · rw [if_neg (mt motorIndex_eq_iff.1 hm), (escWrite_frame .ok hm).1]
      exact h.lastUs m'
  · intro m'
    rw [requestedDuty_append]
    by_cases hm : m' = m
    · rw [if_pos (motorIndex_eq_iff.2 hm), hm]
      by_cases hhit : e.lastUs m = escClampUs p
      · rw [escWrite_channel_hit .ok hhit, ← h.hit hhit]
        exact h.channel m
      · rw [escWrite_channel_miss .ok hhit]
        rfl
    · rw [if_neg (mt motorIndex_eq_iff.1 hm), (escWrite_frame .ok hm).2]
      exact h.channel m'

/-- A call with an index out of range changes nothing. -/
theorem escSetUs_of_not {motor : ℤ} (hm : ¬ (0 ≤ motor ∧ motor < motorCount)) (p : ℕ)
    (e : EscState) : escSetUs .ok motor p e = e := dif_neg hm

theorem Coherent.request {xs : List EscRequest} {e : EscState} (h : Coherent xs e)
    (x : EscRequest) : Coherent (xs ++ [x]) (escRequest e x) := by
  obtain ⟨motor, p⟩ := x
  by_cases hm : 0 ≤ motor ∧ motor < motorCount
  · have hcast : ((motor.toNat : ℕ) : ℤ) = motor := Int.toNat_of_nonneg hm.1
    have hw := h.escWrite ⟨motor.toNat, by omega⟩ p
    rw [hcast] at hw
    unfold escRequest escSetUs
    rwa [dif_pos hm]
  · -- no motor has this index, so the request is nobody's last one
    have hne : ∀ m : Motor, motor ≠ (m : ℕ) := motorIndex_ne hm
    show Coherent _ (escSetUs .ok motor p e)
    rw [escSetUs_of_not hm]
    constructor
    · intro m
      rw [lastRequest_append, if_neg (hne m)]
      exact h.lastUs m
    · intro m
      rw [requestedDuty_append, if_neg (hne m)]
      exact h.channel m

theorem coherent_run (xs : List EscRequest) : Coherent xs (runFrom escRequest escInit xs) := by
  induction xs using List.reverseRecOn with
  | nil => exact ⟨fun _ => rfl, fun _ => rfl⟩
  | append_singleton xs x ih =>
    rw [runFrom_append]
    exact ih.request x

/-! ## The driver without the cache -/

theorem uncached_run (xs : List EscRequest) (m : Motor) :
    runFrom escSetUsUncached escInit.channel xs m = ⟨requestedDuty m xs, requestedDuty m xs⟩ := by
  induction xs using List.reverseRecOn with
  | nil => rfl
  | append_singleton xs x ih =>
    rw [runFrom_append, requestedDuty_append]
    show escSetUsUncached (runFrom escSetUsUncached escInit.channel xs) x m = _
    unfold escSetUsUncached
    split
    · rfl
    · exact ih

/-- The cache cannot be seen from outside: after every sequence of operations the duties are those of
the driver that writes every request, and an index out of range changes nothing. -/
theorem esc_cache_transparent (ops : List EscOp) :
    (∀ m, ((runFrom escStep escInit ops).channel m).duty =
      (runFrom escStepUncached escInit.channel ops m).duty) ∧
    (∀ m, ((runFrom escStep escInit ops).channel m).duty =
      requestedDuty m (ops.flatMap EscOp.requests)) ∧
    (∀ (motor : ℤ) (pulseUs : ℕ), ¬ (0 ≤ motor ∧ motor < motorCount) →
      escStep (runFrom escStep escInit ops) (.setUs motor pulseUs) =
        runFrom escStep escInit ops) := by
  rw [runFrom_flatMap escStep_requests, runFrom_flatMap (fun _ _ => rfl : ∀ ch (op : EscOp), escStepUncached ch op = runFrom escSetUsUncached ch op.requests)]
  have hc := coherent_run (ops.flatMap EscOp.requests)
  refine ⟨fun m => ?_, fun m => ?_, fun motor pulseUs hm => escSetUs_of_not hm pulseUs _⟩
  · rw [hc.channel, uncached_run]
  · rw [hc.channel]

end EdnaDrone
