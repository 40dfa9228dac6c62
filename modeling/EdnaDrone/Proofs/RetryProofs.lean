import EdnaDrone.EscDriver
import EdnaDrone.Proofs.EscProofs

/-!
# Failed PWM writes

`esc_set_us` stores the pulse in `last_us` before it calls the LEDC driver, and ignores the results. A
request that fails is taken for done from then on: the same pulse asked for again is a cache hit. What
each motor has been asked for, with the results, determines the cache and both duties of its channel.
-/

namespace EdnaDrone

open Lib

/-! ## What a motor has been asked for -/

/-- A pulse in the range of the ESC, and the results of the LEDC calls that write it. -/
abbrev PulseWrite : Type := ℕ × LedcResult

/-- The requests for a motor, newest first. -/
def heard (m : Motor) (xs : List EscAttempt) : List PulseWrite :=
  (xs.reverse.filter fun x => x.motor = ((m : ℕ) : ℤ)).map fun x => (escClampUs x.pulseUs, x.result)

/-- The requests that differ from the one before them, newest first. Only these reach the LEDC. -/
def changes : List PulseWrite → List PulseWrite
  | [] => []
  | [w] => [w]
  | w :: v :: ws => if w.1 = v.1 then changes (v :: ws) else w :: changes (v :: ws)

/-- The pulse in the duty register: that of the latest write whose `ledc_set_duty` succeeded. -/
def registered : List PulseWrite → ℕ
  | [] => escPwmArmUs
  | w :: ws => if w.2.setOk then w.1 else registered ws

/-- The pulse in effect: that in the register at the latest write whose `ledc_update_duty`
succeeded. -/
def effective : List PulseWrite → ℕ
  | [] => escPwmArmUs
  | w :: ws => if w.2.updateOk then registered (w :: ws) else effective ws

theorem heard_concat (m : Motor) (xs : List EscAttempt) (x : EscAttempt) :
    heard m (xs ++ [x]) =
      if x.motor = (m : ℕ) then (escClampUs x.pulseUs, x.result) :: heard m xs else heard m xs := by
  unfold heard
  rw [List.reverse_append, List.reverse_singleton, List.singleton_append]
  by_cases h : x.motor = (m : ℕ)
  · rw [if_pos h, List.filter_cons_of_pos (by simpa using h), List.map_cons]
  · rw [if_neg h, List.filter_cons_of_neg (by simpa using h)]

theorem heard_append (m : Motor) (xs ys : List EscAttempt) :
    heard m (xs ++ ys) = heard m ys ++ heard m xs := by
  unfold heard
  rw [List.reverse_append, List.filter_append, List.map_append]

/-! ## Pulses and duties -/

theorem escClampUs_mem (p : ℕ) : escPwmMinUs ≤ escClampUs p ∧ escClampUs p ≤ escPwmMaxUs := by
  unfold escClampUs escPwmMinUs escPwmMaxUs
  dsimp only
  split_ifs <;> omega

/-- Pulses in the range of the ESC have duties of their own. -/
theorem usToDuty_inj {p q : ℕ} (hp : escPwmMinUs ≤ p ∧ p ≤ escPwmMaxUs)
    (hq : escPwmMinUs ≤ q ∧ q ≤ escPwmMaxUs) : usToDuty p = usToDuty q ↔ p = q := by
  have hduty : ∀ x, escPwmMinUs ≤ x ∧ x ≤ escPwmMaxUs → usToDuty x = x * maxDuty / periodUs := by
    intro x hx
    unfold usToDuty
    dsimp only
    rw [if_neg (not_lt.2 hx.1), if_neg (not_lt.2 hx.2)]
  rw [hduty p hp, hduty q hq]
  unfold maxDuty periodUs
  omega

theorem heard_mem {m : Motor} {xs : List EscAttempt} {w : PulseWrite} (h : w ∈ heard m xs) :
    escPwmMinUs ≤ w.1 ∧ w.1 ≤ escPwmMaxUs := by
  obtain ⟨x, -, rfl⟩ := List.mem_map.1 h
  exact escClampUs_mem x.pulseUs

theorem changes_subset (ws : List PulseWrite) : changes ws ⊆ ws := by
  induction ws using changes.induct with
  | case1 => exact List.Subset.refl _
  | case2 w => exact List.Subset.refl _
  | case3 w v ws h ih =>
    rw [changes, if_pos h]
    exact fun x hx => List.mem_cons_of_mem _ (ih hx)
  | case4 w v ws h ih =>
    rw [changes, if_neg h]
    exact List.cons_subset_cons w ih

theorem registered_mem {ws : List PulseWrite}
    (h : ∀ w ∈ ws, escPwmMinUs ≤ w.1 ∧ w.1 ≤ escPwmMaxUs) :
    escPwmMinUs ≤ registered ws ∧ registered ws ≤ escPwmMaxUs := by
  induction ws with
  | nil => exact ⟨by decide, by decide⟩
  | cons w ws ih =>
    unfold registered
    split
    · exact h w List.mem_cons_self
    · exact ih fun v hv => h v (List.mem_cons_of_mem _ hv)

theorem effective_mem {ws : List PulseWrite}
    (h : ∀ w ∈ ws, escPwmMinUs ≤ w.1 ∧ w.1 ≤ escPwmMaxUs) :
    escPwmMinUs ≤ effective ws ∧ effective ws ≤ escPwmMaxUs := by
  induction ws with
  | nil => exact ⟨by decide, by decide⟩
  | cons w ws ih =>
    unfold effective
    split
    · exact registered_mem h
    · exact ih fun v hv => h v (List.mem_cons_of_mem _ hv)

/-! ## The state after a sequence of requests -/

/-- The cache and the channel of each motor are those of what it has heard. -/
structure Tracks (xs : List EscAttempt) (e : EscState) : Prop where
  lastUs : ∀ m, e.lastUs m = (heard m xs).head?.elim 0 Prod.fst
  reg : ∀ m, (e.channel m).reg = usToDuty (registered (changes (heard m xs)))
  duty : ∀ m, (e.channel m).duty = usToDuty (effective (changes (heard m xs)))

/-- The cache is hit exactly when the pulse is that of the request before. -/
theorem changes_cons (w : PulseWrite) (ws : List PulseWrite) (hw : 0 < w.1) :
    changes (w :: ws) = if ws.head?.elim 0 Prod.fst = w.1 then changes ws else w :: changes ws := by
  cases ws with
  | nil =>
    rw [if_neg]
    · rfl
    · exact hw.ne
  | cons v ws =>
    rw [changes, List.head?_cons, Option.elim_some]
    by_cases h : w.1 = v.1
    · rw [if_pos h, if_pos h.symm]
    · rw [if_neg h, if_neg (Ne.symm h)]

theorem ledcSetDuty_duty (ok : Bool) (d : ℕ) (c : LedcChannel) :
    (ledcSetDuty ok d c).duty = c.duty := by
  unfold ledcSetDuty
  split
  · rfl
  · rfl

theorem ledcUpdateDuty_reg (ok : Bool) (c : LedcChannel) : (ledcUpdateDuty ok c).reg = c.reg := by
  unfold ledcUpdateDuty
  split
  · rfl
  · rfl

theorem reg_write (r : LedcResult) (p : ℕ) (ws : List PulseWrite) {c : LedcChannel}
    (hreg : c.reg = usToDuty (registered ws)) :
    (ledcSetDuty r.setOk (usToDuty p) c).reg = usToDuty (registered ((p, r) :: ws)) := by
  unfold ledcSetDuty registered
  by_cases hs : r.setOk = true
  · rw [if_pos hs, if_pos hs]
  · rw [if_neg hs, if_neg hs, hreg]

theorem duty_write (r : LedcResult) (p : ℕ) (ws : List PulseWrite) {c : LedcChannel}
    (hreg : c.reg = usToDuty (registered ws)) (hduty : c.duty = usToDuty (effective ws)) :
    (ledcUpdateDuty r.updateOk (ledcSetDuty r.setOk (usToDuty p) c)).duty =
      usToDuty (effective ((p, r) :: ws)) := by
  have hr := reg_write r p ws hreg
  unfold ledcUpdateDuty effective
  by_cases hu : r.updateOk = true
  · rw [if_pos hu, if_pos hu, ← hr]
  · rw [if_neg hu, if_neg hu, ledcSetDuty_duty, hduty]

theorem heard_write (m m' : Motor) (p : ℕ) (r : LedcResult) (xs : List EscAttempt) :
    heard m' (xs ++ [⟨(m : ℕ), p, r⟩]) =
      if m' = m then (escClampUs p, r) :: heard m' xs else heard m' xs := by
  rw [heard_concat]
  exact if_congr motorIndex_eq_iff rfl rfl

/-- A hit adds nothing to the changes, and a miss adds the write. -/
theorem Tracks.changes_write {xs : List EscAttempt} {e : EscState} (h : Tracks xs e) (m : Motor)
    (p : ℕ) (r : LedcResult) :
    changes ((escClampUs p, r) :: heard m xs) =
      if e.lastUs m = escClampUs p then changes (heard m xs)
      else (escClampUs p, r) :: changes (heard m xs) := by
  rw [h.lastUs m]
  exact changes_cons _ _ (lt_of_lt_of_le (by decide) (escClampUs_mem p).1)

theorem Tracks.escWrite {xs : List EscAttempt} {e : EscState} (h : Tracks xs e) (m : Motor)
    (p : ℕ) (r : LedcResult) : Tracks (xs ++ [⟨(m : ℕ), p, r⟩]) (escWrite r m p e) := by
  constructor
  · intro m'
    rw [heard_write]
    by_cases hm : m' = m
    · rw [if_pos hm, hm, escWrite_lastUs_self]
      rfl
    · rw [if_neg hm, (escWrite_frame r hm).1]
      exact h.lastUs m'
  · intro m'
    rw [heard_write]
    by_cases hm : m' = m
    · rw [if_pos hm, hm, h.changes_write]
      by_cases hhit : e.lastUs m = escClampUs p
      · rw [if_pos hhit, escWrite_channel_hit r hhit]
        exact h.reg m
      · rw [if_neg hhit, escWrite_channel_miss r hhit, ledcUpdateDuty_reg]
        exact reg_write r _ _ (h.reg m)
    · rw [if_neg hm, (escWrite_frame r hm).2]
      exact h.reg m'
  · intro m'
    rw [heard_write]
    by_cases hm : m' = m
    · rw [if_pos hm, hm, h.changes_write]
      by_cases hhit : e.lastUs m = escClampUs p
      · rw [if_pos hhit, escWrite_channel_hit r hhit]
        exact h.duty m
      · rw [if_neg hhit, escWrite_channel_miss r hhit]
        exact duty_write r _ _ (h.reg m) (h.duty m)
    · rw [if_neg hm, (escWrite_frame r hm).2]
      exact h.duty m'

theorem Tracks.attempt {xs : List EscAttempt} {e : EscState} (h : Tracks xs e) (x : EscAttempt) :
    Tracks (xs ++ [x]) (escAttempt e x) := by
  obtain ⟨motor, p, r⟩ := x
  unfold escAttempt escSetUs
  by_cases hm : 0 ≤ motor ∧ motor < motorCount
  · have hcast : ((motor.toNat : ℕ) : ℤ) = motor := Int.toNat_of_nonneg hm.1
    have hw := h.escWrite ⟨motor.toNat, by omega⟩ p r
    rw [hcast] at hw
    rwa [dif_pos hm]
  · have hnone : ∀ m : Motor, heard m (xs ++ [⟨motor, p, r⟩]) = heard m xs := by
      intro m
      rw [heard_concat, if_neg (motorIndex_ne hm m)]
    rw [dif_neg hm]
    constructor
    · intro m
      rw [hnone]
      exact h.lastUs m
    · intro m
      rw [hnone]
      exact h.reg m
    · intro m
      rw [hnone]
      exact h.duty m

theorem tracks_run (xs : List EscAttempt) : Tracks xs (runFrom escAttempt escInit xs) := by
  induction xs using List.reverseRecOn with
  | nil => exact ⟨fun _ => rfl, fun _ => rfl, fun _ => rfl⟩
  | append_singleton xs x ih =>
    rw [runFrom_append]
    exact ih.attempt x

/-! ## Calls -/

theorem escCallStep_attempts (e : EscState) (c : EscCall) :
    escCallStep e c = runFrom escAttempt e c.attempts := by
  cases c with
  | setUs r motor pulseUs => rfl
  | setMotorsUs r m1 m2 m3 m4 => rfl
  | setAllUs r pulseUs =>
    show escSetAllUs r pulseUs e = _
    unfold escSetAllUs EscCall.attempts runFrom
    rw [List.foldl_map]
    rfl

theorem setAllUs_attempts (r : Motor → LedcResult) (pulseUs : ℕ) :
    (EscCall.setAllUs r pulseUs).attempts =
      (EscCall.setMotorsUs r pulseUs pulseUs pulseUs pulseUs).attempts := rfl

/-- A call asks for at most one pulse of each motor. -/
theorem heard_attempts {c : EscCall} {x : EscAttempt} {m : Motor} (hx : x ∈ c.attempts)
    (hm : x.motor = (m : ℕ)) : heard m c.attempts = [(escClampUs x.pulseUs, x.result)] := by
  have hfour : ∀ (r : Motor → LedcResult) (m1 m2 m3 m4 : ℕ),
      x ∈ (EscCall.setMotorsUs r m1 m2 m3 m4).attempts →
      heard m (EscCall.setMotorsUs r m1 m2 m3 m4).attempts =
        [(escClampUs x.pulseUs, x.result)] := by
    intro r m1 m2 m3 m4 hx
    simp only [EscCall.attempts, List.mem_cons, List.not_mem_nil, or_false] at hx
    have hself : ∀ k : Motor, ((k : ℕ) : ℤ) = (m : ℕ) → m = k := by
      intro k hk
      exact Fin.ext (by omega)
    rcases hx with rfl | rfl | rfl | rfl
    · obtain rfl := hself 0 hm
      rfl
    · obtain rfl := hself 1 hm
      rfl
    · obtain rfl := hself 2 hm
      rfl
    · obtain rfl := hself 3 hm
      rfl
  cases c with
  | setUs r motor pulseUs =>
    obtain rfl : x = ⟨motor, pulseUs, r⟩ := List.mem_singleton.1 hx
    have h := heard_concat m [] ⟨motor, pulseUs, r⟩
    rw [if_pos hm] at h
    exact h
  | setMotorsUs r m1 m2 m3 m4 => exact hfour r m1 m2 m3 m4 hx
  | setAllUs r pulseUs =>
    rw [setAllUs_attempts] at hx ⊢
    exact hfour r pulseUs pulseUs pulseUs pulseUs hx

/-! ## The retry -/

/-- The requests of a sequence of calls for one motor, newest first. -/
def heardCalls (m : Motor) (cs : List EscCall) : List PulseWrite :=
  heard m (cs.flatMap EscCall.attempts)

/-- After a request that the LEDC driver carries out, the channel has its duty exactly when the
request before it was another pulse, or the channel already had that duty: no retry of a failed write
gets through. -/
theorem retry_reaches_channel_iff (cs : List EscCall) (c : EscCall) (m : Motor) (p : ℕ)
    (hc : ⟨(m : ℕ), p, .ok⟩ ∈ c.attempts) :
    ((runFrom escCallStep escInit (cs ++ [c])).channel m).duty = usToDuty (escClampUs p) ↔
      ((heardCalls m cs).head?.map Prod.fst ≠ some (escClampUs p) ∨
        effective (changes (heardCalls m cs)) = escClampUs p) := by
  have hrun : runFrom escCallStep escInit (cs ++ [c]) =
      runFrom escAttempt escInit (cs.flatMap EscCall.attempts ++ c.attempts) := by
    rw [runFrom_flatMap escCallStep_attempts, List.flatMap_append, List.flatMap_singleton]
  have hduty := (tracks_run (cs.flatMap EscCall.attempts ++ c.attempts)).duty m
  have hheard : heard m (cs.flatMap EscCall.attempts ++ c.attempts) =
      (escClampUs p, .ok) :: heardCalls m cs := by
    rw [heard_append, heard_attempts hc rfl]
    rfl
  have hmem : ∀ w ∈ heardCalls m cs, escPwmMinUs ≤ w.1 ∧ w.1 ≤ escPwmMaxUs := fun w hw =>
    heard_mem hw
  rw [hrun, hduty, hheard]
  generalize heardCalls m cs = ws at hmem
  have hpos : 0 < escClampUs p := lt_of_lt_of_le (by decide) (escClampUs_mem p).1
  rw [changes_cons _ _ hpos]
  by_cases hhit : ws.head?.elim 0 Prod.fst = escClampUs p
  · have hhead : ws.head?.map Prod.fst = some (escClampUs p) := by
      cases ws with
      | nil => exact absurd hhit hpos.ne
      | cons w ws => exact congrArg some hhit
    have hrange := effective_mem fun w hw => hmem w (changes_subset ws hw)
    rw [if_pos hhit, usToDuty_inj hrange (escClampUs_mem p)]
    simp only [hhead, ne_eq, not_true_eq_false, false_or]
  · have hhead : ws.head?.map Prod.fst ≠ some (escClampUs p) := by
      intro heq
      cases ws with
      | nil => cases heq
      | cons w ws => exact hhit (Option.some.inj heq)
    rw [if_neg hhit]
    exact iff_of_true rfl (.inl hhead)

/-- Motor 0 is asked for 1100 µs while `ledc_update_duty` fails, then for 1200 µs. -/
theorem retry_reaches_channel_iff_other_pulse :
    ((runFrom escCallStep escInit
        [.setUs ⟨true, false⟩ 0 1100, .setUs .ok 0 1200]).channel 0).duty =
      usToDuty (escClampUs 1200) ↔
      ((heardCalls 0 [.setUs ⟨true, false⟩ 0 1100]).head?.map Prod.fst ≠ some (escClampUs 1200) ∨
        effective (changes (heardCalls 0 [.setUs ⟨true, false⟩ 0 1100])) = escClampUs 1200) :=
  retry_reaches_channel_iff [.setUs ⟨true, false⟩ 0 1100] (.setUs .ok 0 1200) 0 1200
    (List.mem_singleton.2 rfl)

/-- Motor 0 spins at 1200 µs, and the LEDC calls of the next command, to stop it, fail once: every
command to stop it after that is ignored. -/
theorem failed_stop_not_retried :
    ¬ ∀ (cs : List EscCall) (c : EscCall) (m : Motor) (p : ℕ), ⟨(m : ℕ), p, .ok⟩ ∈ c.attempts →
      ((runFrom escCallStep escInit (cs ++ [c])).channel m).duty = usToDuty (escClampUs p) := by
  intro h
  have h1 := h [.setUs .ok 0 1200, .setUs ⟨false, false⟩ 0 1000] (.setUs .ok 0 1000) 0 1000
    (List.mem_singleton.2 rfl)
  revert h1
  decide +kernel

end EdnaDrone
