import EdnaDrone.Esc

/-!
# What the ESC driver is asked to do

Every request with a valid motor index is recorded, whatever the cache and the LEDC calls do with
it; the lemmas give the requests of the calls the flight code makes.
-/

namespace EdnaDrone

variable {r : Motor → LedcResult} {e : EscState} {m m' : Motor} {p : ℕ}

@[simp] theorem escWrite_calls (x : LedcResult) :
    (escWrite x m p e).calls = (m, p) :: e.calls := by
  unfold escWrite
  dsimp only
  split <;> rfl

/-- After a request the cache holds its pulse, be it a hit or not. -/
theorem escWrite_lastUs_self (x : LedcResult) : (escWrite x m p e).lastUs m = escClampUs p := by
  unfold escWrite
  dsimp only
  split
  · rename_i hhit
    exact hhit
  · exact Function.update_self _ _ _

/-- A cache hit writes nothing. -/
theorem escWrite_channel_hit (x : LedcResult) (h : e.lastUs m = escClampUs p) :
    (escWrite x m p e).channel m = e.channel m := by
  unfold escWrite
  dsimp only
  rw [if_pos h]

theorem escWrite_channel_miss (x : LedcResult) (h : e.lastUs m ≠ escClampUs p) :
    (escWrite x m p e).channel m =
      ledcUpdateDuty x.updateOk (ledcSetDuty x.setOk (usToDuty (escClampUs p)) (e.channel m)) := by
  unfold escWrite
  dsimp only
  rw [if_neg h]
  exact Function.update_self _ _ _

/-- The other motors stay as they are. -/
theorem escWrite_frame (x : LedcResult) (h : m' ≠ m) :
    (escWrite x m p e).lastUs m' = e.lastUs m' ∧ (escWrite x m p e).channel m' = e.channel m' := by
  unfold escWrite
  dsimp only
  split
  · exact ⟨rfl, rfl⟩
  · exact ⟨Function.update_of_ne h _ _, Function.update_of_ne h _ _⟩

theorem motorIndex_eq_iff : ((m : ℕ) : ℤ) = (m' : ℕ) ↔ m' = m := by
  rw [Nat.cast_inj, ← Fin.ext_iff, eq_comm]

/-- An index out of range belongs to no motor. -/
theorem motorIndex_ne {motor : ℤ} (h : ¬ (0 ≤ motor ∧ motor < motorCount)) (m : Motor) :
    motor ≠ (m : ℕ) := by
  rintro rfl
  exact h ⟨Int.natCast_nonneg _, by exact_mod_cast m.isLt⟩

theorem escSetMotorsUs_eq (m1 m2 m3 m4 : ℕ) :
    escSetMotorsUs r m1 m2 m3 m4 e =
      escWrite (r 3) 3 m4 (escWrite (r 2) 2 m3 (escWrite (r 1) 1 m2 (escWrite (r 0) 0 m1 e))) :=
  rfl

theorem escSetAllUs_eq (p : ℕ) : escSetAllUs r p e = escSetMotorsUs r p p p p e := by
  have h : List.finRange motorCount = [0, 1, 2, 3] := rfl
  unfold escSetAllUs
  rw [h]
  rfl

/-- The four requests of a command to all motors, newest first. -/
def motorCalls (m1 m2 m3 m4 : ℕ) : List (Motor × ℕ) :=
  [(motorRr, m4), (motorRl, m3), (motorFr, m2), (motorFl, m1)]

/-- The requests of `esc_set_all_us(ESC_PWM_ARM_US)`. -/
def armCalls : List (Motor × ℕ) :=
  motorCalls escPwmArmUs escPwmArmUs escPwmArmUs escPwmArmUs

theorem escSetMotorsUs_calls (m1 m2 m3 m4 : ℕ) :
    (escSetMotorsUs r m1 m2 m3 m4 e).calls = motorCalls m1 m2 m3 m4 ++ e.calls := by
  simp [escSetMotorsUs_eq, motorCalls, motorFl, motorFr, motorRl, motorRr]

theorem escSetAllUs_calls (p : ℕ) :
    (escSetAllUs r p e).calls = motorCalls p p p p ++ e.calls := by
  rw [escSetAllUs_eq, escSetMotorsUs_calls]

/-- The latest pulse of each motor, as a function of the four pulses of a command. -/
def pulseOf (m1 m2 m3 m4 : ℕ) : Motor → ℕ := ![m1, m2, m3, m4]

theorem lastCommanded_of_calls {m1 m2 m3 m4 : ℕ} {cs : List (Motor × ℕ)}
    (h : e.calls = motorCalls m1 m2 m3 m4 ++ cs) (m : Motor) :
    e.lastCommanded m = some (pulseOf m1 m2 m3 m4 m) := by
  unfold EscState.lastCommanded
  rw [h]
  fin_cases m <;> rfl

theorem pulseOf_same (p : ℕ) (m : Motor) : pulseOf p p p p m = p := by
  fin_cases m <;> rfl

end EdnaDrone
