import EdnaDrone.Lib.PlaneTurn
import EdnaDrone.Mpu6050
import Mathlib

/-!
# Each filter gets the angle and the rate of one axis

The remapping of the axes is a rotation, so the remapped accelerometer turns with the remapped rates.
Then the angle that `mpu6050_read` calls the pitch turns at the rate `gyro_x_dps`, and the one it calls
the roll at `gyro_y_dps`. At the origin of its plane an angle has no rate.
-/

namespace EdnaDrone

open Lib Real

/-- The library functions on the reals. -/
noncomputable instance : CMath ℝ where
  sqrtf := Real.sqrt
  atan2f y x := Complex.arg ⟨x, y⟩
  toDegrees x := x * (180 / π)

/-- The accelerometer vector `a` turns with the body: at the time `t` the body turns with the rates `w`
against the vector. -/
def TurnsWithBody (a w : ℝ → Fin 3 → ℝ) (t : ℝ) : Prop :=
  HasDerivAt a (-(crossProduct (w t) (a t))) t

/-- What `mpu6050_read` makes of real-valued sensors, over time. -/
noncomputable def readingAt (a w : ℝ → Fin 3 → ℝ) (s : ℝ) : Mpu6050Reading ℝ := mpu6050Remap (a s) (w s)

variable {a w : ℝ → Fin 3 → ℝ} {t : ℝ}

/-! ## The remapped accelerometer -/

theorem hasDerivAt_accelXG (h : TurnsWithBody a w t) :
    HasDerivAt (fun s => (readingAt a w s).accelXG)
      ((readingAt a w t).gyroZDps * (readingAt a w t).accelYG -
        (readingAt a w t).gyroYDps * (readingAt a w t).accelZG) t := by
  have hz : HasDerivAt (fun s => a s 2) (-(w t 0 * a t 1 - w t 1 * a t 0)) t := hasDerivAt_pi.1 h 2
  refine hz.neg.congr_deriv ?_
  simp only [readingAt, mpu6050Remap]
  ring

theorem hasDerivAt_accelYG (h : TurnsWithBody a w t) :
    HasDerivAt (fun s => (readingAt a w s).accelYG)
      ((readingAt a w t).gyroXDps * (readingAt a w t).accelZG -
        (readingAt a w t).gyroZDps * (readingAt a w t).accelXG) t := by
  have hy : HasDerivAt (fun s => a s 1) (-(w t 2 * a t 0 - w t 0 * a t 2)) t := hasDerivAt_pi.1 h 1
  refine hy.neg.congr_deriv ?_
  simp only [readingAt, mpu6050Remap]
  ring

theorem hasDerivAt_accelZG (h : TurnsWithBody a w t) :
    HasDerivAt (fun s => (readingAt a w s).accelZG)
      ((readingAt a w t).gyroYDps * (readingAt a w t).accelXG -
        (readingAt a w t).gyroXDps * (readingAt a w t).accelYG) t := by
  have hx : HasDerivAt (fun s => a s 0) (-(w t 1 * a t 2 - w t 2 * a t 1)) t := hasDerivAt_pi.1 h 0
  refine hx.neg.congr_deriv ?_
  simp only [readingAt, mpu6050Remap]
  ring

/-- The rate of the angle in the plane of `accel_y_g` and `accel_z_g`, before it is divided by the squared
distance from the axis. -/
theorem cross_accel_deriv (h : TurnsWithBody a w t) :
    let o := readingAt a w t
    deriv (fun s => (readingAt a w s).accelYG) t * o.accelZG -
        o.accelYG * deriv (fun s => (readingAt a w s).accelZG) t =
      o.gyroXDps * (o.accelYG ^ 2 + o.accelZG ^ 2) -
        o.accelXG * (o.gyroYDps * o.accelYG + o.gyroZDps * o.accelZG) := by
  intro o
  rw [(hasDerivAt_accelYG h).deriv, (hasDerivAt_accelZG h).deriv]
  ring

/-! ## The angles -/

/-- In a turn about the X axis alone, the rate of the pitch is the rate of that axis. -/
theorem pitch_rate {o : Mpu6050Reading ℝ} (hy : o.gyroYDps = 0) (hz : o.gyroZDps = 0)
    (hoff : o.accelZG ≠ 0 ∨ o.accelYG ≠ 0) :
    (o.accelZG * (o.gyroXDps * o.accelZG - o.gyroZDps * o.accelXG) -
        o.accelYG * (o.gyroYDps * o.accelXG - o.gyroXDps * o.accelYG)) /
      (o.accelZG ^ 2 + o.accelYG ^ 2) = o.gyroXDps := by
  have hpos : 0 < o.accelZG ^ 2 + o.accelYG ^ 2 := by
    rcases hoff with h0 | h0
    · exact add_pos_of_pos_of_nonneg (sq_pos_of_ne_zero h0) (sq_nonneg _)
    · exact add_pos_of_nonneg_of_pos (sq_nonneg _) (sq_pos_of_ne_zero h0)
  rw [hy, hz, div_eq_iff hpos.ne']
  ring

/-- Up to full turns, the pitch changes at the rate `gyro_x_dps`. -/
theorem changesAtRate_accelPitch (h : TurnsWithBody a w t) (hy : (readingAt a w t).gyroYDps = 0)
    (hz : (readingAt a w t).gyroZDps = 0)
    (hoff : (readingAt a w t).accelZG ≠ 0 ∨ (readingAt a w t).accelYG ≠ 0) :
    ChangesAtRate (2 * π) (fun s => accelPitch (readingAt a w s).accelYG (readingAt a w s).accelZG)
      (readingAt a w t).gyroXDps t := by
  have hangle := changesAtRate_arg (hasDerivAt_accelZG h) (hasDerivAt_accelYG h) hoff
  rwa [pitch_rate hy hz hoff] at hangle

/-- Off the branch cut it does so without jumps. -/
theorem hasDerivAt_accelPitch (h : TurnsWithBody a w t) (hy : (readingAt a w t).gyroYDps = 0)
    (hz : (readingAt a w t).gyroZDps = 0)
    (hoff : 0 < (readingAt a w t).accelZG ∨ (readingAt a w t).accelYG ≠ 0) :
    HasDerivAt (fun s => accelPitch (readingAt a w s).accelYG (readingAt a w s).accelZG)
      (readingAt a w t).gyroXDps t := by
  have hangle := hasDerivAt_arg (hasDerivAt_accelZG h) (hasDerivAt_accelYG h) hoff
  rwa [pitch_rate hy hz (hoff.imp_left ne_of_gt)] at hangle

/-- In a turn about the Y axis alone, with nothing along that axis, the roll changes at the rate
`gyro_y_dps`. -/
theorem hasDerivAt_accelRoll (h : TurnsWithBody a w t) (hx : (readingAt a w t).gyroXDps = 0)
    (hz : (readingAt a w t).gyroZDps = 0) (hlevel : (readingAt a w t).accelYG = 0)
    (hup : 0 < (readingAt a w t).accelZG) :
    HasDerivAt
      (fun s => accelRoll (readingAt a w s).accelXG (readingAt a w s).accelYG
        (readingAt a w s).accelZG)
      (readingAt a w t).gyroYDps t := by
  have hdist := hasDerivAt_dist (hasDerivAt_accelZG h) (hasDerivAt_accelYG h) hup hlevel
  have hroot : √((readingAt a w t).accelYG * (readingAt a w t).accelYG +
      (readingAt a w t).accelZG * (readingAt a w t).accelZG) = (readingAt a w t).accelZG := by
    rw [hlevel, zero_mul, zero_add, Real.sqrt_mul_self hup.le]
  have hangle := hasDerivAt_arg hdist (hasDerivAt_accelXG h).fun_neg (Or.inl (hroot.symm ▸ hup))
  refine hangle.congr_deriv ?_
  have hpos : 0 < (readingAt a w t).accelZG ^ 2 + (-(readingAt a w t).accelXG) ^ 2 :=
    add_pos_of_pos_of_nonneg (pow_pos hup 2) (sq_nonneg _)
  rw [hroot, hx, hz, div_eq_iff hpos.ne']
  ring

/-! ## In degrees -/

/-- The rates of the body in radians per second, from those in degrees per second. -/
noncomputable def radians (w : ℝ → Fin 3 → ℝ) (s : ℝ) (i : Fin 3) : ℝ := w s i * (π / 180)

theorem degrees_radians (x : ℝ) : x * (π / 180) * (180 / π) = x := by
  field_simp

/-- What does not turn in degrees does not in radians. -/
theorem radians_eq_zero {x : ℝ} (h : -x = 0) : -(x * (π / 180)) = 0 := by
  rw [← neg_mul, h, zero_mul]

theorem gyroXDps_radians (s : ℝ) :
    (readingAt a (radians w) s).gyroXDps * (180 / π) = (readingAt a w s).gyroXDps := by
  show -(w s 2 * (π / 180)) * (180 / π) = -w s 2
  rw [neg_mul, degrees_radians]

theorem gyroYDps_radians (s : ℝ) :
    (readingAt a (radians w) s).gyroYDps * (180 / π) = (readingAt a w s).gyroYDps := by
  show -(w s 1 * (π / 180)) * (180 / π) = -w s 1
  rw [neg_mul, degrees_radians]

/-- With rates in degrees per second, as the gyro has them, the measured pitch changes at the rate that
goes to the filter with it. -/
theorem changesAtRate_accelAnglePitch (h : TurnsWithBody a (radians w) t)
    (hy : (readingAt a w t).gyroYDps = 0) (hz : (readingAt a w t).gyroZDps = 0)
    (hoff : (readingAt a w t).accelZG ≠ 0 ∨ (readingAt a w t).accelYG ≠ 0) :
    ChangesAtRate 360 (fun s => (readingAt a w s).accelAnglePitch) (readingAt a w t).gyroXDps t := by
  have hrad := changesAtRate_accelPitch h (radians_eq_zero hy) (radians_eq_zero hz) hoff
  have hdeg := hrad.mul_const (180 / π)
  have hturn : 2 * π * (180 / π) = 360 := by
    field_simp
    norm_num
  rw [hturn, gyroXDps_radians] at hdeg
  exact hdeg

theorem hasDerivAt_accelAnglePitch (h : TurnsWithBody a (radians w) t)
    (hy : (readingAt a w t).gyroYDps = 0) (hz : (readingAt a w t).gyroZDps = 0)
    (hoff : 0 < (readingAt a w t).accelZG ∨ (readingAt a w t).accelYG ≠ 0) :
    HasDerivAt (fun s => (readingAt a w s).accelAnglePitch) (readingAt a w t).gyroXDps t := by
  have hrad := hasDerivAt_accelPitch h (radians_eq_zero hy) (radians_eq_zero hz) hoff
  have hdeg := hrad.mul_const (180 / π)
  rw [gyroXDps_radians] at hdeg
  exact hdeg

theorem hasDerivAt_accelAngleRoll (h : TurnsWithBody a (radians w) t)
    (hx : (readingAt a w t).gyroXDps = 0) (hz : (readingAt a w t).gyroZDps = 0)
    (hlevel : (readingAt a w t).accelYG = 0) (hup : 0 < (readingAt a w t).accelZG) :
    HasDerivAt (fun s => (readingAt a w s).accelAngleRoll) (readingAt a w t).gyroYDps t := by
  have hrad := hasDerivAt_accelRoll h (radians_eq_zero hx) (radians_eq_zero hz) hlevel hup
  have hdeg := hrad.mul_const (180 / π)
  rw [gyroYDps_radians] at hdeg
  exact hdeg

/-! ## The pairing -/

/-- Wherever the accelerometer turns with the body, the angle of the pitch, off the axis of the turn,
changes at the rate `gyro_x_dps` up to full turns, the angle of the roll at the rate `gyro_y_dps`, in
radians and in the degrees of the driver. What `mpu6050_read` makes of the registers is such a reading,
and `imu_task` gives each filter the two that belong together. -/
theorem angles_turn_with_rates (h : TurnsWithBody a w t) :
    let o := readingAt a w t
    let pitch := fun s => accelPitch (readingAt a w s).accelYG (readingAt a w s).accelZG
    let roll := fun s => accelRoll (readingAt a w s).accelXG (readingAt a w s).accelYG
      (readingAt a w s).accelZG
    (deriv (fun s => (readingAt a w s).accelYG) t * o.accelZG -
        o.accelYG * deriv (fun s => (readingAt a w s).accelZG) t =
      o.gyroXDps * (o.accelYG ^ 2 + o.accelZG ^ 2) -
        o.accelXG * (o.gyroYDps * o.accelYG + o.gyroZDps * o.accelZG)) ∧
    (o.gyroYDps = 0 → o.gyroZDps = 0 → o.accelZG ≠ 0 ∨ o.accelYG ≠ 0 →
      ChangesAtRate (2 * π) pitch o.gyroXDps t ∧
        (0 < o.accelZG ∨ o.accelYG ≠ 0 → HasDerivAt pitch o.gyroXDps t)) ∧
    (o.gyroXDps = 0 → o.gyroZDps = 0 → o.accelYG = 0 → 0 < o.accelZG →
      HasDerivAt roll o.gyroYDps t) ∧
    (∀ v, radians v = w →
      let d := readingAt a v
      ((d t).gyroYDps = 0 → (d t).gyroZDps = 0 → (d t).accelZG ≠ 0 ∨ (d t).accelYG ≠ 0 →
        ChangesAtRate 360 (fun s => (d s).accelAnglePitch) (d t).gyroXDps t ∧
          (0 < (d t).accelZG ∨ (d t).accelYG ≠ 0 →
            HasDerivAt (fun s => (d s).accelAnglePitch) (d t).gyroXDps t)) ∧
      ((d t).gyroXDps = 0 → (d t).gyroZDps = 0 → (d t).accelYG = 0 → 0 < (d t).accelZG →
        HasDerivAt (fun s => (d s).accelAngleRoll) (d t).gyroYDps t)) ∧
    (∀ raw, mpu6050Read (some raw) =
      some (readingAt (fun _ => accelSf raw) (fun _ => gyroSf raw) t)) ∧
    ∀ (task : ImuTask ℝ) (nowUs : UInt32),
      let dt := guardedDt nowUs task.lastUs
      let next := imuTaskIteration task nowUs (some o.toMpu6050Data)
      next.1.kfRoll = kalmanStep task.kfRoll ⟨CMath.toDegrees (pitch t), o.gyroXDps, dt⟩ ∧
        next.1.kfPitch = kalmanStep task.kfPitch ⟨CMath.toDegrees (roll t), o.gyroYDps, dt⟩ ∧
          next.2 = some ⟨next.1.kfRoll.angle, next.1.kfPitch.angle, o.gyroZDps⟩ := by
  intro o pitch roll
  refine ⟨cross_accel_deriv h, ?_, ?_, ?_, fun _ => rfl, ?_⟩
  · intro hy hz hoff
    exact ⟨changesAtRate_accelPitch h hy hz hoff, hasDerivAt_accelPitch h hy hz⟩
  · intro hx hz hlevel hup
    exact hasDerivAt_accelRoll h hx hz hlevel hup
  · rintro v rfl d
    refine ⟨?_, ?_⟩
    · intro hy hz hoff
      exact ⟨changesAtRate_accelAnglePitch h hy hz hoff, hasDerivAt_accelAnglePitch h hy hz⟩
    · intro hx hz hlevel hup
      exact hasDerivAt_accelAngleRoll h hx hz hlevel hup
  · intro task nowUs
    exact ⟨rfl, rfl, rfl⟩

/-- The drone turns about its X axis, and gravity turns around it. -/
noncomputable def spinAccel (s : ℝ) : Fin 3 → ℝ := ![-cos s, -sin s, 0]
def spinGyro (_ : ℝ) : Fin 3 → ℝ := ![0, 0, -1]

theorem turnsWithBody_spin (t : ℝ) : TurnsWithBody spinAccel spinGyro t := by
  unfold TurnsWithBody
  rw [hasDerivAt_pi]
  intro i
  fin_cases i
  · simpa [spinAccel, spinGyro, cross_apply] using (hasDerivAt_cos t).fun_neg
  · simpa [spinAccel, spinGyro, cross_apply] using (hasDerivAt_sin t).fun_neg
  · simpa [spinAccel, spinGyro, cross_apply] using hasDerivAt_const t (0 : ℝ)

/-- The same rates in degrees per second. -/
noncomputable def spinGyroDps (_ : ℝ) : Fin 3 → ℝ := ![0, 0, -(180 / π)]

theorem radians_spinGyroDps : radians spinGyroDps = spinGyro := by
  funext s i
  fin_cases i
  · simp [radians, spinGyroDps, spinGyro]
  · simp [radians, spinGyroDps, spinGyro]
  · have hone : 180 / π * (π / 180) = 1 := by field_simp
    simp [radians, spinGyroDps, spinGyro, hone]

theorem angles_turn_with_rates_spin :
    HasDerivAt
      (fun s => accelPitch (readingAt spinAccel spinGyro s).accelYG
        (readingAt spinAccel spinGyro s).accelZG) 1 0 ∧
      HasDerivAt (fun s => (readingAt spinAccel spinGyroDps s).accelAnglePitch) (180 / π) 0 := by
  have hrate : (readingAt spinAccel spinGyro 0).gyroXDps = 1 := by
    simp [readingAt, mpu6050Remap, spinGyro]
  have hdps : (readingAt spinAccel spinGyroDps 0).gyroXDps = 180 / π := by
    simp [readingAt, mpu6050Remap, spinGyroDps]
  have hup : 0 < (readingAt spinAccel spinGyro 0).accelZG := by
    simp [readingAt, mpu6050Remap, spinAccel]
  obtain ⟨-, hturn, -, hdeg, -⟩ := angles_turn_with_rates (turnsWithBody_spin 0)
  have hpitch := (hturn (by simp [readingAt, mpu6050Remap, spinGyro])
    (by simp [readingAt, mpu6050Remap, spinGyro]) (Or.inl hup.ne')).2 (Or.inl hup)
  have hangle := ((hdeg spinGyroDps radians_spinGyroDps).1
    (by simp [readingAt, mpu6050Remap, spinGyroDps])
    (by simp [readingAt, mpu6050Remap, spinGyroDps]) (Or.inl hup.ne')).2 (Or.inl hup)
  rw [hrate] at hpitch
  rw [hdps] at hangle
  exact ⟨hpitch, hangle⟩

/-- With the accelerometer vector along the axis of the turn, the pitch stays where it is. -/
theorem pitch_has_no_rate_on_axis :
    ¬ ∀ (a w : ℝ → Fin 3 → ℝ) (t : ℝ), TurnsWithBody a w t →
      (readingAt a w t).gyroYDps = 0 → (readingAt a w t).gyroZDps = 0 →
        ChangesAtRate (2 * π)
          (fun s => accelPitch (readingAt a w s).accelYG (readingAt a w s).accelZG)
          (readingAt a w t).gyroXDps t := by
  intro h
  have hstill : TurnsWithBody spinGyro spinGyro 0 := by
    unfold TurnsWithBody
    rw [cross_self, neg_zero]
    exact hasDerivAt_const 0 _
  have hstay : ChangesAtRate (2 * π) (fun _ => accelPitch (-(0 : ℝ)) (-(0 : ℝ)))
      (readingAt spinGyro spinGyro 0).gyroXDps 0 :=
    h spinGyro spinGyro 0 hstill (by simp [readingAt, mpu6050Remap, spinGyro])
      (by simp [readingAt, mpu6050Remap, spinGyro])
  have hzero := hstay.eq_zero_of_const two_pi_pos
  have hone : (readingAt spinGyro spinGyro 0).gyroXDps = 1 := by
    simp [readingAt, mpu6050Remap, spinGyro]
  rw [hone] at hzero
  exact one_ne_zero hzero

end EdnaDrone
