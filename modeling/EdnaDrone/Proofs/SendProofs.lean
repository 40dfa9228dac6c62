import EdnaDrone.Proofs.GainProofs

/-!
# The length that `telemetry_send` passes to `sendto`

`snprintf` returns the length of the whole text, and `telemetry_send` hands it to `sendto` without
looking at it. The fixed part of the text takes 243 of the 511 bytes that the buffer can hold, so the
length is right exactly when the 23 printed values take at most 268.
-/

namespace EdnaDrone

open Lib CNum

variable {fmt : FloatFormat}

/-! ## The width of a report -/

def Gains.width (g : Gains (Flt fmt)) : ℕ :=
  fixedWidth 4 g.kp + fixedWidth 4 g.ki + fixedWidth 4 g.kd

/-- The number of bytes that the values of a report take in the message. -/
def Report.width (r : Report (Flt fmt)) : ℕ :=
  fixedWidth 2 r.pitch + fixedWidth 2 r.roll + fixedWidth 2 r.yawRate +
    (fixedWidth 2 r.pitchSp + fixedWidth 2 r.rollSp + fixedWidth 2 r.yawSp) +
    (fixedWidth 2 r.pitchOut + fixedWidth 2 r.rollOut + fixedWidth 2 r.yawOut) +
    (numDigits r.mFl + numDigits r.mFr + numDigits r.mRl + numDigits r.mRr) +
    (fmtInt r.throttle).length +
    ((r.gains .pitch).width + (r.gains .roll).width + (r.gains .yaw).width)

theorem gainsText_length (gains : Axis → Gains (Flt fmt)) :
    (gainsText gains).length =
      98 + ((gains .pitch).width + (gains .roll).width + (gains .yaw).width) := by
  have h : ∀ x : Flt fmt, (fmtFixed 4 x).length = fixedWidth 4 x := fmtFixed_length (by decide)
  unfold gainsText Gains.width
  simp only [List.length_append, h, length_ascii, String.reduceToList, List.length_cons,
    List.length_nil]
  omega

theorem text_length (r : Report (Flt fmt)) : r.text.length = 243 + r.width := by
  have h : ∀ x : Flt fmt, (fmtFixed 2 x).length = fixedWidth 2 x := fmtFixed_length (by decide)
  have hn : ∀ n, (fmtNat n).length = numDigits n := fun _ => rfl
  unfold Report.text Report.width
  simp only [List.length_append, h, hn, gainsText_length, length_ascii]
  simp only [String.reduceToList]
  simp only [List.length_cons, List.length_nil, Nat.zero_add, Nat.reduceAdd]
  generalize (fmtInt r.throttle).length = n
  omega

/-! ## The length -/

/-- The length passed to `sendto` is at most the number of bytes stored in the buffer. -/
def SendInBounds (s : Firmware CFloat) : Event CFloat → Prop
  | .send takeImu takeSetpoint => ∀ out, telemetrySend takeImu takeSetpoint s = some out →
    out.len ≤ out.buf.length
  | _ => True

/-- A report that is printed has values of at most 268 bytes in all. -/
def SendFits (s : Firmware CFloat) : Event CFloat → Prop
  | .send takeImu takeSetpoint => ∀ dest r, telemetryReport takeImu takeSetpoint s = some (dest, r) →
    r.width ≤ 268
  | _ => True

theorem snprintf_len_le (text : Bytes) :
    (snprintf 512 text).2 ≤ (snprintf 512 text).1.length ↔ text.length ≤ 511 := by
  simp only [snprintf, List.length_take]
  omega

theorem sendInBounds_iff {s : Firmware CFloat} {e : Event CFloat} :
    SendInBounds s e ↔ SendFits s e := by
  cases e with
  | send takeImu takeSetpoint =>
    simp only [SendInBounds, SendFits, telemetrySend]
    cases telemetryReport takeImu takeSetpoint s with
    | none => simp
    | some x =>
      obtain ⟨dest, r⟩ := x
      have hr := text_length r
      have hlen := snprintf_len_le r.text
      simp only [Option.map_some, Option.some.injEq, forall_eq', Prod.mk.injEq, and_imp]
      constructor
      · rintro h _ _ rfl rfl
        have := hlen.1 h
        omega
      · intro h
        have := h dest r rfl rfl
        exact hlen.2 (by omega)
  | _ => exact Iff.rfl

/-- In every run, every length passed to `sendto` is in bounds exactly when every report sent has
values of at most 268 bytes. -/
theorem sends_in_bounds_iff (sock : ℤ) (es : List (Event CFloat)) :
    AllSteps step SendInBounds (boot sock) es ↔ AllSteps step SendFits (boot sock) es :=
  allSteps_iff_of_invariant (R := fun _ => True) (fun _ => True) trivial (fun _ _ => trivial)
    (fun _ _ _ _ => sendInBounds_iff) fun _ _ _ _ _ => trivial

/-! ## Reports in their ranges -/

/-- The ranges of what is reported: attitude, setpoints, outputs, pulses and sane gains. -/
structure Report.InRange (r : Report CFloat) : Prop where
  attitude : ∀ x ∈ [r.pitch, r.roll, r.yawRate], Flt.Bounded 8 x
  setpoints : ∀ x ∈ [r.pitchSp, r.rollSp, r.yawSp], Flt.Bounded 8 x
  outputs : ∀ x ∈ [r.pitchOut, r.rollOut, r.yawOut], Flt.Bounded 8 x
  motors : ∀ m ∈ [r.mFl, r.mFr, r.mRl, r.mRr], escPwmMinUs ≤ m ∧ m ≤ escPwmMaxUs
  throttle : (escPwmMinUs : ℤ) ≤ r.throttle ∧ r.throttle ≤ escPwmFlightMaxUs
  gains : ∀ a, ∀ x ∈ [(r.gains a).kp, (r.gains a).ki, (r.gains a).kd], SaneGain x

theorem fixedWidth_le_of_bounded {x : CFloat} (h : Flt.Bounded 8 x) : fixedWidth 2 x ≤ 8 := by
  cases x with
  | nan => exact h.elim
  | inf s => exact h.elim
  | fin s a =>
    have h1 : (a : ℚ) ≤ 10 ^ 3 := by
      refine le_trans (show (a : ℚ) ≤ 2 ^ (8 : ℤ) from h) ?_
      norm_num
    have h2 := fixedWidth_le (p := 2) (s := s) h1
    have h3 := s.toNat_le
    omega

theorem fixedWidth_le_of_gain {x : CFloat} (h : SaneGain x) (hx : |x.val| ≤ 10 ^ 12) :
    fixedWidth 4 x ≤ 19 := by
  cases x with
  | nan => exact h.1.elim
  | inf s => exact h.1.elim
  | fin s a =>
    have h1 : (a : ℚ) ≤ 10 ^ 12 := by
      have h0 : |Flt.signed s (a : ℚ)| ≤ 10 ^ 12 := hx
      rwa [Flt.abs_signed, abs_of_nonneg a.2.1] at h0
    have h2 := fixedWidth_le (p := 4) (s := s) h1
    have h3 := s.toNat_le
    omega

/-- A report in its ranges with gains of at most `10 ^ 12` fits. -/
theorem width_le_of_inRange {r : Report CFloat} (h : r.InRange)
    (hg : ∀ a, ∀ x ∈ [(r.gains a).kp, (r.gains a).ki, (r.gains a).kd], |x.val| ≤ 10 ^ 12) :
    r.width ≤ 268 := by
  have hd : ∀ m ∈ [r.mFl, r.mFr, r.mRl, r.mRr], numDigits m ≤ 4 := by
    intro m hm
    exact numDigits_le (by norm_num) ((h.motors m hm).2.trans_lt (by decide))
  have ht : (fmtInt r.throttle).length ≤ 4 := by
    obtain ⟨h1, h2⟩ := h.throttle
    have h0 : ¬ r.throttle < 0 := not_lt.2 (le_trans (by decide) h1)
    unfold fmtInt
    rw [if_neg h0]
    have h3 : r.throttle.natAbs < 10 ^ 4 := by
      have h4 : r.throttle ≤ 1300 := h2
      omega
    exact numDigits_le (by norm_num) h3
  have hw : ∀ a, (r.gains a).width ≤ 57 := by
    intro a
    have hx : ∀ x ∈ [(r.gains a).kp, (r.gains a).ki, (r.gains a).kd], fixedWidth 4 x ≤ 19 :=
      fun x hx => fixedWidth_le_of_gain (h.gains a x hx) (hg a x hx)
    simp only [List.forall_mem_cons] at hx
    unfold Gains.width
    omega
  have h8 : ∀ {xs : List CFloat}, (∀ x ∈ xs, Flt.Bounded 8 x) → ∀ x ∈ xs, fixedWidth 2 x ≤ 8 :=
    fun h x hx => fixedWidth_le_of_bounded (h x hx)
  have h1 := h8 h.attitude
  have h2 := h8 h.setpoints
  have h3 := h8 h.outputs
  simp only [List.forall_mem_cons] at h1 h2 h3 hd
  have hp := hw .pitch
  have hr := hw .roll
  have hy := hw .yaw
  unfold Report.width
  generalize (fmtInt r.throttle).length = n at ht ⊢
  omega

/-- Datagrams that set the three gains of an axis to `3e38`. -/
def hugeDatagrams : List (Event CFloat) :=
  [.recv ⟨1, 1⟩ (ascii "\x7b\"axis\":\"pitch\",\"kp\":3e38,\"ki\":3e38,\"kd\":3e38\x7d"),
    .recv ⟨1, 1⟩ (ascii "\x7b\"axis\":\"roll\",\"kp\":3e38,\"ki\":3e38,\"kd\":3e38\x7d"),
    .recv ⟨1, 1⟩ (ascii "\x7b\"axis\":\"yaw\",\"kp\":3e38,\"ki\":3e38,\"kd\":3e38\x7d")]

def hugeGains : Gains CFloat := ⟨ofRat (3 * 10 ^ 38), ofRat (3 * 10 ^ 38), ofRat (3 * 10 ^ 38)⟩

/-- What the datagrams leave of the state after the start of the flight task. -/
def hugeState : Firmware CFloat :=
  let s : Firmware CFloat := flightControllerInit 0 (boot 3)
  { s with
    task := .wait
    telem := { s.telem with client := ⟨1, 1⟩, clientSet := true }
    fc := ((s.fc.setGains .pitch hugeGains).setGains .roll hugeGains).setGains .yaw hugeGains }

theorem applyPacket_huge {a : Axis} {data : Bytes}
    (hgains : (parsePacket (cstr (recvBuf data)) : PidPacket CFloat).gains = hugeGains)
    (haxis : selectAxis (parsePacket (cstr (recvBuf data)) : PidPacket CFloat).axis = some a)
    (fc : FlightController CFloat) :
    applyPacket (parsePacket (cstr (recvBuf data))) fc = fc.setGains a hugeGains := by
  have hgood : ¬ hugeGains.malformed := by decide +kernel
  rw [applyPacket_eq_setGains (hgains ▸ hgood) haxis, hgains]

theorem run_hugeDatagrams : run 3 (.fcInit 0 :: hugeDatagrams) = hugeState := by
  have hopen : ∀ s : Firmware CFloat, s.wifi.sock = 3 → ¬ s.wifi.sock < 0 := by
    intro s hs
    omega
  rw [run, runFrom_cons, hugeDatagrams, runFrom_cons, runFrom_cons, runFrom_cons, runFrom_nil,
    step_recv (hopen _ rfl) (by decide), step_recv (hopen _ rfl) (by decide),
    step_recv (hopen _ rfl) (by decide)]
  rw [applyPacket_huge (a := .pitch) (by decide +kernel) (by decide +kernel),
    applyPacket_huge (a := .roll) (by decide +kernel) (by decide +kernel),
    applyPacket_huge (a := .yaw) (by decide +kernel) (by decide +kernel)]
  rfl

/-- With nine gains of 39 digits the length is beyond the buffer. -/
theorem send_overruns :
    ¬ ∀ (sock : ℤ) (es : List (Event CFloat)) (takeImu takeSetpoint : Bool),
      (run sock es).report.InRange → SendInBounds (run sock es) (.send takeImu takeSetpoint) := by
  intro h
  have hsend := h 3 (.fcInit 0 :: hugeDatagrams) true true
  rw [run_hugeDatagrams] at hsend
  have hfits := hsend
    ⟨by decide +kernel, by decide +kernel, by decide +kernel, by decide +kernel, by decide +kernel,
      by intro a; cases a <;> decide +kernel⟩
  have hsome : (telemetrySend true true hugeState).isSome := by decide +kernel
  have hlen := hfits _ (Option.some_get hsome).symm
  revert hlen
  decide +kernel +revert

end EdnaDrone
