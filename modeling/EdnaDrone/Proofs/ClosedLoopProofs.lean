import EdnaDrone.ClosedLoop
import EdnaDrone.Proofs.RoundTripProofs

/-!
# Gains that were sent are confirmed

Once the datagrams of a send have arrived, in whatever order and however often, the drone has the
nine gains that were sent, and its packets report them to four decimals. The rounding is half of the
tolerance of `pidDraftsMatch`.
-/

namespace EdnaDrone

open Lib CNum CText

/-! ## Exact numbers in texts -/

/-- `serde_json` prints the number as a decimal of at most 24 bytes that denotes it. -/
def PrintsExactly (ser : ℚ → Bytes) (x : ℚ) : Prop :=
  ∃ n : JsonNumber, ser x = n.text ∧ n.text.length ≤ 24 ∧ n.value = x

def Gains.PrintExactly (ser : ℚ → Bytes) (g : Gains ℚ) : Prop :=
  ∀ x ∈ [g.kp, g.ki, g.kd], PrintsExactly ser x

def Gains.Nonneg (g : Gains ℚ) : Prop := ∀ x ∈ [g.kp, g.ki, g.kd], 0 ≤ x

theorem ofText_value (n : JsonNumber) : (ofText (.num n.neg n.mag) : ℚ) = n.value :=
  Rat.cast_id (Flt.signed n.neg n.mag)

theorem Gains.Nonneg.not_lt_zero {g : Gains ℚ} (h : g.Nonneg) :
    ¬ (g.kp < 0 ∨ g.ki < 0 ∨ g.kd < 0) := by
  unfold Gains.Nonneg at h
  simp only [List.forall_mem_cons] at h
  rw [not_or, not_or]
  exact ⟨h.1.not_gt, h.2.1.not_gt, h.2.2.1.not_gt⟩

theorem Gains.Nonneg.not_malformed {g : Gains ℚ} (h : g.Nonneg) : ¬ g.malformed := by
  have hzero : (ofInt 0 : ℚ) = 0 := by
    rw [ofInt_exact, Int.cast_zero]
  unfold Gains.malformed
  rw [hzero]
  exact h.not_lt_zero

/-! ## From the console to the drone -/

variable {ser : ℚ → Bytes} {sent : PidSet ℚ}

theorem sendUpdate_eq_ok (a : Axis) {g : Gains ℚ} (h : g.Nonneg) :
    sendUpdate ser (some true) a.text g = .ok (updateVec ser a.text g) := by
  have haxis : ¬ ¬ (a.text = ascii "pitch" ∨ a.text = ascii "roll" ∨ a.text = ascii "yaw") := by
    rw [not_not]
    cases a with
    | pitch => exact Or.inl rfl
    | roll => exact Or.inr (Or.inl rfl)
    | yaw => exact Or.inr (Or.inr rfl)
  have hzero : (ofRat 0 : ℚ) = 0 := by
    rw [ofRat_exact, Rat.cast_zero]
  unfold sendUpdate
  rw [if_neg haxis, hzero, if_neg h.not_lt_zero]

/-- A datagram gives its axis the gains that were sent, and leaves the other axes alone. -/
theorem recv_gains {s : Firmware ℚ} (hsock : 0 ≤ s.wifi.sock) {a : Axis} {g : Gains ℚ}
    (hnonneg : g.Nonneg) (hser : g.PrintExactly ser) (src : SockAddr) :
    ((step s (.recv src (updateVec ser a.text g))).fc.pid a).gains = g ∧
      ∀ b, b ≠ a →
        ((step s (.recv src (updateVec ser a.text g))).fc.pid b).gains = (s.fc.pid b).gains := by
  unfold Gains.PrintExactly at hser
  simp only [List.forall_mem_cons] at hser
  obtain ⟨⟨np, hp, lp, vp⟩, ⟨ni, hi, li, vi⟩, ⟨nd, hd, ld, vd⟩, -⟩ := hser
  have hg : (Gains.ofNumbers np ni nd : Gains ℚ) = g := by
    unfold Gains.ofNumbers
    rw [ofText_value, ofText_value, ofText_value, vp, vi, vd]
  have hfc : (step s (.recv src (updateVec ser a.text g))).fc =
      applyPacket ⟨a.jsonString.bytes, Gains.ofNumbers np ni nd⟩ s.fc := by
    rw [← jsonString_bytes, updateVec_eq hp hi hd]
    exact receive_members (updateMembers_nodup a np ni nd) (by simp [updateMembers])
      (by simp [updateMembers]) (by simp [updateMembers]) (by simp [updateMembers])
      (length_updateMembers_le a lp li ld) hsock src
  rw [hg] at hfc
  rw [hfc]
  obtain ⟨hself, hother⟩ := applyPacket_jsonString a hnonneg.not_malformed
  refine ⟨?_, fun b hb => congrArg PidState.gains (hother b hb)⟩
  rw [hself]
  rfl

/-! ## The runs until the packet -/

/-- Until the packet is sent the socket stays open and an axis that has its gains keeps them. -/
structure HasGains (sent : PidSet ℚ) (a : Axis) (s : Firmware ℚ) : Prop where
  sock : 0 ≤ s.wifi.sock
  gains : (s.fc.pid a).gains = sent a

theorem hasGains_step {s : Firmware ℚ} {e : Event ℚ} {a : Axis} (hnonneg : ∀ a, (sent a).Nonneg)
    (hser : ∀ a, (sent a).PrintExactly ser)
    (he : e.DuringSend fun a => updateVec ser a.text (sent a)) (h : HasGains sent a s) :
    HasGains sent a (step s e) := by
  refine ⟨?_, ?_⟩
  · rw [wifi_frame]
    exact h.sock
  · cases e with
    | recv src data =>
      obtain ⟨b, rfl⟩ := he
      obtain ⟨hself, hother⟩ := recv_gains h.sock (hnonneg b) (hser b) src
      by_cases hab : a = b
      · rw [hab]
        exact hself
      · rw [hother a hab]
        exact h.gains
    | fcInit now => exact he.elim
    | _ => exact (gains_frame (by simp) (by simp) a).trans h.gains

theorem wifi_run (s : Firmware ℚ) (es : List (Event ℚ)) : (runFrom step s es).wifi = s.wifi :=
  runFrom_invariant (fun t : Firmware ℚ => t.wifi = s.wifi) rfl
    (fun _ e h => (wifi_frame e).trans h) es

/-- An axis whose datagram has arrived once has its gains from then on. -/
theorem hasGains_run {s : Firmware ℚ} {es : List (Event ℚ)} {a : Axis} {src : SockAddr}
    (hnonneg : ∀ a, (sent a).Nonneg) (hser : ∀ a, (sent a).PrintExactly ser)
    (hsock : 0 ≤ s.wifi.sock) (hes : ∀ e ∈ es, e.DuringSend fun a => updateVec ser a.text (sent a))
    (hrecv : .recv src (updateVec ser a.text (sent a)) ∈ es) :
    HasGains sent a (runFrom step s es) := by
  obtain ⟨pre, post, rfl⟩ := List.append_of_mem hrecv
  have hpre : 0 ≤ (runFrom step s pre).wifi.sock := by
    rw [wifi_run]
    exact hsock
  have hfirst : HasGains sent a
      (step (runFrom step s pre) (.recv src (updateVec ser a.text (sent a)))) := by
    refine ⟨?_, (recv_gains hpre (hnonneg a) (hser a) src).1⟩
    rw [wifi_frame]
    exact hpre
  have hpost : ∀ e ∈ post, e.DuringSend fun a => updateVec ser a.text (sent a) := fun e he =>
    hes e (List.mem_append_right _ (List.mem_cons_of_mem _ he))
  rw [runFrom_append, runFrom_cons]
  exact (allSteps_of_forall hpost).invariant (HasGains sent a) hfirst
    fun s e he h => hasGains_step hnonneg hser he h

/-! ## From the drone to the console -/

/-- The number that `%.pf` prints for a rational. -/
def exactNumber (p : ℕ) (q : ℚ) : JsonNumber := fixedNumber p (decide (q < 0)) (scaled p |q|)

theorem fmtExact_eq {p : ℕ} (hp : 0 < p) (q : ℚ) :
    fmtExact p q = (exactNumber p q).text ∧ (exactNumber p q).value = roundTo p q := by
  have hsigned : Flt.signed (decide (q < 0)) |q| = q := by
    unfold Flt.signed
    by_cases h : q < 0
    · rw [if_pos (by simpa using h), abs_of_neg h, neg_neg]
    · rw [if_neg (by simpa using h), abs_of_nonneg (not_lt.1 h)]
  refine ⟨(text_fixedNumber hp _ _).symm, ?_⟩
  unfold exactNumber
  rw [value_fixedNumber hp (abs_nonneg q), hsigned]

theorem prints_exact (r : Report ℚ) : r.Prints fmtExact exactNumber id := by
  have hP : ∀ p (x : ℚ), 0 < p →
      fmtExact p x = (exactNumber p x).text ∧ (exactNumber p x).value = roundTo p x :=
    fun p x hp => fmtExact_eq hp x
  exact prints_of_forall hP (fun x _ => by norm_num) fun a x _ => by norm_num

/-- The gains that the console reads in a packet are those of the report, to four decimals. -/
theorem pidDraftsFromPacket_packet (r : Report ℚ) (a : Axis) (k : GainKey) :
    (pidDraftsFromPacket (r.packet id) a).get k = roundTo 4 ((r.gains a).get k) := by
  cases a <;> cases k <;> rfl

/-- The rounding of `%.4f` is within the tolerance of the console. -/
theorem abs_roundTo_sub_tolerance (q : ℚ) :
    fabs (roundTo 4 q - q) ≤ (ofRat (1 / 10000) : ℚ) := by
  rw [ofRat_exact, Rat.cast_id]
  refine (abs_roundTo_sub_le 4 q).trans ?_
  norm_num

theorem draftsMatch_packet {r : Report ℚ} (h : r.gains = sent) :
    draftsMatch (fun _ => true) (pidDraftsFromPacket (r.packet id)) sent = true := by
  unfold draftsMatch
  rw [List.all_eq_true]
  intro a _
  rw [List.all_eq_true]
  intro k _
  dsimp only
  rw [Bool.and_self, if_pos rfl, pidDraftsFromPacket_packet, h, decide_eq_true_eq]
  exact abs_roundTo_sub_tolerance _

theorem sock_of_send {s : Firmware ℚ} {takeImu takeSetpoint : Bool} {out : SendTo}
    (h : telemetrySendWith fmtExact takeImu takeSetpoint s = some out) : 0 ≤ s.wifi.sock := by
  by_contra hsock
  have hno : s.wifi.sock < 0 ∨ s.telem.clientSet = false := Or.inl (not_le.1 hsock)
  unfold telemetrySendWith telemetryReport at h
  rw [if_pos hno] at h
  cases h

/-- After the three datagrams of a send, the first packet that fits confirms it. -/
theorem confirmation_complete (hnonneg : ∀ a, (sent a).Nonneg)
    (hser : ∀ a, (sent a).PrintExactly ser) :
    (∀ a, sendUpdate ser (some true) a.text (sent a) = .ok (updateVec ser a.text (sent a))) ∧
    ∀ (s : Firmware ℚ) (es : List (Event ℚ)),
      (∀ e ∈ es, e.DuringSend fun a => updateVec ser a.text (sent a)) →
      (∀ a, ∃ src, .recv src (updateVec ser a.text (sent a)) ∈ es) →
      ∀ (takeImu takeSetpoint : Bool) (out : SendTo),
        telemetrySendWith fmtExact takeImu takeSetpoint (runFrom step s es) = some out →
        (runFrom step s es).report.IntsInRange → out.len < 512 →
        ∀ (lossy : Bytes → Bytes) (read : Bytes → Option JsonDict),
          DecodesAscii lossy → ReadsFlat read →
          ∃ packet, receiveTelemetry lossy read out.datagram = [some packet] ∧
            draftsMatch (fun _ => true) (pidDraftsFromPacket packet) sent = true ∧
            confirmPending (some sent) (some packet) = some sent := by
  refine ⟨fun a => sendUpdate_eq_ok a (hnonneg a), ?_⟩
  intro s es hes hrecv takeImu takeSetpoint out hsend hint hfits lossy read hlossy hread
  have hsock : 0 ≤ s.wifi.sock := by
    rw [← wifi_run s es]
    exact sock_of_send hsend
  have hgains : (runFrom step s es).report.gains = sent := by
    funext a
    obtain ⟨src, hmem⟩ := hrecv a
    exact (hasGains_run hnonneg hser hsock hes hmem).gains
  obtain ⟨hdata, hlen⟩ := datagram_of_send hsend hfits
  have hmatch := draftsMatch_packet hgains
  refine ⟨(runFrom step s es).report.packet id, ?_, hmatch, ?_⟩
  · rw [hdata]
    exact receiveTelemetry_message hlossy hread (prints_exact _) hint (by omega)
  · exact if_pos hmatch

/-! ## A sample send -/

def exactPrinter (x : ℚ) : Bytes :=
  if x = num15.value then num15.text else if x = num01.value then num01.text else num002.text

def sampleSent : PidSet ℚ
  | .pitch => ⟨num15.value, num01.value, num002.value⟩
  | .roll => ⟨num01.value, num15.value, num002.value⟩
  | .yaw => ⟨num002.value, num15.value, num01.value⟩

def samplePayload (a : Axis) : Bytes := updateVec exactPrinter a.text (sampleSent a)

theorem samples_exact (a : Axis) : (sampleSent a).Nonneg ∧ (sampleSent a).PrintExactly exactPrinter := by
  have h15 : PrintsExactly exactPrinter num15.value := ⟨num15, by decide +kernel, by decide, rfl⟩
  have h01 : PrintsExactly exactPrinter num01.value := ⟨num01, by decide +kernel, by decide, rfl⟩
  have h002 : PrintsExactly exactPrinter num002.value := ⟨num002, by decide +kernel, by decide, rfl⟩
  have hnonneg : 0 ≤ num15.value ∧ 0 ≤ num01.value ∧ 0 ≤ num002.value := by decide +kernel
  unfold Gains.Nonneg Gains.PrintExactly
  cases a <;> simp [sampleSent, h15, h01, h002, hnonneg]

/-- The datagram for yaw comes twice, and an iteration of the flight task runs meanwhile. -/
def sampleRun : List (Event ℚ) :=
  [.recv ⟨1, 1⟩ (samplePayload .yaw), .fcTakeImu true, .recv ⟨1, 1⟩ (samplePayload .pitch),
    .fcTakeSetpoint true, .fcAct 2500, .recv ⟨2, 2⟩ (samplePayload .yaw),
    .recv ⟨1, 1⟩ (samplePayload .roll)]

theorem sampleRun_duringSend : ∀ e ∈ sampleRun, e.DuringSend samplePayload := by
  unfold sampleRun
  simp only [List.forall_mem_cons]
  exact ⟨⟨.yaw, rfl⟩, trivial, ⟨.pitch, rfl⟩, trivial, trivial, ⟨.yaw, rfl⟩, ⟨.roll, rfl⟩,
    fun _ h => absurd h List.not_mem_nil⟩

theorem recv_mem_sampleRun (a : Axis) : ∃ src, .recv src (samplePayload a) ∈ sampleRun := by
  cases a with
  | pitch => exact ⟨⟨1, 1⟩, by simp [sampleRun]⟩
  | roll => exact ⟨⟨1, 1⟩, by simp [sampleRun]⟩
  | yaw => exact ⟨⟨1, 1⟩, by simp [sampleRun]⟩

theorem confirmation_complete_sample :
    ∃ out packet, telemetrySendWith fmtExact true true
        (runFrom step (run 3 [.fcInit 0]) sampleRun) = some out ∧
      receiveTelemetry id readFlat out.datagram = [some packet] ∧
      confirmPending (some sampleSent) (some packet) = some sampleSent := by
  have hsome : (telemetrySendWith fmtExact true true
      (runFrom step (run 3 [.fcInit 0]) sampleRun)).isSome := by decide +kernel
  have hascii : DecodesAscii id := fun _ _ => rfl
  obtain ⟨packet, hpacket, -, hconfirm⟩ := (confirmation_complete
    (fun a => (samples_exact a).1) fun a => (samples_exact a).2).2 (run 3 [.fcInit 0]) sampleRun
    sampleRun_duringSend recv_mem_sampleRun true true _ (Option.some_get hsome).symm
    ⟨by decide +kernel, by decide +kernel⟩ (by decide +kernel +revert) id readFlat hascii
    readFlat_reads
  exact ⟨_, packet, (Option.some_get hsome).symm, hpacket, hconfirm⟩

end EdnaDrone
