import EdnaDrone.Proofs.GainProofs
import EdnaDrone.TelemetryBuffer

/-!
# A datagram is taken whole or not at all

The datagram is any byte string: keys may be missing, repeated or cut off, and NULs may stand
anywhere. The pointers of the decoder only move over the C string that the datagram starts with, so no
access faults, and what the decoder extracts is a function of that string.
-/

namespace EdnaDrone

open Lib CNum CText

/-! ## The decoder stays in its buffers -/

section Decoder

variable {F : Type} [CText F] {json text : Bytes} {p i outlen : ℕ}

theorem jsonGetFloatAt_eq (h : IsCStr json 0 text) (key : Bytes) (d : F) :
    jsonGetFloatAt json key d = some (jsonGetFloat text key d) := by
  unfold jsonGetFloatAt jsonGetFloat
  rcases h.strstrAt_eq (searchText key [34, 58]) with ⟨hs, hat⟩ | ⟨r, q, hs, hat, hr⟩
  · simp [hs, hat]
  · obtain ⟨q', hskip, hq'⟩ := hr.skipWhileAt_eq (fun c => c == 32 || c == 9) rfl
    rcases hq'.strtofAt_eq with ⟨hn, hv⟩ | ⟨v, rest, fin, hn, hv, hne⟩
    · simp [hs, hat, hskip, hn, hv]
    · simp [hs, hat, hskip, hn, hv, hne]

theorem jsonGetStrLoop_of_getElem? {c : Byte} (h : json[p]? = some c) (out : Bytes) (i : ℕ) :
    jsonGetStrLoop json outlen out p i =
      if c ≠ 0 ∧ c ≠ 34 ∧ i < outlen - 1 then
        (putAt out i c).bind fun out => jsonGetStrLoop json outlen out (p + 1) (i + 1)
      else putAt out i 0 := by
  rw [jsonGetStrLoop]
  split
  · rename_i h'
    rw [h] at h'
    cases h'
  · rename_i d h'
    rw [h] at h'
    cases h'
    split
    · cases putAt out i c <;> rfl
    · rfl

/-- The loop with `i` bytes in `out` and the string `text` ahead: it copies up to the quote, as far
as there is room, and leaves a string in `out`. -/
theorem jsonGetStrLoop_eq {out : Bytes} (h : IsCStr json p text) (hout : out.length = outlen)
    (hi : i < outlen) (h0 : 0 ∉ out.take i) :
    ∃ out', jsonGetStrLoop json outlen out p i = some out' ∧ out'.length = outlen ∧
      cstr out' = out.take i ++ (text.takeWhile (· != 34)).take (outlen - 1 - i) := by
  obtain ⟨stop, hstop, hlen, hcstr⟩ := putAt_nul (hout ▸ hi) h0
  induction text generalizing p i out stop with
  | nil =>
    refine ⟨stop, ?_, hlen.trans hout, by simpa using hcstr⟩
    rw [jsonGetStrLoop_of_getElem? h.getElem?_nil, if_neg (by simp), hstop]
  | cons c text ih =>
    have hc : c ≠ 0 := fun h0 => h.1 (h0 ▸ List.mem_cons_self)
    rw [jsonGetStrLoop_of_getElem? h.getElem?_cons]
    by_cases hq : c = 34
    · refine ⟨stop, ?_, hlen.trans hout, by simpa [hq] using hcstr⟩
      rw [if_neg (by simp [hq]), hstop]
    by_cases hfull : i < outlen - 1
    · have hset : (out.set i c).take (i + 1) = out.take i ++ [c] := by
        rw [List.take_set, List.take_succ_eq_append_getElem (hout ▸ hi),
          List.set_append_right _ _ (by simp), List.length_take, Nat.min_eq_left (by omega),
          Nat.sub_self]
        rfl
      have h0' : 0 ∉ (out.set i c).take (i + 1) := by
        rw [hset, List.mem_append, not_or]
        exact ⟨h0, by simpa using hc.symm⟩
      have hlen' : (out.set i c).length = outlen := List.length_set.trans hout
      have hi' : i + 1 < outlen := by omega
      obtain ⟨stop', hstop', hl', hc'⟩ := putAt_nul (hlen' ▸ hi') h0'
      obtain ⟨out', h1, h2, h3⟩ := ih h.tail hlen' hi' h0' stop' hstop' hl' hc'
      refine ⟨out', ?_, h2, ?_⟩
      · rw [if_pos ⟨hc, hq, hfull⟩, putAt, if_pos (hout ▸ hi), Option.bind_some, h1]
      · obtain ⟨k, hk⟩ : ∃ k, outlen - 1 - i = k + 1 := ⟨outlen - 1 - i - 1, by omega⟩
        have hk' : outlen - 1 - (i + 1) = k := by omega
        rw [h3, hset, hk, hk', List.takeWhile_cons_of_pos (by simpa using hq), List.take_succ_cons,
          List.append_assoc, List.singleton_append]
    · refine ⟨stop, ?_, hlen.trans hout, ?_⟩
      · rw [if_neg (fun hx => hfull hx.2.2), hstop]
      · have hz : outlen - 1 - i = 0 := by omega
        rw [hcstr, hz, List.take_zero, List.append_nil]

theorem jsonGetStrAt_eq {out : Bytes} (h : IsCStr json 0 text) (key : Bytes)
    (hout : out.length = outlen) (hpos : 0 < outlen) :
    ∃ out', jsonGetStrAt json key out outlen = some out' ∧ out'.length = outlen ∧
      cstr out' = jsonGetStr text key outlen := by
  unfold jsonGetStrAt jsonGetStr
  rcases h.strstrAt_eq (searchText key [34, 58, 34]) with ⟨hs, hat⟩ | ⟨r, q, hs, hat, hr⟩
  · have h0 : 0 ∉ out.take 0 := List.not_mem_nil
    obtain ⟨out', h1, h2, h3⟩ := putAt_nul (hout ▸ hpos) h0
    refine ⟨out', ?_, h2.trans hout, ?_⟩
    · simp [hat, h1]
    · simpa [hs] using h3
  · obtain ⟨out', h1, h2, h3⟩ := jsonGetStrLoop_eq hr hout hpos (by simp)
    refine ⟨out', ?_, h2, ?_⟩
    · simp [hat, h1]
    · simpa [hs] using h3

end Decoder

/-! ## The two models agree -/

section Receive

variable {F : Type} [CNum F] [CText F]

theorem extractPacket_eq {axis : Bytes} (haxis : axis.length = 16) (data : Bytes) :
    extractPacket (data ++ [0]) axis = some (parsePacket (cstr data) : PidPacket F) := by
  have h := isCStr_terminated data
  obtain ⟨out, hout, -, hcstr⟩ := jsonGetStrAt_eq h (ascii "axis") haxis (by omega)
  simp [extractPacket, parsePacket, hout, hcstr, jsonGetFloatAt_eq h]

/-- The decoder on its buffers never faults and computes what the decoder on texts computes. -/
theorem telemetryReceivePidUpdatesAt_eq [LT F] [DecidableLT F] {axis : Bytes} (haxis : axis.length = 16)
    (recv : Option (SockAddr × Bytes)) (s : Firmware F) :
    telemetryReceivePidUpdatesAt axis recv s = some (telemetryReceivePidUpdates recv s) := by
  unfold telemetryReceivePidUpdatesAt telemetryReceivePidUpdates
  by_cases hsock : s.wifi.sock < 0
  · rw [if_pos hsock, if_pos hsock]
  · rw [if_neg hsock, if_neg hsock]
    cases recv with
    | none => rfl
    | some x =>
      obtain ⟨src, data⟩ := x
      by_cases hbuf : recvBuf data = []
      · simp [hbuf]
      · simp [hbuf, extractPacket_eq haxis]

end Receive

/-! ## The law -/

/-- The text behind the first occurrence of a key. -/
def fieldText (text key tail : Bytes) : Option Bytes :=
  (strstr text (searchText key tail)).map fun p => p.drop (searchText key tail).length

/-- The key is missing, or what follows it is no number, or a number that is a float below zero. -/
def NoGain (text key : Bytes) : Prop :=
  fieldText text key [34, 58] = none ∨ ∃ p, fieldText text key [34, 58] = some p ∧
    (strtof p = none ∨ ∃ v rest, strtof p = some (v, rest) ∧ (ofText v : CFloat) < ofInt 0)

/-- The axis text up to its quote, however long it is. -/
def axisText (text : Bytes) : Bytes :=
  match fieldText text (ascii "axis") [34, 58, 34] with
  | none => []
  | some p => p.takeWhile (· != 34)

/-- One of the three gains is absent or negative, or the axis is none of the three. -/
def Rejected (text : Bytes) : Prop :=
  NoGain text (ascii "kp") ∨ NoGain text (ascii "ki") ∨ NoGain text (ascii "kd") ∨
    ∀ a : Axis, (axisText text).take 15 ≠ a.text

/-- Exactly the gains of exactly one PID are replaced, by `g`. -/
def FlightController.ReplacesGains {F : Type} (fc fc' : FlightController F) (g : Gains F) : Prop :=
  ∃ a, fc'.pid a = { fc.pid a with kp := g.kp, ki := g.ki, kd := g.kd } ∧
    ∀ b, b ≠ a → fc'.pid b = fc.pid b

/-! ## What is rejected -/

theorem jsonGetStr_axis (text : Bytes) :
    jsonGetStr text (ascii "axis") 16 = (axisText text).take 15 := by
  unfold jsonGetStr axisText fieldText
  cases hs : strstr text (searchText (ascii "axis") [34, 58, 34]) with
  | none => simp only [hs, Option.map_none, List.take_nil]
  | some p => simp only [hs, Option.map_some]

/-- `json_get_float` skips blanks that `strtof` would skip as well. -/
theorem strtof_dropWhile_blank (p : Bytes) :
    strtof (p.dropWhile fun c => c == 32 || c == 9) = strtof p := by
  unfold strtof
  rw [dropWhile_dropWhile_of_imp]
  intro c hc
  rw [Bool.or_eq_true, beq_iff_eq, beq_iff_eq] at hc
  rcases hc with rfl | rfl
  · rfl
  · rfl

theorem jsonGetFloat_lt_zero_iff (text key : Bytes) :
    (jsonGetFloat text key (ofRat (-1)) : CFloat) < ofInt 0 ↔ NoGain text key := by
  have hneg : (ofRat (-1) : CFloat) < ofInt 0 := by decide +kernel
  unfold jsonGetFloat NoGain fieldText
  cases hs : strstr text (searchText key [34, 58]) with
  | none => simp [hs, hneg]
  | some p =>
    simp only [hs, strtof_dropWhile_blank, Option.map_some, Option.some.injEq, exists_eq_left']
    cases strtof (p.drop (searchText key [34, 58]).length) with
    | none => simp [hneg]
    | some x =>
      obtain ⟨v, rest⟩ := x
      simp

theorem selectAxis_eq_none_iff (axis : Bytes) :
    selectAxis axis = none ↔ ∀ a : Axis, axis ≠ a.text := by
  unfold selectAxis
  constructor
  · intro h a ha
    split_ifs at h with h1 h2 h3
    cases a with
    | pitch => exact h1 ha
    | roll => exact h2 ha
    | yaw => exact h3 ha
  · intro h
    rw [if_neg (h .pitch), if_neg (h .roll), if_neg (h .yaw)]

theorem rejected_iff (text : Bytes) :
    Rejected text ↔
      (parsePacket text : PidPacket CFloat).gains.malformed ∨
        selectAxis (parsePacket text : PidPacket CFloat).axis = none := by
  simp only [Rejected, Gains.malformed, parsePacket, jsonGetFloat_lt_zero_iff, jsonGetStr_axis,
    selectAxis_eq_none_iff, or_assoc]

theorem applyPacket_of_rejected {text : Bytes} (h : Rejected text) (fc : FlightController CFloat) :
    applyPacket (parsePacket text) fc = fc := by
  unfold applyPacket
  rcases (rejected_iff text).1 h with hm | hs
  · rw [if_pos hm]
  · rw [hs]
    split <;> rfl

theorem applyPacket_of_not_rejected {text : Bytes} (h : ¬ Rejected text)
    (fc : FlightController CFloat) :
    fc.ReplacesGains (applyPacket (parsePacket text) fc)
      (parsePacket text : PidPacket CFloat).gains := by
  rw [rejected_iff, not_or] at h
  obtain ⟨a, ha⟩ := Option.ne_none_iff_exists'.1 h.2
  refine ⟨a, ?_, ?_⟩
  · rw [pid_applyPacket, if_pos ⟨h.1, ha⟩]
    rfl
  · intro b hb
    rw [pid_applyPacket, if_neg]
    rintro ⟨-, hsel⟩
    rw [ha, Option.some.injEq] at hsel
    exact hb hsel.symm

/-- An axis text that does not fit into the array is cut to 15 bytes, more than an axis has. -/
theorem cut_axis_rejected {text : Bytes} (h : 15 < (axisText text).length) (a : Axis) :
    (axisText text).take 15 ≠ a.text := by
  intro ha
  have hlen := congrArg List.length ha
  rw [List.length_take, Nat.min_eq_left h.le] at hlen
  cases a <;> simp [Axis.text, length_ascii] at hlen

/-- For every datagram that fits into the buffer, the decoder stays inside `buf` and `axis`, and
either no PID changes, or exactly the three gains of exactly one. -/
theorem datagram_all_or_nothing (src : SockAddr) (data axis : Bytes) (s : Firmware CFloat)
    (hdata : data.length ≤ 255) (haxis : axis.length = 16) :
    ∃ (p : PidPacket CFloat) (t : Firmware CFloat),
      extractPacket (data ++ [0]) axis = some p ∧
      telemetryReceivePidUpdatesAt axis (some (src, data)) s = some t ∧
      (t.fc = s.fc ∨ s.fc.ReplacesGains t.fc p.gains) ∧
      (Rejected (cstr data) → t.fc = s.fc) ∧
      p.axis = (axisText (cstr data)).take 15 ∧
      (15 < (axisText (cstr data)).length → selectAxis p.axis = none) := by
  have hrecv : recvBuf data = data := List.take_of_length_le hdata
  obtain ⟨telem, -, ht⟩ := receive_eq (s := s) src data
  refine ⟨_, _, extractPacket_eq haxis data, telemetryReceivePidUpdatesAt_eq haxis _ s, ?_, ?_,
    jsonGetStr_axis _, ?_⟩
  · rw [ht, hrecv]
    dsimp only
    split
    · exact Or.inl rfl
    · by_cases hr : Rejected (cstr data)
      · exact Or.inl (applyPacket_of_rejected hr s.fc)
      · exact Or.inr (applyPacket_of_not_rejected hr s.fc)
  · intro hr
    rw [ht, hrecv]
    dsimp only
    split
    · rfl
    · exact applyPacket_of_rejected hr s.fc
  · intro hcut
    rw [selectAxis_eq_none_iff, show (parsePacket (cstr data) : PidPacket CFloat).axis = _ from
      jsonGetStr_axis _]
    exact cut_axis_rejected hcut

/-- A datagram with an axis text of sixteen bytes. -/
def longAxisDatagram : Bytes :=
  ascii "\x7b\"axis\":\"pitchpitchpitchp\",\"kp\":1.5,\"ki\":0.1,\"kd\":0.02\x7d"

theorem datagram_all_or_nothing_long_axis :
    ∃ (p : PidPacket CFloat) (t : Firmware CFloat),
      extractPacket (longAxisDatagram ++ [0]) (List.replicate 16 255) = some p ∧
      telemetryReceivePidUpdatesAt (List.replicate 16 255) (some (⟨1, 1⟩, longAxisDatagram))
        (boot 3) = some t ∧
      (t.fc = (boot 3).fc ∨ (boot 3).fc.ReplacesGains t.fc p.gains) ∧
      (Rejected (cstr longAxisDatagram) → t.fc = (boot 3).fc) ∧
      p.axis = (axisText (cstr longAxisDatagram)).take 15 ∧
      (15 < (axisText (cstr longAxisDatagram)).length → selectAxis p.axis = none) :=
  datagram_all_or_nothing ⟨1, 1⟩ longAxisDatagram (List.replicate 16 255) (boot 3) (by decide)
    rfl

end EdnaDrone
