import EdnaDrone.Receivers
import EdnaDrone.Proofs.UpdateProofs

/-!
# Telemetry packets come back from both consoles

The message is a JSON object whose members are the 23 values under the names that the consoles use.
Each value is printed as a JSON number, so a console reads the number that was printed.
-/

namespace EdnaDrone

open Lib CNum

section Messages

variable {F : Type} {r : Report F}

/-! ## The message as an object -/

/-- The JSON number that a value is printed as, where `num` says so for `%.pf`. -/
def ReportValue.number (num : ℕ → F → JsonNumber) : ReportValue F → JsonNumber
  | .fixed p x => num p x
  | .nat n => intNumber false n
  | .int n => intNumber (decide (n < 0)) n.natAbs

def Report.members (num : ℕ → F → JsonNumber) (r : Report F) : List JsonMember :=
  r.entries.map fun e => ⟨e.1, .num (e.2.number num)⟩

/-- `fixed` prints the values of the report as the JSON numbers `num`, and these denote the values
that `val` reads, rounded. -/
structure Report.Prints (fixed : ℕ → F → Bytes) (num : ℕ → F → JsonNumber) (val : F → ℚ)
    (r : Report F) : Prop where
  text : ∀ name p x, (name, .fixed p x) ∈ r.entries → fixed p x = (num p x).text
  value : ∀ name p x, (name, .fixed p x) ∈ r.entries → (num p x).value = roundTo p (val x)

variable {fixed : ℕ → F → Bytes} {num : ℕ → F → JsonNumber} {val : F → ℚ}

theorem fmtInt_eq (n : ℤ) : fmtInt n = (intNumber (decide (n < 0)) n.natAbs).text := by
  rw [text_intNumber]
  unfold fmtInt fmtSign
  by_cases h : n < 0
  · simp [h]
  · simp [h]

theorem Report.Prints.text_eq (h : r.Prints fixed num val) {e : JsonString × ReportValue F}
    (he : e ∈ r.entries) : e.2.text fixed = (e.2.number num).text := by
  obtain ⟨name, v⟩ := e
  cases v with
  | fixed p x => exact h.text name p x he
  | nat n => exact (text_intNumber false n).symm
  | int n => exact fmtInt_eq n

theorem value_int (n : ℤ) : (intNumber (decide (n < 0)) n.natAbs).value = n := by
  rw [JsonNumber.value, mag_intNumber]
  show Flt.signed (decide (n < 0)) (n.natAbs : ℚ) = n
  rw [Nat.cast_natAbs]
  unfold Flt.signed
  by_cases h : n < 0
  · rw [if_pos (by simpa using h), abs_of_neg h]
    push_cast
    ring
  · rw [if_neg (by simpa using h), abs_of_nonneg (not_lt.1 h)]

theorem Report.Prints.value_eq (h : r.Prints fixed num val) {e : JsonString × ReportValue F}
    (he : e ∈ r.entries) : (e.2.number num).value = e.2.rounded val := by
  obtain ⟨name, v⟩ := e
  cases v with
  | fixed p x => exact h.value name p x he
  | nat n => exact mag_intNumber false n
  | int n => exact value_int n

theorem Report.Prints.message_eq (h : r.Prints fixed num val) :
    r.message fixed = jsonObject compact (r.members num) ++ [10] := by
  have hparts : (r.entries.map fun e => 34 :: (e.1.bytes ++ 34 :: 58 :: e.2.text fixed)) =
      (r.members num).map (JsonMember.text compact) := by
    rw [Report.members, List.map_map]
    refine List.map_congr_left fun e he => ?_
    rw [h.text_eq he]
    rfl
  rw [jsonObject_eq_intercalate rfl, Report.message, hparts]
  simp

theorem entries_names : (r.entries.map fun e => e.1.bytes) =
    [ascii "pitch", ascii "roll", ascii "yaw_rate", ascii "pitch_sp", ascii "roll_sp", ascii "yaw_sp",
      ascii "pitch_out", ascii "roll_out", ascii "yaw_out", ascii "m_fl", ascii "m_fr", ascii "m_rl",
      ascii "m_rr", ascii "throttle", ascii "kp_pitch", ascii "ki_pitch", ascii "kd_pitch",
      ascii "kp_roll", ascii "ki_roll", ascii "kd_roll", ascii "kp_yaw", ascii "ki_yaw",
      ascii "kd_yaw"] := rfl

/-- A property of the values that are printed with `%.pf`. -/
theorem fixed_of_mem {P : ℕ → F → Prop}
    (h2 : ∀ x ∈ [r.pitch, r.roll, r.yawRate] ++ [r.pitchSp, r.rollSp, r.yawSp] ++
      [r.pitchOut, r.rollOut, r.yawOut], P 2 x)
    (h4 : ∀ a, ∀ x ∈ [(r.gains a).kp, (r.gains a).ki, (r.gains a).kd], P 4 x) (name : JsonString)
    (p : ℕ) (x : F) (h : (name, .fixed p x) ∈ r.entries) : P p x := by
  have hall : ∀ e ∈ r.entries, ∀ p x, e.2 = .fixed p x → P p x := by
    have hp := h4 .pitch
    have hr := h4 .roll
    have hy := h4 .yaw
    simp only [List.cons_append, List.nil_append, List.forall_mem_cons] at h2 hp hr hy
    simp only [Report.entries, List.forall_mem_cons, ReportValue.fixed.injEq, and_imp, reduceCtorEq,
      false_implies, implies_true, forall_eq', forall_apply_eq_imp_iff, h2, hp, hr, hy, true_and]
    exact fun _ h => absurd h List.not_mem_nil
  exact hall _ h p x rfl

theorem prints_of_forall {P : ℕ → F → Prop}
    (hP : ∀ p x, P p x → fixed p x = (num p x).text ∧ (num p x).value = roundTo p (val x))
    (h2 : ∀ x ∈ [r.pitch, r.roll, r.yawRate] ++ [r.pitchSp, r.rollSp, r.yawSp] ++
      [r.pitchOut, r.rollOut, r.yawOut], P 2 x)
    (h4 : ∀ a, ∀ x ∈ [(r.gains a).kp, (r.gains a).ki, (r.gains a).kd], P 4 x) :
    r.Prints fixed num val where
  text := fun name p x he => (hP p x (fixed_of_mem h2 h4 name p x he)).1
  value := fun name p x he => (hP p x (fixed_of_mem h2 h4 name p x he)).2

theorem members_nodup : ((r.members num).map fun m => m.name.bytes).Nodup := by
  have hmap : ((r.members num).map fun m => m.name.bytes) = r.entries.map fun e => e.1.bytes := by
    rw [Report.members, List.map_map]
    rfl
  rw [hmap, entries_names]
  decide

/-- The bytes of the object are printable ASCII. -/
theorem members_ascii : ∀ c ∈ jsonObject compact (r.members num), 32 ≤ c ∧ c ≤ 126 := by
  refine forall_mem_jsonObject (ofPunctuation_of_le (by decide) (by decide)) fun m hm => ?_
  have hnames : (r.entries.map fun e => e.1.bytes).all
      (fun name => name.all fun c => decide (32 ≤ c ∧ c ≤ 126)) = true := by
    rw [entries_names]
    decide +kernel
  obtain ⟨e, he, rfl⟩ := List.mem_map.1 hm
  exact ⟨forall_mem_of_all (List.all_eq_true.1 hnames _ (List.mem_map_of_mem he)),
    fun s hs => by cases hs⟩

/-! ## What a reader makes of it -/

def Report.dict (num : ℕ → F → JsonNumber) (r : Report F) : JsonDict :=
  (r.members num).map JsonMember.datum

theorem dict_names : ((r.dict num).map Prod.fst).Nodup := by
  rw [Report.dict, List.map_map]
  exact members_nodup

theorem mem_dict {e : JsonString × ReportValue F} (he : e ∈ r.entries) :
    (e.1.bytes, (JsonScalar.num (e.2.number num)).datum) ∈ r.dict num := by
  rw [Report.dict, Report.members, List.map_map]
  exact List.mem_map_of_mem he

theorem filter_eq_singleton {ms : JsonDict} (hms : (ms.map Prod.fst).Nodup) {name : Bytes}
    {d : JsonDatum} (h : (name, d) ∈ ms) : (ms.filter fun m => m.1 == name) = [(name, d)] := by
  induction ms with
  | nil => cases h
  | cons m ms ih =>
    rw [List.map_cons, List.nodup_cons] at hms
    rcases List.mem_cons.1 h with rfl | h'
    · have hnone : (ms.filter fun m => m.1 == name) = [] := by
        rw [List.filter_eq_nil_iff]
        intro m hm heq
        exact hms.1 (List.mem_map.2 ⟨m, hm, eq_of_beq heq⟩)
      rw [List.filter_cons_of_pos (by simp), hnone]
    · have hne : (m.1 == name) = false := by
        rw [beq_eq_false_iff_ne]
        intro heq
        exact hms.1 (List.mem_map.2 ⟨_, h', heq.symm⟩)
      rw [List.filter_cons, hne, if_neg Bool.false_ne_true, ih hms.2 h']

theorem deserializeField_of_mem {α : Type} {ms : JsonDict} (hms : (ms.map Prod.fst).Nodup)
    {name : Bytes} {d : JsonDatum} (h : (name, d) ∈ ms) (deserialize : JsonDatum → Option α)
    (default : Option α) : deserializeField deserialize default name ms = deserialize d := by
  unfold deserializeField
  rw [filter_eq_singleton hms h]

variable {name : JsonString}

theorem f32_at (h : r.Prints fixed num val) {p : ℕ} {x : F} (k : ℕ)
    (hk : r.entries[k]? = some (name, .fixed p x)) (default : Option ℚ) :
    deserializeField deserializeF32 default name.bytes (r.dict num) = some (roundTo p (val x)) := by
  have he := List.mem_of_getElem? hk
  rw [deserializeField_of_mem dict_names (mem_dict he)]
  exact congrArg some (h.value_eq he)

theorem u32_at (num : ℕ → F → JsonNumber) {n : ℕ} (k : ℕ) (hk : r.entries[k]? = some (name, .nat n)) (hn : n < 2 ^ 32)
    (default : Option ℕ) :
    deserializeField deserializeU32 default name.bytes (r.dict num) = some n := by
  have hmag : (intNumber false n).mag = n := mag_intNumber false n
  rw [deserializeField_of_mem dict_names (mem_dict (List.mem_of_getElem? hk))]
  show (if (intNumber false n).mag < 2 ^ 32 then some (intNumber false n).mag.num.toNat else none) = _
  rw [hmag, if_pos (by exact_mod_cast hn)]
  rfl

theorem i32_at (num : ℕ → F → JsonNumber) {n : ℤ} (k : ℕ) (hk : r.entries[k]? = some (name, .int n))
    (hn : -2 ^ 31 ≤ n ∧ n < 2 ^ 31) (default : Option ℤ) :
    deserializeField deserializeI32 default name.bytes (r.dict num) = some n := by
  have hval : Flt.signed (decide (n < 0)) (intNumber (decide (n < 0)) n.natAbs).mag = n := value_int n
  have hzero : decide (n < 0) = true → (intNumber (decide (n < 0)) n.natAbs).mag ≠ 0 := by
    intro hneg
    have hlt : n < 0 := by simpa using hneg
    rw [mag_intNumber]
    exact_mod_cast Int.natAbs_ne_zero.2 hlt.ne
  rw [deserializeField_of_mem dict_names (mem_dict (List.mem_of_getElem? hk))]
  show (if (decide (n < 0) = true → (intNumber (decide (n < 0)) n.natAbs).mag ≠ 0) ∧
      -2 ^ 31 ≤ (Flt.signed (decide (n < 0)) (intNumber (decide (n < 0)) n.natAbs).mag).num ∧
      (Flt.signed (decide (n < 0)) (intNumber (decide (n < 0)) n.natAbs).mag).num < 2 ^ 31
    then some (Flt.signed (decide (n < 0)) (intNumber (decide (n < 0)) n.natAbs).mag).num
    else none) = some n
  rw [hval, Rat.num_intCast, if_pos ⟨hzero, hn⟩]

variable {read : Bytes → Option JsonDict}

/-- `serde_json` makes the packet of the report from the object. -/
theorem fromStr_object (hread : ReadsFlat read) (h : r.Prints fixed num val) (hint : r.IntsInRange) :
    TelemetryPacket.fromStr read (jsonObject compact (r.members num)) = some (r.packet val) := by
  have hdict : read (jsonObject compact (r.members num)) = some (r.dict num) :=
    hread compact _ members_nodup
  obtain ⟨hfl, hfr, hrl, hrr, -⟩ := by simpa only [List.forall_mem_cons] using hint.motors
  have h0 : deserializeField deserializeF32 none (ascii "pitch") (r.dict num) = _ :=
    f32_at h 0 rfl _
  have h1 : deserializeField deserializeF32 none (ascii "roll") (r.dict num) = _ :=
    f32_at h 1 rfl _
  have h2 : deserializeField deserializeF32 (some 0) (ascii "yaw_rate") (r.dict num) = _ :=
    f32_at h 2 rfl _
  have h3 : deserializeField deserializeF32 (some 0) (ascii "pitch_sp") (r.dict num) = _ :=
    f32_at h 3 rfl _
  have h4 : deserializeField deserializeF32 (some 0) (ascii "roll_sp") (r.dict num) = _ :=
    f32_at h 4 rfl _
  have h5 : deserializeField deserializeF32 (some 0) (ascii "yaw_sp") (r.dict num) = _ :=
    f32_at h 5 rfl _
  have h6 : deserializeField deserializeF32 (some 0) (ascii "pitch_out") (r.dict num) = _ :=
    f32_at h 6 rfl _
  have h7 : deserializeField deserializeF32 (some 0) (ascii "roll_out") (r.dict num) = _ :=
    f32_at h 7 rfl _
  have h8 : deserializeField deserializeF32 (some 0) (ascii "yaw_out") (r.dict num) = _ :=
    f32_at h 8 rfl _
  have h9 : deserializeField deserializeU32 (some 0) (ascii "m_fl") (r.dict num) = _ :=
    u32_at num 9 rfl hfl _
  have h10 : deserializeField deserializeU32 (some 0) (ascii "m_fr") (r.dict num) = _ :=
    u32_at num 10 rfl hfr _
  have h11 : deserializeField deserializeU32 (some 0) (ascii "m_rl") (r.dict num) = _ :=
    u32_at num 11 rfl hrl _
  have h12 : deserializeField deserializeU32 (some 0) (ascii "m_rr") (r.dict num) = _ :=
    u32_at num 12 rfl hrr _
  have h13 : deserializeField deserializeI32 (some 0) (ascii "throttle") (r.dict num) = _ :=
    i32_at num 13 rfl hint.throttle _
  have h14 : deserializeField deserializeF32 (some 0) (ascii "kp_pitch") (r.dict num) = _ :=
    f32_at h 14 rfl _
  have h15 : deserializeField deserializeF32 (some 0) (ascii "ki_pitch") (r.dict num) = _ :=
    f32_at h 15 rfl _
  have h16 : deserializeField deserializeF32 (some 0) (ascii "kd_pitch") (r.dict num) = _ :=
    f32_at h 16 rfl _
  have h17 : deserializeField deserializeF32 (some 0) (ascii "kp_roll") (r.dict num) = _ :=
    f32_at h 17 rfl _
  have h18 : deserializeField deserializeF32 (some 0) (ascii "ki_roll") (r.dict num) = _ :=
    f32_at h 18 rfl _
  have h19 : deserializeField deserializeF32 (some 0) (ascii "kd_roll") (r.dict num) = _ :=
    f32_at h 19 rfl _
  have h20 : deserializeField deserializeF32 (some 0) (ascii "kp_yaw") (r.dict num) = _ :=
    f32_at h 20 rfl _
  have h21 : deserializeField deserializeF32 (some 0) (ascii "ki_yaw") (r.dict num) = _ :=
    f32_at h 21 rfl _
  have h22 : deserializeField deserializeF32 (some 0) (ascii "kd_yaw") (r.dict num) = _ :=
    f32_at h 22 rfl _
  have hbind : ∀ {α β : Type} {o : Option α} {a : α} (f : α → Option β), o = some a →
      (o >>= f) = f a := by
    rintro α β o a f rfl
    rfl
  unfold TelemetryPacket.fromStr
  rw [hbind _ hdict, hbind _ h0, hbind _ h1, hbind _ h2, hbind _ h3, hbind _ h4, hbind _ h5, hbind _ h6,
    hbind _ h7, hbind _ h8, hbind _ h9, hbind _ h10, hbind _ h11, hbind _ h12, hbind _ h13, hbind _ h14,
    hbind _ h15, hbind _ h16, hbind _ h17, hbind _ h18, hbind _ h19, hbind _ h20, hbind _ h21,
    hbind _ h22]
  rfl

theorem dictGet_of_mem {ms : JsonDict} (hms : (ms.map Prod.fst).Nodup) {name : Bytes}
    {d : JsonDatum} (h : (name, d) ∈ ms) : dictGet ms name = some d := by
  obtain ⟨l₁, l₂, hsplit⟩ := List.append_of_mem (List.mem_reverse.2 h)
  have hnodup : (ms.reverse.map Prod.fst).Nodup := by
    rw [List.map_reverse]
    exact List.nodup_reverse.2 hms
  rw [hsplit, List.map_append, List.map_cons] at hnodup
  refine List.lookup_eq_some_iff.2 ⟨l₁, l₂, hsplit, fun p hp => ?_⟩
  have hne : p.1 ≠ name := by
    intro heq
    have hmem : name ∈ l₁.map Prod.fst := heq ▸ List.mem_map_of_mem hp
    exact (List.disjoint_of_nodup_append hnodup) hmem List.mem_cons_self
  simpa using fun h => hne h.symm

theorem dictGet_entry (h : r.Prints fixed num val) {e : JsonString × ReportValue F}
    (he : e ∈ r.entries) :
    (dictGet (r.dict num) e.1.bytes).bind JsonDatum.value = some (e.2.rounded val) := by
  rw [dictGet_of_mem dict_names (mem_dict he), ← h.value_eq he]
  rfl

/-! ## From the datagram to the object -/

theorem textLines_line {line : Bytes} (h : (10 : Byte) ∉ line) (hcr : line.getLast? ≠ some 13) :
    textLines (line ++ [10]) = [line] := by
  have hsplit : (line ++ [10]).splitOn 10 = [line, []] := by
    rw [List.splitOn_append_cons_self, List.splitOn_eq_singleton h]
    rfl
  unfold textLines
  rw [hsplit]
  show [if line.getLast? = some 13 then line.dropLast else line] ++ [] = [line]
  rw [if_neg hcr, List.append_nil]

theorem strip_line {c d : Byte} {t : Bytes} (hc : isPySpace c = false) (hd : isPySpace d = false) :
    strip (c :: (t ++ [d]) ++ [10]) = c :: (t ++ [d]) := by
  have hfront : (c :: (t ++ [d]) ++ [10]).dropWhile isPySpace = c :: (t ++ [d]) ++ [10] := by
    rw [List.cons_append, List.dropWhile_cons_of_neg (by simp [hc])]
  have hrev : (c :: (t ++ [d]) ++ [10]).reverse = 10 :: d :: (c :: t).reverse := by
    simp
  unfold strip
  rw [hfront, hrev, List.dropWhile_cons_of_pos rfl, List.dropWhile_cons_of_neg (by simp [hd])]
  simp

/-- An object begins and ends with a brace. -/
theorem exists_braces (sp : JsonSpacing) (ms : List JsonMember) :
    ∃ t, jsonObject sp ms = 123 :: (t ++ [125]) := by
  have htail : ∀ ms, ∃ t, jsonTail sp ms = t ++ [125] := by
    intro ms
    induction ms with
    | nil => exact ⟨[], rfl⟩
    | cons m ms ih =>
      obtain ⟨t, ht⟩ := ih
      refine ⟨44 :: (List.replicate sp.afterComma 32 ++ (m.text sp ++ t)), ?_⟩
      simp [jsonTail, ht]
  cases ms with
  | nil => exact ⟨[], rfl⟩
  | cons m ms =>
    obtain ⟨t, ht⟩ := htail ms
    refine ⟨m.text sp ++ t, ?_⟩
    simp [jsonObject, ht]

variable {decode : Bytes → Bytes}

theorem decode_message (hdec : DecodesAscii decode) :
    decode (jsonObject compact (r.members num) ++ [10]) =
      jsonObject compact (r.members num) ++ [10] := by
  apply hdec
  intro c hc
  rcases List.mem_append.1 hc with hc | hc
  · have h := (members_ascii c hc).2
    rw [UInt8.le_iff_toNat_le] at h
    rw [UInt8.lt_iff_toNat_lt]
    exact lt_of_le_of_lt h (by decide)
  · rw [List.mem_singleton.1 hc]
    decide

/-- The Rust console makes one packet of the message. -/
theorem receiveTelemetry_message (hdec : DecodesAscii decode) (hread : ReadsFlat read)
    (h : r.Prints fixed num val) (hint : r.IntsInRange) (hlen : (r.message fixed).length ≤ 2048) :
    receiveTelemetry decode read (r.message fixed) = [some (r.packet val)] := by
  obtain ⟨t, ht⟩ := exists_braces compact (r.members num)
  have hnl : (10 : Byte) ∉ jsonObject compact (r.members num) := by
    intro hc
    exact absurd (members_ascii 10 hc).1 (by decide)
  have hlast : (jsonObject compact (r.members num)).getLast? ≠ some 13 := by
    rw [ht, ← List.cons_append, List.getLast?_append]
    simp
  have hblank : (!(jsonObject compact (r.members num)).all isSpace) = true := by
    rw [ht]
    rfl
  have hlines := textLines_line hnl hlast
  unfold receiveTelemetry
  rw [List.take_of_length_le hlen, h.message_eq, decode_message hdec, hlines,
    List.filter_cons, hblank, if_pos rfl, List.filter_nil, List.map_singleton,
    fromStr_object hread h hint]

/-- The Python console stores the members of the message. -/
theorem recvLoop_message (hdec : DecodesAscii decode) (hread : ReadsFlat read)
    (h : r.Prints fixed num val) (hlen : (r.message fixed).length ≤ 1024) :
    recvLoop decode read (r.message fixed) = some (r.dict num) := by
  obtain ⟨t, ht⟩ := exists_braces compact (r.members num)
  have hstrip : strip (jsonObject compact (r.members num) ++ [10]) =
      jsonObject compact (r.members num) := by
    rw [ht]
    exact strip_line rfl rfl
  unfold recvLoop
  rw [List.take_of_length_le hlen, h.message_eq, decode_message hdec, hstrip]
  exact hread compact _ members_nodup

/-! ## The datagram that is sent -/

theorem datagram_of_fits {text : Bytes} (dest : SockAddr) (h : text.length < 512) :
    (SendTo.mk dest (snprintf 512 text).1 (snprintf 512 text).2).datagram = text := by
  have h511 : text.length ≤ 512 - 1 := by omega
  show (text.take (512 - 1)).take text.length = text
  rw [List.take_of_length_le h511, List.take_length]

/-- What is sent when it fits is the message of the report. -/
theorem datagram_of_send {s : Firmware F} {takeImu takeSetpoint : Bool} {out : SendTo}
    (hsend : telemetrySendWith fixed takeImu takeSetpoint s = some out) (hfits : out.len < 512) :
    out.datagram = s.report.message fixed ∧ (s.report.message fixed).length < 512 := by
  obtain ⟨⟨dest, r⟩, hx, hout⟩ := Option.map_eq_some_iff.1 hsend
  have hr : r = s.report := by
    unfold telemetryReport at hx
    split_ifs at hx
    exact (Prod.mk.inj (Option.some.inj hx)).2.symm
  rw [← hout] at hfits ⊢
  rw [← hr]
  dsimp only at hfits ⊢
  generalize r.message fixed = text at hfits ⊢
  exact ⟨datagram_of_fits dest hfits, hfits⟩

end Messages

/-! ## `printf` -/

section Floats

variable {fmt : FloatFormat}

set_option maxRecDepth 4000 in
theorem text_eq_message (r : Report (Flt fmt)) : r.text = r.message fmtFixed := by
  have hcons : ∀ (x y : Bytes) (l : List Bytes), [(44 : Byte)].intercalate (x :: y :: l) =
      x ++ 44 :: [44].intercalate (y :: l) := by
    intro x y l
    simp [List.intercalate]
  have hone : ∀ x : Bytes, [(44 : Byte)].intercalate [x] = x := by
    intro x
    simp [List.intercalate]
  unfold Report.text gainsText Report.message Report.entries
  simp only [List.map_cons, List.map_nil, hcons, hone, List.append_assoc, List.cons_append]
  rfl

/-- The number that `%.pf` prints for a finite float. -/
def fltNumber (p : ℕ) : Flt fmt → JsonNumber
  | .fin s a => fixedNumber p s (scaled p a)
  | _ => intNumber false 0

theorem fmtFixed_eq {p : ℕ} (hp : 0 < p) {x : Flt fmt} (hx : x.IsFinite) :
    fmtFixed p x = (fltNumber p x).text ∧ (fltNumber p x).value = roundTo p x.val := by
  cases x with
  | nan => exact hx.elim
  | inf s => exact hx.elim
  | fin s a => exact ⟨(text_fixedNumber hp s _).symm, value_fixedNumber hp a.2.1 s⟩

theorem prints_of_allFinite {r : Report (Flt fmt)} (h : r.AllFinite) :
    r.Prints fmtFixed fltNumber Flt.val := by
  have hP : ∀ p (x : Flt fmt), 0 < p ∧ x.IsFinite →
      fmtFixed p x = (fltNumber p x).text ∧ (fltNumber p x).value = roundTo p x.val :=
    fun p x hx => fmtFixed_eq hx.1 hx.2
  refine prints_of_forall hP ?_ fun a x hx => ⟨by norm_num, h.gains a x hx⟩
  intro x hx
  refine ⟨by norm_num, ?_⟩
  rcases List.mem_append.1 hx with hx | hx
  · rcases List.mem_append.1 hx with hx | hx
    · exact h.attitude x hx
    · exact h.setpoints x hx
  · exact h.outputs x hx

theorem telemetrySend_eq (takeImu takeSetpoint : Bool) (s : Firmware (Flt fmt)) :
    telemetrySend takeImu takeSetpoint s = telemetrySendWith fmtFixed takeImu takeSetpoint s := by
  unfold telemetrySend telemetrySendWith
  simp only [text_eq_message]

end Floats

/-- Whatever `telemetry_send` sends when its values are finite and the message fits, both consoles
decode to the values of the state, rounded to the printed precision. -/
theorem telemetry_round_trip {s : Firmware CFloat} {takeImu takeSetpoint : Bool} {out : SendTo}
    (hsend : telemetrySend takeImu takeSetpoint s = some out) (hfin : s.report.AllFinite)
    (hint : s.report.IntsInRange) (hfits : out.len < 512)
    {lossy decode : Bytes → Bytes} (hlossy : DecodesAscii lossy) (hdecode : DecodesAscii decode)
    {fromStr loads : Bytes → Option JsonDict} (hfromStr : ReadsFlat fromStr)
    (hloads : ReadsFlat loads) :
    receiveTelemetry lossy fromStr out.datagram = [some (s.report.packet Flt.val)] ∧
      ∃ dict, recvLoop decode loads out.datagram = some dict ∧
        ∀ e ∈ s.report.entries,
          (dictGet dict e.1.bytes).bind JsonDatum.value = some (e.2.rounded Flt.val) := by
  have hp := prints_of_allFinite hfin
  rw [telemetrySend_eq] at hsend
  obtain ⟨hdata, hlen⟩ := datagram_of_send hsend hfits
  rw [hdata]
  exact ⟨receiveTelemetry_message hlossy hfromStr hp hint (by omega),
    _, recvLoop_message hdecode hloads hp (by omega), fun e he => dictGet_entry hp he⟩

/-- A craft that is tilted by a thousandth of a degree. -/
def tilted : Firmware CFloat :=
  run 3 [.fcInit 0, .recv ⟨1, 1⟩ (ascii "\x7b\x7d"),
    .imu (ofRat (-301 / 1000)) (ofRat 12) (ofRat (-1 / 3)) true]

/-- Its pitch is printed as `-0.00`. -/
theorem telemetry_round_trip_tilted :
    ∃ out, telemetrySend true true tilted = some out ∧
      receiveTelemetry id readFlat out.datagram = [some (tilted.report.packet Flt.val)] := by
  have hsome : (telemetrySend true true tilted).isSome := by decide +kernel
  have hascii : DecodesAscii id := fun _ _ => rfl
  refine ⟨_, (Option.some_get hsome).symm, ?_⟩
  exact (telemetry_round_trip (Option.some_get hsome).symm
    ⟨by decide +kernel, by decide +kernel, by decide +kernel, by intro a; cases a <;> decide +kernel⟩
    ⟨by decide +kernel, by decide +kernel⟩ (by decide +kernel +revert) hascii hascii readFlat_reads
    readFlat_reads).1

end EdnaDrone
