import EdnaDrone.Clients
import EdnaDrone.Lib.Json
import EdnaDrone.Proofs.GainProofs

/-!
# Update datagrams and what the firmware makes of them

The decoder of `telemetry.c` skips white space before a number and not before a string. It reads the
compact objects of the Rust console whatever the order of their members and whatever else they
contain. In the objects of the Python client, which have a space after each colon, it never finds the
axis.
-/

namespace EdnaDrone

open Lib CNum CText

/-! ## The extractions on objects -/

theorem searchText_eq {key tail : Bytes} (h : key.length + tail.length ≤ 28) :
    searchText key (34 :: 58 :: tail) = memberNeedle key tail := by
  have h1 : 34 :: key ++ 34 :: 58 :: tail = memberNeedle key tail := by simp [memberNeedle]
  unfold searchText snprintf
  rw [h1]
  apply List.take_of_length_le
  simp only [memberNeedle, List.length_cons, List.length_append]
  omega

variable {sp : JsonSpacing} {ms : List JsonMember} {m : JsonMember}

theorem drop_needle (m : JsonMember) (sp : JsonSpacing) (tail r v : Bytes)
    (hv : m.valueText sp ++ r = tail ++ v) :
    (m.text sp ++ r).drop (memberNeedle m.name.bytes tail).length = v := by
  have h : m.text sp ++ r = memberNeedle m.name.bytes tail ++ v := by
    simp [JsonMember.text, memberNeedle, hv]
  rw [h, List.drop_left]

theorem jsonGetFloat_member {F : Type} [CText F] (sp : JsonSpacing) {n : JsonNumber}
    (hk : SearchKey m.name.bytes) (hlen : m.name.bytes.length ≤ 28) (hm : m ∈ ms)
    (hnames : (ms.map fun m => m.name.bytes).Nodup) (hv : m.value = .num n) (r : Bytes)
    (defaultVal : F) :
    jsonGetFloat (jsonObject sp ms ++ r) m.name.bytes defaultVal = ofText (.num n.neg n.mag) := by
  obtain ⟨r', hr', h⟩ := strstr_jsonObject_found sp [] hk hm hnames
    (fun r => List.nil_prefix) r
  have hdrop := drop_needle m sp [] r' (m.valueText sp ++ r') rfl
  have hskip : (m.valueText sp ++ r').dropWhile (fun c => c == 32 || c == 9) = n.text ++ r' := by
    unfold JsonMember.valueText
    rw [hv, List.append_assoc]
    refine (takeWhile_of_stop ?_ ?_).2
    · intro x hx
      rw [List.eq_of_mem_replicate hx]
      rfl
    · intro c hc
      have := n.head_text r' c hc
      simp [this.1, this.2]
  unfold jsonGetFloat
  rw [searchText_eq (by simpa using hlen)]
  simp only [h, hdrop, hskip, strtof_text hr'.endsNumber]

/-- A string member is read when no space separates it from its colon. -/
theorem jsonGetStr_member (outlen : ℕ) {str : JsonString} (hsp : sp.afterColon = 0)
    (hk : SearchKey m.name.bytes) (hlen : m.name.bytes.length ≤ 27) (hm : m ∈ ms)
    (hnames : (ms.map fun m => m.name.bytes).Nodup) (hv : m.value = .str str)
    (hout : str.bytes.length ≤ outlen - 1) (r : Bytes) :
    jsonGetStr (jsonObject sp ms ++ r) m.name.bytes outlen = str.bytes := by
  have hval : ∀ r, m.valueText sp ++ r = [34] ++ (str.bytes ++ 34 :: r) := by
    intro r
    simp [JsonMember.valueText, hsp, hv, JsonScalar.text]
  obtain ⟨r', -, h⟩ := strstr_jsonObject_found sp [34] hk hm hnames
    (fun r => ⟨_, (hval r).symm⟩) r
  have hdrop := drop_needle m sp [34] r' _ (hval r')
  have htake : (str.bytes ++ 34 :: r').takeWhile (· != 34) = str.bytes := by
    refine takeWhile_append_cons ?_ (by decide)
    intro c hc
    simpa using (str.plain c hc).1
  unfold jsonGetStr
  rw [searchText_eq (by rw [List.length_singleton]; omega)]
  simp only [h, hdrop, htake]
  exact List.take_of_length_le hout

/-- A space after the colons hides every string, also in a text that is cut off. -/
theorem jsonGetStr_none {key buf r : Bytes} (hsp : 0 < sp.afterColon) (hk : SearchKey key)
    (hlen : key.length ≤ 27) (hbuf : buf <+: jsonObject sp ms ++ r) (hr : (34 : Byte) ∉ r)
    (outlen : ℕ) : jsonGetStr buf key outlen = [] := by
  have h : strstr (jsonObject sp ms ++ r) (memberNeedle key [34]) = none := by
    apply strstr_jsonObject_none hk ?_ hr
    intro m _ _ r' hp
    obtain ⟨k, hk⟩ := Nat.exists_eq_succ_of_ne_zero hsp.ne'
    rw [JsonMember.valueText, hk, List.replicate_succ, List.cons_append, List.cons_append,
      List.cons_prefix_cons] at hp
    exact absurd hp.1 (by decide)
  unfold jsonGetStr
  rw [searchText_eq (by rw [List.length_singleton]; omega)]
  simp only [strstr_eq_none_of_isPrefix h hbuf]

/-! ## Update packets -/

def axisName : JsonString := ⟨ascii "axis", forall_mem_of_all rfl⟩
def kpName : JsonString := ⟨ascii "kp", forall_mem_of_all rfl⟩
def kiName : JsonString := ⟨ascii "ki", forall_mem_of_all rfl⟩
def kdName : JsonString := ⟨ascii "kd", forall_mem_of_all rfl⟩

def Axis.jsonString : Axis → JsonString
  | .pitch => ⟨ascii "pitch", forall_mem_of_all rfl⟩
  | .roll => ⟨ascii "roll", forall_mem_of_all rfl⟩
  | .yaw => ⟨ascii "yaw", forall_mem_of_all rfl⟩

def numFloat (n : JsonNumber) : CFloat := ofText (.num n.neg n.mag)

/-- The spacing of compact objects, and that of `json.dumps`. -/
def compact : JsonSpacing := ⟨0, 0⟩
def spaced : JsonSpacing := ⟨1, 1⟩

/-- A compact object that updates one axis. It may have further members, in any order. -/
structure UpdatePacket where
  members : List JsonMember
  axis : Axis
  kp : JsonNumber
  ki : JsonNumber
  kd : JsonNumber
  distinct : (members.map fun m => m.name.bytes).Nodup
  axis_mem : ⟨axisName, .str axis.jsonString⟩ ∈ members
  kp_mem : ⟨kpName, .num kp⟩ ∈ members
  ki_mem : ⟨kiName, .num ki⟩ ∈ members
  kd_mem : ⟨kdName, .num kd⟩ ∈ members
  nonneg : ∀ n ∈ [kp, ki, kd], n.neg = true → n.mag = 0
  inRange : ∀ n ∈ [kp, ki, kd], (numFloat n).IsFinite
  fits : (jsonObject compact members).length ≤ 255

def UpdatePacket.gains (p : UpdatePacket) : Gains CFloat :=
  ⟨numFloat p.kp, numFloat p.ki, numFloat p.kd⟩

/-- Exactly the gains of the axis change, to `g`. -/
def UpdatesGains (s s' : Firmware CFloat) (a : Axis) (g : Gains CFloat) : Prop :=
  s'.fc.pid a = { s.fc.pid a with kp := g.kp, ki := g.ki, kd := g.kd } ∧
    ∀ b, b ≠ a → s'.fc.pid b = s.fc.pid b

theorem selectAxis_jsonString (a : Axis) : selectAxis a.jsonString.bytes = some a := by
  cases a <;> decide

theorem searchKey_names : SearchKey axisName.bytes ∧ SearchKey kpName.bytes ∧
    SearchKey kiName.bytes ∧ SearchKey kdName.bytes := by
  refine ⟨⟨by decide, ?_⟩, ⟨by decide, ?_⟩, ⟨by decide, ?_⟩, ⟨by decide, ?_⟩⟩
  · exact ⟨97, _, rfl, by decide, by decide, by decide⟩
  all_goals exact ⟨107, _, rfl, by decide, by decide, by decide⟩

section Decoder

variable {F : Type} [CNum F]

/-- A well-formed packet gives its axis its gains, and no other axis anything. -/
theorem applyPacket_jsonString [LT F] [DecidableLT F] {fc : FlightController F} (a : Axis) {g : Gains F}
    (hgood : ¬ g.malformed) :
    (applyPacket ⟨a.jsonString.bytes, g⟩ fc).pid a = pidSetGains (fc.pid a) g.kp g.ki g.kd ∧
      ∀ b, b ≠ a → (applyPacket ⟨a.jsonString.bytes, g⟩ fc).pid b = fc.pid b := by
  constructor
  · rw [pid_applyPacket, if_pos ⟨hgood, selectAxis_jsonString a⟩]
  · intro b hb
    rw [pid_applyPacket, if_neg]
    rintro ⟨-, hsel⟩
    rw [selectAxis_jsonString] at hsel
    exact hb (Option.some.inj hsel).symm

variable [CText F]

def Gains.ofNumbers (np ni nd : JsonNumber) : Gains F :=
  ⟨ofText (.num np.neg np.mag), ofText (.num ni.neg ni.mag), ofText (.num nd.neg nd.mag)⟩

/-- What the decoder extracts from a compact object with the four members. -/
theorem parsePacket_members {a : Axis} {np ni nd : JsonNumber}
    (hnames : (ms.map fun m => m.name.bytes).Nodup) (haxis : ⟨axisName, .str a.jsonString⟩ ∈ ms)
    (hkp : ⟨kpName, .num np⟩ ∈ ms) (hki : ⟨kiName, .num ni⟩ ∈ ms) (hkd : ⟨kdName, .num nd⟩ ∈ ms) :
    (parsePacket (jsonObject compact ms) : PidPacket F) =
      ⟨a.jsonString.bytes, Gains.ofNumbers np ni nd⟩ := by
  obtain ⟨h1, h2, h3, h4⟩ := searchKey_names
  have ha := jsonGetStr_member 16 (rfl : compact.afterColon = 0) h1
    (show axisName.bytes.length ≤ 27 by decide) haxis hnames rfl
    (by cases a <;> decide) []
  have hp := jsonGetFloat_member compact h2 (show kpName.bytes.length ≤ 28 by decide) hkp
    hnames rfl [] (ofRat (-1) : F)
  have hi := jsonGetFloat_member compact h3 (show kiName.bytes.length ≤ 28 by decide) hki
    hnames rfl [] (ofRat (-1) : F)
  have hd := jsonGetFloat_member compact h4 (show kdName.bytes.length ≤ 28 by decide) hkd
    hnames rfl [] (ofRat (-1) : F)
  rw [List.append_nil] at ha hp hi hd
  unfold parsePacket Gains.ofNumbers
  rw [← ha, ← hp, ← hi, ← hd]
  rfl

theorem cstr_recvBuf_object (h : (jsonObject compact ms).length ≤ 255) :
    cstr (recvBuf (jsonObject compact ms)) = jsonObject compact ms := by
  unfold recvBuf
  rw [List.take_of_length_le h]
  exact cstr_of_no_nul fun c hc => jsonObject_ne_zero hc

/-- A datagram with such an object is handled as the packet of its axis and its numbers. -/
theorem receive_members [LT F] [DecidableLT F] {s : Firmware F} {a : Axis} {np ni nd : JsonNumber}
    (hnames : (ms.map fun m => m.name.bytes).Nodup) (haxis : ⟨axisName, .str a.jsonString⟩ ∈ ms)
    (hkp : ⟨kpName, .num np⟩ ∈ ms) (hki : ⟨kiName, .num ni⟩ ∈ ms) (hkd : ⟨kdName, .num nd⟩ ∈ ms)
    (hfits : (jsonObject compact ms).length ≤ 255) (hsock : 0 ≤ s.wifi.sock) (src : SockAddr) :
    (telemetryReceivePidUpdates (some (src, jsonObject compact ms)) s).fc =
      applyPacket ⟨a.jsonString.bytes, Gains.ofNumbers np ni nd⟩ s.fc := by
  have hne : recvBuf (jsonObject compact ms) ≠ [] := by
    unfold recvBuf
    rw [List.take_of_length_le hfits]
    cases ms <;> simp [jsonObject]
  have hpacket : (parsePacket (jsonObject compact ms) : PidPacket F) = _ :=
    parsePacket_members hnames haxis hkp hki hkd
  unfold telemetryReceivePidUpdates
  simp only [if_neg (not_lt.2 hsock), if_neg hne, cstr_recvBuf_object hfits, hpacket]

end Decoder

variable {s : Firmware CFloat}

/-- A compact object with the four members updates the gains of its axis. -/
theorem updatesGains_members {a : Axis} {np ni nd : JsonNumber}
    (hnames : (ms.map fun m => m.name.bytes).Nodup) (haxis : ⟨axisName, .str a.jsonString⟩ ∈ ms)
    (hkp : ⟨kpName, .num np⟩ ∈ ms) (hki : ⟨kiName, .num ni⟩ ∈ ms) (hkd : ⟨kdName, .num nd⟩ ∈ ms)
    (hfits : (jsonObject compact ms).length ≤ 255) (hsock : 0 ≤ s.wifi.sock)
    (hgood : ¬ (⟨numFloat np, numFloat ni, numFloat nd⟩ : Gains CFloat).malformed)
    (src : SockAddr) :
    UpdatesGains s (telemetryReceivePidUpdates (some (src, jsonObject compact ms)) s) a
      ⟨numFloat np, numFloat ni, numFloat nd⟩ := by
  unfold UpdatesGains
  rw [receive_members hnames haxis hkp hki hkd hfits hsock src]
  exact applyPacket_jsonString a hgood

theorem UpdatePacket.not_malformed (p : UpdatePacket) : ¬ p.gains.malformed := by
  have h : ∀ n ∈ [p.kp, p.ki, p.kd], ¬ numFloat n < ofInt 0 := by
    intro n hn
    exact Flt.not_ofSign_lt_isZero (p.nonneg n hn) (p.inRange n hn) Flt.isZero_ofRat_zero
  simp only [List.forall_mem_cons] at h
  unfold Gains.malformed
  rw [not_or, not_or]
  exact ⟨h.1, h.2.1, h.2.2.1⟩

/-! ## The Rust console -/

/-- `serde_json` prints the float as a decimal of at most 24 bytes that `strtof` reads back. -/
def PrintsBack (serF32 : CFloat → Bytes) (x : CFloat) : Prop :=
  ∃ n : JsonNumber, serF32 x = n.text ∧ n.text.length ≤ 24 ∧ numFloat n = x

/-- The members of an update of the Rust console. -/
def updateMembers (a : Axis) (np ni nd : JsonNumber) : List JsonMember :=
  [⟨axisName, .str a.jsonString⟩, ⟨kpName, .num np⟩, ⟨kiName, .num ni⟩, ⟨kdName, .num nd⟩]

theorem updateMembers_nodup (a : Axis) (np ni nd : JsonNumber) :
    ((updateMembers a np ni nd).map fun m => m.name.bytes).Nodup := by
  simp only [updateMembers, List.map_cons, List.map_nil]
  decide

theorem length_updateMembers_le (a : Axis) {np ni nd : JsonNumber} (hp : np.text.length ≤ 24)
    (hi : ni.text.length ≤ 24) (hd : nd.text.length ≤ 24) :
    (jsonObject compact (updateMembers a np ni nd)).length ≤ 255 := by
  have hlen : a.jsonString.bytes.length ≤ 5 := by cases a <;> decide
  have h1 : axisName.bytes.length = 4 := rfl
  have h2 : kpName.bytes.length = 2 := rfl
  have h3 : kiName.bytes.length = 2 := rfl
  have h4 : kdName.bytes.length = 2 := rfl
  simp only [updateMembers, jsonObject, jsonTail, JsonMember.text, JsonMember.valueText,
    JsonScalar.text, compact, List.length_cons, List.length_append, List.length_replicate,
    List.length_nil, h1, h2, h3, h4]
  omega

theorem updateVec_eq {F : Type} {ser : F → Bytes} {a : Axis} {g : Gains F} {np ni nd : JsonNumber}
    (hp : ser g.kp = np.text) (hi : ser g.ki = ni.text) (hd : ser g.kd = nd.text) :
    updateVec ser a.jsonString.bytes g = jsonObject compact (updateMembers a np ni nd) := by
  have h1 : ascii "\x7b\"axis\":\"" = 123 :: 34 :: (axisName.bytes ++ [34, 58, 34]) := by decide
  have h2 : ascii "\",\"kp\":" = 34 :: 44 :: 34 :: (kpName.bytes ++ [34, 58]) := by decide
  have h3 : ascii ",\"ki\":" = 44 :: 34 :: (kiName.bytes ++ [34, 58]) := by decide
  have h4 : ascii ",\"kd\":" = 44 :: 34 :: (kdName.bytes ++ [34, 58]) := by decide
  have h5 : ascii "\x7d" = [125] := by decide
  simp [updateVec, h1, h2, h3, h4, h5, hp, hi, hd, updateMembers, jsonObject, jsonTail,
    JsonMember.text, JsonMember.valueText, JsonScalar.text, compact]

theorem jsonString_bytes (a : Axis) : a.jsonString.bytes = a.text := by
  cases a <;> rfl

/-- An accepted update names an axis and has no negative gain. -/
theorem sendUpdate_ok {F : Type} [LT F] [DecidableLT F] [CNum F] {ser : F → Bytes}
    {runtime : Option Bool} {axis : Bytes} {g : Gains F} {payload : Bytes}
    (h : sendUpdate ser runtime axis g = .ok payload) :
    (∃ a : Axis, axis = a.jsonString.bytes) ∧
      ¬ (g.kp < ofRat 0 ∨ g.ki < ofRat 0 ∨ g.kd < ofRat 0) ∧ payload = updateVec ser axis g := by
  unfold sendUpdate at h
  split_ifs at h with h1 h2
  cases runtime with
  | none => cases h
  | some b =>
    cases b with
    | false => cases h
    | true =>
      refine ⟨?_, h2, (Except.ok.inj h).symm⟩
      rcases h1 with h1 | h1 | h1
      · exact ⟨.pitch, h1⟩
      · exact ⟨.roll, h1⟩
      · exact ⟨.yaw, h1⟩

/-- Every compact update packet, and every payload of the Rust console, sets exactly the gains of
the axis it names. -/
theorem update_packets_read (hsock : 0 ≤ s.wifi.sock) (src : SockAddr) :
    (∀ p : UpdatePacket, UpdatesGains s
      (telemetryReceivePidUpdates (some (src, jsonObject compact p.members)) s) p.axis p.gains) ∧
    ∀ (serF32 : CFloat → Bytes) (runtime : Option Bool) (u : PidUpdate) (payload : Bytes),
      PrintsBack serF32 u.kp → PrintsBack serF32 u.ki → PrintsBack serF32 u.kd →
      sendPidUpdate serF32 runtime u = .ok payload →
      ∃ a : Axis, u.axis = a.text ∧
        UpdatesGains s (telemetryReceivePidUpdates (some (src, payload)) s) a ⟨u.kp, u.ki, u.kd⟩ := by
  constructor
  · intro p
    exact updatesGains_members p.distinct p.axis_mem p.kp_mem p.ki_mem p.kd_mem p.fits hsock
      p.not_malformed src
  · rintro serF32 runtime u payload ⟨np, hp, lp, vp⟩ ⟨ni, hi, li, vi⟩ ⟨nd, hd, ld, vd⟩ hsend
    obtain ⟨⟨a, ha⟩, hgood, rfl⟩ := sendUpdate_ok hsend
    refine ⟨a, ha.trans (jsonString_bytes a), ?_⟩
    rw [ha, updateVec_eq hp hi hd, ← vp, ← vi, ← vd]
    rw [← vp, ← vi, ← vd] at hgood
    exact updatesGains_members (updateMembers_nodup a np ni nd) (by simp [updateMembers])
      (by simp [updateMembers]) (by simp [updateMembers]) (by simp [updateMembers])
      (length_updateMembers_le a lp li ld) hsock hgood src

/-! ## Sample packets -/

def num15 : JsonNumber :=
  ⟨false, ascii "1", ascii "5", none, by decide, forall_mem_of_all rfl, forall_mem_of_all rfl, by decide⟩
def num01 : JsonNumber :=
  ⟨false, ascii "0", ascii "1", none, by decide, forall_mem_of_all rfl, forall_mem_of_all rfl, by decide⟩
def num002 : JsonNumber :=
  ⟨false, ascii "0", ascii "02", none, by decide, forall_mem_of_all rfl, forall_mem_of_all rfl, by decide⟩

def samplePrinter {fmt : FloatFormat} (x : Flt fmt) : Bytes :=
  if x = .ofSign num15.neg num15.mag then num15.text
  else if x = .ofSign num01.neg num01.mag then num01.text
  else num002.text

/-- An update whose members come in another order, with a further one. -/
def samplePacket : UpdatePacket where
  members := [⟨kdName, .num num002⟩, ⟨⟨ascii "note", forall_mem_of_all rfl⟩, .str ⟨ascii "kp:axis", forall_mem_of_all rfl⟩⟩,
    ⟨axisName, .str (Axis.jsonString .roll)⟩, ⟨kpName, .num num15⟩, ⟨kiName, .num num01⟩]
  axis := .roll
  kp := num15
  ki := num01
  kd := num002
  distinct := by decide
  axis_mem := by simp
  kp_mem := by simp
  ki_mem := by simp
  kd_mem := by simp
  nonneg := by decide
  inRange := by decide +kernel
  fits := by decide +kernel

def sampleUpdate : PidUpdate := ⟨ascii "pitch", numFloat num15, numFloat num01, numFloat num002⟩

theorem printsBack_samples : PrintsBack samplePrinter sampleUpdate.kp ∧
    PrintsBack samplePrinter sampleUpdate.ki ∧ PrintsBack samplePrinter sampleUpdate.kd := by
  refine ⟨⟨num15, ?_, by decide, rfl⟩, ⟨num01, ?_, by decide, rfl⟩, ⟨num002, ?_, by decide, rfl⟩⟩
  all_goals decide +kernel

theorem update_packets_read_samples :
    UpdatesGains (boot 3) (telemetryReceivePidUpdates
      (some (⟨1, 1⟩, jsonObject compact samplePacket.members)) (boot 3)) .roll samplePacket.gains ∧
    ∃ a : Axis, sampleUpdate.axis = a.text ∧
      UpdatesGains (boot 3) (telemetryReceivePidUpdates
        (some (⟨1, 1⟩, sampleUpdate.toVec samplePrinter)) (boot 3)) a
        ⟨sampleUpdate.kp, sampleUpdate.ki, sampleUpdate.kd⟩ :=
  ⟨(update_packets_read (s := boot 3) (by decide) ⟨1, 1⟩).1 samplePacket,
    (update_packets_read (s := boot 3) (by decide) ⟨1, 1⟩).2 samplePrinter (some true) sampleUpdate
      (sampleUpdate.toVec samplePrinter) printsBack_samples.1 printsBack_samples.2.1
      printsBack_samples.2.2 (by
        unfold sendPidUpdate sendUpdate
        rw [if_neg (by decide), if_neg (by decide +kernel)]
        rfl)⟩

/-! ## The Python client -/

/-- `json.dumps` prints the float as a decimal that denotes it. -/
def PrintsDouble (repr : CDouble → Bytes) (x : CDouble) : Prop :=
  ∃ n : JsonNumber, repr x = n.text ∧ .ofSign n.neg n.mag = x

theorem sendPid_eq {repr : CDouble → Bytes} {a : Axis} {kp ki kd : CDouble} {np ni nd : JsonNumber}
    (hp : repr kp = np.text) (hi : repr ki = ni.text) (hd : repr kd = nd.text) :
    sendPid repr a kp ki kd = jsonObject spaced [⟨axisName, .str a.jsonString⟩, ⟨kpName, .num np⟩,
      ⟨kiName, .num ni⟩, ⟨kdName, .num nd⟩] ++ [10] := by
  have h1 : ascii "\x7b\"axis\": \"" = 123 :: 34 :: (axisName.bytes ++ [34, 58, 32, 34]) := by decide
  have h2 : ascii "\", \"kp\": " = 34 :: 44 :: 32 :: 34 :: (kpName.bytes ++ [34, 58, 32]) := by decide
  have h3 : ascii ", \"ki\": " = 44 :: 32 :: 34 :: (kiName.bytes ++ [34, 58, 32]) := by decide
  have h4 : ascii ", \"kd\": " = 44 :: 32 :: 34 :: (kdName.bytes ++ [34, 58, 32]) := by decide
  have h5 : ascii "\x7d\n" = [125, 10] := by decide
  have h6 : a.text = a.jsonString.bytes := by cases a <;> rfl
  simp [sendPid, h1, h2, h3, h4, h5, h6, hp, hi, hd, jsonObject, jsonTail, JsonMember.text,
    JsonMember.valueText, JsonScalar.text, spaced]

theorem cstr_recvBuf_isPrefix (data : Bytes) : cstr (recvBuf data) <+: data :=
  (List.takeWhile_prefix _).trans (List.take_prefix _ _)

/-- The firmware drops every packet of the Python client, as one for an unknown axis. -/
theorem receive_sendPid {repr : CDouble → Bytes} {a : Axis} {kp ki kd : CDouble}
    (hp : PrintsDouble repr kp) (hi : PrintsDouble repr ki) (hd : PrintsDouble repr kd)
    (src : SockAddr) (b : Axis) :
    (telemetryReceivePidUpdates (some (src, sendPid repr a kp ki kd)) s).fc.pid b = s.fc.pid b := by
  obtain ⟨np, hp, -⟩ := hp
  obtain ⟨ni, hi, -⟩ := hi
  obtain ⟨nd, hd, -⟩ := hd
  obtain ⟨t, -, hr⟩ := receive_eq (s := s) src (sendPid repr a kp ki kd)
  rw [hr]
  show FlightController.pid (if _ then _ else _) b = _
  split
  · rfl
  have hbuf := cstr_recvBuf_isPrefix (sendPid repr a kp ki kd)
  generalize cstr (recvBuf (sendPid repr a kp ki kd)) = buf at hbuf ⊢
  rw [sendPid_eq hp hi hd] at hbuf
  have haxis : (parsePacket buf : PidPacket CFloat).axis = [] :=
    jsonGetStr_none (by decide) searchKey_names.1 (by decide) hbuf (by decide) 16
  rw [pid_applyPacket, haxis, if_neg]
  rintro ⟨-, h⟩
  exact absurd h (by decide +revert)

/-- A packet of the Python client has the effect it asks for exactly when the axis has these gains
already. -/
theorem python_update_iff {repr : CDouble → Bytes} {a : Axis} {kp ki kd : CDouble}
    (hp : PrintsDouble repr kp) (hi : PrintsDouble repr ki) (hd : PrintsDouble repr kd)
    (src : SockAddr) :
    UpdatesGains s (telemetryReceivePidUpdates (some (src, sendPid repr a kp ki kd)) s) a
        ⟨toFloat kp, toFloat ki, toFloat kd⟩ ↔
      (s.fc.pid a).gains = ⟨toFloat kp, toFloat ki, toFloat kd⟩ := by
  have h := receive_sendPid (s := s) (a := a) hp hi hd src
  unfold UpdatesGains
  rw [h a]
  constructor
  · rintro ⟨h1, -⟩
    exact congrArg PidState.gains h1
  · intro hg
    refine ⟨?_, fun b _ => h b⟩
    rw [← hg]
    rfl

def pyNum (n : JsonNumber) : CDouble := .ofSign n.neg n.mag

theorem printsDouble_samples : PrintsDouble samplePrinter (pyNum num15) ∧
    PrintsDouble samplePrinter (pyNum num01) ∧ PrintsDouble samplePrinter (pyNum num002) := by
  refine ⟨⟨num15, ?_, rfl⟩, ⟨num01, ?_, rfl⟩, ⟨num002, ?_, rfl⟩⟩
  all_goals decide +kernel

theorem python_update_iff_sample :
    UpdatesGains (boot 3) (telemetryReceivePidUpdates (some (⟨1, 1⟩, sendPid samplePrinter .pitch
        (pyNum num15) (pyNum num01) (pyNum num002))) (boot 3)) .pitch
        ⟨toFloat (pyNum num15), toFloat (pyNum num01), toFloat (pyNum num002)⟩ ↔
      ((boot 3 : Firmware CFloat).fc.pid .pitch).gains =
        ⟨toFloat (pyNum num15), toFloat (pyNum num01), toFloat (pyNum num002)⟩ :=
  python_update_iff printsDouble_samples.1 printsDouble_samples.2.1 printsDouble_samples.2.2 ⟨1, 1⟩

/-- The packet `{"axis": "pitch", "kp": 1.5, "ki": 0.1, "kd": 0.02}` leaves the pitch gains alone. -/
theorem python_update_lost :
    ¬ ∀ (repr : CDouble → Bytes) (s : Firmware CFloat) (src : SockAddr) (a : Axis)
      (kp ki kd : CDouble), PrintsDouble repr kp → PrintsDouble repr ki → PrintsDouble repr kd →
      0 ≤ s.wifi.sock → (sendPid repr a kp ki kd).length ≤ 255 →
      UpdatesGains s (telemetryReceivePidUpdates (some (src, sendPid repr a kp ki kd)) s) a
        ⟨toFloat kp, toFloat ki, toFloat kd⟩ := by
  intro h
  have h1 := h samplePrinter (boot 3) ⟨1, 1⟩ .pitch (pyNum num15) (pyNum num01) (pyNum num002)
    printsDouble_samples.1 printsDouble_samples.2.1 printsDouble_samples.2.2 (by decide)
    (by decide +kernel)
  have h2 := congrArg PidState.kp h1.1
  revert h2
  decide +kernel

end EdnaDrone
