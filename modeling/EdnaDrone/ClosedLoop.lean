import EdnaDrone.Console
import EdnaDrone.Firmware
import EdnaDrone.Receivers

/-!
# Console and drone in exact arithmetic

The way of nine gains from the console through the drone and back, where every number is a rational
and every text of a number denotes exactly that number. The definitions of the loop are those of the
programs, for any number type.
-/

namespace EdnaDrone

open Lib CNum

/-- `%.pf` of a rational. -/
def fmtExact (p : ℕ) (q : ℚ) : Bytes := fmtSign (decide (q < 0)) ++ fmtScaled p (scaled p |q|)

/-! ## `App.jsx` -/

def pidDraftsFromPacket (packet : TelemetryPacket) : PidSet ℚ
  | .pitch => ⟨packet.kpPitch, packet.kiPitch, packet.kdPitch⟩
  | .roll => ⟨packet.kpRoll, packet.kiRoll, packet.kdRoll⟩
  | .yaw => ⟨packet.kpYaw, packet.kiYaw, packet.kdYaw⟩

/-- `pidDraftsMatch`, for a number type with its `Number.isFinite`. -/
def draftsMatch {F : Type} [Sub F] [LE F] [DecidableLE F] [CNum F] (isFinite : F → Bool)
    (left right : PidSet F) : Bool :=
  pidAxes.all fun axis => pidGains.all fun gain =>
    let actual := (left axis).get gain
    let expected := (right axis).get gain
    if isFinite actual && isFinite expected then decide (fabs (actual - expected) ≤ ofRat (1 / 10000))
    else feq actual expected

theorem pidDraftsMatch_eq (left right : PidSet CDouble) :
    pidDraftsMatch left right = draftsMatch (fun x => decide x.IsFinite) left right := by
  unfold pidDraftsMatch draftsMatch gainMatches
  simp only [Bool.and_eq_true, decide_eq_true_eq]
  rfl

/-- The effect that confirms the pending gains: the set it reports as confirmed, if any. -/
def confirmPending (pending : Option (PidSet ℚ)) (latest : Option TelemetryPacket) :
    Option (PidSet ℚ) :=
  match pending, latest with
  | some sent, some packet =>
    if draftsMatch (fun _ => true) (pidDraftsFromPacket packet) sent then some sent else none
  | _, _ => none

/-! ## The runs between sending and reporting -/

/-- What may happen in the drone until it has the gains: the datagrams of the send arrive, in any order
and any number of times, and the tasks go on. `flight_controller_init`, which loads the default gains,
has run before. -/
def Event.DuringSend (payload : Axis → Bytes) : Event ℚ → Prop
  | .recv _ data => ∃ a, data = payload a
  | .fcInit _ => False
  | _ => True

end EdnaDrone
