import EdnaDrone.FlightTask
import EdnaDrone.HidDescriptor
import EdnaDrone.HidReport
import EdnaDrone.HidUsages
import EdnaDrone.InputPath
import EdnaDrone.Lib.BitField
import EdnaDrone.Lib.CMemory
import EdnaDrone.Lib.Generator
import EdnaDrone.Lib.Loop
import EdnaDrone.Lib.Riccati
import EdnaDrone.Lib.Tracking
import EdnaDrone.Proofs.AxisProofs
import EdnaDrone.Proofs.ClosedLoopProofs
import EdnaDrone.Proofs.ConsoleProofs
import EdnaDrone.Proofs.ConvergenceProofs
import EdnaDrone.Proofs.DatagramProofs
import EdnaDrone.Proofs.DerivativeProofs
import EdnaDrone.Proofs.DeviceProofs
import EdnaDrone.Proofs.DriftProofs
import EdnaDrone.Proofs.EscDriverProofs
import EdnaDrone.Proofs.ForeignProofs
import EdnaDrone.Proofs.FusionProofs
import EdnaDrone.Proofs.HidAxisProofs
import EdnaDrone.Proofs.HidFieldProofs
import EdnaDrone.Proofs.HidLayoutProofs
import EdnaDrone.Proofs.HidReportProofs
import EdnaDrone.Proofs.HidRoundTripProofs
import EdnaDrone.Proofs.HidUsageProofs
import EdnaDrone.Proofs.InputPathProofs
import EdnaDrone.Proofs.IntegralProofs
import EdnaDrone.Proofs.InterlockProofs
import EdnaDrone.Proofs.OptimalProofs
import EdnaDrone.Proofs.QtcProofs
import EdnaDrone.Proofs.ReconnectProofs
import EdnaDrone.Proofs.ResetProofs
import EdnaDrone.Proofs.RetryProofs
import EdnaDrone.Proofs.RoundTripProofs
import EdnaDrone.Proofs.SendProofs
import EdnaDrone.Proofs.SessionProofs
import EdnaDrone.Proofs.SpoolUpProofs
import EdnaDrone.Proofs.SteadyGainProofs
import EdnaDrone.Proofs.ThrottleProofs
import EdnaDrone.Proofs.TimerProofs
import EdnaDrone.Proofs.UpdateProofs
import EdnaDrone.Proofs.WifiLinkProofs
import EdnaDrone.Proofs.XboxReportProofs
import EdnaDrone.Proofs.XboxUsageProofs
import EdnaDrone.Proofs.YawProofs
import EdnaDrone.QtcApp
import EdnaDrone.TelemetryBuffer
import EdnaDrone.XboxOne
