import GhostPour.Alerting.Proofs.OpenIncidents
import GhostPour.Billing.Proofs.AccountComponents
import GhostPour.Billing.Proofs.LapseAllowance
import GhostPour.Billing.Proofs.MrrRollForward
import GhostPour.Billing.Proofs.PlanSafety
import GhostPour.Billing.Proofs.Redelivery
import GhostPour.Billing.Proofs.ResetRaces
import GhostPour.Billing.Proofs.ResetTiming
import GhostPour.Billing.Proofs.Reverification
import GhostPour.Budget.Proofs.FlatOvershoot
import GhostPour.Budget.Proofs.SpendConservation
import GhostPour.Budget.Proofs.TokenClasses
import GhostPour.Certificates.Proofs.PublishedPins
import GhostPour.Chat.Proofs.ServedCheckpoint
import GhostPour.Chat.Proofs.TurnMetering
import GhostPour.Chat.Proofs.TurnOnce
import GhostPour.Configs.Proofs.FailOpen
import GhostPour.Configs.Proofs.Freshness
import GhostPour.Configs.Proofs.HydrationCoverage
import GhostPour.Documents.Proofs.FormulaCells
import GhostPour.Documents.Proofs.GanttFloat
import GhostPour.Documents.Proofs.PlanHistory
import GhostPour.Documents.Proofs.ProgressRange
import GhostPour.Documents.Proofs.RouteOutcomes
import GhostPour.Documents.Proofs.SlipTrail
import GhostPour.Documents.Proofs.WorkdayLaws
import GhostPour.Generations.Proofs.BuiltOnce
import GhostPour.Generations.Proofs.StagingCap
import GhostPour.Memory.Proofs.DayStability
import GhostPour.Memory.Proofs.MeetingWindow
import GhostPour.N400.Proofs.BoundaryLaw
import GhostPour.N400.Proofs.CarriedFacts
import GhostPour.N400.Proofs.DateInversions
import GhostPour.N400.Proofs.GuardsReturn
import GhostPour.N400.Proofs.OathUnits
import GhostPour.N400.Proofs.ReadbackSplit
import GhostPour.N400.Proofs.ReleaseRefusal
import GhostPour.N400.Proofs.SettledAsking
import GhostPour.N400.Proofs.SpanishReading
import GhostPour.N400.Proofs.SpokenDigits
import GhostPour.N400.Proofs.StreamFaults
import GhostPour.N400.Proofs.StreamObject
import GhostPour.Offers.Proofs.DispenseOnce
import GhostPour.Promo.Proofs.PromoSuppression
import GhostPour.Prompts.Proofs.PlaceholderInjection
import GhostPour.Providers.Proofs.SystemLayout
import GhostPour.Purchases.Proofs.RefundOrder
import GhostPour.Retention.Proofs.RetentionWindows
import GhostPour.Schema.Proofs.SelfHealing
import GhostPour.Shares.Proofs.BoundedReads
import GhostPour.Shares.Proofs.FilesDie
import GhostPour.Shares.Proofs.LinkTargets
import GhostPour.Shares.Proofs.SegmentCuts
import GhostPour.Telemetry.Proofs.RollupHistory
import GhostPour.Translations.Proofs.CacheFaith
import GhostPour.Translations.Proofs.WrappedOutput
import GhostPour.TypeSafe.Proofs.ProbeOnce
