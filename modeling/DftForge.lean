import DftForge.Runtime.Outcomes
import DftForge.Runtime.DispatchSafety
import DftForge.Runtime.EntryLiveness
import DftForge.Runtime.Persistence
import DftForge.Runtime.Containment
import DftForge.Runtime.CancelResume
import DftForge.Runtime.CancelKill
import DftForge.Runtime.RetryCompletion
import DftForge.Runtime.CrashResume
import DftForge.Engines.Timeouts
import DftForge.Engines.OneBasis
import DftForge.Hpc.RemoteSuccess
import DftForge.Hpc.JobSafety
import DftForge.Catalog.Bands
import DftForge.Agent.Workflow
import DftForge.Agent.OwnReports
import DftForge.Agent.StructureFiles
import DftForge.Web.ActiveRuns
import DftForge.Qe.Evidence
import DftForge.Agent.PlanAccept
import DftForge.Agent.WorkflowGate
import DftForge.Agent.StepAlignment
import DftForge.Agent.ThermoEnergies
import DftForge.Qe.Attempts
import DftForge.Qe.Classified
import DftForge.Compiler.RunnerPaths
import DftForge.Compiler.FormationCells
import DftForge.Runtime.RetryAtomicity
import DftForge.Runtime.Serialization
import DftForge.Runtime.ParamValues
import DftForge.Runtime.RepairCost
import DftForge.Compiler.StrongerInputs
import DftForge.Compiler.BandAxis
import DftForge.Qe.Replay
import DftForge.Agent.StepValidation
import DftForge.Agent.PlanExecutable
import DftForge.Structure.Coordination
import DftForge.Compiler.Vacuum
import DftForge.Compiler.DosMesh
import DftForge.Compiler.BandGap
import DftForge.Qe.ReportConsistency
import DftForge.Qe.RecoveryBounds
import DftForge.Qe.RelaxedStructure
import DftForge.Structure.EmittedDecks
import DftForge.Structure.ImportSoundness
import DftForge.Structure.PairDistances
import DftForge.Hpc.JobParams
import DftForge.Structure.Doping
import DftForge.Web.NewestFigures
import DftForge.Agent.FormulaReading
import DftForge.Hpc.Cancellation
import DftForge.Hpc.Upload
import DftForge.Tools.JsonRecovery
import DftForge.Engines.TimeoutRepair
import DftForge.Web.SettingsSurvive
import DftForge.Hpc.JobRender
import DftForge.Hpc.RemoteCommands
import DftForge.Runtime.JsonColumns
import DftForge.Web.Conversations
import DftForge.Web.EventStream
import DftForge.Qe.Ledger
import DftForge.Agent.ModelReplies
import DftForge.Tools.GraphTools
import DftForge.Agent.GraphFacts
import DftForge.Agent.Comparisons
import DftForge.Web.SessionFiles
import DftForge.Engines.UpstreamSaves
import DftForge.Web.ChainCard
