import V2xw.Client.AllOrNothing
import V2xw.Client.Agreement
import V2xw.Client.Ownership
import V2xw.Core.RngRuns
import V2xw.Core.EventOrder
import V2xw.Net.FragReport
import V2xw.Net.FragBudget
import V2xw.Net.Split
import V2xw.Record.SnapshotLayout
import V2xw.Record.Blind
import V2xw.Scms.Material
import V2xw.Scms.Silence
import V2xw.Scms.Receipt
import V2xw.Scms.Verdict
import V2xw.Scms.Coverage
import V2xw.Scms.Pseudonym
import V2xw.Node.Switched
import V2xw.Node.Revoked
import V2xw.Node.Introduce
import V2xw.Server.Bases
import V2xw.Server.Replay
import V2xw.Server.Strings
import V2xw.Server.Generations
import V2xw.Threat.IncrementalRun
import V2xw.Threat.ForgedContent
import V2xw.Threat.Collusion
import V2xw.Threat.Arrivals
import V2xw.Threat.Resolution
import V2xw.Radio.DccFloor
import V2xw.Radio.Wakeups
import V2xw.Experiment.Mixing
import V2xw.Experiment.Merge
import V2xw.Experiment.Paths
import V2xw.Record.SeekSpec
import V2xw.Record.Slots
import V2xw.Core.Civil
import V2xw.Msg.UperAtomic
import V2xw.Sec.Linkage
import V2xw.Scms.Service
import V2xw.Record.Hello
import V2xw.Scms.Termination
import V2xw.Node.Drift
import V2xw.Server.Resumable
import V2xw.Server.Settings
import V2xw.Node.Peers
import V2xw.Node.Rotation
import V2xw.Radio.Cbr
import V2xw.Radio.Exclusion
import V2xw.Radio.EdcaRuns
import V2xw.Msg.Cam
import V2xw.Msg.DenmRuns
import V2xw.Mobility.Dijkstra
import V2xw.Mobility.Timeline
import V2xw.Core.Below
import V2xw.Msg.UperCanonical
import V2xw.Sec.Reductions
import V2xw.Mobility.TwoColoring
