import KiveOperator.Controller.KivePod
import KiveOperator.Controller.NodeCalls
import KiveOperator.Controller.DataRun
import KiveOperator.Library.Convergence
import KiveOperator.Correctness.AlertAttribution
import KiveOperator.Correctness.FilesUntouched
import KiveOperator.Correctness.SelectionOnce
import KiveOperator.Correctness.TrapRecords
import KiveOperator.Correctness.LoaderConvergence
import KiveOperator.Correctness.SharedKeys
import KiveOperator.Library.Agreement
import KiveOperator.Correctness.PolicyIndependence
import KiveOperator.Correctness.PolicyConversion
import KiveOperator.Correctness.DataConversion
import KiveOperator.Correctness.RecordFormat
import KiveOperator.Correctness.Orphans
import KiveOperator.Correctness.AlertContents
import KiveOperator.Correctness.WakeUps
import KiveOperator.Correctness.DeviceKeys
import KiveOperator.Correctness.FailureReports
import KiveOperator.Correctness.DiscoveryCommutes
import KiveOperator.Controller.System
import KiveOperator.Correctness.StaleFiles
import KiveOperator.Correctness.StaleKeys
import KiveOperator.Correctness.HastyDeletions
import KiveOperator.Correctness.ObjectNames
import KiveOperator.Correctness.TrapIdentity
import KiveOperator.Correctness.FailedListings
import KiveOperator.Correctness.PodQueries
import KiveOperator.Correctness.AllOrNothing
import KiveOperator.Correctness.ForeignFinalizers
import KiveOperator.Correctness.ComingToRest
import KiveOperator.Correctness.PassesSettle
import KiveOperator.Correctness.AppliedKept
import KiveOperator.Ebpf.AlertText
import KiveOperator.Correctness.Detection
import KiveOperator.Correctness.Coverage
import KiveOperator.Correctness.Failover
import KiveOperator.Correctness.AllLoaders
import KiveOperator.Correctness.Provenance
