import KeInFS.Kas.AllocatorLease
import KeInFS.Kas.ConservedRuns
import KeInFS.Kas.FreeSpans
import KeInFS.Kas.OccupancyRuns
import KeInFS.Kee.ErasureCodec
import KeInFS.Keinctl.Topology
import KeInFS.Kfc.CoherentReads
import KeInFS.Kfc.DirectoryListing
import KeInFS.Kfc.RangedReadExact
import KeInFS.Kfc.SingleFlight
import KeInFS.Kfc.Writeback
import KeInFS.Kix.ArenaRepair
import KeInFS.Kix.DriveLogs
import KeInFS.Kms.DeletedVersions
import KeInFS.Kms.NotificationHub
import KeInFS.Kms.ObjectIds
import KeInFS.Kms.ReadCache
import KeInFS.Kms.ShardPlans
import KeInFS.Kms.StripeCount
import KeInFS.Krs.PlacementRelease
import KeInFS.Krs.RebuildTasks
import KeInFS.Krs.StripeTargets
import KeInFS.Ksc.AcknowledgedPut
import KeInFS.Ksc.EpochFloor
import KeInFS.Ksc.RosterChange
import KeInFS.Ksc.WriteLimiter
import KeInFS.Kst.SlotMonitor
import KeInFS.Kst.VolatileMaps
