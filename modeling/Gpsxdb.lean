import Gpsxdb.Library.Word
import Gpsxdb.Library.MappedFile
import Gpsxdb.Library.Runs
import Gpsxdb.Library.Coverage
import Gpsxdb.Library.Sorted
import Gpsxdb.Library.KeyedTable
import Gpsxdb.Library.Cells
import Gpsxdb.Library.Appliers
import Gpsxdb.Library.FileSystem
import Gpsxdb.Library.Delivery
import Gpsxdb.Library.WorkPool
import Gpsxdb.Library.Windows
import Gpsxdb.Library.Join
import Gpsxdb.Library.Framing
import Gpsxdb.Library.Records
import Gpsxdb.Library.Pieces
import Gpsxdb.Library.StreamFormat
import Gpsxdb.Library.FileOps
import Gpsxdb.Library.Transactions
import Gpsxdb.Library.BufferedFile
import Gpsxdb.Library.Trails
import Gpsxdb.Library.Binary64
import Gpsxdb.Library.Polygons
import Gpsxdb.Library.Admission
import Gpsxdb.Library.Utf8
import Gpsxdb.NodeStore.OSMMMap
import Gpsxdb.NodeStore.Entries
import Gpsxdb.NodeStore.Scans
import Gpsxdb.NodeStore.Refinement
import Gpsxdb.NodeStore.Crash
import Gpsxdb.NodeStore.OutOfRange
import Gpsxdb.Import.Tags
import Gpsxdb.Import.Geometry
import Gpsxdb.Import.Stitching
import Gpsxdb.Import.NavDB
import Gpsxdb.Import.WayThread
import Gpsxdb.Import.Holes
import Gpsxdb.Import.Conservation
import Gpsxdb.Import.Lookup
import Gpsxdb.Import.VertexOrder
import Gpsxdb.Import.Kept
import Gpsxdb.Import.Moves
import Gpsxdb.Import.WayPhase
import Gpsxdb.Import.Invariant
import Gpsxdb.Import.Outcome
import Gpsxdb.Import.Members
import Gpsxdb.Import.Termination
import Gpsxdb.Import.SingleEntry
import Gpsxdb.Import.Resume
import Gpsxdb.Import.WayQueue
import Gpsxdb.Import.WayBarrier
import Gpsxdb.Replication.Target
import Gpsxdb.Replication.NoGap
import Gpsxdb.Replication.Replicator
import Gpsxdb.Replication.InOrder
import Gpsxdb.Regional.NodeMap
import Gpsxdb.Regional.Install
import Gpsxdb.Delta.Tables
import Gpsxdb.Regional.Refresh
import Gpsxdb.Regional.BuildBundles
import Gpsxdb.Regional.Seeding
import Gpsxdb.Delta.PointWKB
import Gpsxdb.Delta.DeltaApplier
import Gpsxdb.Delta.RegionalDeltaApplier
import Gpsxdb.Delta.Promotion
import Gpsxdb.Delta.Freshness
import Gpsxdb.Delta.NodeRows
import Gpsxdb.Delta.Agreement
import Gpsxdb.Delta.Vertices
import Gpsxdb.Delta.TagCells
import Gpsxdb.Delta.Replay
import Gpsxdb.Delta.Integrity
import Gpsxdb.Delta.StaleRows
import Gpsxdb.Delta.TagPaths
import Gpsxdb.Delta.TagStatements
import Gpsxdb.Export.TempPaths
import Gpsxdb.Export.ProcessPair
import Gpsxdb.Export.PairChunks
import Gpsxdb.Export.PairMerge
import Gpsxdb.Export.ExactFilter
import Gpsxdb.Regional.NodeFile
import Gpsxdb.Regional.NodeFileReads
import Gpsxdb.Regional.NodeFileMerge
import Gpsxdb.Regional.NodeFileFaults
import Gpsxdb.Export.NodeExport
import Gpsxdb.Export.NodeSlices
import Gpsxdb.Export.VertexClosure
import Gpsxdb.Export.VertexFiles
import Gpsxdb.Export.VertexSteps
import Gpsxdb.Export.ScratchFiles
import Gpsxdb.Export.ExtraVertices
import Gpsxdb.Regional.BundleTables
import Gpsxdb.Regional.ScriptSpec
import Gpsxdb.Regional.Restriction
import Gpsxdb.Regional.InstallUnion
import Gpsxdb.NodeStore.Shards
import Gpsxdb.NodeStore.ShardReader
import Gpsxdb.NodeStore.ShardWriting
import Gpsxdb.NodeStore.ShardMerge
import Gpsxdb.NodeStore.ShardCrash
import Gpsxdb.NodeStore.ShardLossless
import Gpsxdb.NodeStore.ShardResume
import Gpsxdb.Wkb.WkbDecode
import Gpsxdb.Wkb.WkbFormat
import Gpsxdb.Wkb.RoundTrip
import Gpsxdb.Wkb.Writers
import Gpsxdb.Wkb.Builders
import Gpsxdb.Export.RegionIndex
import Gpsxdb.Copy.PgCopyBinary
import Gpsxdb.Copy.CopyRows
import Gpsxdb.Copy.CopyStream
import Gpsxdb.Reload.Streams
import Gpsxdb.Reload.Json
import Gpsxdb.Reload.Csv
import Gpsxdb.Reload.AirspaceLoader
import Gpsxdb.Reload.AirportsLoader
import Gpsxdb.Reload.FAAObstacleLoader
import Gpsxdb.Reload.AirspaceAtomicity
import Gpsxdb.Reload.Atomicity
import Gpsxdb.Reload.WMMLoader
import Gpsxdb.Reload.WMMRefresh
import Gpsxdb.Reload.ExternalData
import Gpsxdb.Import.Sanitizing
import Gpsxdb.Import.CopyBatch
import Gpsxdb.Import.TagBuffers
import Gpsxdb.Import.OrphanTags
import Gpsxdb.Library.DeltaCoding
import Gpsxdb.Import.PrimitiveBlock
import Gpsxdb.Library.Chunks
import Gpsxdb.Import.ResumeOffsets
import Gpsxdb.Reload.CsvFields
import Gpsxdb.Import.TagTruncation
import Gpsxdb.Import.QueueDelivery
import Gpsxdb.Terrain.Tiles
import Gpsxdb.Terrain.TerrainLoader
import Gpsxdb.Terrain.Loads
import Gpsxdb.Planet.PlanetDownloader
import Gpsxdb.Planet.ReplicationSeed
import Gpsxdb.Reload.AirspaceComplete
import Gpsxdb.Delta.OSCReader
import Gpsxdb.Delta.OSCDocument
import Gpsxdb.Delta.Attempts
import Gpsxdb.Replication.Polled
import Gpsxdb.Replication.ExactlyOnce
import Gpsxdb.Delta.Tracking
import Gpsxdb.Import.NodePhase
import Gpsxdb.Import.NodeDelivery
import Gpsxdb.Import.NodeBarrier
import Gpsxdb.Import.WayOutcome
import Gpsxdb.Import.FullImport
import Gpsxdb.Import.BlobFile
import Gpsxdb.Regional.InstallRun
import Gpsxdb.Regional.InstallStages
import Gpsxdb.Regional.InstallRecovery
import Gpsxdb.Delta.Mirror
import Gpsxdb.Replication.Reimport
import Gpsxdb.Delta.RegionalCalls
import Gpsxdb.Delta.RegionalDiffs
import Gpsxdb.Replication.RegionalExactlyOnce
