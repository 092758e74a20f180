import ClusterScheduler.Fault
import ClusterScheduler.Word
import ClusterScheduler.IdSet.Basic
import ClusterScheduler.Binary64.Basic
import ClusterScheduler.Binary64.Text
import ClusterScheduler.Text.Basic
import ClusterScheduler.Text.Printable
import ClusterScheduler.Text.GraphemeExtend
import ClusterScheduler.Text.Alphanumeric
import ClusterScheduler.Json.Value
import ClusterScheduler.Json.Print
import ClusterScheduler.Json.Read
import ClusterScheduler.Json.Shape
import ClusterScheduler.Config
import ClusterScheduler.Request
import ClusterScheduler.Notice
import ClusterScheduler.Resource.Row
import ClusterScheduler.Sorting.Small
import ClusterScheduler.Sorting.Drift
import ClusterScheduler.Resource.Order
import ClusterScheduler.Hierarchy.Basic
import ClusterScheduler.Hierarchy.Match
import ClusterScheduler.Job.Basic
import ClusterScheduler.Inventory
import ClusterScheduler.IdSet.Sliding
import ClusterScheduler.Slot.Basic
import ClusterScheduler.SlotSet.Basic
import ClusterScheduler.SlotSet.Split
import ClusterScheduler.SlotSet.Assemble
import ClusterScheduler.SlotSet.Linked
import ClusterScheduler.SlotSet.Search
import ClusterScheduler.Placement
import ClusterScheduler.JobOrder
import ClusterScheduler.Cycle
import ClusterScheduler.Snapshot.Record
import ClusterScheduler.Snapshot.Round
import ClusterScheduler.Command.Files
import ClusterScheduler.Command.Dotenv
import ClusterScheduler.Command.Run
import ClusterScheduler.Encode
import ClusterScheduler.SlotSet.Walk
import ClusterScheduler.Main
import ClusterScheduler.Proofs.SlotChain
import ClusterScheduler.Proofs.SlotUpdate
import ClusterScheduler.Proofs.SlotMutation
import ClusterScheduler.Proofs.StoredChain
import ClusterScheduler.Proofs.IdSetLaws
import ClusterScheduler.Proofs.SlidingQueue
import ClusterScheduler.Proofs.MatchWithin
import ClusterScheduler.Proofs.WindowWithin
import ClusterScheduler.Proofs.PlaceOne
import ClusterScheduler.Proofs.SlotEntries
import ClusterScheduler.Proofs.NoDoubleBooking
import ClusterScheduler.Proofs.Narrowing
import ClusterScheduler.Proofs.RoundStart
import ClusterScheduler.Proofs.DefaultPass
import ClusterScheduler.Proofs.RoundSoundness
import ClusterScheduler.Proofs.ReversedSets
import ClusterScheduler.Proofs.Provenance
import ClusterScheduler.Proofs.DurationOverflow
import ClusterScheduler.Proofs.PlacementCache
import ClusterScheduler.Proofs.IdSetCount
import ClusterScheduler.Proofs.MatchGrowth
import ClusterScheduler.Proofs.MatchShape
import ClusterScheduler.Proofs.WindowSearch
import ClusterScheduler.Proofs.EarliestFit
import ClusterScheduler.Proofs.ChainAssembly
import ClusterScheduler.Proofs.CycleReport
import ClusterScheduler.Proofs.StartBounds
import ClusterScheduler.Proofs.LowestIds
import ClusterScheduler.Proofs.MaximalRuns
import ClusterScheduler.Proofs.RowOrder
import ClusterScheduler.Proofs.SortPerm
import ClusterScheduler.Proofs.SortOrder
import ClusterScheduler.Proofs.SortMeet
import ClusterScheduler.Proofs.SortCorrect
import ClusterScheduler.Proofs.InventoryOrder
import ClusterScheduler.Proofs.Grouping
import ClusterScheduler.Proofs.HierarchyBuild
import ClusterScheduler.Proofs.InventoryTally
import ClusterScheduler.Proofs.InventoryContents
import ClusterScheduler.Proofs.InventoryErrors
import ClusterScheduler.Proofs.EntriesApart
import ClusterScheduler.Proofs.IdMapRoundTrip
import ClusterScheduler.Proofs.PolicyOrder
import ClusterScheduler.Proofs.TextReading
import ClusterScheduler.Proofs.ConfigText
