import Ksnap.System.RoundTrip
import Ksnap.System.Gate
import Ksnap.System.Dumping
import Ksnap.System.Commands
import Ksnap.System.Machine
import Ksnap.Engine.Main
import Ksnap.Check.Attaching
import Ksnap.Check.Sweep
import Ksnap.Engine.CheckMode
import Ksnap.Check.Reasons
import Ksnap.Check.StatusText
import Ksnap.Dump.Image
import Ksnap.Dump.Overwrite
import Ksnap.Restore.Resumed
import Ksnap.Panel.RefusedDump
import Ksnap.Foundation.Unchanged
import Ksnap.Foundation.Folders
import Ksnap.Frontend.Responses
import Ksnap.Frontend.Processes
import Ksnap.Foundation.Requests
import Ksnap.Engine.PoolMemory
import Ksnap.Engine.JsonString
import Ksnap.Foundation.JsonEscapes
import Ksnap.Panel.ProcessFiles
import Ksnap.Panel.Settling
import Ksnap.Panel.ProcessNames
import Ksnap.Panel.Processes
import Ksnap.Panel.Snapshots
import Ksnap.Panel.Bodies
import Ksnap.Panel.App
import Ksnap.Panel.RememberFailures
import Ksnap.Panel.Known
import Ksnap.Check.MapsLines
import Ksnap.Check.Reopenable
import Ksnap.Panel.LostArguments
import Ksnap.Panel.Verdicts
import Ksnap.Dump.Target
import Ksnap.Panel.Reports
import Ksnap.Panel.ReportReading
import Ksnap.Panel.ReportLine
import Ksnap.Engine.Report
import Ksnap.Foundation.JsonPieces
import Ksnap.Foundation.JsonWriter
import Ksnap.Panel.Stream
import Ksnap.Foundation.Stream
import Ksnap.Check.Lost
import Ksnap.Check.MapsText
import Ksnap.Foundation.Printed
import Ksnap.Restore.Reopened
import Ksnap.Restore.MovedMaps
import Ksnap.Restore.Protections
import Ksnap.Restore.Happened
import Ksnap.Restore.KernelMaps
import Ksnap.Snapshot.KernelMapNames
import Ksnap.Snapshot.Allocations
import Ksnap.Snapshot.FdTable
import Ksnap.Panel.Listing
import Ksnap.Panel.Check
import Ksnap.Foundation.Numeral
import Ksnap.Foundation.Lines
import Ksnap.Foundation.JsonReader
import Ksnap.Panel.Console
import Ksnap.Panel.Logbook
import Ksnap.Panel.Arguments
import Ksnap.Panel.Containment
import Ksnap.Panel.Names
import Ksnap.Panel.Headers
import Ksnap.Panel.Registry
import Ksnap.Panel.Sessions
import Ksnap.Panel.Engine
import Ksnap.Panel.Snapshot
import Ksnap.Panel.Calls
import Ksnap.Foundation.Raising
import Ksnap.Foundation.Interleaving
import Ksnap.Foundation.Text
import Ksnap.Restore.SameMemory
import Ksnap.Restore.Release
import Ksnap.Check.Promise
import Ksnap.Panel.Remember
import Ksnap.Panel.Handlers
import Ksnap.System.Confined
import Ksnap.Restore.AddressSpace
import Ksnap.Restore.FullRestore
