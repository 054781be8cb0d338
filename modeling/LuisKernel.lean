import LuisKernel.Machine
import LuisKernel.Keyed
import LuisKernel.Basic
import LuisKernel.Rlimit
import LuisKernel.Registry
import LuisKernel.Registry.Outcome
import LuisKernel.Registry.Map
import LuisKernel.Registry.Enforce
import LuisKernel.Registry.Effects
import LuisKernel.Registry.Frame
import LuisKernel.Process
import LuisKernel.Process.Bound
import LuisKernel.Process.Owner
import LuisKernel.Process.Removal
import LuisKernel.Serial
import LuisKernel.Concurrent
import LuisKernel.Concurrent.Simulation
import LuisKernel.Registry.Listing
import LuisKernel.Layout
import LuisKernel.Records
import LuisKernel.Registry.Leak
import LuisKernel.Registry.History
import LuisKernel.Scan
import LuisKernel.CpuStats
import LuisKernel.CpuStats.Sample
import LuisKernel.IoThrottle
import LuisKernel.IoThrottle.Report
import LuisKernel.Meminfo
import LuisKernel.ProcessTable
import LuisKernel.ProcessTable.Filter
import LuisKernel.Usage
import LuisKernel.Tamalloc
import LuisKernel.Ledger
import LuisKernel.Resources
import LuisKernel.Bits
import LuisKernel.Clone
import LuisKernel.Clone.Unshare
import LuisKernel.Clone.Sharing
import LuisKernel.Forest
import LuisKernel.ProcessTree
import LuisKernel.ProcessTree.Subreaper
import LuisKernel.JobControl
import LuisKernel.Credentials
import LuisKernel.Extent
import LuisKernel.Files
import LuisKernel.Files.Seek
import LuisKernel.Files.Memory
import LuisKernel.Files.Vector
import LuisKernel.Files.Copy
import LuisKernel.Files.Run
import LuisKernel.Files.Contents
import LuisKernel.Custody
import LuisKernel.ThreadStack
import LuisKernel.Clone.AddressSpace
