import FsExt.Sys.Program
import FsExt.Sys.Exchange
import FsExt.Sys.Extent
import FsExt.Sys.Pool
import FsExt.Sys.Reduction
import FsExt.Sys.Sessions
import FsExt.Sys.Turns
import FsExt.Sys.Sections
import FsExt.Sys.Sweep
import FsExt.Sys.Reach
import FsExt.Sys.Ownership
import FsExt.Sys.Runs
import FsExt.Sys.Tracks
import FsExt.Sys.Linear
import FsExt.Sys.Places
import FsExt.Sys.Memory
import FsExt.Sys.Heap
import FsExt.Sys.Text
import FsExt.Trim
import FsExt.Trim.Ranges
import FsExt.Trim.Failures
import FsExt.Trim.Windows
import FsExt.Trim.Backends
import FsExt.Swap.TempPath
import FsExt.Swap.Swap
import FsExt.Sys.Slots
import FsExt.Swap.Rollback
import FsExt.Swap.AllOrNothing
import FsExt.Swap.Workers
import FsExt.Swap.Lookups
import FsExt.Swap.Histories
import FsExt.Swap.Reading
import FsExt.Swap.Sibling
import FsExt.Lock.Api
import FsExt.Lock.Beliefs
import FsExt.Lock.Linux
import FsExt.Lock.Windows
import FsExt.Lock.Apple
import FsExt.Lock.Ranges
import FsExt.Lock.WholeFile
import FsExt.Lock.Plans
import FsExt.Lock.Portable
import FsExt.Lock.Agreement
import FsExt.Lock.Sections
import FsExt.Lock.Soundness
import FsExt.Lock.Held
import FsExt.Lock.Upgrade
import FsExt.Lock.Downgrade
import FsExt.Lock.Deadlock
import FsExt.Attr.Xattr
import FsExt.Attr.GetAttr
import FsExt.Attr.Windows
import FsExt.Attr.MainStream
import FsExt.Attr.ListAttrs
import FsExt.Attr.Unpack
import FsExt.Attr.Buffers
import FsExt.Attr.Passes
import FsExt.Attr.StreamNames
import FsExt.Attr.Snapshot
import FsExt.Binding.Strings
import FsExt.Attr.RoundTrip
import FsExt.Attr.Store
import FsExt.Attr.Histories
import FsExt.Binding.Apart
import FsExt.Binding.Forms
import FsExt.Binding.Ranges
import FsExt.Binding.Resources
import FsExt.Binding.Models
import FsExt.Binding.Custody
import FsExt.Attr.FailedSet
import FsExt.Attr.Listing
import FsExt.Attr.Names
import FsExt.Attr.Sharing
import FsExt.Attr.Models
import FsExt.Attr.Concurrent
import FsExt.Sys.History
import FsExt.Async.LifeCycle
import FsExt.Async.Progress
import FsExt.Async.Pool
import FsExt.Async.Retention
import FsExt.Lock.Agreement
