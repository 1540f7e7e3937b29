import Ldd3.Lib.CInt
import Ldd3.Lib.StepMachine
import Ldd3.Lib.Block
import Ldd3.Scull.Core
import Ldd3.Scull.Shape
import Ldd3.Lib.WriteLog
import Ldd3.Scull.FlatFile
import Ldd3.Scull.Reset
import Ldd3.Scull.Geometry
import Ldd3.Lib.BoundedFifo
import Ldd3.Lib.Ring
import Ldd3.Pipe.Core
import Ldd3.Pipe.Steps
import Ldd3.Pipe.Fifo
import Ldd3.Lib.Counting
import Ldd3.Pipe.Openers
import Ldd3.Pipe.Wait
import Ldd3.Pipe.Poll
import Ldd3.Pipe.Lifetime
import Ldd3.Pipe.Statements
import Ldd3.Pipe.Sections
import Ldd3.Pipe.Atomic
import Ldd3.Access.Core
import Ldd3.Lib.Semaphore
import Ldd3.Access.Reset
import Ldd3.Scullv.Core
import Ldd3.Scullv.Fault
import Ldd3.Rbull.Core
import Ldd3.Rbull.Steps
import Ldd3.Rbull.Rounds
import Ldd3.Rbull.Slots
import Ldd3.Rbull.Timeout
import Ldd3.Rbull.Ledger
import Ldd3.Rbull.Balance
import Ldd3.Lib.Footprint
import Ldd3.Lib.Schedule
import Ldd3.Rbull.Copies
import Ldd3.Rbull.Segments
import Ldd3.Rbull.Serial
import Ldd3.Lib.Scatter
import Ldd3.Rbull.Flat
import Ldd3.Edu.Core
import Ldd3.Edu.Handshake
import Ldd3.Edu.Bounce
import Ldd3.Edu.Stream
import Ldd3.Edu.Recovery
import Ldd3.Lib.DropFifo
import Ldd3.Shortirq.Core
import Ldd3.Shortirq.Fifo
import Ldd3.Shortirq.Readers
import Ldd3.Uac.Core
import Ldd3.Uac.Stream
import Ldd3.Impair.Core
import Ldd3.Impair.Rings
import Ldd3.Impair.Steps
import Ldd3.Impair.Account
import Ldd3.Impair.Wake
import Ldd3.Impair.Deadline
import Ldd3.Access.Owners
import Ldd3.Access.Single
import Ldd3.Access.Waiters
import Ldd3.Memory.Core
import Ldd3.Memory.Quanta
import Ldd3.Scullv.Driver
import Ldd3.Scullv.Sigbus
import Ldd3.Scullv.Mappings
import Ldd3.Tty.Core
import Ldd3.Tty.Rearm
import Ldd3.Tty.Stream
import Ldd3.Adc.Core
import Ldd3.Adc.Samples
import Ldd3.Scull.Ioctl
import Ldd3.Scull.Registers
import Ldd3.Scull.ReturnValue
import Ldd3.Scull.Divisors
import Ldd3.Lib.Allocation
import Ldd3.Scull.Heap
import Ldd3.Scull.Ownership
import Ldd3.Scull.WriteFrame
import Ldd3.Uac.Disconnect
import Ldd3.Uac.Teardown
import Ldd3.Mint.Core
import Ldd3.Mint.References
import Ldd3.Scull.Positions
import Ldd3.Scull.Seek
import Ldd3.Scull.Effect
import Ldd3.Scull.Visible
import Ldd3.Scull.Holes
import Ldd3.Impair.Filter
import Ldd3.Edu.Scatter
import Ldd3.Edu.InFlight
import Ldd3.Edu.Probe
import Ldd3.Uac.Volume
import Ldd3.Lib.Records
import Ldd3.Uac.Parse
import Ldd3.Uac.Range
import Ldd3.Uac.Channels
import Ldd3.Uac.Tool
import Ldd3.Uac.RawVolume
import Ldd3.Uac.Flags
import Ldd3.Uac.Write
import Ldd3.Tty.Write
import Ldd3.Adc.Text
import Ldd3.Lib.Token
import Ldd3.Adc.Transfer
import Ldd3.Mint.Match
import Ldd3.Uac.Snap
import Ldd3.Impair.Sizes
import Ldd3.Buffer
import Ldd3.Debug.LastCmd
import Ldd3.Debug.SeqIter
import Ldd3.Dac.Core
import Ldd3.Dac.Tone
import Ldd3.Lib.Measure
import Ldd3.Lib.Keyed
import Ldd3.Lib.Projection
import Ldd3.Lib.Users
import Ldd3.Lib.QueueLock
import Ldd3.Lib.Resources
import Ldd3.Lib.Linearize
import Ldd3.Impair.Lifecycle
import Ldd3.Impair.Close
import Ldd3.Access.Clones
import Ldd3.Edu.Power
import Ldd3.Locks.Spin
import Ldd3.Locks.Lines
import Ldd3.Locks.Deadlock
import Ldd3.Edu.Pins
import Ldd3.Scull.Interleaved
import Ldd3.Text
import Ldd3.Lib.WaitQueue
import Ldd3.Shortirq.BottomHalf
import Ldd3.Jiq.Core
import Ldd3.Jiq.Ends
import Ldd3.Jiq.Stale
import Ldd3.Loading.Core
import Ldd3.Loading.Loops
import Ldd3.Loading.Attempts
import Ldd3.Uac.Printed
import Ldd3.Uac.Session
import Ldd3.Uac.Restore
