import SchlagOS.Kernel.Machine
import SchlagOS.Invariant.Pool
import SchlagOS.Invariant.Pending
import SchlagOS.Invariant.Family
import SchlagOS.Invariant.Stack
import SchlagOS.Invariant.WaitingLists
import SchlagOS.Invariant.Waiters
import SchlagOS.Invariant.View
import SchlagOS.Invariant.Core
import SchlagOS.Invariant.Scheduling
import SchlagOS.Invariant.Run
import SchlagOS.Invariant.Boot
import SchlagOS.Invariant.Rules
import SchlagOS.Invariant.Access
import SchlagOS.Invariant.Calm
import SchlagOS.Run.Addresses
import SchlagOS.Run.Arguments
import SchlagOS.Invariant.Kin
import SchlagOS.Run.Tree
import SchlagOS.Run.Orphans
import SchlagOS.Run.Wakeups
import SchlagOS.Run.Stages
import SchlagOS.Foundation.Ledger
import SchlagOS.Run.Pools
import SchlagOS.Run.Resets
import SchlagOS.Invariant.Stdin
import SchlagOS.Run.Keyboard
import SchlagOS.Run.Typing
import SchlagOS.Screen.Clock
import SchlagOS.Run.Sleep
import SchlagOS.Screen.Bounds
import SchlagOS.Screen.Layout
import SchlagOS.Screen.Newline
import SchlagOS.Screen.Delete
import SchlagOS.Run.Arrivals
import SchlagOS.Run.Priorities
import SchlagOS.Run.FailedStart
import SchlagOS.Run.RoundRobin
import SchlagOS.Run.Schedule
import SchlagOS.Invariant.Bystander
import SchlagOS.Run.LineEditor
import SchlagOS.Run.ReadyLaw
import SchlagOS.Run.QueueLaws
import SchlagOS.Run.Releases
import SchlagOS.Run.Traffic
import SchlagOS.Run.Delivery
import SchlagOS.Run.Preemption
import SchlagOS.Run.Seals
import SchlagOS.Run.Alarm
import SchlagOS.Run.StartReturns
import SchlagOS.Invariant.Timing
import SchlagOS.Run.Deadlines
import SchlagOS.Keyboard.Keymaps
import SchlagOS.Keyboard.Driver
import SchlagOS.Keyboard.Modifiers
import SchlagOS.Keyboard.Bounds
import SchlagOS.Keyboard.Held
import SchlagOS.Keyboard.Strokes
import SchlagOS.Keyboard.Typist
import SchlagOS.Print.Doprnt
import SchlagOS.Print.Formats
import SchlagOS.Print.Numbers
import SchlagOS.Print.Printf
import SchlagOS.System.TimeOfDay
import SchlagOS.System.Machine
import SchlagOS.System.Output
import SchlagOS.System.Clock
import SchlagOS.Invariant.Depth
import SchlagOS.Run.StackDepth
import SchlagOS.Shared.Div64
import SchlagOS.Foundation.Paging
import SchlagOS.Foundation.Tables
import SchlagOS.Boot.Paging
import SchlagOS.Boot.Descriptors
import SchlagOS.Invariant.Faults
import SchlagOS.System.Isolation
import SchlagOS.Foundation.Cpu
import SchlagOS.System.SystemCalls
