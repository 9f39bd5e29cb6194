import CoopTasks.Stack.GuardRegion
import CoopTasks.Stack.GuardPool
import CoopTasks.Queue.Arena
import CoopTasks.Queue.Lemmas
import CoopTasks.Stack.Memory
import CoopTasks.Task.Table
import CoopTasks.Hardware
import CoopTasks.Kernel.Basic
import CoopTasks.Kernel.Call
import CoopTasks.Program.Basic
import CoopTasks.Program.Flow
import CoopTasks.Program.Machine
import CoopTasks.Program.Run
import CoopTasks.Simulation.Session
import CoopTasks.Workload.Demo
import CoopTasks.Workload.Script
import CoopTasks.Proofs.Placement
import CoopTasks.Proofs.Waking
import CoopTasks.Proofs.Switching
import CoopTasks.Proofs.Calls
import CoopTasks.Proofs.Operations
import CoopTasks.Proofs.Deadlines
import CoopTasks.Proofs.RosterCalls
import CoopTasks.Proofs.ProducerConsumer
import CoopTasks.Proofs.Alternation
import CoopTasks.Proofs.Demonstration
import CoopTasks.Proofs.Enactment
import CoopTasks.Proofs.SceneRuns
import CoopTasks.Proofs.Alarm
import CoopTasks.Proofs.Exclusion
import CoopTasks.Proofs.Binding
import CoopTasks.Proofs.World
import CoopTasks.Proofs.Order
import CoopTasks.Proofs.Waiters
import CoopTasks.Proofs.Wakeups
import CoopTasks.Proofs.History
import CoopTasks.Proofs.Contexts
import CoopTasks.Proofs.Counting
import CoopTasks.Proofs.Turns
import CoopTasks.Proofs.Chronicle
import CoopTasks.Proofs.Lifetimes
import CoopTasks.Proofs.Draining
import CoopTasks.Proofs.Duration
import CoopTasks.Proofs.Roster
import CoopTasks.Proofs.RosterSwitches
import CoopTasks.Proofs.Joining
import CoopTasks.Proofs.SafeWakes
import CoopTasks.Proofs.SafeSwitches
import CoopTasks.Proofs.SafeStarts
import CoopTasks.Proofs.SafeCalls
import CoopTasks.Proofs.BehavedPrograms
import CoopTasks.Proofs.FailureFree
import CoopTasks.Proofs.Refusals
import CoopTasks.Proofs.Events
import CoopTasks.Proofs.SlotSteps
import CoopTasks.Proofs.NoEarlyResume
import CoopTasks.Proofs.LeftoverWakes
import CoopTasks.Proofs.Issuing
import CoopTasks.Proofs.Deliveries
import CoopTasks.Proofs.SleepCounts
import CoopTasks.Proofs.Ledger
import CoopTasks.Proofs.EndedTasks
import CoopTasks.Proofs.EarlierNames
import CoopTasks.Proofs.Exits
import CoopTasks.Proofs.Liveness
import CoopTasks.Proofs.Fields
import CoopTasks.Proofs.Accounting
import CoopTasks.Proofs.Sequences
import CoopTasks.Proofs.Executing
import CoopTasks.Proofs.Pools
import CoopTasks.Proofs.Sparing
import CoopTasks.Proofs.Guarding
import CoopTasks.Proofs.Guards
import CoopTasks.Proofs.Expiry
import CoopTasks.Proofs.RunInvariants
import CoopTasks.Proofs.Exchange
import CoopTasks.Proofs.AlarmHandler
import CoopTasks.Proofs.Lateness
import CoopTasks.Proofs.WakeOrder
import CoopTasks.Proofs.Allocation
import CoopTasks.Proofs.Protection
import CoopTasks.Proofs.KeyOrder
import CoopTasks.Proofs.HighWater
