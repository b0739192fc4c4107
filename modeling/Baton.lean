import Baton.Futex.Lock
import Baton.Futex.Parker
import Baton.Futex.Rendez
import Baton.Futex.Ticket
import Baton.Io.Script
import Baton.Main
import Baton.Proofs.Program.Wakeups
import Baton.Proofs.RwLock.History
import Baton.Proofs.RwLock.Safety
import Baton.Proofs.RwLock.Holds
import Baton.Proofs.RwLock.Account
import Baton.Proofs.RwLock.Grants
import Baton.Proofs.RwLock.Resumptions
import Baton.Proofs.Program.Attains
import Baton.Proofs.RwLock.Claims
import Baton.Proofs.Program.Critical
import Baton.Proofs.Workload.Points
import Baton.Proofs.Workload.Books
import Baton.Proofs.Workload.Claims
import Baton.Proofs.Workload.Stages
import Baton.Proofs.Workload.Sections
import Baton.Proofs.Program.Lifetime
import Baton.Proofs.Workload.Ends
import Baton.Proofs.Workload.Starts
import Baton.Proofs.Workload.Progress
import Baton.Proofs.Workload.Completion
import Baton.Proofs.Program.BinarySemaphore
import Baton.Proofs.Program.Drained
import Baton.Proofs.Program.Joined
import Baton.Proofs.Program.Deadlock
import Baton.Proofs.Program.Conditions
import Baton.Proofs.Queue.Points
import Baton.Proofs.Queue.Books
import Baton.Proofs.Queue.Stages
import Baton.Proofs.Queue.Visits
import Baton.Proofs.Queue.Consumers
import Baton.Proofs.Queue.Producer
import Baton.Proofs.Queue.Crew
import Baton.Proofs.Queue.Completion
import Baton.Proofs.Program.Conserved
import Baton.Proofs.Program.Handover
import Baton.Proofs.Program.Sleepers
import Baton.Proofs.Program.Released
import Baton.Proofs.Program.Refusals
import Baton.Proofs.Program.Selects
import Baton.Proofs.Program.Shown
import Baton.Proofs.Sched.Batch
import Baton.Proofs.RwLock.Unlock
import Baton.Proofs.Io.Rounds
import Baton.Proofs.Program.Uncontended
import Baton.Proofs.Program.Yields
import Baton.Proofs.ErrorText
import Baton.Proofs.Registration
import Baton.Proofs.Settings
import Baton.Proofs.Logging
import Baton.Proofs.Offers
import Baton.Proofs.Futex.Lock
import Baton.Proofs.Futex.Rendez
import Baton.Proofs.Futex.Parker
import Baton.Proofs.Futex.Ticket
import Baton.Proofs.Program.Hosting
import Baton.Proofs.Program.SleepWhile
import Baton.Proofs.Program.Alike
import Baton.Proofs.Program.Bookkeeping
import Baton.Proofs.Program.Misuse
