import Atx.Lib.Outcome
import Atx.Lib.Attempt
import Atx.Lib.Table
import Atx.Lib.Prog
import Atx.Lib.Pool
import Atx.Lib.Interference
import Atx.Lib.Along
import Atx.Lib.Progression
import Atx.Lib.History
import Atx.Lib.Gregorian
import Atx.Lib.HeapOrder
import Atx.Lib.SortedMap
import Atx.Lib.Radix
import Atx.Lib.Ascii
import Atx.Lib.Utf8
import Atx.Lib.Lossy
import Atx.Lib.Decimal
import Atx.Lib.Text
import Atx.Lib.Escape
import Atx.Lib.Shell
import Atx.Lib.Lex
import Atx.Lib.Sorting
import Atx.Lib.Stream
import Atx.Domain.Primitives
import Atx.Domain.Id
import Atx.Domain.Duration
import Atx.Domain.State
import Atx.Domain.Job
import Atx.Domain.Run
import Atx.Domain.Execution
import Atx.Application.Reconcile
import Atx.Application.Partition
import Atx.Store.Rows
import Atx.Store.JobStore
import Atx.Store.RunStore
import Atx.Store.Startup
import Atx.Store.Audit
import Atx.Store.Migrations
import Atx.Process.Machine
import Atx.Process.Operations
import Atx.Process.Cli
import Atx.Process.Supervisor
import Atx.Process.Monitor
import Atx.Process.Story
import Atx.Process.Outline
import Atx.Process.System
import Atx.Process.Evolution
import Atx.Safety.RunRow
import Atx.Safety.Record
import Atx.Safety.AtMostOnce
import Atx.Safety.Supervision
import Atx.Safety.Cancellation
import Atx.Safety.CancelRace
import Atx.Safety.Recoverability
import Atx.Safety.Recurrence
import Atx.Safety.Occurrence
import Atx.Safety.JobHistory
import Atx.Safety.RunHistory
import Atx.Supervisor.Heap
import Atx.Supervisor.Loop
import Atx.Supervisor.Frame
import Atx.Supervisor.Daemon
import Atx.Supervisor.ServeIpc
import Atx.Supervisor.Retries
import Atx.Supervisor.Ipc
import Atx.Process.CancelGroup
import Atx.Supervisor.Standing
import Atx.Safety.RecoveredOccurrence
import Atx.Safety.StartupTwice
import Atx.Safety.TornRead
import Atx.Safety.SingleSupervisor
import Atx.Safety.StaleLock
import Atx.Safety.SignalCommit
import Atx.Store.Erasure
import Atx.Process.CancelSteps
import Atx.Safety.DueFailure
import Atx.Safety.DueBatch
import Atx.Domain.CalendarSyntax
import Atx.Domain.Calendar
import Atx.Cli.Schedule
import Atx.Cli.Human
import Atx.Cli.Args
import Atx.Cli.Environment
import Atx.Domain.StoredText
import Atx.Store.Management
import Atx.Store.Retention
import Atx.Application.Service
import Atx.Service.Systemd
import Atx.Process.Capture
import Atx.Process.Tty
import Atx.Lib.UnitText
import Atx.Lib.Markup
import Atx.Service.Launchd
import Atx.Service.Definitions
import Atx.Process.Inspect
import Atx.Supervisor.Children
import Atx.Cli.View
import Atx.Supervisor.Acknowledge
import Atx.Cli.Submit
import Atx.Safety.StartupDelivery
import Atx.Domain.Deserialize
import Atx.Domain.TimestampText
import Atx.Lib.TableRel
import Atx.Lib.Tracking
import Atx.Store.ColumnStore
import Atx.Store.Columns
import Atx.Store.RunColumns
import Atx.Store.RunColumnStore
import Atx.Store.Listing
