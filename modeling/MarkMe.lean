import MarkMe.Statements
import MarkMe.Messages
import MarkMe.Confidentiality
import MarkMe.Grammar
import MarkMe.Framing
import MarkMe.EventLoop
import MarkMe.Wakeups
import MarkMe.Shutdown
import MarkMe.TaskOrder
import MarkMe.Status
import MarkMe.Connections
import MarkMe.Lifetimes
import MarkMe.Sessions
import MarkMe.Serial
import MarkMe.Program
import MarkMe.CommandLine
import MarkMe.Progress
import MarkMe.Service
import MarkMe.Faults
import MarkMe.Client
import MarkMe.Retries
import MarkMe.Restarts
import MarkMe.Shuffles
import MarkMe.Bystanders
import MarkMe.Provenance
import MarkMe.SimpleLogger
import MarkMe.Options
import MarkMe.Numbers
