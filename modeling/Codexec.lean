import Codexec.Library.Table
import Codexec.Library.Machine
import Codexec.Library.Program
import Codexec.Library.Codec
import Codexec.Judge.Json
import Codexec.Judge.Compile
import Codexec.Judge.Secrecy
import Codexec.Judge.Progress
import Codexec.Judge.Lifecycle
import Codexec.Judge.Execution
import Codexec.Judge.Disclosure
import Codexec.Judge.Collision
import Codexec.Server.Shape
import Codexec.Server.Retries
import Codexec.Server.Authentic
import Codexec.Server.Notify
import Codexec.Server.Clock
import Codexec.Server.Live
import Codexec.Judge.Pool
import Codexec.Server.Runs
import Codexec.Library.Stretch
import Codexec.Server.WorkerLoop
import Codexec.Server.Http
import Codexec.Server.Idempotent
import Codexec.Server.Working
import Codexec.Server.Totals
import Codexec.Server.Monotone
import Codexec.Server.Surrender
import Codexec.Server.Catalogue
import Codexec.Judge.Capture
import Codexec.Library.Split
import Codexec.Judge.Lines
import Codexec.Judge.Tokens
import Codexec.Judge.Specification
import Codexec.Judge.Stopping
import Codexec.Judge.Excerpts
import Codexec.Server.Fifo
import Codexec.Server.Broadcast
import Codexec.Server.Emission
import Codexec.Judge.Loading
import Codexec.Server.Bodies
import Codexec.Server.Limits
import Codexec.Server.Agreement
import Codexec.Server.RunResults
import Codexec.Server.Boxes
import Codexec.Server.Draining
import Codexec.Judge.Arguments
import Codexec.Server.Recovery
import Codexec.Server.Serving
import Codexec.Server.Wire
import Codexec.Cli.Served
