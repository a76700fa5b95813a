import C10K.Queue.Refinement
import C10K.Queue.Resize
import C10K.Boolset.Refinement
import C10K.Boolset.Bounds
import C10K.Boolset.Iteration
import C10K.Http.RoundTrip
import C10K.Http.Bounds
import C10K.Http.Tail
import C10K.Http.NoColon
import C10K.Http.Page
import C10K.Http.Length
import C10K.Http.Scans
import C10K.Workers.Shutdown
import C10K.Workers.Wakeup
import C10K.Workers.Progress
import C10K.Workers.Service
import C10K.Endpoint.Hangups
import C10K.Endpoint.NoLoss
import C10K.Endpoint.Watching
import C10K.Endpoint.Overlap
import C10K.Endpoint.Accept
import C10K.Endpoint.Repeats
import C10K.Endpoint.Close
import C10K.Server.Reports
import C10K.Server.Simulation
import C10K.Server.Exit
import C10K.Threadpool.Completion
import C10K.Threadpool.Service
import C10K.Calc.Exact
import C10K.Calc.Exit
import C10K.Example.Stop
import C10K.Calc.Datagrams
import C10K.Containers
