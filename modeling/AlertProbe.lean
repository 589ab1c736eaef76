import AlertProbe.Foundations.TransitionSystem
import AlertProbe.Foundations.Fairness
import AlertProbe.Foundations.Channel
import AlertProbe.Foundations.LockedQueue
import AlertProbe.Foundations.CText
import AlertProbe.Foundations.PercentEncoding
import AlertProbe.Foundations.LinkedCells
import AlertProbe.Foundations.Loop
import AlertProbe.Foundations.StreamEditor
import AlertProbe.Foundations.TextLines
import AlertProbe.Foundations.KeyFile
import AlertProbe.Foundations.SharedFile
import AlertProbe.Foundations.Shell
import AlertProbe.Foundations.Json
import AlertProbe.Foundations.JsonLines
import AlertProbe.Foundations.HttpRequest
import AlertProbe.Model.Data
import AlertProbe.Model.Format
import AlertProbe.Model.Sender
import AlertProbe.Model.Threads
import AlertProbe.Model.QueueCells
import AlertProbe.Model.Conf
import AlertProbe.Model.Configure
import AlertProbe.Model.Daemon
import AlertProbe.Model.Log
import AlertProbe.Model.Signals
import AlertProbe.Model.Install
import AlertProbe.Model.Http
import AlertProbe.Model.Checks
import AlertProbe.Model.Installer
import AlertProbe.Pipeline.Sequential
import AlertProbe.Pipeline.Locks
import AlertProbe.Pipeline.Fifo
import AlertProbe.Pipeline.Delivery
import AlertProbe.Pipeline.MessageID
import AlertProbe.Pipeline.HeartBeat
import AlertProbe.Pipeline.HeartBeatRate
import AlertProbe.Pipeline.Shutdown
import AlertProbe.Pipeline.Liveness
import AlertProbe.Pipeline.Leftovers
import AlertProbe.Pipeline.ProcessID
import AlertProbe.Pipeline.Faults
import AlertProbe.Wire.Payload
import AlertProbe.Wire.Decoder
import AlertProbe.Wire.Buffers
import AlertProbe.Wire.CollectTime
import AlertProbe.Wire.Engine
import AlertProbe.Transport.Paths
import AlertProbe.Transport.Status
import AlertProbe.Transport.Descriptors
import AlertProbe.Memory.QueueRefinement
import AlertProbe.Memory.ValueLoop
import AlertProbe.Configuration.Fields
import AlertProbe.Configuration.Strings
import AlertProbe.Configuration.Integers
import AlertProbe.Configuration.Installed
import AlertProbe.Configuration.Identity
import AlertProbe.Logging.Records
import AlertProbe.Logging.Lifetimes
import AlertProbe.Signals.Installation
import AlertProbe.Signals.FirstSignal
import AlertProbe.Install.Unescape
import AlertProbe.Install.Credentials
import AlertProbe.Install.Packages
import AlertProbe.Install.PlainLines
import AlertProbe.Install.PackageLines
import AlertProbe.Install.MockLayout
import AlertProbe.Install.Responses
import AlertProbe.Install.Requests
import AlertProbe.Install.Password
import AlertProbe.Install.HostDescription
import AlertProbe.Install.Repeated
