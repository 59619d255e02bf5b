import SchoolSystem.Library.TransitionSystem
import SchoolSystem.Library.ReorderBuffer
import SchoolSystem.Library.NumberedLog
import SchoolSystem.TcpSocket.Packet
import SchoolSystem.TcpSocket.Reassembly
import SchoolSystem.TcpSocket.Socket
import SchoolSystem.TcpSocket.Flow
import SchoolSystem.TcpSocket.Link
import SchoolSystem.TcpSocket.LinkSteps
import SchoolSystem.TcpSocket.Delivery
import SchoolSystem.TcpSocket.Handshake
import SchoolSystem.TcpSocket.Isolation
import SchoolSystem.Library.LittleEndian
import SchoolSystem.TcpSocket.Wire
import SchoolSystem.Exchange.Framing
import SchoolSystem.Dialog.Sql
import SchoolSystem.Dialog.Quoting
import SchoolSystem.Exchange.Reply
import SchoolSystem.Server.SqlTasks
import SchoolSystem.Library.Turns
import SchoolSystem.Server.ThreadPool
import SchoolSystem.Server.Service
import SchoolSystem.Server.Requests
import SchoolSystem.TcpSocket.ArrivalOrder
import SchoolSystem.Exchange.ShowList
import SchoolSystem.TcpSocket.Errors
import SchoolSystem.Library.Locks
import SchoolSystem.Server.WakeUp
import SchoolSystem.Server.Selection
import SchoolSystem.Server.Refusal
import SchoolSystem.Server.PoolLifetime
import SchoolSystem.Dialog.Database
import SchoolSystem.Dialog.Handlers
import SchoolSystem.Library.KeyedList
import SchoolSystem.Dialog.Mirror
import SchoolSystem.TcpSocket.Reconnect
import SchoolSystem.TcpSocket.Leftovers
import SchoolSystem.TcpSocket.Senders
import SchoolSystem.TcpSocket.Recv
import SchoolSystem.Exchange.Lengths
import SchoolSystem.Exchange.ParseLoops
import SchoolSystem.TcpSocket.WrapAround
import SchoolSystem.Server.ThreadAccounting
import SchoolSystem.Server.ThreadUse
import SchoolSystem.Server.Progress
import SchoolSystem.Server.Standstill
import SchoolSystem.Server.Workload
import SchoolSystem.Server.Reading
import SchoolSystem.TcpSocket.Counters
import SchoolSystem.TcpSocket.BoundedLink
import SchoolSystem.Library.OwnedHeap
import SchoolSystem.TcpSocket.Ownership
import SchoolSystem.TcpSocket.FailedConnect
import SchoolSystem.Exchange.ResultSets
import SchoolSystem.Library.Reach
import SchoolSystem.Library.Executions
import SchoolSystem.TcpSocket.Streams
import SchoolSystem.TcpSocket.Liveness
import SchoolSystem.Exchange.Session
import SchoolSystem.Exchange.Conversation
import SchoolSystem.Dialog.Sessions
import SchoolSystem.TcpSocket.Resending
import SchoolSystem.Server.Statements
import SchoolSystem.Server.ClientStreams
