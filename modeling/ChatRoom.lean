import ChatRoom.Proof.Symbolic
import ChatRoom.Proof.Handlers
import ChatRoom.Proof.Steps
import ChatRoom.Proof.Tracking
import ChatRoom.Proof.Direct
import ChatRoom.Proof.Group
import ChatRoom.Lib.Schedule
import ChatRoom.Proof.Serial
import ChatRoom.Permission
import ChatRoom.FastPath
import ChatRoom.Proof.Frames
import ChatRoom.Proof.Uploads
import ChatRoom.Transfers
import ChatRoom.Proof.StoredFiles
import ChatRoom.Proof.Deliveries
import ChatRoom.Deliveries
import ChatRoom.Client.Upload
import ChatRoom.Server.Input
import ChatRoom.Proof.Input
import ChatRoom.Segmentation
import ChatRoom.Proof.UploadStream
import ChatRoom.UploadStream
import ChatRoom.SingleDelivery
import ChatRoom.Client.Messages
import ChatRoom.ChatText
import ChatRoom.Proof.Contents
import ChatRoom.MessageContents
import ChatRoom.Lib.OutputLedger
import ChatRoom.Server.Connection
import ChatRoom.Proof.OutputBooks
import ChatRoom.Proof.OutputSteps
import ChatRoom.Proof.OutputOrder
import ChatRoom.OutputFraming
import ChatRoom.EmissionOrder
import ChatRoom.Lib.Sequential
import ChatRoom.Proof.Warrants
import ChatRoom.SocialGraph
import ChatRoom.GroupStructure
import ChatRoom.HandlerProgress
import ChatRoom.Client.Heartbeat
import ChatRoom.GroupAuthorisation
import ChatRoom.Withheld
import ChatRoom.PendingFiles
import ChatRoom.Proof.Online
import ChatRoom.SingleLogin
import ChatRoom.Proof.Presence
import ChatRoom.GlobalPresence
import ChatRoom.StreamReading
import ChatRoom.Server.Buffer
import ChatRoom.TlsRetry
import ChatRoom.GracefulShutdown
import ChatRoom.Lib.Executions
import ChatRoom.Proof.Pool
import ChatRoom.PoolTasks
import ChatRoom.Threads.EventLoop
import ChatRoom.Threads.PersistThread
import ChatRoom.ConnectionLifecycle
import ChatRoom.Lib.FileTree
import ChatRoom.Ftp.Session
import ChatRoom.FtpConfinement
import ChatRoom.FtpTransfers
import ChatRoom.Unauthenticated
import ChatRoom.Lib.SqlConnection
import ChatRoom.Server.Transactions
import ChatRoom.TransactionReports
import ChatRoom.Client.Transport
import ChatRoom.Threads.LoopThread
import ChatRoom.InputProgress
import ChatRoom.UploadRejection
import ChatRoom.Client.TextQueue
import ChatRoom.Client.ChatEditor
import ChatRoom.FileOffers
import ChatRoom.Client.UploadQueue
import ChatRoom.UnreadCounter
