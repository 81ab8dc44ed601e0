import IocpChat.RoomMembership
import IocpChat.SlotLifecycle
import IocpChat.StreamReassembly
import IocpChat.PacketLifetimes
import IocpChat.StaleSessions
import IocpChat.EmptySends
import IocpChat.UserTable
import IocpChat.DbWorker
import IocpChat.FrameCodec
import IocpChat.Authentication
import IocpChat.RoomNotices
import IocpChat.LockFreeStack
import IocpChat.ServerOutline
import IocpChat.SessionCounts
import IocpChat.Shutdown
import IocpChat.ClientRequests
import IocpChat.ClientAgreement
import IocpChat.SendResults
import IocpChat.ChatOrder
import IocpChat.SlotAlone
import IocpChat.SlotHandlers
import IocpChat.RingQueue
import IocpChat.LongFrames
import IocpChat.SessionIds
import IocpChat.RoomChanges
import IocpChat.SessionIsolation
import IocpChat.PacketFields
import IocpChat.Credentials
import IocpChat.StaleMemory
import IocpChat.ResponseMemory
import IocpChat.DbAnswers
import IocpChat.DbHandles
import IocpChat.FailingCodec
import IocpChat.RoomLookups
import IocpChat.BatchPipe
import IocpChat.BotReceive
import IocpChat.ClientStream
import IocpChat.UpdateThread
import IocpChat.ChatService
import IocpChat.ContentService
import IocpChat.Conversation
import IocpChat.CredentialAnswers
import IocpChat.SlotProgress
import IocpChat.Accounts
