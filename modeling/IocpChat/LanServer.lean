import Mathlib.Logic.Function.Basic
import IocpChat.PacketBuffer
import IocpChat.RingBuffer

/-!
The network layer `CLanServer` with the callbacks of `CChatServer`, each
function run to completion.  The outcome of a call into Windows is an argument:
whether a posted operation is accepted (success or `WSA_IO_PENDING`), and what
a completion carries.  Accepted operations are counted per session until their
completion is handled.
-/

namespace IocpChat.LanServer

open IocpChat.Protocol
open IocpChat.RingWindow
open IocpChat.PacketBuffer
open IocpChat.RingBuffer

/-- The cells of the send queue. -/
def qsize : Nat := 512

/-- A `CPacket*`: the position of the packet among those ever created. -/
abbrev PacketRef := Nat

/-- `Session`.  Of `sendPkts` only the first `sentCount` entries are kept, the
only ones that are ever read.  The last four fields are not in the source: the
accepted operations still to complete, the bytes received in this lifetime and
the payloads passed to `OnRecv`. -/
structure Session where
  sock : Option Nat
  sID : SessionID
  generation : BitVec 32
  closeFlag : Bool
  recvBuffer : CRingBuffer
  sendPending : Bool
  sendQ : Nat → PacketRef
  sqHead : Nat
  sqTail : Nat
  sqCount : Nat
  sendPkts : List PacketRef
  ioRefCount : Int
  recvsOut : Nat
  sendsOut : Nat
  received : List UInt8
  delivered : List (List UInt8)

namespace Session

/-- A slot as `Start` leaves it. -/
def new : Session where
  sock := none
  sID := 0
  generation := 0
  closeFlag := false
  recvBuffer := CRingBuffer.new
  sendPending := false
  sendQ := fun _ => 0
  sqHead := 0
  sqTail := 0
  sqCount := 0
  sendPkts := []
  ioRefCount := 0
  recvsOut := 0
  sendsOut := 0
  received := []
  delivered := []

/-- The number of packets in the batch. -/
def sentCount (s : Session) : Nat := s.sendPkts.length

/-- The `sqCount` entries of `sendQ` from `sqHead` on. -/
def queued (s : Session) : List PacketRef := window s.sendQ qsize s.sqHead s.sqCount

/-- A packet goes to the end of the send queue. -/
def enqueue (s : Session) (p : PacketRef) : Session :=
  { s with
    sendQ := Function.update s.sendQ s.sqTail p
    sqTail := (s.sqTail + 1) % qsize
    sqCount := s.sqCount + 1 }

/-- The loop that takes packets off the queue, at most `limit` of them. -/
def takeQueue : Nat → Session → List PacketRef × Session
  | 0, s => ([], s)
  | limit + 1, s =>
      if 0 < s.sqCount then
        let rest := takeQueue limit
          { s with sqHead := (s.sqHead + 1) % qsize, sqCount := s.sqCount - 1 }
        (s.sendQ s.sqHead :: rest.1, rest.2)
      else ([], s)

/-- `InitSession` on the slot with index `idx`. -/
def init (idx : Nat) (sock : Nat) (s : Session) : Session :=
  { s with
    sock := some sock
    generation := s.generation + 1
    sID := sessionId idx (s.generation + 1)
    recvBuffer := s.recvBuffer.clear
    sqHead := 0
    sqTail := 0
    sqCount := 0
    sendPkts := []
    sendPending := false
    ioRefCount := 1
    closeFlag := false
    received := []
    delivered := [] }

end Session

/-- The messages of the content queue. -/
inductive Message where
  | join (sid : SessionID)
  | leave (sid : SessionID)
  | recv (sid : SessionID) (pkt : PacketRef)
  deriving DecidableEq, Repr

/-- The calls that delimit the lifetime of a session. -/
inductive Call where
  | initSession (idx : Nat) (sid : SessionID)
  | onClientJoin (idx : Nat) (sid : SessionID)
  | onClientLeave (idx : Nat) (sid : SessionID)
  | releaseSession (idx : Nat)
  deriving DecidableEq, Repr

/-- The server: the session table and its index pool, the packets ever created
with the pool of free ones, the content queue, and the history of calls.  The counters
are `LONG`s that wrap; what is stated of them are differences that stay small, and these
come out the same modulo 2^32. -/
structure Server where
  maxSession : Nat
  sessions : Nat → Session
  indexPool : List Nat
  totalAccept : Int
  totalDisconn : Int
  checksumMismatchCount : Int
  packets : PacketRef → CPacket
  allocated : Nat
  pool : List PacketRef
  contentQ : List Message
  joinCnt : Int
  leaveCnt : Int
  calls : List Call

namespace Server

/-- The server once `Start` has returned: every index has been pushed in turn. -/
def start (maxSession : Nat) : Server where
  maxSession := maxSession
  sessions := fun _ => Session.new
  indexPool := (List.range maxSession).reverse
  totalAccept := 0
  totalDisconn := 0
  checksumMismatchCount := 0
  packets := fun _ => CPacket.new
  allocated := 0
  pool := []
  contentQ := []
  joinCnt := 0
  leaveCnt := 0
  calls := []

def setSession (sv : Server) (idx : Nat) (s : Session) : Server :=
  { sv with sessions := Function.update sv.sessions idx s }

def setPacket (sv : Server) (p : PacketRef) (pkt : CPacket) : Server :=
  { sv with packets := Function.update sv.packets p pkt }

/-- `CPacket::Alloc`: a cleared packet from the pool, or a new one, with one reference. -/
def alloc (sv : Server) : PacketRef × Server :=
  match sv.pool with
  | p :: rest =>
      (p, { sv with pool := rest }.setPacket p { (sv.packets p).clear with refCount := 1 })
  | [] =>
      (sv.allocated, { sv with allocated := sv.allocated + 1 }.setPacket sv.allocated
        { CPacket.new with refCount := 1 })

/-- `CPacket::AddRef`. -/
def addRef (sv : Server) (p : PacketRef) : Server :=
  sv.setPacket p { sv.packets p with refCount := (sv.packets p).refCount + 1 }

/-- `CPacket::Release`: the last reference gives the packet back to the pool. -/
def release (sv : Server) (p : PacketRef) : Server :=
  let count := (sv.packets p).refCount - 1
  let sv := sv.setPacket p { sv.packets p with refCount := count }
  if count = 0 then { sv with pool := p :: sv.pool } else sv

/-- `Release` on each packet of a list. -/
def releaseAll (sv : Server) (ps : List PacketRef) : Server := ps.foldl release sv

/-- `OnClientJoin` of the chat server: it counts, and queues a message. -/
def onClientJoin (sv : Server) (idx : Nat) (sid : SessionID) : Server :=
  { sv with
    joinCnt := sv.joinCnt + 1
    contentQ := sv.contentQ ++ [.join sid]
    calls := sv.calls ++ [.onClientJoin idx sid] }

/-- `OnClientLeave`, likewise. -/
def onClientLeave (sv : Server) (idx : Nat) (sid : SessionID) : Server :=
  { sv with
    leaveCnt := sv.leaveCnt + 1
    contentQ := sv.contentQ ++ [.leave sid]
    calls := sv.calls ++ [.onClientLeave idx sid] }

/-- `ReleaseSession`: the index goes back to the pool. -/
def releaseSession (sv : Server) (idx : Nat) : Server :=
  { sv with
    indexPool := idx :: sv.indexPool
    calls := sv.calls ++ [.releaseSession idx] }

/-- `IOAddRef`. -/
def ioAddRef (sv : Server) (idx : Nat) : Server :=
  sv.setSession idx
    { sv.sessions idx with ioRefCount := (sv.sessions idx).ioRefCount + 1 }

/-- `IORelease`. -/
def ioRelease (sv : Server) (idx : Nat) : Server :=
  let count := (sv.sessions idx).ioRefCount - 1
  let sv := sv.setSession idx { sv.sessions idx with ioRefCount := count }
  if count = 0 then sv.releaseSession idx else sv

/-- `CloseSession`; closing the socket ends the I/O that is outstanding, whose completions
follow. -/
def closeSession (sv : Server) (idx : Nat) : Server :=
  if (sv.sessions idx).closeFlag then sv
  else
    let s := { sv.sessions idx with closeFlag := true, sock := none }
    let (pkts, s) := s.takeQueue s.sqCount
    let sv := (sv.setSession idx s).releaseAll pkts
    let sv := sv.onClientLeave idx s.sID
    { sv with totalDisconn := sv.totalDisconn + 1 }.ioRelease idx

/-- `PostRecv`, where `accepted` is what `WSARecv` answers. -/
def postRecv (sv : Server) (idx : Nat) (accepted : Bool) : Server :=
  let sv := sv.ioAddRef idx
  if accepted then
    sv.setSession idx { sv.sessions idx with recvsOut := (sv.sessions idx).recvsOut + 1 }
  else (sv.closeSession idx).ioRelease idx

/-- The batch is released and the gate reopened, in `FlushSend` after a refused
send as in `OnSendComplete`. -/
def releaseBatch (sv : Server) (idx : Nat) : Server :=
  let sv := sv.releaseAll (sv.sessions idx).sendPkts
  sv.setSession idx { sv.sessions idx with sendPkts := [], sendPending := false }

/-- `FlushSend`: whoever closes the gate takes all of the queue for its batch. -/
def flushSend (sv : Server) (idx : Nat) (accepted : Bool) : Server :=
  if (sv.sessions idx).sendPending then sv
  else
    let (pkts, s) := { sv.sessions idx with sendPending := true }.takeQueue qsize
    let sv := (sv.setSession idx { s with sendPkts := pkts }).ioAddRef idx
    if accepted then
      sv.setSession idx { sv.sessions idx with sendsOut := (sv.sessions idx).sendsOut + 1 }
    else ((sv.releaseBatch idx).closeSession idx).ioRelease idx

/-- `OnSendComplete`: the batch is released, the gate opens, and what has come in the
meantime is sent. -/
def onSendComplete (sv : Server) (idx : Nat) (accepted : Bool) : Server :=
  let sv := sv.releaseBatch idx
  if 0 < (sv.sessions idx).sqCount then sv.flushSend idx accepted else sv

/-- `SendPacket`, with its result. -/
def sendPacket (sv : Server) (sid : SessionID) (p : PacketRef) (accepted : Bool) :
    Bool × Server :=
  let idx := sidIndex sid
  if sv.maxSession ≤ idx then (false, sv)
  else if (sv.sessions idx).generation ≠ sidGeneration sid then (false, sv)
  else if (sv.sessions idx).closeFlag then (false, sv)
  else if qsize ≤ (sv.sessions idx).sqCount then (false, sv.closeSession idx)
  else
    let sv := sv.addRef p
    let sv := sv.setSession idx ((sv.sessions idx).enqueue p)
    (true, sv.flushSend idx accepted)

/-- `Disconnect`, with its result. -/
def disconnect (sv : Server) (sid : SessionID) : Bool × Server :=
  let idx := sidIndex sid
  if sv.maxSession ≤ idx then (false, sv)
  else if (sv.sessions idx).generation ≠ sidGeneration sid then (false, sv)
  else (true, sv.closeSession idx)

/-- `GetSessionCount`. -/
def getSessionCount (sv : Server) : Int := sv.totalAccept - sv.totalDisconn

/-- `InitSession`: the slot gets its next generation. -/
def initSession (sv : Server) (idx sock : Nat) : Server :=
  let s := (sv.sessions idx).init idx sock
  { sv.setSession idx s with calls := sv.calls ++ [.initSession idx s.sID] }

/-- `AcceptThread` takes an index off the pool, if there is one, and initialises its slot. -/
def allocSession (sv : Server) (sock : Nat) : Option (Nat × Server) :=
  match sv.indexPool with
  | [] => none
  | idx :: rest => some (idx, { sv with indexPool := rest }.initSession idx sock)

/-- One iteration of `AcceptThread` on an accepted connection. -/
def acceptOne (sv : Server) (sock : Nat) (registered accepted : Bool) : Server :=
  match sv.allocSession sock with
  | none => sv
  | some (idx, sv) =>
      if !registered then sv.closeSession idx
      else
        let sv := { sv with totalAccept := sv.totalAccept + 1 }
        let sv := sv.onClientJoin idx (sv.sessions idx).sID
        sv.postRecv idx accepted

/-- `OnRecv`: the packet waits in the content queue under its own reference. -/
def onRecv (sv : Server) (idx : Nat) (p : PacketRef) : Server :=
  let s := sv.sessions idx
  let sv := sv.addRef p
  { sv with contentQ := sv.contentQ ++ [Message.recv s.sID p] }.setSession idx
    { s with delivered := s.delivered ++ [(sv.packets p).payload] }

@[simp] theorem setPacket_sessions (sv : Server) (p : PacketRef) (pkt : CPacket) :
    (sv.setPacket p pkt).sessions = sv.sessions := rfl

@[simp] theorem alloc_sessions (sv : Server) : sv.alloc.2.sessions = sv.sessions := by
  simp only [alloc]
  split <;> rfl

@[simp] theorem addRef_sessions (sv : Server) (p : PacketRef) :
    (sv.addRef p).sessions = sv.sessions := rfl

@[simp] theorem release_sessions (sv : Server) (p : PacketRef) :
    (sv.release p).sessions = sv.sessions := by
  simp only [release]
  split <;> rfl

@[simp] theorem releaseAll_sessions (sv : Server) (ps : List PacketRef) :
    (sv.releaseAll ps).sessions = sv.sessions := by
  induction ps generalizing sv with
  | nil => rfl
  | cons p ps ih => exact (ih (sv.release p)).trans (release_sessions sv p)

end Server

/-- The call makes the identifier known. -/
def Call.issues (sid : SessionID) : Call → Bool
  | .initSession _ issued => issued = sid
  | _ => false

/-- `InitSession` has computed this session identifier. -/
def Issued (sv : Server) (sid : SessionID) : Prop := ∃ c ∈ sv.calls, c.issues sid = true

instance (sv : Server) (sid : SessionID) : Decidable (Issued sv sid) :=
  inferInstanceAs (Decidable (∃ c ∈ sv.calls, c.issues sid = true))

end IocpChat.LanServer
