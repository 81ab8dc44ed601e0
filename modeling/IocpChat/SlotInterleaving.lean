import IocpChat.LanServer
import IocpChat.ThreadPool

/-!
One session slot and the threads that work on it, step by atomic step.  Every
Interlocked operation, flag or counter read, critical section and Winsock call
is one step.  `InitSession` stores one field or one group of related fields at a
time.  The functions of `CLanServer` are the steps they make; where one calls
another, the steps of the callee are put before those that remain.  `OnClientLeave`, the
counters and the packets' own reference counts are left out: no step of the slot reads
them.
-/

namespace IocpChat.SlotInterleaving

open IocpChat.Protocol
open IocpChat.LanServer
open IocpChat.LabelledRun
open IocpChat.ThreadPool

/-- Who runs `FlushSend`: a `SendPacket` that was given an identifier, or the
completion of a send. -/
inductive Caller where
  | sendPacket (sid : SessionID)
  | onSendComplete
  deriving DecidableEq, Repr

@[simp, grind] def Caller.sid : Caller → Option SessionID
  | .sendPacket sid => some sid
  | .onSendComplete => none

/-- Why `CloseSession` is called: the queue of a `SendPacket` is full, a batch
was refused (with the identifiers its packets were sent to), or anything else. -/
inductive Cause where
  | full (sid : SessionID)
  | refusal (caller : Caller) (batch : List SessionID)
  | other
  deriving DecidableEq, Repr

/-- The atomic steps, in the order of the functions they belong to. -/
inductive Instr where
  | readGeneration (sid : SessionID) (p : PacketRef)
  | readCloseFlag (sid : SessionID) (p : PacketRef)
  | enterQueue (sid : SessionID) (p : PacketRef)
  | leaveLock
  | exchangePending (caller : Caller)
  | dequeue (caller : Caller)
  | addRefSend (caller : Caller)
  | wsaSend (caller : Caller)
  | releaseBatch
  | clearPending
  | readCount
  | checkGeneration (sid : SessionID)
  | exchangeClose (cause : Cause)
  | closeSocket
  | drain
  | decRef
  | pushIndex
  | addRefRecv (first : Bool)
  | wsaRecv
  | initSock (sock : Nat)
  | initGeneration
  | initSid
  | initQueue
  | initPending
  | initRef
  | initOpen
  | register
  deriving DecidableEq, Repr

/-- What a thread that is not working on the slot may begin. -/
inductive Task where
  | sendPacket (sid : SessionID) (p : PacketRef)
  | disconnect (sid : SessionID)
  | sendDone
  | sendFailed
  | recvDone (close : Bool)
  | recvFailed
  | accept (sock : Nat)
  deriving DecidableEq, Repr

/-- The slot, the owner of its `sendLock`, how often its index is in
`indexPool`, and the identifiers `OnClientJoin` has announced for it.  The other
fields are history of the current lifetime: whom the packets in `sendQ` and in
`sendPkts` were sent to, the packets in the order they were enqueued and in the
order they were handed to an accepted `WSASend`, whether a `WSASend` was refused
on the open socket, how many sends completed with a failure, and how often the
index was pushed. -/
structure Shared (n : Nat) where
  s : Session
  lock : Option (Fin n)
  inPool : Nat
  sids : List SessionID
  queuedFor : List SessionID
  batchFor : List SessionID
  enqueued : List PacketRef
  handed : List PacketRef
  refused : Bool
  failed : Nat
  pushes : Nat

variable {n : Nat}

/-- `EnterCriticalSection` does not block its owner. -/
def Shared.MayEnter (sh : Shared n) (t : Fin n) : Prop :=
  sh.lock = none ∨ sh.lock = some t

instance (sh : Shared n) (t : Fin n) : Decidable (sh.MayEnter t) :=
  inferInstanceAs (Decidable (_ ∨ _))

/-- The exchange of `closeFlag` that opens `CloseSession`. -/
def Shared.exchangeCloseFlag (sh : Shared n) : Shared n × List Instr :=
  if sh.s.closeFlag then (sh, [])
  else ({ sh with s := { sh.s with closeFlag := true } }, [.closeSocket])

/-- A call begins.  A completion is there for an accepted operation; a failed
or empty one is taken from the port together with the exchange of `closeFlag`
that follows it.  `SendPacket` and `Disconnect` are given announced
identifiers. -/
def begins (idx : Nat) (sh : Shared n) : Task → Option (Shared n × List Instr)
  | .sendPacket sid p =>
      if sid ∈ sh.sids ∧ sidIndex sid = idx then some (sh, [.readGeneration sid p]) else none
  | .disconnect sid =>
      if sid ∈ sh.sids ∧ sidIndex sid = idx then some (sh, [.checkGeneration sid]) else none
  | .sendDone =>
      if 0 < sh.s.sendsOut then
        some ({ sh with s := { sh.s with sendsOut := sh.s.sendsOut - 1 } },
          [.releaseBatch, .clearPending, .readCount, .decRef])
      else none
  | .sendFailed =>
      if 0 < sh.s.sendsOut then
        let (sh, closing) := { sh with
          s := { sh.s with sendsOut := sh.s.sendsOut - 1 }
          failed := sh.failed + 1 }.exchangeCloseFlag
        some (sh, closing ++ [.decRef])
      else none
  | .recvDone close =>
      if 0 < sh.s.recvsOut then
        some ({ sh with s := { sh.s with recvsOut := sh.s.recvsOut - 1 } },
          [if close then .exchangeClose .other else .addRefRecv false, .decRef])
      else none
  | .recvFailed =>
      if 0 < sh.s.recvsOut then
        let (sh, closing) := { sh with
          s := { sh.s with recvsOut := sh.s.recvsOut - 1 } }.exchangeCloseFlag
        some (sh, closing ++ [.decRef])
      else none
  | .accept sock =>
      if 0 < sh.inPool then
        some ({ sh with
          inPool := sh.inPool - 1
          enqueued := []
          handed := []
          refused := false
          failed := 0
          pushes := 0 }, [.initSock sock])
      else none

/-- What one step does, and the steps that take its place. -/
def exec (idx : Nat) (t : Fin n) (accepted : Bool) (sh : Shared n) :
    Instr → Option (Shared n × List Instr)
  | .readGeneration sid p =>
      some (sh, if sh.s.generation = sidGeneration sid then [.readCloseFlag sid p] else [])
  | .readCloseFlag sid p => some (sh, if sh.s.closeFlag then [] else [.enterQueue sid p])
  | .enterQueue sid p =>
      if sh.lock ≠ none then none
      else if qsize ≤ sh.s.sqCount then some (sh, [.exchangeClose (.full sid)])
      else
        some ({ sh with
          s := sh.s.enqueue p
          lock := some t
          queuedFor := sh.queuedFor ++ [sid]
          enqueued := sh.enqueued ++ [p] }, [.exchangePending (.sendPacket sid), .leaveLock])
  | .leaveLock => some ({ sh with lock := none }, [])
  | .exchangePending caller =>
      if sh.s.sendPending then some (sh, [])
      else some ({ sh with s := { sh.s with sendPending := true } }, [.dequeue caller])
  | .dequeue caller =>
      if sh.MayEnter t then
        let (pkts, s) := sh.s.takeQueue qsize
        some ({ sh with
          s := { s with sendPkts := pkts }
          queuedFor := sh.queuedFor.drop pkts.length
          batchFor := sh.queuedFor.take pkts.length }, [.addRefSend caller])
      else none
  | .addRefSend caller =>
      some ({ sh with s := { sh.s with ioRefCount := sh.s.ioRefCount + 1 } },
        [.wsaSend caller])
  | .wsaSend caller =>
      if accepted ∧ sh.s.sock.isSome then
        some ({ sh with
          s := { sh.s with sendsOut := sh.s.sendsOut + 1 }
          handed := sh.handed ++ sh.s.sendPkts }, [])
      else
        some ({ sh with refused := sh.refused || sh.s.sock.isSome },
          [.releaseBatch, .clearPending, .exchangeClose (.refusal caller sh.batchFor), .decRef])
  | .releaseBatch => some ({ sh with s := { sh.s with sendPkts := [] }, batchFor := [] }, [])
  | .clearPending => some ({ sh with s := { sh.s with sendPending := false } }, [])
  | .readCount => some (sh, if 0 < sh.s.sqCount then [.exchangePending .onSendComplete] else [])
  | .checkGeneration sid =>
      some (sh, if sh.s.generation = sidGeneration sid then [.exchangeClose .other] else [])
  | .exchangeClose _ => some sh.exchangeCloseFlag
  | .closeSocket => some ({ sh with s := { sh.s with sock := none } }, [.drain])
  | .drain =>
      if sh.MayEnter t then
        some ({ sh with s := (sh.s.takeQueue sh.s.sqCount).2, queuedFor := [] }, [.decRef])
      else none
  | .decRef =>
      some ({ sh with s := { sh.s with ioRefCount := sh.s.ioRefCount - 1 } },
        if sh.s.ioRefCount - 1 = 0 then [.pushIndex] else [])
  | .pushIndex =>
      some ({ sh with inPool := sh.inPool + 1, pushes := sh.pushes + 1 }, [])
  | .addRefRecv _ =>
      some ({ sh with s := { sh.s with ioRefCount := sh.s.ioRefCount + 1 } }, [.wsaRecv])
  | .wsaRecv =>
      if accepted ∧ sh.s.sock.isSome then
        some ({ sh with s := { sh.s with recvsOut := sh.s.recvsOut + 1 } }, [])
      else some (sh, [.exchangeClose .other, .decRef])
  | .initSock sock =>
      some ({ sh with s := { sh.s with sock := some sock } }, [.initGeneration])
  | .initGeneration =>
      some ({ sh with s := { sh.s with generation := sh.s.generation + 1 } }, [.initSid])
  | .initSid =>
      some ({ sh with s := { sh.s with
        sID := sessionId idx sh.s.generation
        recvBuffer := sh.s.recvBuffer.clear
        received := []
        delivered := [] } }, [.initQueue])
  | .initQueue =>
      some ({ sh with
        s := { sh.s with sqHead := 0, sqTail := 0, sqCount := 0, sendPkts := [] }
        queuedFor := []
        batchFor := [] }, [.initPending])
  | .initPending => some ({ sh with s := { sh.s with sendPending := false } }, [.initRef])
  | .initRef => some ({ sh with s := { sh.s with ioRefCount := 1 } }, [.initOpen])
  | .initOpen => some ({ sh with s := { sh.s with closeFlag := false } }, [.register])
  | .register =>
      if accepted then some ({ sh with sids := sh.s.sID :: sh.sids }, [.addRefRecv true])
      else some (sh, [.exchangeClose .other])

/-- The threads and the slot. -/
abbrev SlotState (n : Nat) := State (Fin n) Instr (Shared n)

/-- Which thread goes on, or what it begins. -/
abbrev SlotLabel (n : Nat) := Label (Fin n) Task

/-- One atomic step on slot `idx`. -/
def slotStep (idx : Nat) : SlotState n → SlotLabel n → Option (SlotState n) :=
  step (begins idx) (exec idx)

/-- The slot while its index is in the pool and no thread works on it. -/
def pooled (s : Session) (known : List SessionID) : SlotState n where
  shared :=
    { s := s
      lock := none
      inPool := 1
      sids := known
      queuedFor := []
      batchFor := []
      enqueued := []
      handed := []
      refused := false
      failed := 0
      pushes := 0 }
  threads := fun _ => []

/-- `AcceptThread` has taken the index from the pool, and `InitSession` has
returned; no other thread works on the slot. -/
def fresh (idx sock : Nat) (s : Session) (known : List SessionID) (t : Fin n) :
    SlotState n where
  shared := { (pooled (n := n) s known).shared with s := s.init idx sock, inPool := 0 }
  threads := Function.update (fun _ => []) t [.register]

theorem eq_register_of_mem_fresh {idx sock : Nat} {s : Session} {known : List SessionID}
    {t u : Fin n} {i : Instr} (h : i ∈ (fresh idx sock s known t).threads u) :
    i = .register := by
  obtain rfl | hu := eq_or_ne u t
  · simpa [fresh] using h
  · simp [fresh, Function.update_of_ne hu] at h

theorem accept_alone (idx sock : Nat) (s : Session) (known : List SessionID) (t : Fin n) :
    run (slotStep idx) (pooled s known)
      (.start t (.accept sock) :: List.replicate 7 (.run t true)) =
      some (fresh idx sock s known t) := by
  simp [run, slotStep, step, begins, exec, pooled, fresh, List.replicate, Session.init]

end IocpChat.SlotInterleaving
