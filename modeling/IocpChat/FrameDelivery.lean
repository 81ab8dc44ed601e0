import IocpChat.BatchPipe
import IocpChat.RequestDelivery
import IocpChat.SessionIds

/-!
From the handlers to the sockets.  What `SendPacket` accepts for a session travels through
a pipe: the send queue is what waits, and the packets handed to `WSASend` are the batch on
its way.  Windows reads the packets themselves while a send is outstanding, so that they
must say then what they said when they were accepted.
-/

namespace IocpChat.FrameDelivery

open IocpChat.Protocol
open IocpChat.RingWindow
open IocpChat.PacketBuffer
open IocpChat.RingBuffer
open IocpChat.LanServer
open IocpChat.SendQueue
open IocpChat.ReceivePath
open IocpChat.SlotInvariant
open IocpChat.SlotSteps
open IocpChat.SlotLifecycle
open IocpChat.MessageOrigin
open IocpChat.PacketOwnership
open IocpChat.ContentHandlers
open IocpChat.ChatRuns
open IocpChat.PacketLifetimes
open IocpChat.ServerOutline
open IocpChat.SessionCounts
open IocpChat.SendResults
open IocpChat.SessionIds
open IocpChat.LabelledRun
open IocpChat.StreamReassembly
open IocpChat.OpenReceives
open IocpChat.RequestDelivery
open IocpChat.BatchPipe

/-- The bytes of a packet that `WSASend` is given. -/
def frame (pkt : CPacket) : List UInt8 := slice pkt.buffer 0 pkt.getPacketSize

/-- The packets of the send that is outstanding. -/
def inFlight (s : Session) : List PacketRef := if s.sendsOut = 0 then [] else s.sendPkts

/-- The frames of a session on their way to its socket. -/
def pipeOf (packets : PacketRef → CPacket) (s : Session) : Pipe (List UInt8) :=
  if s.closeFlag then .closed ((inFlight s).map fun p => frame (packets p))
  else .flowing ((inFlight s).map fun p => frame (packets p))
    (s.queued.map fun p => frame (packets p))

/-- The pipe of the session in slot `j`. -/
def pipe (sv : Server) (j : Nat) : Pipe (List UInt8) := pipeOf sv.packets (sv.sessions j)

section Pipes

variable {sv sv' : Server} {max idx j : Nat} {held : Multiset PacketRef}

theorem pipeOf_congr {packets packets' : PacketRef → CPacket} {s s' : Session}
    (hclosed : s'.closeFlag = s.closeFlag) (hflight : inFlight s' = inFlight s)
    (hqueued : s'.queued = s.queued)
    (hframes : ∀ p, p ∈ inFlight s ∨ p ∈ s.queued → frame (packets' p) = frame (packets p)) :
    pipeOf packets' s' = pipeOf packets s := by
  have hbatch : (inFlight s).map (fun p => frame (packets' p)) =
      (inFlight s).map fun p => frame (packets p) :=
    List.map_congr_left fun p hp => hframes p (Or.inl hp)
  have hwaiting : s.queued.map (fun p => frame (packets' p)) =
      s.queued.map fun p => frame (packets p) :=
    List.map_congr_left fun p hp => hframes p (Or.inr hp)
  rw [pipeOf, pipeOf, hclosed, hflight, hqueued, hbatch, hwaiting]

theorem frame_of_still (h : Still sv sv') (p : PacketRef) :
    frame (sv'.packets p) = frame (sv.packets p) := by
  have hbody := h.bodies p
  have hframe (pkt : CPacket) : frame (body pkt) = frame pkt := rfl
  rw [← hframe, hbody, hframe]

theorem pipeOf_of_still (h : Still sv sv') (s : Session) :
    pipeOf sv'.packets s = pipeOf sv.packets s :=
  pipeOf_congr rfl rfl rfl fun p _ => frame_of_still h p

theorem pipe_of_still (h : Still sv sv') (hsessions : sv'.sessions = sv.sessions) (j : Nat) :
    pipe sv' j = pipe sv j := by
  rw [pipe, hsessions]
  exact pipeOf_of_still h _

theorem pipe_setSession_of_ne (s : Session) (hne : j ≠ idx) :
    pipe (sv.setSession idx s) j = pipe sv j := by
  simp [pipe, Server.setSession, hne]

theorem pipe_setSession_self (s : Session) :
    pipe (sv.setSession idx s) idx = pipeOf sv.packets s := by
  simp [pipe, Server.setSession]

theorem pipe_setSession {s : Session} (hs : pipeOf sv.packets s = pipe sv idx) (j : Nat) :
    pipe (sv.setSession idx s) j = pipe sv j := by
  rcases eq_or_ne j idx with rfl | hne
  · rw [pipe_setSession_self, hs]
  · exact pipe_setSession_of_ne s hne

theorem pipe_ioAddRef (sv : Server) (idx j : Nat) : pipe (sv.ioAddRef idx) j = pipe sv j := by
  apply pipe_setSession
  rfl

theorem pipe_ioRelease (sv : Server) (idx j : Nat) : pipe (sv.ioRelease idx) j = pipe sv j := by
  have hset : pipe (sv.setSession idx { sv.sessions idx with
      ioRefCount := (sv.sessions idx).ioRefCount - 1 }) j = pipe sv j := by
    apply pipe_setSession
    rfl
  simp only [Server.ioRelease]
  split
  · exact hset
  · exact hset

theorem pipe_release (sv : Server) (p : PacketRef) (j : Nat) :
    pipe (sv.release p) j = pipe sv j :=
  pipe_of_still (release_still p) (Server.release_sessions sv p) j

theorem pipe_closeSession (sv : Server) (idx j : Nat) :
    pipe (sv.closeSession idx) j = if j = idx then (pipe sv j).close else pipe sv j := by
  simp only [Server.closeSession]
  split
  · rename_i hclosed
    split
    · rename_i heq
      rw [heq, pipe, pipeOf, if_pos hclosed, Pipe.close]
    · rfl
  · rename_i hopen
    obtain ⟨head, count, hs⟩ := takeQueue_snd (sv.sessions idx).sqCount
      { sv.sessions idx with closeFlag := true, sock := none }
    rw [hs, pipe_ioRelease]
    generalize ({ sv.sessions idx with closeFlag := true, sock := none }.takeQueue
      (sv.sessions idx).sqCount).1 = pkts
    refine (pipe_of_still (releaseAll_still pkts) (Server.releaseAll_sessions _ pkts) j).trans ?_
    split
    · rename_i heq
      rw [heq, pipe_setSession_self, pipe, pipeOf, pipeOf, if_pos rfl, if_neg hopen, Pipe.close]
      rfl
    · rename_i hne
      exact pipe_setSession_of_ne _ hne

theorem closeSession_carries (sv : Server) (idx j : Nat) :
    Carries (pipe sv j) [] [] (pipe (sv.closeSession idx) j) := by
  rw [pipe_closeSession]
  split
  · exact .of_moves (.close _)
  · exact .refl

theorem postRecv_carries (sv : Server) (idx j : Nat) (accepted : Bool) :
    Carries (pipe sv j) [] [] (pipe (sv.postRecv idx accepted) j) := by
  simp only [Server.postRecv]
  split
  · have hset : pipe ((sv.ioAddRef idx).setSession idx { (sv.ioAddRef idx).sessions idx with
        recvsOut := ((sv.ioAddRef idx).sessions idx).recvsOut + 1 }) j =
        pipe (sv.ioAddRef idx) j := by
      apply pipe_setSession
      rfl
    rw [hset, pipe_ioAddRef]
    exact .refl
  · rw [pipe_ioRelease, ← pipe_ioAddRef sv idx j]
    exact closeSession_carries _ idx j

theorem pipe_of_written (h : Owned sv max held) (hj : j < max)
    (hsessions : sv'.sessions = sv.sessions)
    (hpackets : ∀ q, q ≠ sv.alloc.1 → sv'.packets q = sv.packets q) :
    pipe sv' j = pipe sv j := by
  rw [pipe, hsessions]
  refine pipeOf_congr rfl rfl rfl ?_
  intro p hp
  have hheld : p ∈ sessionRefs (sv.sessions j) := by
    rw [sessionRefs]
    rcases hp with hp | hp
    · rw [inFlight] at hp
      split at hp
      · cases hp
      · rename_i hout
        rw [if_neg hout]
        exact Multiset.mem_add.mpr (Or.inr hp)
    · exact Multiset.mem_add.mpr (Or.inl hp)
  rw [hpackets p]
  rintro rfl
  exact alloc_fst_notHeld h (Multiset.mem_add.mpr
    (Or.inr (mem_holders_of_session (h.size ▸ hj) hheld)))

theorem inFlight_of_none {s : Session} (hnone : s.sendsOut = 0) : inFlight s = [] := by
  rw [inFlight, if_pos hnone]

theorem pipe_of_open (hopen : (sv.sessions j).closeFlag = false) :
    pipe sv j = .flowing ((inFlight (sv.sessions j)).map fun p => frame (sv.packets p))
      ((sv.sessions j).queued.map fun p => frame (sv.packets p)) := by
  rw [pipe, pipeOf, if_neg (by simp [hopen])]

theorem pipe_releaseBatch (hnone : (sv.sessions idx).sendsOut = 0) (j : Nat) :
    pipe (sv.releaseBatch idx) j = pipe sv j := by
  have hsame := Server.releaseAll_sessions sv (sv.sessions idx).sendPkts
  rw [Server.releaseBatch]
  refine (pipe_setSession ?_ j).trans
    (pipe_of_still (releaseAll_still _) (Server.releaseAll_sessions sv _) j)
  refine pipeOf_congr rfl ?_ rfl fun _ _ => rfl
  have hnone' : ((sv.releaseAll (sv.sessions idx).sendPkts).sessions idx).sendsOut = 0 := by
    rw [hsame, hnone]
  rw [inFlight_of_none hnone']
  apply inFlight_of_none
  exact hnone'

/-- `FlushSend` loads what waits, unless the batch before it is still on its way; if the
send is refused the session is closed at once. -/
theorem flushSend_carries (hqueue : QueueOk (sv.sessions idx))
    (hopen : (sv.sessions idx).closeFlag = false)
    (hgate : ¬ (sv.sessions idx).sendPending = true → (sv.sessions idx).sendsOut = 0)
    (accepted : Bool) (j : Nat) :
    Carries (pipe sv j) [] [] (pipe (sv.flushSend idx accepted) j) := by
  rcases Bool.eq_false_or_eq_true (sv.sessions idx).sendPending with hpending | hpending
  · simp only [Server.flushSend, hpending, if_true]
    exact .refl
  · have hpending : ¬ (sv.sessions idx).sendPending = true := by simp [hpending]
    have hnone := hgate hpending
    have hhere : pipe sv idx = .flowing []
        ((sv.sessions idx).queued.map fun p => frame (sv.packets p)) := by
      rw [pipe_of_open hopen, inFlight_of_none hnone, List.map_nil]
    rw [flushSend_eq sv accepted hqueue hpending]
    generalize hloaded : (sv.setSession idx (loaded (sv.sessions idx))).ioAddRef idx = sv₁
    have hflag : (sv₁.sessions idx).closeFlag = false := by
      rw [← hloaded]
      simpa [Server.ioAddRef, Server.setSession, loaded] using hopen
    have hother (hne : j ≠ idx) : pipe sv₁ j = pipe sv j := by
      rw [← hloaded, pipe_ioAddRef, pipe_setSession_of_ne _ hne]
    cases accepted with
    | true =>
        simp only [if_true]
        rcases eq_or_ne j idx with rfl | hne
        · have hpackets : sv₁.packets = sv.packets := by
            rw [← hloaded]
            rfl
          have hbatch : inFlight { sv₁.sessions j with
              sendsOut := (sv₁.sessions j).sendsOut + 1 } = (sv.sessions j).queued := by
            rw [← hloaded]
            simp [inFlight, Server.ioAddRef, Server.setSession, loaded]
          have hempty : (sv₁.sessions j).queued = [] := by
            rw [← hloaded]
            simp [Session.queued, Server.ioAddRef, Server.setSession, loaded]
          have hwaiting : ({ sv₁.sessions j with
              sendsOut := (sv₁.sessions j).sendsOut + 1 } : Session).queued = [] := hempty
          rw [hhere, pipe_setSession_self, pipeOf, if_neg (by simp [hflag]), hbatch, hwaiting,
            hpackets]
          exact .of_moves (.load _)
        · rw [pipe_setSession_of_ne _ hne, hother hne]
          exact .refl
    | false =>
        have hnone' : (sv₁.sessions idx).sendsOut = 0 := by
          rw [← hloaded]
          simpa [Server.ioAddRef, Server.setSession, loaded] using hnone
        simp only [Bool.false_eq_true, if_false, pipe_ioRelease, pipe_closeSession,
          pipe_releaseBatch hnone']
        split
        · rename_i heq
          rw [heq, pipe_of_open hflag, inFlight_of_none hnone', List.map_nil, Pipe.close]
          exact .of_moves (.lose _)
        · rename_i hne
          rw [hother hne]
          exact .refl

theorem sendPacket_carries (hslots : SlotsOk sv max 0 0) (h : Owned sv max held)
    {sid : SessionID}
    (hlive : sidIndex sid < max →
      (sv.sessions (sidIndex sid)).generation = sidGeneration sid →
      (sv.sessions (sidIndex sid)).closeFlag = false →
      0 < (sv.sessions (sidIndex sid)).ioRefCount)
    (p : PacketRef) (accepted : Bool) (j : Nat) :
    Carries (pipe sv j)
      (if (sv.sendPacket sid p accepted).1 = true ∧ j = sidIndex sid then
        [frame (sv.packets p)] else []) []
      (pipe (sv.sendPacket sid p accepted).2 j) := by
  have hsize := h.size
  simp only [Server.sendPacket]
  split
  · simp only [Bool.false_eq_true, false_and, if_false]
    exact .refl
  · rename_i hmax
    have hidx : sidIndex sid < max := by omega
    split
    · simp only [Bool.false_eq_true, false_and, if_false]
      exact .refl
    · rename_i hgen
      split
      · simp only [Bool.false_eq_true, false_and, if_false]
        exact .refl
      · rename_i hopen
        have hopen : (sv.sessions (sidIndex sid)).closeFlag = false := by simpa using hopen
        have hpos := hlive hidx (not_not.mp hgen) hopen
        split
        · simp only [Bool.false_eq_true, false_and, if_false]
          exact closeSession_carries sv (sidIndex sid) j
        · rename_i hroom
          have hroom : (sv.sessions (sidIndex sid)).sqCount < qsize := by omega
          have hqueue := h.queues (sidIndex sid) hidx
          generalize hidx' : sidIndex sid = idx at *
          have hgate : ¬ (sv.sessions idx).sendPending = true → (sv.sessions idx).sendsOut = 0 :=
            sendsOut_of_gate (hslots.of_zero idx) hidx
          have hput : Carries (pipe sv j)
              (if j = idx then [frame (sv.packets p)] else []) []
              (pipe ((sv.addRef p).setSession idx ((sv.sessions idx).enqueue p)) j) := by
            split
            · rename_i heq
              rw [heq, pipe_setSession_self, pipeOf_of_still (addRef_still p), pipe_of_open hopen,
                pipeOf, if_neg (by simp [Session.enqueue, hopen]),
                queued_enqueue hqueue.tail_eq hroom, List.map_append]
              exact .of_moves (.put _ _ _)
            · rename_i hne
              rw [pipe_setSession_of_ne _ hne, pipe_of_still (addRef_still p) rfl]
              exact .refl
          have hflush : Carries
              (pipe ((sv.addRef p).setSession idx ((sv.sessions idx).enqueue p)) j) [] []
              (pipe (((sv.addRef p).setSession idx ((sv.sessions idx).enqueue p)).flushSend idx
                accepted) j) := by
            apply flushSend_carries
            · simpa [Server.setSession] using hqueue.enqueue hroom hopen hpos p
            · simpa [Server.setSession, Session.enqueue] using hopen
            · simpa [Server.setSession, Session.enqueue] using hgate
          have hboth := hput.trans_silent hflush
          simpa using hboth

theorem setRecvBuffer_carries (rb : CRingBuffer) (j : Nat) :
    Carries (pipe sv j) [] [] (pipe (setRecvBuffer sv idx rb) j) := by
  have hset : pipe (setRecvBuffer sv idx rb) j = pipe sv j := by
    apply pipe_setSession
    rfl
  rw [hset]
  exact .refl

theorem deliver_carries (h : Owned sv max held) (hj : j < max) (plain : List UInt8) :
    Carries (pipe sv j) [] [] (pipe (deliver sv idx plain) j) := by
  have hwritten : pipe (sv.alloc.2.setPacket sv.alloc.1
      ((sv.alloc.2.packets sv.alloc.1).attachRaw plain)) j = pipe sv j := by
    refine pipe_of_written h hj (Server.alloc_sessions sv) ?_
    intro q hne
    simp [Server.setPacket, hne, alloc_packets_of_ne hne]
  have honRecv (sv : Server) (p : PacketRef) : pipe (sv.onRecv idx p) j = pipe sv j := by
    have hpush : pipe { sv.addRef p with contentQ := (sv.addRef p).contentQ ++
        [Message.recv (sv.sessions idx).sID p] } j = pipe (sv.addRef p) j := rfl
    have hset : pipe (sv.onRecv idx p) j = pipe (sv.addRef p) j := by
      rw [← hpush]
      apply pipe_setSession
      rfl
    rw [hset]
    exact pipe_of_still (addRef_still p) rfl j
  simp only [deliver]
  rw [pipe_release, honRecv, hwritten]
  exact .refl

theorem discardFrame_carries (h : Owned sv max held) (hj : j < max) :
    Carries (pipe sv j) [] [] (pipe (discardFrame sv) j) := by
  have hwritten : pipe { sv.alloc.2 with
      checksumMismatchCount := sv.alloc.2.checksumMismatchCount + 1 } j = pipe sv j :=
    pipe_of_written h hj (Server.alloc_sessions sv) fun q hne => alloc_packets_of_ne hne
  simp only [discardFrame]
  rw [pipe_release, hwritten]
  exact .refl

theorem recvLoop_carries (C : Crypto) (h : Owned sv max held) (hidx : idx < max)
    (hj : j < max) : Carries (pipe sv j) [] [] (pipe (recvLoop C idx sv).1 j) := by
  induction sv using recvLoop.induct C idx with
  | case1 sv hwait =>
      rw [recvLoop, hwait]
      exact .refl
  | case2 sv hlong =>
      rw [recvLoop, hlong]
      exact closeSession_carries sv idx j
  | case3 sv hunder =>
      rw [recvLoop, hunder]
      exact .refl
  | case4 sv rb hbad =>
      rw [recvLoop, hbad]
      have howned := setRecvBuffer_owned h hidx rb
      exact (setRecvBuffer_carries rb j).trans_silent
        ((discardFrame_carries howned hj).trans_silent (closeSession_carries _ idx j))
  | case5 sv rb plain hframe ih =>
      rw [recvLoop, hframe]
      have howned := setRecvBuffer_owned h hidx rb
      exact (setRecvBuffer_carries rb j).trans_silent
        ((deliver_carries howned hj plain).trans_silent (ih (deliver_owned howned hidx plain)))

theorem recvDone_carries (C : Crypto) (h : Owned sv max held) (hidx : idx < max) (hj : j < max)
    (bytes : List UInt8) (accepted : Bool) :
    Carries (pipe sv j) [] [] (pipe (recvDone C sv idx bytes accepted) j) := by
  have htake : pipe (takeRecv sv idx bytes) j = pipe sv j := by
    apply pipe_setSession
    rfl
  generalize hrb : ((takeRecv sv idx bytes).sessions idx).recvBuffer.moveWritePos bytes.length = rb
  have hmove : Carries (pipe (takeRecv sv idx bytes) j) [] []
      (pipe (setRecvBuffer (takeRecv sv idx bytes) idx rb) j) := setRecvBuffer_carries rb j
  rw [htake] at hmove
  have hloop := hmove.trans_silent
    (recvLoop_carries C (setRecvBuffer_owned (takeRecv_owned h hidx bytes) hidx rb) hidx hj)
  simp only [recvDone, pipe_ioRelease, onRecvComplete, resumeRecv, hrb]
  split
  · exact hloop
  · split
    · exact hloop.trans_silent (closeSession_carries _ idx j)
    · exact hloop.trans_silent (postRecv_carries _ idx j accepted)

theorem recvFailed_carries (sv : Server) (idx j : Nat) :
    Carries (pipe sv j) [] [] (pipe (recvFailed sv idx) j) := by
  have htake : pipe (takeRecv sv idx []) j = pipe sv j := by
    apply pipe_setSession
    rfl
  have hclose := closeSession_carries (takeRecv sv idx []) idx j
  rw [htake] at hclose
  simp only [recvFailed, pipe_ioRelease]
  exact hclose

theorem pipe_takeSend_of_ne (sv : Server) (hne : j ≠ idx) :
    pipe (takeSend sv idx) j = pipe sv j :=
  pipe_setSession_of_ne _ hne

theorem takeSend_carries (hslots : SlotsOk sv max idx 0) (hidx : idx < max)
    (hout : 0 < (sv.sessions idx).sendsOut) (j : Nat) :
    Carries (pipe sv j) []
      (if j = idx then (sv.sessions idx).sendPkts.map fun p => frame (sv.packets p) else [])
      (pipe (takeSend sv idx) j) := by
  obtain ⟨-, hnone⟩ := takeSend_slotsOk hslots hidx hout
  split
  · rename_i heq
    have hbatch : inFlight (sv.sessions idx) = (sv.sessions idx).sendPkts := by
      rw [inFlight, if_neg (by omega)]
    have hempty := inFlight_of_none hnone
    have hpackets : (takeSend sv idx).packets = sv.packets := rfl
    rcases Bool.eq_false_or_eq_true (sv.sessions idx).closeFlag with hclosed | hopen
    · have hclosed' : ((takeSend sv idx).sessions idx).closeFlag = true := by
        simpa [takeSend, Server.setSession] using hclosed
      rw [heq, pipe, pipe, pipeOf, pipeOf, if_pos hclosed, if_pos hclosed', hbatch, hempty]
      exact .of_moves (.arriveLast _)
    · have hopen' : ((takeSend sv idx).sessions idx).closeFlag = false := by
        simpa [takeSend, Server.setSession] using hopen
      have hqueued : ((takeSend sv idx).sessions idx).queued = (sv.sessions idx).queued := by
        simp [takeSend, Server.setSession, Session.queued]
      rw [heq, pipe_of_open hopen, pipe_of_open hopen', hbatch, hempty, hqueued, hpackets]
      exact .of_moves (.arrive _ _)
  · rename_i hne
    rw [pipe_takeSend_of_ne sv hne]
    exact .refl

theorem sendDone_carries (hslots : SlotsOk sv max idx 0) (h : Owned sv max held)
    (hidx : idx < max) (hout : 0 < (sv.sessions idx).sendsOut) (accepted : Bool) (j : Nat) :
    Carries (pipe sv j) []
      (if j = idx then (sv.sessions idx).sendPkts.map fun p => frame (sv.packets p) else [])
      (pipe (sendDone sv idx accepted) j) := by
  obtain ⟨htaken, hnone⟩ := takeSend_slotsOk hslots hidx hout
  have howned := takeSend_owned hslots h hidx hout
  have hbatch : ((takeSend sv idx).sessions idx).sendPkts = (sv.sessions idx).sendPkts := by
    simp [takeSend, Server.setSession]
  rw [← hbatch] at howned
  have hclear := releaseBatch_owned howned hidx hnone
  have hslots' := releaseBatch_slotsOk htaken hidx hnone
  have hqueue := hclear.queues idx hidx
  refine (takeSend_carries hslots hidx hout j).trans_silent ?_
  rw [← pipe_releaseBatch hnone j]
  simp only [sendDone, pipe_ioRelease, Server.onSendComplete]
  split
  · rename_i hcount
    have hopen : (((takeSend sv idx).releaseBatch idx).sessions idx).closeFlag = false := by
      rw [Bool.eq_false_iff]
      intro hclosed
      have := hqueue.closed hclosed
      omega
    exact flushSend_carries hqueue hopen (sendsOut_of_gate hslots' hidx) accepted j
  · exact .refl

theorem sendFailed_carries (hslots : SlotsOk sv max idx 0) (hidx : idx < max)
    (hout : 0 < (sv.sessions idx).sendsOut) (j : Nat) :
    Carries (pipe sv j) [] [] (pipe (sendFailed sv idx) j) := by
  obtain ⟨-, hnone⟩ := takeSend_slotsOk hslots hidx hout
  simp only [sendFailed, pipe_ioRelease, pipe_closeSession]
  split
  · rename_i heq
    have hclosed : (pipe (takeSend sv idx) j).close = .closed [] := by
      rw [heq, pipe, pipeOf, inFlight_of_none hnone]
      split
      · rfl
      · rfl
    rw [hclosed]
    exact .of_moves (.lose _)
  · rename_i hne
    rw [pipe_takeSend_of_ne sv hne]
    exact .refl

theorem acceptOne_carries (hslots : SlotsOk sv max 0 0) {rest : List Nat}
    (hpool : sv.indexPool = idx :: rest) (sock : Nat) (registered accepted : Bool) (j : Nat) :
    Carries (if j = idx then .flowing [] [] else pipe sv j) [] []
      (pipe (sv.acceptOne sock registered accepted) j) := by
  have hnone : (sv.sessions idx).sendsOut = 0 := by
    obtain ⟨hidx, hone, -⟩ := free_of_pool_head hslots hpool
    cases (hslots.of_zero idx).here hidx with
    | free _ _ _ _ _ _ _ hsend => exact hsend
    | used _ _ hout => omega
  simp only [Server.acceptOne, Server.allocSession, hpool]
  generalize hinit : { sv with indexPool := rest }.initSession idx sock = sv₁
  have hopened : pipe sv₁ j = if j = idx then .flowing [] [] else pipe sv j := by
    rw [← hinit]
    split
    · rename_i heq
      rw [heq]
      simp [pipe, pipeOf, Server.initSession, Server.setSession, Session.init, inFlight,
        Session.queued, hnone]
    · rename_i hne
      simp [pipe, Server.initSession, Server.setSession, hne]
  rw [← hopened]
  cases registered with
  | false => exact closeSession_carries sv₁ idx j
  | true =>
      have hposted := postRecv_carries ({ sv₁ with totalAccept := sv₁.totalAccept + 1 }.onClientJoin
        idx (sv₁.sessions idx).sID) idx j accepted
      exact hposted

end Pipes

/-- The frames of a session that arrive with a completion. -/
def arrivals (sv : Server) (sid : SessionID) : NetEvent → List (List UInt8)
  | .sendDone idx _ =>
      if (sv.sessions idx).sID = sid then
        (sv.sessions idx).sendPkts.map fun p => frame (sv.packets p)
      else []
  | _ => []

/-- The calls for a session that have put something into its queue. -/
def toSid (sid : SessionID) (log : List SendCall) : List SendCall :=
  log.filter fun x => x.ok && x.sid == sid

/-- The frames that `SendPacket` accepts for a session while an effect is carried out. -/
def performFrames (C : Crypto) (io : SendEnv) (sid : SessionID) (sv : Server) :
    Effect → List (List UInt8)
  | .pushJob _ => []
  | .send fields targets =>
      let (p, sv) := buildPacket C io.nonce fields sv
      (toSid sid (sendAllLog p fields io.accepted targets sv)).map fun _ => frame (sv.packets p)

/-- The frames that the effects of a handler put into the queue of a session. -/
def performAllFrames (C : Crypto) (sid : SessionID) : (Nat → SendEnv) → List Effect → Server →
    List DBJob → List (List UInt8)
  | _, [], _, _ => []
  | io, e :: es, sv, jobs =>
      let (next, jobs') := perform C (io 0) sv jobs e
      performFrames C (io 0) sid sv e ++
        performAllFrames C sid (fun k => io (k + 1)) es next jobs'

/-- A slot that has been used bears the identifier of its last session. -/
def Named (sv : Server) (j : Nat) : Prop :=
  0 < timesUsed sv j ∧ (sv.sessions j).sID = sidOf j (timesUsed sv j)

section Handlers

variable {sv sv' : Server} {max j : Nat} {held : Multiset PacketRef} {jobs : List DBJob}

theorem Named.of_same (h : Named sv j) (hused : timesUsed sv' j = timesUsed sv j)
    (hsid : (sv'.sessions j).sID = (sv.sessions j).sID) : Named sv' j := by
  rw [Named, hused, hsid]
  exact h

theorem accepted_iff (hmax : max ≤ 65536) (h : SlotsOk sv max 0 0) (hfresh : Fresh sv)
    (hj : j < max) (hnamed : Named sv j) {sid : SessionID} (hsid : Issued sv sid)
    {p : PacketRef} {accepted : Bool} (hok : (sv.sendPacket sid p accepted).1 = true) :
    j = sidIndex sid ↔ sid = (sv.sessions j).sID := by
  obtain ⟨i, k, hi, hpos, hle, rfl⟩ := issued_eq_sidOf h hsid
  have hbound := hfresh i
  have hbound' := hfresh j
  rw [hnamed.2, sidIndex_sidOf (by omega) (by omega)]
  constructor
  · rintro rfl
    have hgen : (sv.sessions j).generation = sidGeneration (sidOf j k) := by
      simp only [Server.sendPacket, sidIndex_sidOf (show j < 65536 by omega)
        (show k < 2 ^ 31 by omega)] at hok
      split at hok
      · cases hok
      · split at hok
        · cases hok
        · rename_i hgen
          exact not_not.mp hgen
    rw [(slot_ids (h.of_zero j) hj).2, sidOf, sidGeneration_sessionId] at hgen
    have hnat := congrArg BitVec.toNat hgen
    simp only [BitVec.toNat_ofNat] at hnat
    rw [show k = timesUsed sv j by omega]
  · intro hsame
    exact (sidOf_inj (by omega) (by omega) (by omega) (by omega) hsame).1.symm

theorem sendAll_carries (hmax : max ≤ 65536) {p : PacketRef} (hp : p ∈ held)
    (fields : List (List UInt8)) (accepted : SessionID → Bool) (h : ServerOk sv max held)
    (hfresh : Fresh sv) (hj : j < max) (hnamed : Named sv j) {targets : List SessionID}
    (htargets : ∀ sid, sid ∈ targets → Issued sv sid) :
    Carries (pipe sv j)
      ((toSid (sv.sessions j).sID (sendAllLog p fields accepted targets sv)).map
        fun _ => frame (sv.packets p)) []
      (pipe (sendAll p accepted targets sv) j) := by
  induction targets generalizing sv with
  | nil => exact .refl
  | cons sid targets ih =>
      have hsid := htargets sid (by simp)
      obtain ⟨hsent, hcalls⟩ := sendPacket_serverOk hmax h hsid hp (accepted sid)
      have hcalm (i : Nat) := sendPacket_calm sv i sid p (accepted sid)
      have hsame := (sendPacket_grows sv sid p (accepted sid)).sids j
      have hrest := ih hsent (fun i => (hcalm i).used ▸ hfresh i)
        (hnamed.of_same (hcalm j).used hsame)
        fun other hother => Issued.mono (htargets other (by simp [hother])) hcalls
      rw [hsame, frame_of_still (sendPacket_still sid p (accepted sid))] at hrest
      have hone := sendPacket_carries h.slots h.owned (live_of_issued h.slots (Or.inl hmax) hsid)
        p (accepted sid) j
      have hlog : (toSid (sv.sessions j).sID
          (sendAllLog p fields accepted (sid :: targets) sv)).map (fun _ => frame (sv.packets p)) =
          (if (sv.sendPacket sid p (accepted sid)).1 = true ∧ j = sidIndex sid then
            [frame (sv.packets p)] else []) ++
          (toSid (sv.sessions j).sID (sendAllLog p fields accepted targets
            (sv.sendPacket sid p (accepted sid)).2)).map fun _ => frame (sv.packets p) := by
        simp only [sendAllLog, toSid, List.filter_cons, Bool.and_eq_true, beq_iff_eq]
        rcases Bool.eq_false_or_eq_true (sv.sendPacket sid p (accepted sid)).1 with hok | hok
        · have hiff := accepted_iff hmax h.slots hfresh hj hnamed hsid hok
          simp only [hiff]
          split
          · rfl
          · rfl
        · simp [hok]
      rw [hlog]
      exact hone.trans hrest

theorem sendAll_sids (p : PacketRef) (accepted : SessionID → Bool) (targets : List SessionID)
    (sv : Server) (j : Nat) :
    ((sendAll p accepted targets sv).sessions j).sID = (sv.sessions j).sID := by
  induction targets generalizing sv with
  | nil => rfl
  | cons sid targets ih =>
      exact (ih _).trans ((sendPacket_grows sv sid p (accepted sid)).sids j)

theorem perform_sids (C : Crypto) (io : SendEnv) (sv : Server) (jobs : List DBJob) (e : Effect)
    (j : Nat) : ((perform C io sv jobs e).1.sessions j).sID = (sv.sessions j).sID := by
  cases e with
  | pushJob job => rfl
  | send fields targets =>
      simp only [perform, Server.release_sessions, sendAll_sids]
      exact congrArg (fun sessions => (sessions j).sID) (Server.alloc_sessions sv)

theorem perform_carries (hmax : max ≤ 65536) (h : ServerOk sv max held) (C : Crypto)
    (io : SendEnv) (hfresh : Fresh sv) (hj : j < max) (hnamed : Named sv j) {e : Effect}
    (he : EffectWithin (Issued sv) e) (jobs : List DBJob) :
    Carries (pipe sv j) (performFrames C io (sv.sessions j).sID sv e) []
      (pipe (perform C io sv jobs e).1 j) := by
  cases e with
  | pushJob job => exact .refl
  | send fields targets =>
      have hbuild := buildPacket_serverOk h C io.nonce fields
      have hcalm (i : Nat) := buildPacket_calm C i io.nonce fields sv
      have hsessions : (buildPacket C io.nonce fields sv).2.sessions = sv.sessions :=
        Server.alloc_sessions sv
      have hwritten : pipe (buildPacket C io.nonce fields sv).2 j = pipe sv j := by
        refine pipe_of_written h.owned hj hsessions ?_
        intro q hne
        simp [buildPacket, Server.setPacket, hne, alloc_packets_of_ne hne]
      have hkeep : sv.calls <+: (buildPacket C io.nonce fields sv).2.calls := by
        rw [buildPacket_calls]
      have hsent := sendAll_carries hmax (Multiset.mem_cons_self _ _) fields io.accepted hbuild
        (fun i => (hcalm i).used ▸ hfresh i) hj
        (hnamed.of_same (hcalm j).used (by rw [hsessions]))
        fun sid hsid => Issued.mono (he sid hsid) hkeep
      rw [hwritten, hsessions] at hsent
      simp only [perform, pipe_release]
      exact hsent

theorem performAll_carries (hmax : max ≤ 65536) (C : Crypto) (io : Nat → SendEnv)
    {es : List Effect} (h : ServerOk sv max held) (hfresh : Fresh sv) (hj : j < max)
    (hnamed : Named sv j) (hes : ∀ e, e ∈ es → EffectWithin (Issued sv) e)
    (hjobs : JobsIssued sv jobs) :
    Carries (pipe sv j) (performAllFrames C (sv.sessions j).sID io es sv jobs) []
      (pipe (performAll C io es sv jobs).1 j) := by
  induction es generalizing sv jobs io with
  | nil => exact .refl
  | cons e es ih =>
      have he := hes e (by simp)
      obtain ⟨hone, hcalls, hjobs'⟩ := perform_serverOk hmax h C (io 0) he hjobs
      have hcalm (i : Nat) := perform_calm C i (io 0) sv jobs e
      have hsame := perform_sids C (io 0) sv jobs e j
      have hrest := ih (fun k => io (k + 1)) hone (fun i => (hcalm i).used ▸ hfresh i)
        (hnamed.of_same (hcalm j).used hsame) (by
          intro other hother
          exact EffectWithin.mono (hes other (by simp [hother])) hcalls) hjobs'
      rw [hsame] at hrest
      exact (perform_carries hmax h C (io 0) hfresh hj hnamed he jobs).trans hrest

end Handlers

/-- The frames that are accepted for a session in a step. -/
def stepFrames (C : Crypto) (toAcp : List UInt16 → List UInt8) (w : World) (sid : SessionID)
    (e : ChatEvent) : List (List UInt8) :=
  match startHandler toAcp w e, e with
  | some hd, .update _ io => performAllFrames C sid io hd.effects hd.server hd.jobs
  | some hd, .dbResult _ _ _ io => performAllFrames C sid io hd.effects hd.server hd.jobs
  | _, _ => []

/-- The frames that are accepted for a session in a run. -/
def sentFrames (C : Crypto) (toAcp : List UInt16 → List UInt8) (sid : SessionID) :
    World → List ChatEvent → List (List UInt8)
  | _, [] => []
  | w, e :: es =>
      match chatStep C toAcp w e with
      | none => []
      | some next => stepFrames C toAcp w sid e ++ sentFrames C toAcp sid next es

/-- The frames of a session that arrive with a step. -/
def stepArrivals (w : World) (sid : SessionID) : ChatEvent → List (List UInt8)
  | .net e => arrivals w.server sid e
  | .update _ _ => []
  | .dbResult _ _ _ _ => []

/-- The frames of a session that its completed sends have carried, as the packets said
them when each send completed. -/
def arrivedFrames (C : Crypto) (toAcp : List UInt16 → List UInt8) (sid : SessionID) :
    World → List ChatEvent → List (List UInt8)
  | _, [] => []
  | w, e :: es =>
      match chatStep C toAcp w e with
      | none => []
      | some next => stepArrivals w sid e ++ arrivedFrames C toAcp sid next es

/-- What has arrived of each session is in order. -/
structure Conveyed (max : Nat) (sent arrived : SessionID → List (List UInt8)) (sv : Server) :
    Prop where
  current : ∀ j, j < max → 0 < timesUsed sv j →
    InOrder (sent (sv.sessions j).sID) (arrived (sv.sessions j).sID) (pipe sv j)
  past : ∀ sid, arrived sid <+: sent sid
  unissued : ∀ sid, ¬ Issued sv sid → sent sid = [] ∧ arrived sid = []

section Conveyed

variable {sv sv' : Server} {max : Nat} {sent arrived : SessionID → List (List UInt8)}

theorem start_conveyed (max : Nat) :
    Conveyed max (fun _ => []) (fun _ => []) (Server.start max) := by
  refine ⟨?_, fun _ => List.prefix_refl _, fun _ _ => ⟨rfl, rfl⟩⟩
  intro j _ hused
  exact absurd hused (lt_irrefl 0)

theorem Conveyed.advance (h : Conveyed max sent arrived sv)
    (ins outs : SessionID → List (List UInt8))
    (htimes : ∀ j, timesUsed sv' j = timesUsed sv j)
    (hsids : ∀ j, (sv'.sessions j).sID = (sv.sessions j).sID) (hcalls : sv.calls <+: sv'.calls)
    (hcarries : ∀ j, j < max → 0 < timesUsed sv j →
      Carries (pipe sv j) (ins (sv.sessions j).sID) (outs (sv.sessions j).sID) (pipe sv' j))
    (hissued : ∀ sid, ¬ Issued sv' sid → ins sid = [] ∧ outs sid = [])
    (harrived : ∀ sid, outs sid ≠ [] →
      ∃ j, j < max ∧ 0 < timesUsed sv j ∧ (sv.sessions j).sID = sid) :
    Conveyed max (fun sid => sent sid ++ ins sid) (fun sid => arrived sid ++ outs sid) sv' := by
  refine ⟨?_, ?_, ?_⟩
  · intro j hj hused
    rw [hsids]
    rw [htimes] at hused
    exact (h.current j hj hused).carries (hcarries j hj hused)
  · intro sid
    rcases eq_or_ne (outs sid) [] with hnone | hsome
    · simp only [hnone, List.append_nil]
      exact (h.past sid).trans (List.prefix_append _ _)
    · obtain ⟨j, hj, hused, rfl⟩ := harrived sid hsome
      exact (List.prefix_append _ _).trans
        ((h.current j hj hused).carries (hcarries j hj hused)).first
  · intro sid hunissued
    have hbefore := h.unissued sid fun hissued => hunissued (Issued.mono hissued hcalls)
    have hnow := hissued sid hunissued
    rw [hbefore.1, hbefore.2, hnow.1, hnow.2]
    exact ⟨rfl, rfl⟩

theorem Conveyed.acceptOne (h : Conveyed max sent arrived sv) (hmax : max ≤ 65536)
    {held : Multiset PacketRef} (hok : ServerOk sv max held) (sock : Nat)
    (registered accepted : Bool) (hfresh : Fresh (sv.acceptOne sock registered accepted)) :
    Conveyed max sent arrived (sv.acceptOne sock registered accepted) := by
  obtain ⟨hcalls, -⟩ := acceptOne_keepsIssued hok.slots hok.messages sock registered accepted
  cases hpool : sv.indexPool with
  | nil =>
      have heq : sv.acceptOne sock registered accepted = sv := by
        simp only [Server.acceptOne, Server.allocSession, hpool]
      rwa [heq]
  | cons idx rest =>
      obtain ⟨hused, -, hsids, hsid⟩ := acceptOne_opened hok.slots hpool sock registered accepted
      have hother {j : Nat} (hne : j ≠ idx) :=
        acceptOne_calm_of_ne hpool hne sock registered accepted
      have hnew := notIssued_next hmax hok.slots (free_of_pool_head hok.slots hpool).1
        (hfresh.anti hcalls) (hused ▸ hfresh idx)
      refine ⟨?_, h.past, ?_⟩
      · intro j hj husedj
        have hpipe := acceptOne_carries hok.slots hpool sock registered accepted j
        rcases eq_or_ne j idx with rfl | hne
        · obtain ⟨hsent, harrived⟩ := h.unissued _ hnew
          rw [if_pos rfl] at hpipe
          rw [hsid, hsent, harrived]
          exact InOrder.empty.carries hpipe
        · rw [if_neg hne] at hpipe
          rw [hsids j hne]
          have hopened := (h.current j hj ((hother hne).used ▸ husedj)).carries hpipe
          rwa [List.append_nil, List.append_nil] at hopened
      · intro sid hunissued
        exact h.unissued sid fun hissued => hunissued (Issued.mono hissued hcalls)

theorem issued_of_sendsOut (hslots : SlotsOk sv max 0 0) {idx : Nat} (hidx : idx < max)
    (hout : 0 < (sv.sessions idx).sendsOut) : Issued sv (sv.sessions idx).sID :=
  issued_of_init (init_of_live (hslots.of_zero idx) hidx
    (live_of_sendsOut (hslots.of_zero idx) hidx hout))

theorem Conveyed.netStep (h : Conveyed max sent arrived sv) (C : Crypto) (hmax : max ≤ 65536)
    {log : SessionID → List (List UInt8)} (hserved : Served max log sv)
    {held : Multiset PacketRef} (hok : ServerOk sv max held) {e : NetEvent}
    (hsend : ∀ sid p accepted, e ≠ .sendPacket sid p accepted)
    (hstep : netStep C sv e = some sv') (hfresh : Fresh sv') :
    Conveyed max sent (fun sid => arrived sid ++ arrivals sv sid e) sv' := by
  obtain ⟨hcalls, -⟩ := netStep_keepsIssued C hok.slots (Or.inl hmax) hok.messages hstep
  have hsids := netStep_sids C hmax hok.slots hstep
  have hquiet (htimes : ∀ j, timesUsed sv' j = timesUsed sv j)
      (hsids : ∀ j, (sv'.sessions j).sID = (sv.sessions j).sID)
      (hcarries : ∀ j, j < max → Carries (pipe sv j) [] [] (pipe sv' j)) :
      Conveyed max sent arrived sv' := by
    have hall := h.advance (fun _ => []) (fun _ => []) htimes hsids hcalls
      (fun j hj _ => hcarries j hj) (fun _ _ => ⟨rfl, rfl⟩) (by simp)
    simpa using hall
  cases e with
  | accept sock registered accepted =>
      obtain rfl := Option.some.inj hstep
      simp only [arrivals, List.append_nil]
      exact h.acceptOne hmax hok sock registered accepted hfresh
  | recvDone idx bytes accepted =>
      have hstep' := hstep
      simp only [SlotLifecycle.netStep, Option.ite_none_right_eq_some] at hstep'
      obtain ⟨⟨hidx, -⟩, hsv⟩ := hstep'
      rw [hok.slots.size] at hidx
      obtain rfl := Option.some.inj hsv
      simp only [arrivals, List.append_nil]
      exact hquiet (uses_of_touches (recvDone_touches sv idx C bytes accepted))
        (hsids (by simp)) fun j hj => recvDone_carries C hok.owned hidx hj bytes accepted
  | recvFailed idx =>
      have hstep' := hstep
      simp only [SlotLifecycle.netStep, Option.ite_none_right_eq_some] at hstep'
      obtain rfl := Option.some.inj hstep'.2
      simp only [arrivals, List.append_nil]
      exact hquiet (uses_of_touches (recvFailed_touches sv idx)) (hsids (by simp))
        fun j _ => recvFailed_carries sv idx j
  | sendDone idx accepted =>
      have hstep' := hstep
      simp only [SlotLifecycle.netStep, Option.ite_none_right_eq_some] at hstep'
      obtain ⟨⟨hidx, hout⟩, hsv⟩ := hstep'
      rw [hok.slots.size] at hidx
      obtain rfl := Option.some.inj hsv
      have hissued := issued_of_sendsOut hok.slots hidx hout
      have hused := used_of_live hok.slots hidx (live_of_sendsOut (hok.slots.of_zero idx) hidx hout)
      have hall := h.advance (fun _ => [])
        (fun sid => arrivals sv sid (.sendDone idx accepted))
        (fun j => (sendDone_calm sv idx j accepted).used) (hsids (by simp)) hcalls ?_ ?_ ?_
      · simpa using hall
      · intro j hj husedj
        have hcarries := sendDone_carries (hok.slots.of_zero idx) hok.owned hidx hout accepted j
        rcases eq_or_ne j idx with rfl | hne
        · rw [if_pos rfl] at hcarries
          rw [arrivals, if_pos rfl]
          exact hcarries
        · have hother := hserved.sid_ne hmax (hfresh.anti hcalls) hidx hj hused husedj hne.symm
          rw [if_neg hne] at hcarries
          rw [arrivals, if_neg hother]
          exact hcarries
      · intro sid hunissued
        refine ⟨rfl, ?_⟩
        rw [arrivals, if_neg]
        rintro rfl
        exact hunissued (Issued.mono hissued hcalls)
      · intro sid hsome
        rw [arrivals] at hsome
        split at hsome
        · rename_i hsame
          exact ⟨idx, hidx, hused, hsame⟩
        · exact absurd rfl hsome
  | sendFailed idx =>
      have hstep' := hstep
      simp only [SlotLifecycle.netStep, Option.ite_none_right_eq_some] at hstep'
      obtain ⟨⟨hidx, hout⟩, hsv⟩ := hstep'
      rw [hok.slots.size] at hidx
      obtain rfl := Option.some.inj hsv
      simp only [arrivals, List.append_nil]
      exact hquiet (fun j => (sendFailed_calm sv idx j).used) (hsids (by simp))
        fun j _ => sendFailed_carries (hok.slots.of_zero idx) hidx hout j
  | sendPacket sid p accepted => exact absurd rfl (hsend sid p accepted)
  | disconnect sid =>
      have hstep' := hstep
      simp only [SlotLifecycle.netStep, Option.ite_none_right_eq_some] at hstep'
      obtain rfl := Option.some.inj hstep'.2
      simp only [arrivals, List.append_nil]
      refine hquiet (fun j => (disconnect_calm sv j sid).used) (hsids (by simp)) ?_
      intro j _
      simp only [Server.disconnect]
      split
      · exact .refl
      · split
        · exact .refl
        · exact closeSession_carries sv _ j

end Conveyed

section Runs

variable {max : Nat} {sent arrived log : SessionID → List (List UInt8)} {w w' : World}
  {lost : Multiset PacketRef}

theorem mem_sendAllLog {p : PacketRef} {fields : List (List UInt8)}
    {accepted : SessionID → Bool} {targets : List SessionID} {sv : Server} {x : SendCall}
    (hx : x ∈ sendAllLog p fields accepted targets sv) : x.sid ∈ targets := by
  induction targets generalizing sv with
  | nil => cases hx
  | cons sid targets ih =>
      simp only [sendAllLog] at hx
      rcases List.mem_cons.mp hx with rfl | hx
      · exact List.mem_cons_self
      · exact List.mem_cons_of_mem _ (ih hx)

theorem performAllFrames_eq_nil (C : Crypto) {K : SessionID → Prop} {es : List Effect}
    (hes : ∀ e, e ∈ es → EffectWithin K e) {sid : SessionID} (hsid : ¬ K sid)
    (io : Nat → SendEnv) (sv : Server) (jobs : List DBJob) :
    performAllFrames C sid io es sv jobs = [] := by
  induction es generalizing sv jobs io with
  | nil => rfl
  | cons e es ih =>
      have hrest := ih (fun other hother => hes other (List.mem_cons_of_mem _ hother))
        (fun k => io (k + 1)) (perform C (io 0) sv jobs e).1 (perform C (io 0) sv jobs e).2
      have hfirst : performFrames C (io 0) sid sv e = [] := by
        cases e with
        | pushJob job => rfl
        | send fields targets =>
            have hwithin := hes (.send fields targets) List.mem_cons_self
            simp only [performFrames, toSid, List.map_eq_nil_iff, List.filter_eq_nil_iff]
            intro x hx hto
            have hsame : x.sid = sid := by simp at hto; exact hto.2
            exact hsid (hsame ▸ hwithin x.sid (mem_sendAllLog hx))
      simp only [performAllFrames, hfirst, hrest, List.append_nil]

theorem handler_conveyed (C : Crypto) (toAcp : List UInt16 → List UInt8) (hmax : max ≤ 65536)
    (hok : WorldOk w max lost) (hserved : Served max log w.server)
    (h : Conveyed max sent arrived w.server) {e : ChatEvent} {hd : Handler}
    (hstart : startHandler toAcp w e = some hd) (io : Nat → SendEnv)
    (hfresh : Fresh w.server) :
    Conveyed max
      (fun sid => sent sid ++ performAllFrames C sid io hd.effects hd.server hd.jobs) arrived
      (finishHandler C io hd).server := by
  obtain ⟨hserver, -, heffects, hjobs⟩ := startHandler_ok toAcp hok hstart
  obtain ⟨queue, hqueue⟩ := startHandler_server hstart
  have hcalm (j : Nat) := handler_calm C toAcp j hstart io
  have hsessions : hd.server.sessions = w.server.sessions := by rw [hqueue]
  have htimes (j : Nat) : timesUsed hd.server j = timesUsed w.server j := by rw [hqueue]; rfl
  have hcalls := (finishHandler_requests hmax C io hserver heffects hjobs 0).2
  have hpipe (j : Nat) : pipe (finishHandler C io hd).server j =
      pipe (performAll C io hd.effects hd.server hd.jobs).1 j := by
    obtain ⟨sv, content, jobs, effects, msg⟩ := hd
    cases msg with
    | none => rfl
    | some pkt => exact pipe_release _ pkt j
  have hall := h.advance (fun sid => performAllFrames C sid io hd.effects hd.server hd.jobs)
    (fun _ => []) (fun j => (hcalm j).used) ?_ (by rwa [hqueue] at hcalls) ?_ ?_ (by simp)
  · simpa using hall
  · intro j
    rw [finishHandler_sids hmax C io hserver heffects hjobs j, hsessions]
  · intro j hj hused
    have hnamed : Named hd.server j := by
      refine ⟨htimes j ▸ hused, ?_⟩
      rw [hsessions, htimes]
      exact hserved.sids j hj hused
    have hcarries := performAll_carries hmax C io hserver (fun i => htimes i ▸ hfresh i) hj hnamed
      heffects hjobs
    have hbefore : pipe hd.server j = pipe w.server j := by rw [hqueue]; rfl
    rw [hpipe, ← hbefore, ← hsessions]
    exact hcarries
  · intro sid hunissued
    refine ⟨performAllFrames_eq_nil C heffects ?_ io _ _, rfl⟩
    exact fun hissued => hunissued (Issued.mono hissued hcalls)

theorem chatStep_conveyed (C : Crypto) (toAcp : List UInt16 → List UInt8) (hmax : max ≤ 65536)
    (hok : WorldOk w max lost) (hserved : Served max log w.server)
    (h : Conveyed max sent arrived w.server) {e : ChatEvent}
    (hstep : chatStep C toAcp w e = some w') (hfresh : Fresh w'.server) :
    Conveyed max (fun sid => sent sid ++ stepFrames C toAcp w sid e)
      (fun sid => arrived sid ++ stepArrivals w sid e) w'.server := by
  have hcalls := (chatStep_logOk C toAcp hmax hok hstep hfresh).calls
  cases e with
  | net e =>
      obtain ⟨hsend, sv, hnet, rfl⟩ := chatStep_net hstep
      have hnone (sid : SessionID) : stepFrames C toAcp w sid (.net e) = [] := rfl
      simp only [hnone, List.append_nil]
      exact h.netStep C hmax hserved hok.server hsend hnet hfresh
  | update env io =>
      obtain ⟨hd, hstart, rfl⟩ := Option.map_eq_some_iff.mp hstep
      simp only [stepFrames, hstart, stepArrivals, List.append_nil]
      exact handler_conveyed C toAcp hmax hok hserved h hstart io (hfresh.anti hcalls)
  | dbResult result userNo nickname io =>
      obtain ⟨hd, hstart, rfl⟩ := Option.map_eq_some_iff.mp hstep
      simp only [stepFrames, hstart, stepArrivals, List.append_nil]
      exact handler_conveyed C toAcp hmax hok hserved h hstart io (hfresh.anti hcalls)

theorem run_conveyed (C : Crypto) (toAcp : List UInt16 → List UInt8) (hmax : max ≤ 65536)
    (hok : WorldOk w max lost) (hserved : Served max log w.server)
    (h : Conveyed max sent arrived w.server) {events : List ChatEvent}
    (hrun : run (chatStep C toAcp) w events = some w') (hfresh : Fresh w'.server) :
    Conveyed max (fun sid => sent sid ++ sentFrames C toAcp sid w events)
      (fun sid => arrived sid ++ arrivedFrames C toAcp sid w events) w'.server := by
  induction events generalizing w lost log sent arrived with
  | nil =>
      obtain rfl : w = w' := by simpa using hrun
      simp only [sentFrames, arrivedFrames, List.append_nil]
      exact h
  | cons e events ih =>
      simp only [run] at hrun
      cases hstep : chatStep C toAcp w e with
      | none => simp [hstep] at hrun
      | some next =>
          simp only [hstep] at hrun
          have hnext := chatStep_worldOk C toAcp hmax hok hstep
          have hfresh' := hfresh.anti (run_logOk C toAcp hmax hnext hrun hfresh).calls
          have hserved' := chatStep_served hmax C toAcp hok hserved hstep hfresh'
          have hconveyed := chatStep_conveyed C toAcp hmax hok hserved h hstep hfresh'
          simp only [sentFrames, arrivedFrames, hstep, ← List.append_assoc]
          exact ih hnext hserved' hconveyed hrun

end Runs

/-- In every run in which no slot has used up its generations, what has arrived at the
socket of any session, read when each send completed, are the first of the frames that
`SendPacket` accepted for it, in order and unchanged.  The batch on its way comes next, and
of an open session the rest is queued behind it. -/
theorem arrived_frames_in_order (C : Crypto) (toAcp : List UInt16 → List UInt8)
    {maxSession : Nat} (hmax : maxSession ≤ 2 ^ 16) {events : List ChatEvent} {w : World}
    (hrun : run (chatStep C toAcp) (World.start maxSession) events = some w)
    (hfresh : Fresh w.server) :
    (∀ sid, arrivedFrames C toAcp sid (World.start maxSession) events <+:
      sentFrames C toAcp sid (World.start maxSession) events) ∧
    ∀ idx, idx < maxSession → 0 < timesUsed w.server idx →
      let s := w.server.sessions idx
      let arrived := arrivedFrames C toAcp s.sID (World.start maxSession) events
      let sent := sentFrames C toAcp s.sID (World.start maxSession) events
      arrived ++ (inFlight s).map (fun p => frame (w.server.packets p)) <+: sent ∧
      (s.closeFlag = false →
        arrived ++ (inFlight s ++ s.queued).map (fun p => frame (w.server.packets p)) = sent) := by
  have hconveyed := run_conveyed C toAcp hmax (start_worldOk maxSession)
    (start_served maxSession) (start_conveyed maxSession) hrun hfresh
  simp only [List.nil_append] at hconveyed
  refine ⟨hconveyed.past, ?_⟩
  intro idx hidx hused s arrived sent
  have horder := hconveyed.current idx hidx hused
  have hbatch : (pipe w.server idx).batch =
      (inFlight s).map fun p => frame (w.server.packets p) := by
    rw [pipe, pipeOf]
    split
    · rfl
    · rfl
  refine ⟨hbatch ▸ horder.first, ?_⟩
  intro hopen
  have hexact := horder.exact _ _ (pipe_of_open hopen)
  rw [pipe_of_open hopen, Pipe.pending] at hexact
  rw [List.map_append]
  exact hexact

/-- The answer to the first request has reached the client. -/
theorem arrived_frames_in_order_twoRequests :
    ∃ w, run (chatStep Crypto.none fun _ => []) (World.start 1)
        (twoRequests ++ [.net (.sendDone 0 true)]) = some w ∧
      arrivedFrames Crypto.none (fun _ => []) (sidOf 0 1) (World.start 1)
        (twoRequests ++ [.net (.sendDone 0 true)]) =
          [[5, 0] ++ List.replicate 28 0 ++ [102, 0, 0, 1, 0]] ∧
      sentFrames Crypto.none (fun _ => []) (sidOf 0 1) (World.start 1)
        (twoRequests ++ [.net (.sendDone 0 true)]) =
          [[5, 0] ++ List.replicate 28 0 ++ [102, 0, 0, 1, 0]] := by
  have hfacts : ((run (chatStep Crypto.none fun _ => []) (World.start 1)
      (twoRequests ++ [.net (.sendDone 0 true)])).map fun w =>
        decide (w.server.calls.length < 2 ^ 31 ∧ 0 < timesUsed w.server 0 ∧
          (w.server.sessions 0).sID = sidOf 0 1 ∧ (w.server.sessions 0).closeFlag = false ∧
          inFlight (w.server.sessions 0) ++ (w.server.sessions 0).queued = [] ∧
          arrivedFrames Crypto.none (fun _ => []) (sidOf 0 1) (World.start 1)
            (twoRequests ++ [.net (.sendDone 0 true)]) =
              [[5, 0] ++ List.replicate 28 0 ++ [102, 0, 0, 1, 0]])) = some true := by
    decide +kernel
  obtain ⟨w, hrun, hw⟩ := Option.map_eq_some_iff.mp hfacts
  obtain ⟨hcalls, hused, hsid, hopen, hnone, harrived⟩ := of_decide_eq_true hw
  have hordered := arrived_frames_in_order Crypto.none (fun _ => []) (by decide) hrun
    (fun idx => lt_of_le_of_lt (timesUsed_le w.server idx) hcalls)
  have hall := (hordered.2 0 (by decide) hused).2 hopen
  rw [hsid, hnone, harrived] at hall
  exact ⟨w, hrun, harrived, hall.symm⟩

end IocpChat.FrameDelivery
