import IocpChat.ReceivePath
import IocpChat.SendQueue
import IocpChat.SlotInvariant

namespace IocpChat.SlotSteps

open IocpChat.Protocol
open IocpChat.PacketBuffer
open IocpChat.RingBuffer
open IocpChat.LanServer
open IocpChat.SendQueue
open IocpChat.ReceivePath
open IocpChat.SlotInvariant

theorem ioRelease_closeFlag (sv : Server) (idx : Nat) :
    ((sv.ioRelease idx).sessions idx).closeFlag = (sv.sessions idx).closeFlag := by
  simp only [Server.ioRelease]
  split <;> simp [Server.setSession, Server.releaseSession]

theorem closeSession_closed (sv : Server) (idx : Nat) :
    ((sv.closeSession idx).sessions idx).closeFlag = true := by
  simp only [Server.closeSession]
  split
  · assumption
  · obtain ⟨head, count, hs⟩ := takeQueue_snd (sv.sessions idx).sqCount
      { sv.sessions idx with closeFlag := true, sock := none }
    rw [hs, ioRelease_closeFlag]
    simp [Server.onClientLeave, Server.setSession]

section Steps

variable {sv : Server} {max idx busy : Nat}

theorem ioAddRef_slotsOk (h : SlotsOk sv max idx busy) (hidx : idx < max)
    (hlive : 0 < (sv.sessions idx).ioRefCount) :
    SlotsOk (sv.ioAddRef idx) max idx (busy + 1) :=
  h.setSession hidx ((h.here hidx).addRef hlive)

theorem ioRelease_slotsOk (h : SlotsOk sv max idx (busy + 1)) (hidx : idx < max) :
    SlotsOk (sv.ioRelease idx) max idx busy := by
  simp only [Server.ioRelease]
  split
  · rename_i hzero
    refine h.step hidx rfl ?_ ?_
    · intro j hj
      rw [view_releaseSession_ne _ _ hj, view_setSession_ne _ _ _ hj]
    · rw [view_releaseSession_self, view_setSession_self]
      exact (h.here hidx).dropLastRef hzero
  · rename_i hne
    exact h.setSession hidx ((h.here hidx).dropRef hne)

theorem closeSession_slotsOk (h : SlotsOk sv max idx busy) (hidx : idx < max)
    (hlive : (sv.sessions idx).closeFlag = false → 0 < (sv.sessions idx).ioRefCount) :
    SlotsOk (sv.closeSession idx) max idx busy := by
  simp only [Server.closeSession]
  split
  · exact h
  · rename_i hopen
    have hopen : (sv.sessions idx).closeFlag = false := by simpa using hopen
    apply ioRelease_slotsOk _ hidx
    obtain ⟨head, count, hs⟩ := takeQueue_snd (sv.sessions idx).sqCount
      { sv.sessions idx with closeFlag := true, sock := none }
    rw [hs]
    refine h.step hidx ?_ ?_ ?_
    · simp [Server.onClientLeave, Server.setSession]
    · intro j hj
      change view (((sv.setSession idx _).releaseAll _).onClientLeave idx _) j = _
      rw [view_onClientLeave_ne _ _ _ hj, view_releaseAll, view_setSession_ne _ _ _ hj]
    · change SlotOk idx (view (((sv.setSession idx _).releaseAll _).onClientLeave idx _) idx) _
      rw [view_onClientLeave_self, view_releaseAll, view_setSession_self]
      exact (h.here hidx).close hopen (hlive hopen) head count

theorem postRecv_slotsOk (h : SlotsOk sv max idx busy) (hidx : idx < max)
    (hlive : 0 < (sv.sessions idx).ioRefCount) (hnone : (sv.sessions idx).recvsOut = 0)
    (accepted : Bool) : SlotsOk (sv.postRecv idx accepted) max idx busy := by
  have hadd := ioAddRef_slotsOk h hidx hlive
  simp only [Server.postRecv]
  split
  · refine hadd.setSession hidx ((hadd.here hidx).recvPosted ?_)
    simpa [view, Server.ioAddRef, Server.setSession] using hnone
  · apply ioRelease_slotsOk _ hidx
    exact closeSession_slotsOk hadd hidx fun _ => hadd.pos_of_busy hidx

theorem releaseBatch_slotsOk (h : SlotsOk sv max idx busy) (hidx : idx < max)
    (hnone : (sv.sessions idx).sendsOut = 0) :
    SlotsOk (sv.releaseBatch idx) max idx busy := by
  have hrel := h.congr (releaseAll_maxSession sv (sv.sessions idx).sendPkts)
    (view_releaseAll sv (sv.sessions idx).sendPkts)
  refine hrel.setSession hidx ((hrel.here hidx).congr_session rfl rfl rfl rfl rfl rfl ?_)
  intro hone
  simp [hnone] at hone

theorem sendsOut_of_gate (h : SlotsOk sv max idx busy) (hidx : idx < max)
    (hgate : ¬ (sv.sessions idx).sendPending = true) : (sv.sessions idx).sendsOut = 0 := by
  have hle : (sv.sessions idx).sendsOut ≤ 1 := (h.here hidx).sendsOut_le
  have hne : (sv.sessions idx).sendsOut ≠ 1 := fun hone =>
    hgate ((h.here hidx).pending_of_sent hone)
  omega

theorem flushSend_slotsOk (h : SlotsOk sv max idx busy) (hidx : idx < max)
    (hlive : 0 < (sv.sessions idx).ioRefCount) (accepted : Bool) :
    SlotsOk (sv.flushSend idx accepted) max idx busy := by
  simp only [Server.flushSend]
  split
  · exact h
  · rename_i hgate
    have hnone := sendsOut_of_gate h hidx hgate
    obtain ⟨head, count, hs⟩ := takeQueue_snd qsize
      { sv.sessions idx with sendPending := true }
    rw [hs]
    generalize hpkts : ({ sv.sessions idx with sendPending := true }.takeQueue qsize).1 = pkts
    have hset := h.setSession hidx ((h.here hidx).congr_session
      (s := { sv.sessions idx with
        sendPending := true, sqHead := head, sqCount := count, sendPkts := pkts })
      rfl rfl rfl rfl rfl rfl fun _ => rfl)
    have hadd := ioAddRef_slotsOk hset hidx (by simpa [Server.setSession] using hlive)
    split
    · refine hadd.setSession hidx ((hadd.here hidx).sendPosted ?_ ?_)
      · simpa [view, Server.ioAddRef, Server.setSession] using hnone
      · simp [view, Server.ioAddRef, Server.setSession]
    · have hclear := releaseBatch_slotsOk hadd hidx
        (by simpa [Server.ioAddRef, Server.setSession] using hnone)
      apply ioRelease_slotsOk _ hidx
      exact closeSession_slotsOk hclear hidx fun _ => hclear.pos_of_busy hidx

theorem onSendComplete_slotsOk (h : SlotsOk sv max idx (busy + 1)) (hidx : idx < max)
    (hnone : (sv.sessions idx).sendsOut = 0) (accepted : Bool) :
    SlotsOk (sv.onSendComplete idx accepted) max idx (busy + 1) := by
  have hclear := releaseBatch_slotsOk h hidx hnone
  simp only [Server.onSendComplete]
  split
  · exact flushSend_slotsOk hclear hidx (hclear.pos_of_busy hidx) accepted
  · exact hclear

theorem sendPacket_slotsOk (h : SlotsOk sv max idx 0) {sid : SessionID}
    (hlive : sidIndex sid < max →
      (sv.sessions (sidIndex sid)).generation = sidGeneration sid →
      (sv.sessions (sidIndex sid)).closeFlag = false →
      0 < (sv.sessions (sidIndex sid)).ioRefCount)
    (p : PacketRef) (accepted : Bool) :
    SlotsOk (sv.sendPacket sid p accepted).2 max idx 0 := by
  simp only [Server.sendPacket]
  split
  · exact h
  · rename_i hmax
    have hidx : sidIndex sid < max := by
      have hsize := h.size
      omega
    split
    · exact h
    · rename_i hgen
      split
      · exact h
      · rename_i hopen
        have hpos := hlive hidx (not_not.mp hgen) (by simpa using hopen)
        have hsid := h.of_zero (sidIndex sid)
        split
        · exact (closeSession_slotsOk hsid hidx fun _ => hpos).of_zero idx
        · have hadd : SlotsOk (sv.addRef p) max (sidIndex sid) 0 :=
            hsid.congr rfl (view_addRef sv p)
          have hset := hadd.setSession hidx ((hadd.here hidx).congr_session
            (s := ((sv.addRef p).sessions (sidIndex sid)).enqueue p)
            rfl rfl rfl rfl rfl rfl (hadd.here hidx).pending_of_sent)
          refine (flushSend_slotsOk hset hidx ?_ accepted).of_zero idx
          simpa [Server.setSession, Session.enqueue] using hpos

theorem disconnect_slotsOk (h : SlotsOk sv max idx 0) {sid : SessionID}
    (hlive : sidIndex sid < max →
      (sv.sessions (sidIndex sid)).generation = sidGeneration sid →
      (sv.sessions (sidIndex sid)).closeFlag = false →
      0 < (sv.sessions (sidIndex sid)).ioRefCount) :
    SlotsOk (sv.disconnect sid).2 max idx 0 := by
  simp only [Server.disconnect]
  split
  · exact h
  · rename_i hmax
    have hidx : sidIndex sid < max := by
      have hsize := h.size
      omega
    split
    · exact h
    · rename_i hgen
      exact (closeSession_slotsOk (h.of_zero (sidIndex sid)) hidx
        (hlive hidx (not_not.mp hgen))).of_zero idx

theorem free_of_pool_head (h : SlotsOk sv max idx 0) {i : Nat} {rest : List Nat}
    (hpool : sv.indexPool = i :: rest) :
    i < max ∧ (view sv i).inPool = 1 ∧ (sv.sessions i).recvsOut = 0 ∧
      ∃ n, (view sv i).calls = completed i n ∧
        (sv.sessions i).generation = BitVec.ofNat 32 n ∧
        ((sv.sessions i).closeFlag = true ∨ n = 0) := by
  have hcount : (view sv i).inPool = rest.count i + 1 := by
    simp [view, hpool]
  have hi : i < max := by
    by_contra hge
    have hnone := (h.beyond i (by omega)).1
    omega
  cases (h.of_zero i).here hi with
  | free n hcalls hpool hgen hclosed _ hrecv =>
      exact ⟨hi, hpool, hrecv, n, hcalls, hgen, hclosed⟩
  | used _ _ hpool' => omega

theorem allocSession_slotsOk (h : SlotsOk sv max idx 0) {sock i : Nat} {sv' : Server}
    (halloc : sv.allocSession sock = some (i, sv')) :
    i < max ∧ SlotsOk sv' max i 0 ∧ 0 < (sv'.sessions i).ioRefCount ∧
      (sv'.sessions i).recvsOut = 0 := by
  simp only [Server.allocSession] at halloc
  split at halloc
  · simp at halloc
  · rename_i j rest hpool
    obtain ⟨hji, hsv⟩ := Prod.mk.inj (Option.some.inj halloc)
    subst hji hsv
    obtain ⟨hj, hone, hrecv, -⟩ := free_of_pool_head h hpool
    refine ⟨hj, ?_, ?_, ?_⟩
    · refine (h.of_zero j).step hj rfl ?_ ?_
      · intro k hk
        simp [view, Server.initSession, Server.setSession, slotCall, hpool,
          Function.update_of_ne hk, Ne.symm hk]
      · have hview : view ({ sv with indexPool := rest }.initSession j sock) j =
            { session := (view sv j).session.init j sock
              inPool := 0
              calls := (view sv j).calls ++
                [.init ((view sv j).session.init j sock).sID] } := by
          have hcount : (view sv j).inPool = rest.count j + 1 := by
            simp [view, hpool]
          have hrest : rest.count j = 0 := by omega
          simp [view, Server.initSession, Server.setSession, slotCall, hrest]
        rw [hview]
        exact ((h.of_zero j).here hj).init hone sock
    · simp [Server.initSession, Server.setSession, Session.init]
    · simpa [Server.initSession, Server.setSession, Session.init] using hrecv

theorem acceptOne_slotsOk (h : SlotsOk sv max idx 0) (sock : Nat)
    (registered accepted : Bool) :
    SlotsOk (sv.acceptOne sock registered accepted) max idx 0 := by
  simp only [Server.acceptOne]
  split
  · exact h
  · rename_i i sv' halloc
    obtain ⟨hi, hslots, hpos, hrecv⟩ := allocSession_slotsOk h halloc
    split
    · exact (closeSession_slotsOk hslots hi fun _ => hpos).of_zero idx
    · have hjoin : SlotsOk ({ sv' with totalAccept := sv'.totalAccept + 1 }.onClientJoin i
          (sv'.sessions i).sID) max i 0 := by
        refine hslots.congr rfl ?_
        intro j
        rw [view_onClientJoin]
        rfl
      exact (postRecv_slotsOk hjoin hi hpos hrecv accepted).of_zero idx

theorem deliver_slotsOk (h : SlotsOk sv max idx busy) (hidx : idx < max)
    (plain : List UInt8) : SlotsOk (deliver sv idx plain) max idx busy := by
  have halloc : SlotsOk sv.alloc.2 max idx busy :=
    h.congr (alloc_maxSession sv) (view_alloc sv)
  have hset := halloc.setSession hidx ((halloc.here hidx).congr_session
    (s := { sv.alloc.2.sessions idx with
      delivered := (sv.alloc.2.sessions idx).delivered ++
        [(((sv.alloc.2.setPacket sv.alloc.1
          ((sv.alloc.2.packets sv.alloc.1).attachRaw plain)).addRef sv.alloc.1).packets
            sv.alloc.1).payload] })
    rfl rfl rfl rfl rfl rfl (halloc.here hidx).pending_of_sent)
  refine hset.congr ?_ ?_
  · simp [deliver, Server.onRecv, Server.setSession, Server.addRef, Server.setPacket]
  · intro j
    simp only [deliver, view_release]
    rfl

theorem view_discardFrame (sv : Server) (j : Nat) : view (discardFrame sv) j = view sv j := by
  simp only [discardFrame, view_release]
  exact view_alloc sv j

theorem discardFrame_maxSession (sv : Server) : (discardFrame sv).maxSession = sv.maxSession := by
  simp [discardFrame]

theorem setRecvBuffer_slotsOk (h : SlotsOk sv max idx busy) (hidx : idx < max)
    (rb : CRingBuffer) : SlotsOk (setRecvBuffer sv idx rb) max idx busy :=
  h.setSession hidx ((h.here hidx).congr_session rfl rfl rfl rfl rfl rfl
    (h.here hidx).pending_of_sent)

theorem recvLoop_slotsOk (C : Crypto) (h : SlotsOk sv max idx (busy + 1)) (hidx : idx < max)
    (hnone : (sv.sessions idx).recvsOut = 0) :
    SlotsOk (recvLoop C idx sv).1 max idx (busy + 1) ∧
      ((recvLoop C idx sv).2 = true → ((recvLoop C idx sv).1.sessions idx).recvsOut = 0) := by
  induction sv using recvLoop.induct C idx with
  | case1 sv hwait =>
      rw [recvLoop, hwait]
      exact ⟨h, fun _ => hnone⟩
  | case2 sv hlong =>
      rw [recvLoop, hlong]
      exact ⟨closeSession_slotsOk h hidx fun _ => h.pos_of_busy hidx, by simp⟩
  | case3 sv hunder =>
      rw [recvLoop, hunder]
      exact ⟨h, by simp⟩
  | case4 sv rb hbad =>
      have hset := setRecvBuffer_slotsOk h hidx rb
      have hdiscard := hset.congr (discardFrame_maxSession _) (view_discardFrame _)
      rw [recvLoop, hbad]
      exact ⟨closeSession_slotsOk hdiscard hidx fun _ => hdiscard.pos_of_busy hidx, by simp⟩
  | case5 sv rb plain hframe ih =>
      have hset := setRecvBuffer_slotsOk h hidx rb
      rw [recvLoop, hframe]
      refine ih (deliver_slotsOk hset hidx plain) ?_
      simpa [deliver, Server.onRecv, setRecvBuffer, Server.setSession] using hnone

theorem onRecvComplete_slotsOk (C : Crypto) (h : SlotsOk sv max idx (busy + 1))
    (hidx : idx < max) (hnone : (sv.sessions idx).recvsOut = 0) (bytes : Nat)
    (accepted : Bool) :
    SlotsOk (onRecvComplete C sv idx bytes accepted) max idx (busy + 1) := by
  have hset := setRecvBuffer_slotsOk h hidx ((sv.sessions idx).recvBuffer.moveWritePos bytes)
  obtain ⟨hloop, hgo⟩ := recvLoop_slotsOk C hset hidx
    (by simpa [setRecvBuffer, Server.setSession] using hnone)
  simp only [onRecvComplete, resumeRecv]
  split
  · exact hloop
  · rename_i hcont
    split
    · exact closeSession_slotsOk hloop hidx fun _ => hloop.pos_of_busy hidx
    · exact postRecv_slotsOk hloop hidx (hloop.pos_of_busy hidx)
        (hgo (by simpa using hcont)) accepted

theorem takeRecv_slotsOk (h : SlotsOk sv max idx busy) (hidx : idx < max)
    (hout : 0 < (sv.sessions idx).recvsOut) (bytes : List UInt8) :
    SlotsOk (takeRecv sv idx bytes) max idx (busy + 1) ∧
      ((takeRecv sv idx bytes).sessions idx).recvsOut = 0 := by
  have hle : (sv.sessions idx).recvsOut ≤ 1 := (h.here hidx).recvsOut_le
  refine ⟨?_, ?_⟩
  · exact h.setSession hidx (((h.here hidx).recvTaken hout).congr_session
      rfl rfl rfl rfl rfl rfl (h.here hidx).pending_of_sent)
  · simp only [takeRecv, Server.setSession, Function.update_self]
    omega

theorem takeSend_slotsOk (h : SlotsOk sv max idx busy) (hidx : idx < max)
    (hout : 0 < (sv.sessions idx).sendsOut) :
    SlotsOk (takeSend sv idx) max idx (busy + 1) ∧
      ((takeSend sv idx).sessions idx).sendsOut = 0 := by
  have hle : (sv.sessions idx).sendsOut ≤ 1 := (h.here hidx).sendsOut_le
  refine ⟨h.setSession hidx ((h.here hidx).sendTaken hout), ?_⟩
  simp only [takeSend, Server.setSession, Function.update_self]
  omega

theorem recvDone_slotsOk (C : Crypto) (h : SlotsOk sv max idx 0) (hidx : idx < max)
    (hout : 0 < (sv.sessions idx).recvsOut) (bytes : List UInt8) (accepted : Bool) :
    SlotsOk (recvDone C sv idx bytes accepted) max idx 0 := by
  obtain ⟨htaken, hnone⟩ := takeRecv_slotsOk h hidx hout bytes
  apply ioRelease_slotsOk _ hidx
  exact onRecvComplete_slotsOk C htaken hidx hnone bytes.length accepted

theorem recvFailed_slotsOk (h : SlotsOk sv max idx 0) (hidx : idx < max)
    (hout : 0 < (sv.sessions idx).recvsOut) : SlotsOk (recvFailed sv idx) max idx 0 := by
  have htaken := (takeRecv_slotsOk h hidx hout []).1
  apply ioRelease_slotsOk _ hidx
  exact closeSession_slotsOk htaken hidx fun _ => htaken.pos_of_busy hidx

theorem sendDone_slotsOk (h : SlotsOk sv max idx 0) (hidx : idx < max)
    (hout : 0 < (sv.sessions idx).sendsOut) (accepted : Bool) :
    SlotsOk (sendDone sv idx accepted) max idx 0 := by
  obtain ⟨htaken, hnone⟩ := takeSend_slotsOk h hidx hout
  apply ioRelease_slotsOk _ hidx
  exact onSendComplete_slotsOk htaken hidx hnone accepted

theorem sendFailed_slotsOk (h : SlotsOk sv max idx 0) (hidx : idx < max)
    (hout : 0 < (sv.sessions idx).sendsOut) : SlotsOk (sendFailed sv idx) max idx 0 := by
  have htaken := (takeSend_slotsOk h hidx hout).1
  apply ioRelease_slotsOk _ hidx
  exact closeSession_slotsOk htaken hidx fun _ => htaken.pos_of_busy hidx

end Steps

end IocpChat.SlotSteps
