import IocpChat.OpenReceives
import IocpChat.SessionCounts
import IocpChat.SendResults

/-!
From the bytes of a client to the handlers.  What a packet in the content queue says does
not change while it waits, so that the update thread handles exactly what the receive
path has made of the stream of each session, in its order.
-/

namespace IocpChat.RequestDelivery

open IocpChat.Protocol
open IocpChat.PacketBuffer
open IocpChat.RingBuffer
open IocpChat.LanServer
open IocpChat.SendQueue
open IocpChat.ReceivePath
open IocpChat.FrameStream
open IocpChat.SlotInvariant
open IocpChat.SlotSteps
open IocpChat.SlotLifecycle
open IocpChat.MessageOrigin
open IocpChat.PacketOwnership
open IocpChat.ContentHandlers
open IocpChat.ChatRuns
open IocpChat.PacketLifetimes
open IocpChat.ServerOutline
open IocpChat.SessionCounts
open IocpChat.SendResults
open IocpChat.LabelledRun
open IocpChat.StreamReassembly
open IocpChat.OpenReceives

/-- A packet apart from its reference count. -/
def body (pkt : CPacket) : CPacket := { pkt with refCount := 0 }

theorem payload_body (pkt : CPacket) : (body pkt).payload = pkt.payload := rfl

/-- No packet is written to, and no request is queued. -/
structure Still (sv sv' : Server) : Prop where
  bodies : ∀ p, body (sv'.packets p) = body (sv.packets p)
  queue : ∃ more, sv'.contentQ = sv.contentQ ++ more ∧ ∀ m ∈ more, messageRefs m = 0

section Steps

variable {sv sv' sv'' : Server} (idx : Nat)

theorem Still.refl (sv : Server) : Still sv sv :=
  ⟨fun _ => rfl, [], (List.append_nil _).symm, by simp⟩

theorem Still.trans (h : Still sv sv') (k : Still sv' sv'') : Still sv sv'' := by
  obtain ⟨hbodies, more, hqueue, hnone⟩ := h
  obtain ⟨hbodies', more', hqueue', hnone'⟩ := k
  refine ⟨fun p => (hbodies' p).trans (hbodies p), more ++ more', ?_, ?_⟩
  · rw [hqueue', hqueue, List.append_assoc]
  · intro m hm
    rcases List.mem_append.mp hm with hm | hm
    · exact hnone m hm
    · exact hnone' m hm

theorem still_of_same (hpackets : sv'.packets = sv.packets)
    (hqueue : sv'.contentQ = sv.contentQ) : Still sv sv' := by
  refine ⟨fun p => by rw [hpackets], [], ?_, by simp⟩
  rw [hqueue, List.append_nil]

theorem setSession_still (s : Session) : Still sv (sv.setSession idx s) := still_of_same rfl rfl

theorem setPacket_bodies {p : PacketRef} {pkt : CPacket}
    (hbody : body pkt = body (sv.packets p)) (q : PacketRef) :
    body ((sv.setPacket p pkt).packets q) = body (sv.packets q) := by
  rcases eq_or_ne q p with rfl | hne
  · simpa [Server.setPacket] using hbody
  · simp [Server.setPacket, hne]

theorem addRef_still (p : PacketRef) : Still sv (sv.addRef p) :=
  ⟨setPacket_bodies rfl, [], (List.append_nil _).symm, by simp⟩

theorem release_still (p : PacketRef) : Still sv (sv.release p) := by
  refine ⟨?_, [], ?_, by simp⟩
  · have hbodies (q : PacketRef) : body ((sv.setPacket p { sv.packets p with
        refCount := (sv.packets p).refCount - 1 }).packets q) = body (sv.packets q) := by
      apply setPacket_bodies
      rfl
    intro q
    simp only [Server.release]
    split
    · exact hbodies q
    · exact hbodies q
  · rw [release_contentQ, List.append_nil]

theorem releaseAll_still (ps : List PacketRef) : Still sv (sv.releaseAll ps) := by
  induction ps generalizing sv with
  | nil => exact .refl sv
  | cons p ps ih => exact (release_still p).trans ih

theorem push_still {m : Message} (hm : messageRefs m = 0) (h : Still sv sv')
    (hpackets : sv''.packets = sv'.packets) (hqueue : sv''.contentQ = sv'.contentQ ++ [m]) :
    Still sv sv'' :=
  h.trans ⟨fun p => by rw [hpackets], [m], hqueue, by simpa using hm⟩

theorem ioRelease_still : Still sv (sv.ioRelease idx) := by
  simp only [Server.ioRelease]
  split
  · exact still_of_same rfl rfl
  · exact still_of_same rfl rfl

theorem closeSession_still : Still sv (sv.closeSession idx) := by
  simp only [Server.closeSession]
  split
  · exact .refl sv
  · obtain ⟨head, count, hs⟩ := takeQueue_snd (sv.sessions idx).sqCount
      { sv.sessions idx with closeFlag := true, sock := none }
    rw [hs]
    generalize ({ sv.sessions idx with closeFlag := true, sock := none }.takeQueue
      (sv.sessions idx).sqCount).1 = pkts
    refine Still.trans ?_ (ioRelease_still idx)
    refine push_still (m := .leave (sv.sessions idx).sID) rfl
      ((setSession_still idx { sv.sessions idx with
        closeFlag := true, sock := none, sqHead := head, sqCount := count }).trans
        (releaseAll_still pkts)) rfl ?_
    rfl

theorem postRecv_still (accepted : Bool) : Still sv (sv.postRecv idx accepted) := by
  have hadd : Still sv (sv.ioAddRef idx) := setSession_still idx _
  simp only [Server.postRecv]
  split
  · exact hadd.trans (setSession_still idx _)
  · exact hadd.trans ((closeSession_still idx).trans (ioRelease_still idx))

theorem releaseBatch_still : Still sv (sv.releaseBatch idx) :=
  (releaseAll_still _).trans (setSession_still idx _)

theorem flushSend_still (accepted : Bool) : Still sv (sv.flushSend idx accepted) := by
  simp only [Server.flushSend]
  split
  · exact .refl sv
  · have hadd (s : Session) : Still sv ((sv.setSession idx s).ioAddRef idx) :=
      (setSession_still idx s).trans (setSession_still idx _)
    split
    · exact (hadd _).trans (setSession_still idx _)
    · exact (hadd _).trans ((releaseBatch_still idx).trans
        ((closeSession_still idx).trans (ioRelease_still idx)))

theorem sendPacket_still (sid : SessionID) (p : PacketRef) (accepted : Bool) :
    Still sv (sv.sendPacket sid p accepted).2 := by
  simp only [Server.sendPacket]
  split
  · exact .refl sv
  · split
    · exact .refl sv
    · split
      · exact .refl sv
      · split
        · exact closeSession_still _
        · exact (addRef_still p).trans ((setSession_still _ _).trans (flushSend_still _ accepted))

theorem disconnect_still (sid : SessionID) : Still sv (sv.disconnect sid).2 := by
  simp only [Server.disconnect]
  split
  · exact .refl sv
  · split
    · exact .refl sv
    · exact closeSession_still _

theorem recvFailed_still : Still sv (recvFailed sv idx) :=
  (setSession_still idx _).trans ((closeSession_still idx).trans (ioRelease_still idx))

theorem sendDone_still (accepted : Bool) : Still sv (sendDone sv idx accepted) := by
  have hbatch : Still sv ((takeSend sv idx).releaseBatch idx) :=
    (setSession_still idx _).trans (releaseBatch_still idx)
  refine Still.trans ?_ (ioRelease_still idx)
  simp only [Server.onSendComplete]
  split
  · exact hbatch.trans (flushSend_still idx accepted)
  · exact hbatch

theorem sendFailed_still : Still sv (sendFailed sv idx) :=
  (setSession_still idx _).trans ((closeSession_still idx).trans (ioRelease_still idx))

theorem acceptOne_still (sock : Nat) (registered accepted : Bool) :
    Still sv (sv.acceptOne sock registered accepted) := by
  simp only [Server.acceptOne]
  split
  · exact .refl sv
  · rename_i idx sv₁ halloc
    have hinit : Still sv sv₁ := by
      simp only [Server.allocSession] at halloc
      split at halloc
      · simp at halloc
      · obtain ⟨-, rfl⟩ := Prod.mk.inj (Option.some.inj halloc)
        exact still_of_same rfl rfl
    split
    · exact hinit.trans (closeSession_still idx)
    · have hjoin : Still sv ({ sv₁ with totalAccept := sv₁.totalAccept + 1 }.onClientJoin idx
          (sv₁.sessions idx).sID) :=
        push_still (m := .join (sv₁.sessions idx).sID) rfl hinit rfl rfl
      exact hjoin.trans (postRecv_still idx accepted)

end Steps

/-- The payload of a request of this session. -/
def requestOf (sv : Server) (sid : SessionID) : Message → Option (List UInt8)
  | .recv other p => if other = sid then some (sv.packets p).payload else none
  | .join _ => none
  | .leave _ => none

/-- The requests of a session that wait in the content queue. -/
def requests (sv : Server) (sid : SessionID) : List (List UInt8) :=
  sv.contentQ.filterMap (requestOf sv sid)

section Requests

variable {sv sv' : Server} {max idx : Nat} {held : Multiset PacketRef} {sid : SessionID}

theorem requestOf_congr {m : Message}
    (h : ∀ p, p ∈ messageRefs m → body (sv'.packets p) = body (sv.packets p)) :
    requestOf sv' sid m = requestOf sv sid m := by
  cases m with
  | recv other p =>
      have hp := congrArg CPacket.payload (h p (Multiset.mem_singleton_self p))
      rw [payload_body, payload_body] at hp
      simp only [requestOf, hp]
  | join other => rfl
  | leave other => rfl

theorem mem_contentRefs_of_mem {q : List Message} {m : Message} {p : PacketRef} (hm : m ∈ q)
    (hp : p ∈ messageRefs m) : p ∈ contentRefs q := by
  cases m with
  | recv other p' =>
      rw [Multiset.mem_singleton.mp hp]
      exact mem_contentRefs hm
  | join other => exact absurd hp (Multiset.notMem_zero p)
  | leave other => exact absurd hp (Multiset.notMem_zero p)

/-- As long as nothing is written to the packets in the queue, they say the same. -/
theorem filterMap_requestOf_congr
    (h : ∀ p, p ∈ contentRefs sv.contentQ → body (sv'.packets p) = body (sv.packets p)) :
    sv.contentQ.filterMap (requestOf sv' sid) = requests sv sid := by
  apply List.filterMap_congr
  intro m hm
  apply requestOf_congr
  intro p hp
  exact h p (mem_contentRefs_of_mem hm hp)

theorem payload_of_still (h : Still sv sv') (p : PacketRef) :
    (sv'.packets p).payload = (sv.packets p).payload := by
  rw [← payload_body, h.bodies p, payload_body]

theorem requests_of_still (h : Still sv sv') : requests sv' sid = requests sv sid := by
  obtain ⟨hbodies, more, hqueue, hnone⟩ := h
  have hmore : more.filterMap (requestOf sv' sid) = [] := by
    rw [List.filterMap_eq_nil_iff]
    intro m hm
    have hrefs := hnone m hm
    cases m with
    | recv other p => exact absurd hrefs (Multiset.singleton_ne_zero p)
    | join other => rfl
    | leave other => rfl
  rw [requests, hqueue, List.filterMap_append, hmore, List.append_nil]
  exact filterMap_requestOf_congr fun p _ => hbodies p

theorem alloc_fst_notHeld (h : Owned sv max held) : sv.alloc.1 ∉ held + holders sv := by
  intro hheld
  cases hpool : sv.pool with
  | nil =>
      have hfst : sv.alloc.1 = sv.allocated := by simp [Server.alloc, hpool]
      have hlt := h.balanced.known _ hheld
      rw [hfst] at hlt
      exact lt_irrefl _ hlt
  | cons p rest =>
      have hfst : sv.alloc.1 = p := by simp [Server.alloc, hpool]
      have hfree := h.balanced.notMem_pool hheld
      rw [hfst] at hfree
      exact hfree (by simp [refs, hpool])

theorem alloc_fst_notMem (h : Owned sv max held) : sv.alloc.1 ∉ contentRefs sv.contentQ := by
  intro hmem
  exact alloc_fst_notHeld h
    (Multiset.mem_add.mpr (Or.inr (Multiset.mem_add.mpr (Or.inr hmem))))

theorem alloc_packets_of_ne {q : PacketRef} (hne : q ≠ sv.alloc.1) :
    sv.alloc.2.packets q = sv.packets q := by
  revert hne
  simp only [Server.alloc]
  split
  · intro hne
    simp [Server.setPacket, hne]
  · intro hne
    simp [Server.setPacket, hne]

theorem alloc_contentQ (sv : Server) : sv.alloc.2.contentQ = sv.contentQ := by
  simp only [Server.alloc]
  split <;> rfl

theorem requests_of_written (h : Owned sv max held) (hqueue : sv'.contentQ = sv.contentQ)
    (hpackets : ∀ q, q ≠ sv.alloc.1 → sv'.packets q = sv.packets q) :
    requests sv' sid = requests sv sid := by
  rw [requests, hqueue]
  apply filterMap_requestOf_congr
  intro p hp
  rw [hpackets p fun heq => alloc_fst_notMem h (heq ▸ hp)]

theorem requests_alloc (h : Owned sv max held) :
    requests sv.alloc.2 sid = requests sv sid :=
  requests_of_written h (alloc_contentQ sv) fun _ => alloc_packets_of_ne

theorem requests_written (h : Owned sv max held) (pkt : CPacket) :
    requests (sv.alloc.2.setPacket sv.alloc.1 pkt) sid = requests sv sid := by
  refine requests_of_written h (alloc_contentQ sv) ?_
  intro q hne
  simp [Server.setPacket, hne, alloc_packets_of_ne hne]

theorem requests_onRecv {p : PacketRef} :
    requests (sv.onRecv idx p) sid = requests sv sid ++
      if (sv.sessions idx).sID = sid then [(sv.packets p).payload] else [] := by
  have hadd : requests (sv.addRef p) sid = requests sv sid := requests_of_still (addRef_still p)
  have hpayload : ((sv.addRef p).packets p).payload = (sv.packets p).payload :=
    payload_of_still (addRef_still p) p
  have hqueue : requests (sv.onRecv idx p) sid = (sv.contentQ ++
      [Message.recv (sv.sessions idx).sID p]).filterMap (requestOf (sv.addRef p) sid) := rfl
  rw [hqueue, ← hadd, ← hpayload, List.filterMap_append]
  congr 1
  rcases eq_or_ne (sv.sessions idx).sID sid with hsid | hsid
  · simp [requestOf, hsid]
  · simp [requestOf, hsid]

theorem requests_deliver (h : Owned sv max held) {plain : List UInt8}
    (hplain : plain.length ≤ packetBufferSize - pktHeaderSize) :
    requests (deliver sv idx plain) sid = requests sv sid ++
      if (sv.sessions idx).sID = sid then [plain] else [] := by
  have hwritten : requests (sv.alloc.2.setPacket sv.alloc.1
      ((sv.alloc.2.packets sv.alloc.1).attachRaw plain)) sid = requests sv sid :=
    requests_written h _
  have hpayload : ((sv.alloc.2.setPacket sv.alloc.1
      ((sv.alloc.2.packets sv.alloc.1).attachRaw plain)).packets sv.alloc.1).payload = plain := by
    simpa [Server.setPacket] using
      CPacket.payload_attachRaw (sv.alloc.2.packets sv.alloc.1) hplain
  have hsid : ((sv.alloc.2.setPacket sv.alloc.1
      ((sv.alloc.2.packets sv.alloc.1).attachRaw plain)).sessions idx).sID =
      (sv.sessions idx).sID := by simp
  have hrelease : requests (deliver sv idx plain) sid =
      requests ((sv.alloc.2.setPacket sv.alloc.1
        ((sv.alloc.2.packets sv.alloc.1).attachRaw plain)).onRecv idx sv.alloc.1) sid :=
    requests_of_still (release_still sv.alloc.1)
  rw [hrelease, requests_onRecv, hwritten, hpayload, hsid]

/-- What the receive loop delivers on a session are requests that join the queue. -/
structure Arrived (idx : Nat) (sv sv' : Server) : Prop where
  sid : (sv'.sessions idx).sID = (sv.sessions idx).sID
  requests : ∃ news, (sv'.sessions idx).delivered = (sv.sessions idx).delivered ++ news ∧
    ∀ sid, requests sv' sid = requests sv sid ++
      if (sv.sessions idx).sID = sid then news else []

theorem Arrived.trans {sv'' : Server} (h : Arrived idx sv sv') (k : Arrived idx sv' sv'') :
    Arrived idx sv sv'' := by
  obtain ⟨hsid, news, hdelivered, hrequests⟩ := h
  obtain ⟨hsid', news', hdelivered', hrequests'⟩ := k
  refine ⟨hsid'.trans hsid, news ++ news', ?_, ?_⟩
  · rw [hdelivered', hdelivered, List.append_assoc]
  · intro sid
    rw [hrequests', hrequests, hsid]
    split
    · rw [List.append_assoc]
    · simp

theorem arrived_of_still (h : Still sv sv')
    (hsid : (sv'.sessions idx).sID = (sv.sessions idx).sID)
    (hdelivered : (sv'.sessions idx).delivered = (sv.sessions idx).delivered) :
    Arrived idx sv sv' := by
  refine ⟨hsid, [], by rw [hdelivered, List.append_nil], ?_⟩
  intro sid
  rw [requests_of_still h, ite_self, List.append_nil]

theorem setSession_arrived {s : Session} (hsid : s.sID = (sv.sessions idx).sID)
    (hdelivered : s.delivered = (sv.sessions idx).delivered) :
    Arrived idx sv (sv.setSession idx s) := by
  apply arrived_of_still (setSession_still idx s)
  · simpa [Server.setSession] using hsid
  · simpa [Server.setSession] using hdelivered

theorem closeSession_arrived : Arrived idx sv (sv.closeSession idx) :=
  arrived_of_still (closeSession_still idx) ((closeSession_grows sv idx).sids idx)
    (closeSession_calm sv idx idx).stream.delivered

theorem deliver_arrived (h : Owned sv max held) {plain : List UInt8}
    (hplain : plain.length ≤ packetBufferSize - pktHeaderSize) :
    Arrived idx sv (deliver sv idx plain) := by
  refine ⟨(deliver_grows sv idx plain).sids idx, [plain], ?_, fun sid => requests_deliver h hplain⟩
  rw [deliver_sessions sv idx hplain]
  simp

theorem discardFrame_arrived (h : Owned sv max held) : Arrived idx sv (discardFrame sv) := by
  refine ⟨(discardFrame_grows sv idx).sids idx, [], ?_, ?_⟩
  · rw [(discardFrame_calm sv idx).stream.delivered, List.append_nil]
  · intro sid
    rw [ite_self, List.append_nil, ← requests_alloc h]
    have hcount : Still sv.alloc.2 { sv.alloc.2 with
        checksumMismatchCount := sv.alloc.2.checksumMismatchCount + 1 } := still_of_same rfl rfl
    exact requests_of_still (hcount.trans (release_still sv.alloc.1))

theorem recvLoop_arrived (C : Crypto) (h : Owned sv max held) (hidx : idx < max) :
    Arrived idx sv (recvLoop C idx sv).1 := by
  have hbuffer (sv : Server) (rb : CRingBuffer) : Arrived idx sv (setRecvBuffer sv idx rb) :=
    setSession_arrived rfl rfl
  induction sv using recvLoop.induct C idx with
  | case1 sv hwait =>
      rw [recvLoop, hwait]
      exact arrived_of_still (.refl sv) rfl rfl
  | case2 sv hlong =>
      rw [recvLoop, hlong]
      exact closeSession_arrived
  | case3 sv hunder =>
      rw [recvLoop, hunder]
      exact arrived_of_still (.refl sv) rfl rfl
  | case4 sv rb hbad =>
      rw [recvLoop, hbad]
      exact (hbuffer sv rb).trans ((discardFrame_arrived (setRecvBuffer_owned h hidx rb)).trans
        closeSession_arrived)
  | case5 sv rb plain hframe ih =>
      have hfront := frameFront_of_nextFrame C (sv.sessions idx).recvBuffer
      simp only [hframe] at hfront
      obtain ⟨n, hfront, -⟩ := hfront
      have howned := setRecvBuffer_owned h hidx rb
      rw [recvLoop, hframe]
      exact (hbuffer sv rb).trans ((deliver_arrived howned (frameFront_length hfront)).trans
        (ih (deliver_owned howned hidx plain)))

theorem recvDone_arrived (C : Crypto) (h : Owned sv max held) (hidx : idx < max)
    (bytes : List UInt8) (accepted : Bool) : Arrived idx sv (recvDone C sv idx bytes accepted) := by
  have htake : Arrived idx sv (takeRecv sv idx bytes) := setSession_arrived rfl rfl
  have hmove (rb : CRingBuffer) :
      Arrived idx (takeRecv sv idx bytes) (setRecvBuffer (takeRecv sv idx bytes) idx rb) :=
    setSession_arrived rfl rfl
  have hrelease (sv : Server) : Arrived idx sv (sv.ioRelease idx) :=
    arrived_of_still (ioRelease_still idx) ((ioRelease_grows sv idx).sids idx)
      (ioRelease_calm sv idx idx).stream.delivered
  refine Arrived.trans ?_ (hrelease _)
  simp only [onRecvComplete]
  have hloop := recvLoop_arrived C (setRecvBuffer_owned (takeRecv_owned h hidx bytes) hidx
    (((takeRecv sv idx bytes).sessions idx).recvBuffer.moveWritePos bytes.length)) hidx
  have hall := (htake.trans (hmove _)).trans hloop
  simp only [resumeRecv]
  split
  · exact hall
  · split
    · exact hall.trans closeSession_arrived
    · exact hall.trans (arrived_of_still (postRecv_still idx accepted)
        ((postRecv_grows _ idx accepted).sids idx) (postRecv_keeps _ idx accepted idx).2.1)

end Requests

/-- The requests of a session that a step handles. -/
def handledRequests (w : World) (sid : SessionID) : ChatEvent → List (List UInt8)
  | .update _ _ => (w.server.contentQ.head?.bind (requestOf w.server sid)).toList
  | .net _ => []
  | .dbResult _ _ _ _ => []

/-- The requests of a session that the update thread handles in a run. -/
def handledLog (C : Crypto) (toAcp : List UInt16 → List UInt8) (sid : SessionID) :
    World → List ChatEvent → List (List UInt8)
  | _, [] => []
  | w, e :: es =>
      match chatStep C toAcp w e with
      | none => []
      | some next => handledRequests w sid e ++ handledLog C toAcp sid next es

/-- Of each session that was opened everything delivered has been handled or waits. -/
structure Served (max : Nat) (log : SessionID → List (List UInt8)) (sv : Server) : Prop where
  sids : ∀ j, j < max → 0 < timesUsed sv j → (sv.sessions j).sID = sidOf j (timesUsed sv j)
  exact : ∀ j, j < max → 0 < timesUsed sv j →
    log (sv.sessions j).sID ++ requests sv (sv.sessions j).sID = (sv.sessions j).delivered
  unissued : ∀ sid, ¬ Issued sv sid → log sid = []

section Served

variable {sv sv' : Server} {max idx : Nat} {log : SessionID → List (List UInt8)}

theorem start_served (max : Nat) : Served max (fun _ => []) (Server.start max) := by
  refine ⟨?_, ?_, fun _ _ => rfl⟩
  · intro j _ hused
    exact absurd hused (lt_irrefl 0)
  · intro j _ hused
    exact absurd hused (lt_irrefl 0)

theorem Served.still (h : Served max log sv) (hstill : ∀ sid, requests sv' sid = requests sv sid)
    (htimes : ∀ j, timesUsed sv' j = timesUsed sv j)
    (hdelivered : ∀ j, (sv'.sessions j).delivered = (sv.sessions j).delivered)
    (hsids : ∀ j, (sv'.sessions j).sID = (sv.sessions j).sID)
    (hcalls : sv.calls <+: sv'.calls) : Served max log sv' := by
  refine ⟨?_, ?_, ?_⟩
  · intro j hj hused
    rw [hsids, htimes]
    exact h.sids j hj (htimes j ▸ hused)
  · intro j hj hused
    rw [hsids, hstill, hdelivered]
    exact h.exact j hj (htimes j ▸ hused)
  · intro sid hunissued
    exact h.unissued sid fun hissued => hunissued (Issued.mono hissued hcalls)

theorem Served.sid_ne (h : Served max log sv) (hmax : max ≤ 65536) (hfresh : Fresh sv) {i j : Nat}
    (hi : i < max) (hj : j < max) (husedi : 0 < timesUsed sv i) (husedj : 0 < timesUsed sv j)
    (hne : i ≠ j) : (sv.sessions i).sID ≠ (sv.sessions j).sID := by
  intro hsame
  rw [h.sids i hi husedi, h.sids j hj husedj] at hsame
  exact hne (sidOf_inj (by omega) (by omega) (hfresh i) (hfresh j) hsame).1

theorem Served.arrived (h : Served max log sv) (hmax : max ≤ 65536) (hfresh : Fresh sv)
    (hidx : idx < max) (hused : 0 < timesUsed sv idx) (harrived : Arrived idx sv sv')
    (hother : ∀ j, j ≠ idx → Calm sv sv' j) (hsame : timesUsed sv' idx = timesUsed sv idx)
    (hsids : ∀ j, (sv'.sessions j).sID = (sv.sessions j).sID)
    (hcalls : sv.calls <+: sv'.calls) : Served max log sv' := by
  have htimes : ∀ j, timesUsed sv' j = timesUsed sv j := by
    intro j
    rcases eq_or_ne j idx with rfl | hne
    · exact hsame
    · exact (hother j hne).used
  obtain ⟨-, news, hdelivered, hrequests⟩ := harrived
  refine ⟨?_, ?_, ?_⟩
  · intro j hj husedj
    rw [hsids, htimes]
    exact h.sids j hj (htimes j ▸ husedj)
  · intro j hj husedj
    rw [htimes] at husedj
    rw [hsids, hrequests]
    rcases eq_or_ne j idx with rfl | hne
    · rw [if_pos rfl, hdelivered, ← List.append_assoc, h.exact j hj husedj]
    · rw [if_neg (h.sid_ne hmax hfresh hidx hj hused husedj hne.symm), List.append_nil,
        (hother j hne).stream.delivered]
      exact h.exact j hj husedj
  · intro sid hunissued
    exact h.unissued sid fun hissued => hunissued (Issued.mono hissued hcalls)

theorem sid_of_touches {o o' : Outline} (h : Touches idx o o') : o'.sid = o.sid :=
  h.keeps (P := fun t => t.sid = o.sid) rfl (fun _ _ ht => ht) (fun _ ht => ht)
    (fun _ ht _ => ht)

theorem requests_of_unissued (h : MessagesIssued sv) {sid : SessionID} (hsid : ¬ Issued sv sid) :
    requests sv sid = [] := by
  rw [requests, List.filterMap_eq_nil_iff]
  intro m hm
  cases m with
  | recv other p =>
      have hne : other ≠ sid := by
        rintro rfl
        exact hsid (h _ hm)
      simp [requestOf, hne]
  | join other => rfl
  | leave other => rfl

theorem acceptOne_opened (hslots : SlotsOk sv max 0 0) {rest : List Nat}
    (hpool : sv.indexPool = idx :: rest) (sock : Nat) (registered accepted : Bool) :
    timesUsed (sv.acceptOne sock registered accepted) idx = timesUsed sv idx + 1 ∧
      (((sv.acceptOne sock registered accepted).sessions idx).received = [] ∧
        ((sv.acceptOne sock registered accepted).sessions idx).delivered = []) ∧
      (∀ j, j ≠ idx →
        ((sv.acceptOne sock registered accepted).sessions j).sID = (sv.sessions j).sID) ∧
      ((sv.acceptOne sock registered accepted).sessions idx).sID =
        sidOf idx (timesUsed sv idx + 1) := by
  rcases acceptOne_cases sv sock registered accepted with ⟨hnil, -⟩ | ⟨i, rest', hpool', htouched⟩
  · rw [hpool] at hnil
    cases hnil
  · obtain ⟨rfl, -⟩ := List.cons.inj (hpool.symm.trans hpool')
    obtain ⟨-, -, -, n, hcalls, hgen, -⟩ := free_of_pool_head hslots hpool
    have htimes : timesUsed sv idx = n := by rw [timesUsed, hcalls, countP_completed]
    have hused : timesUsed (sv.acceptOne sock registered accepted) idx = timesUsed sv idx + 1 := by
      refine (uses_of_touches htouched idx).trans ?_
      have hold : uses (outline sv).calls idx = timesUsed sv idx := rfl
      cases registered with
      | true =>
          simp only [if_true, Outline.join, Outline.init, uses_append, uses_initSession,
            uses_onClientJoin, hold]
      | false =>
          simp only [Bool.false_eq_true, if_false, if_true, Outline.init, uses_append,
            uses_initSession, hold]
    have hsid : (outline (sv.acceptOne sock registered accepted)).sid =
        Function.update (outline sv).sid idx (sidOf idx (n + 1)) := by
      have hnext : (sv.sessions idx).generation + 1 = BitVec.ofNat 32 (n + 1) := by
        rw [hgen, BitVec.ofNat_add]
        rfl
      rw [sid_of_touches htouched, sidOf, ← hnext]
      cases registered <;> rfl
    refine ⟨hused, ?_, ?_, ?_⟩
    · cases acceptOne_streamStep Crypto.none sv sock registered accepted idx with
      | calm hcalm =>
          have := hcalm.used
          omega
      | opened _ hreceived hdelivered => exact ⟨hreceived, hdelivered⟩
      | failed _ hsame => omega
      | completed _ _ hsame => omega
    · intro j hne
      exact (congrFun hsid j).trans (by simp [outline, hne])
    · rw [htimes]
      exact (congrFun hsid idx).trans (by simp)

theorem notIssued_next (hmax : max ≤ 65536) (hslots : SlotsOk sv max 0 0) (hidx : idx < max)
    (hfresh : Fresh sv) (hbound : timesUsed sv idx + 1 < 2 ^ 31) :
    ¬ Issued sv (sidOf idx (timesUsed sv idx + 1)) := by
  intro hissued
  obtain ⟨i, k, hi, -, hle, hsame⟩ := issued_eq_sidOf hslots hissued
  have hk := hfresh i
  obtain ⟨rfl, hlast⟩ := sidOf_inj (by omega) (by omega) (by omega) (by omega) hsame
  omega

theorem Served.acceptOne (h : Served max log sv) (hmax : max ≤ 65536) {held : Multiset PacketRef}
    (hok : ServerOk sv max held) (sock : Nat) (registered accepted : Bool)
    (hfresh : Fresh (sv.acceptOne sock registered accepted)) :
    Served max log (sv.acceptOne sock registered accepted) := by
  obtain ⟨hcalls, -⟩ := acceptOne_keepsIssued hok.slots hok.messages sock registered accepted
  have hstill : Still sv (sv.acceptOne sock registered accepted) :=
    acceptOne_still sock registered accepted
  cases hpool : sv.indexPool with
  | nil =>
      have heq : sv.acceptOne sock registered accepted = sv := by
        simp only [Server.acceptOne, Server.allocSession, hpool]
      rwa [heq]
  | cons idx rest =>
      obtain ⟨hused, ⟨-, hdelivered⟩, hsids, hsid⟩ :=
        acceptOne_opened hok.slots hpool sock registered accepted
      have hother {j : Nat} (hne : j ≠ idx) :=
        acceptOne_calm_of_ne hpool hne sock registered accepted
      have hnew := notIssued_next hmax hok.slots (free_of_pool_head hok.slots hpool).1
        (hfresh.anti hcalls) (hused ▸ hfresh idx)
      refine ⟨?_, ?_, ?_⟩
      · intro j hj husedj
        rcases eq_or_ne j idx with rfl | hne
        · rw [hsid, hused]
        · rw [hsids j hne, (hother hne).used]
          exact h.sids j hj ((hother hne).used ▸ husedj)
      · intro j hj husedj
        rw [requests_of_still hstill]
        rcases eq_or_ne j idx with rfl | hne
        · rw [hsid, hdelivered, h.unissued _ hnew, requests_of_unissued hok.messages hnew]
          rfl
        · rw [hsids j hne, (hother hne).stream.delivered]
          exact h.exact j hj ((hother hne).used ▸ husedj)
      · intro sid hunissued
        exact h.unissued sid fun hissued => hunissued (Issued.mono hissued hcalls)

theorem used_of_live (hslots : SlotsOk sv max 0 0) (hidx : idx < max)
    (hlive : 0 < (sv.sessions idx).ioRefCount) : 0 < timesUsed sv idx :=
  List.countP_pos_iff.mpr ⟨_, init_of_live (hslots.of_zero idx) hidx hlive, rfl⟩

theorem netStep_sids (C : Crypto) (hmax : max ≤ 65536) (hslots : SlotsOk sv max 0 0)
    {e : NetEvent} (hstep : netStep C sv e = some sv')
    (haccept : ∀ sock r a, e ≠ .accept sock r a) (j : Nat) :
    (sv'.sessions j).sID = (sv.sessions j).sID := by
  rcases netStep_touches C hslots (Or.inl hmax) hstep haccept with rfl | ⟨idx, -, -, htouched⟩
  · rfl
  · exact congrFun (sid_of_touches htouched) j

theorem netStep_quiet (C : Crypto) {e : NetEvent} (hstep : netStep C sv e = some sv')
    (haccept : ∀ sock r a, e ≠ .accept sock r a)
    (hrecv : ∀ idx bytes a, e ≠ .recvDone idx bytes a) :
    Still sv sv' ∧ ∀ j, timesUsed sv' j = timesUsed sv j ∧
      (sv'.sessions j).received = (sv.sessions j).received ∧
      (sv'.sessions j).delivered = (sv.sessions j).delivered := by
  have hkeeps {j : Nat} (hcalm : Calm sv sv' j) : timesUsed sv' j = timesUsed sv j ∧
      (sv'.sessions j).received = (sv.sessions j).received ∧
      (sv'.sessions j).delivered = (sv.sessions j).delivered :=
    ⟨hcalm.used, hcalm.stream.received, hcalm.stream.delivered⟩
  cases e with
  | accept sock registered accepted => exact absurd rfl (haccept sock registered accepted)
  | recvDone idx bytes accepted => exact absurd rfl (hrecv idx bytes accepted)
  | recvFailed idx =>
      simp only [netStep, Option.ite_none_right_eq_some] at hstep
      obtain rfl := Option.some.inj hstep.2
      refine ⟨recvFailed_still idx, fun j => ?_⟩
      have hend := (closeSession_calm (takeRecv sv idx []) idx j).trans (ioRelease_calm _ idx j)
      rcases eq_or_ne j idx with rfl | hne
      · refine ⟨hend.used, hend.stream.received.trans ?_, hend.stream.delivered.trans ?_⟩
        · simp [takeRecv, Server.setSession]
        · simp [takeRecv, Server.setSession]
      · exact hkeeps ((setSession_calm_of_ne sv idx j _ hne).trans hend)
  | sendDone idx accepted =>
      simp only [netStep, Option.ite_none_right_eq_some] at hstep
      obtain rfl := Option.some.inj hstep.2
      exact ⟨sendDone_still idx accepted, fun j => hkeeps (sendDone_calm sv idx j accepted)⟩
  | sendFailed idx =>
      simp only [netStep, Option.ite_none_right_eq_some] at hstep
      obtain rfl := Option.some.inj hstep.2
      exact ⟨sendFailed_still idx, fun j => hkeeps (sendFailed_calm sv idx j)⟩
  | sendPacket sid p accepted =>
      simp only [netStep, Option.ite_none_right_eq_some] at hstep
      obtain rfl := Option.some.inj hstep.2
      exact ⟨sendPacket_still sid p accepted, fun j => hkeeps (sendPacket_calm sv j sid p accepted)⟩
  | disconnect sid =>
      simp only [netStep, Option.ite_none_right_eq_some] at hstep
      obtain rfl := Option.some.inj hstep.2
      exact ⟨disconnect_still sid, fun j => hkeeps (disconnect_calm sv j sid)⟩

theorem recvDone_enabled {C : Crypto} (hslots : SlotsOk sv max 0 0) {bytes : List UInt8}
    {accepted : Bool} (hstep : netStep C sv (.recvDone idx bytes accepted) = some sv') :
    idx < max ∧ 0 < timesUsed sv idx ∧ Issued sv (sv.sessions idx).sID ∧
      recvDone C sv idx bytes accepted = sv' := by
  simp only [netStep, Option.ite_none_right_eq_some] at hstep
  obtain ⟨⟨hidx, hout, -⟩, hsv⟩ := hstep
  rw [hslots.size] at hidx
  have hlive := live_of_recvsOut (hslots.of_zero idx) hidx hout
  exact ⟨hidx, used_of_live hslots hidx hlive,
    issued_of_init (init_of_live (hslots.of_zero idx) hidx hlive), Option.some.inj hsv⟩

theorem Served.netStep (h : Served max log sv) (C : Crypto) (hmax : max ≤ 65536)
    {held : Multiset PacketRef} (hok : ServerOk sv max held) {e : NetEvent}
    (hstep : netStep C sv e = some sv') (hfresh : Fresh sv') : Served max log sv' := by
  obtain ⟨hcalls, -⟩ := netStep_keepsIssued C hok.slots (Or.inl hmax) hok.messages hstep
  have hsids := netStep_sids C hmax hok.slots hstep
  have hquiet := netStep_quiet C hstep
  cases e with
  | accept sock registered accepted =>
      obtain rfl := Option.some.inj hstep
      exact h.acceptOne hmax hok sock registered accepted hfresh
  | recvDone idx bytes accepted =>
      obtain ⟨hidx, hused, -, rfl⟩ := recvDone_enabled hok.slots hstep
      exact h.arrived hmax (hfresh.anti hcalls) hidx hused
        (recvDone_arrived C hok.owned hidx bytes accepted)
        (fun j hne => recvDone_calm_of_ne C hne bytes accepted)
        (uses_of_touches (recvDone_touches sv idx C bytes accepted) idx) (hsids (by simp)) hcalls
  | _ =>
      obtain ⟨hstill, hsame⟩ := hquiet (by simp) (by simp)
      exact h.still (fun _ => requests_of_still hstill) (fun j => (hsame j).1)
        (fun j => (hsame j).2.2) (hsids (by simp)) hcalls

end Served

section Handlers

variable {max : Nat} {sv : Server} {held : Multiset PacketRef} {jobs : List DBJob}
  {sid : SessionID}

theorem sendAll_still (p : PacketRef) (accepted : SessionID → Bool) (targets : List SessionID)
    (sv : Server) : Still sv (sendAll p accepted targets sv) := by
  induction targets generalizing sv with
  | nil => exact .refl sv
  | cons sid targets ih => exact (sendPacket_still sid p (accepted sid)).trans (ih _)

theorem requests_performAll (hmax : max ≤ 65536) (C : Crypto) (io : Nat → SendEnv)
    {es : List Effect} (h : ServerOk sv max held)
    (hes : ∀ e, e ∈ es → EffectWithin (Issued sv) e) (hjobs : JobsIssued sv jobs) :
    requests (performAll C io es sv jobs).1 sid = requests sv sid := by
  induction es generalizing sv jobs io with
  | nil => rfl
  | cons e es ih =>
      obtain ⟨hone, hcalls, hjobs'⟩ := perform_serverOk hmax h C (io 0) (hes e (by simp)) hjobs
      have hrest := ih (fun k => io (k + 1)) hone (by
        intro other hother
        exact EffectWithin.mono (hes other (by simp [hother])) hcalls) hjobs'
      refine hrest.trans ?_
      cases e with
      | pushJob job => rfl
      | send fields targets =>
          exact (requests_of_still ((sendAll_still _ _ _ _).trans (release_still _))).trans
            (requests_written h.owned _)

theorem requests_startHandler {toAcp : List UInt16 → List UInt8} {w : World} {e : ChatEvent}
    {hd : Handler} (hstart : startHandler toAcp w e = some hd) (sid : SessionID) :
    requests w.server sid = handledRequests w sid e ++ requests hd.server sid := by
  cases e with
  | net e => simp [startHandler] at hstart
  | update env io =>
      simp only [startHandler] at hstart
      split at hstart
      · simp at hstart
      all_goals
        rename_i hqueue
        obtain rfl := Option.some.inj hstart
        simp only [requests, handledRequests, hqueue, List.head?_cons, Option.bind_some,
          List.filterMap_cons]
        split
        · rename_i hnone
          rw [hnone]
          rfl
        · rename_i hsome
          rw [hsome]
          rfl
  | dbResult result userNo nickname io =>
      simp only [startHandler] at hstart
      split at hstart
      · simp at hstart
      · obtain rfl := Option.some.inj hstart
        rfl

end Handlers

section Runs

variable {max : Nat} {log : SessionID → List (List UInt8)} {w w' : World}
  {lost : Multiset PacketRef}

theorem finishHandler_requests (hmax : max ≤ 65536) (C : Crypto) (io : Nat → SendEnv)
    {hd : Handler} {held : Multiset PacketRef} (hserver : ServerOk hd.server max held)
    (heffects : ∀ e, e ∈ hd.effects → EffectWithin (Issued hd.server) e)
    (hjobs : JobsIssued hd.server hd.jobs) (sid : SessionID) :
    requests (finishHandler C io hd).server sid = requests hd.server sid ∧
      hd.server.calls <+: (finishHandler C io hd).server.calls := by
  obtain ⟨-, hcalls, -⟩ := performAll_serverOk hmax C io hserver heffects hjobs
  have hrequests : requests (performAll C io hd.effects hd.server hd.jobs).1 sid =
      requests hd.server sid := requests_performAll hmax C io hserver heffects hjobs
  obtain ⟨sv, content, jobs, effects, msg⟩ := hd
  cases msg with
  | none => exact ⟨hrequests, hcalls⟩
  | some pkt =>
      refine ⟨(requests_of_still (release_still pkt)).trans hrequests, ?_⟩
      simp only [finishHandler, release_calls]
      exact hcalls

theorem finishHandler_sids (hmax : max ≤ 65536) (C : Crypto) (io : Nat → SendEnv)
    {hd : Handler} {held : Multiset PacketRef} (hserver : ServerOk hd.server max held)
    (heffects : ∀ e, e ∈ hd.effects → EffectWithin (Issued hd.server) e)
    (hjobs : JobsIssued hd.server hd.jobs) (j : Nat) :
    ((finishHandler C io hd).server.sessions j).sID = (hd.server.sessions j).sID := by
  refine congrFun (finishHandler_survives (P := fun o => o.sid = (outline hd.server).sid)
    ?_ hmax C io hserver heffects hjobs rfl) j
  intro sv held idx o _ _ _ htouched hsame
  exact (sid_of_touches htouched).trans hsame

theorem handledRequests_unissued (hok : WorldOk w max lost) (e : ChatEvent) {sid : SessionID}
    (hsid : ¬ Issued w.server sid) : handledRequests w sid e = [] := by
  have hnone := requests_of_unissued hok.server.messages hsid
  cases e with
  | net e => rfl
  | dbResult result userNo nickname io => rfl
  | update env io =>
      cases hqueue : w.server.contentQ with
      | nil => simp [handledRequests, hqueue]
      | cons m rest =>
          rw [requests, hqueue, List.filterMap_eq_nil_iff] at hnone
          have hm := hnone m (by simp)
          simp [handledRequests, hqueue, hm]

theorem handler_served (hmax : max ≤ 65536) (C : Crypto) (toAcp : List UInt16 → List UInt8)
    (hok : WorldOk w max lost) (h : Served max log w.server) {e : ChatEvent} {hd : Handler}
    (hstart : startHandler toAcp w e = some hd) (io : Nat → SendEnv) :
    Served max (fun sid => log sid ++ handledRequests w sid e)
      (finishHandler C io hd).server := by
  obtain ⟨hserver, -, heffects, hjobs⟩ := startHandler_ok toAcp hok hstart
  obtain ⟨queue, hqueue⟩ := startHandler_server hstart
  have hcalm (j : Nat) := handler_calm C toAcp j hstart io
  have hsids (j : Nat) : ((finishHandler C io hd).server.sessions j).sID =
      (w.server.sessions j).sID := by
    rw [finishHandler_sids hmax C io hserver heffects hjobs j, hqueue]
  have hrequests (sid : SessionID) : handledRequests w sid e ++
      requests (finishHandler C io hd).server sid = requests w.server sid := by
    rw [(finishHandler_requests hmax C io hserver heffects hjobs sid).1,
      requests_startHandler hstart]
  refine ⟨?_, ?_, ?_⟩
  · intro j hj hused
    rw [hsids, (hcalm j).used]
    exact h.sids j hj ((hcalm j).used ▸ hused)
  · intro j hj hused
    rw [hsids, List.append_assoc, hrequests, (hcalm j).stream.delivered]
    exact h.exact j hj ((hcalm j).used ▸ hused)
  · intro sid hunissued
    have hcalls : w.server.calls <+: (finishHandler C io hd).server.calls := by
      have := (finishHandler_requests hmax C io hserver heffects hjobs sid).2
      rwa [hqueue] at this
    have hbefore : ¬ Issued w.server sid := fun hissued =>
      hunissued (Issued.mono hissued hcalls)
    rw [h.unissued sid hbefore, handledRequests_unissued hok e hbefore, List.append_nil]

theorem chatStep_served (hmax : max ≤ 65536) (C : Crypto) (toAcp : List UInt16 → List UInt8)
    (hok : WorldOk w max lost) (h : Served max log w.server) {e : ChatEvent}
    (hstep : chatStep C toAcp w e = some w') (hfresh : Fresh w'.server) :
    Served max (fun sid => log sid ++ handledRequests w sid e) w'.server := by
  cases e with
  | net e =>
      obtain ⟨-, sv, hnet, rfl⟩ := chatStep_net hstep
      simp only [handledRequests, List.append_nil]
      exact h.netStep C hmax hok.server hnet hfresh
  | update env io =>
      obtain ⟨hd, hstart, rfl⟩ := Option.map_eq_some_iff.mp hstep
      exact handler_served hmax C toAcp hok h hstart io
  | dbResult result userNo nickname io =>
      obtain ⟨hd, hstart, rfl⟩ := Option.map_eq_some_iff.mp hstep
      exact handler_served hmax C toAcp hok h hstart io

theorem run_served (hmax : max ≤ 65536) (C : Crypto) (toAcp : List UInt16 → List UInt8)
    (hok : WorldOk w max lost) (h : Served max log w.server)
    (hstreams : ∀ j, j < max → StreamOk C (w.server.sessions j)) {events : List ChatEvent}
    (hrun : run (chatStep C toAcp) w events = some w') (hfresh : Fresh w'.server) :
    Served max (fun sid => log sid ++ handledLog C toAcp sid w events) w'.server ∧
      ∀ j, j < max → StreamOk C (w'.server.sessions j) := by
  induction events generalizing w lost log with
  | nil =>
      obtain rfl : w = w' := by simpa using hrun
      simp only [handledLog, List.append_nil]
      exact ⟨h, hstreams⟩
  | cons e events ih =>
      simp only [run] at hrun
      cases hstep : chatStep C toAcp w e with
      | none => simp [hstep] at hrun
      | some next =>
          simp only [hstep] at hrun
          have hnext := chatStep_worldOk C toAcp hmax hok hstep
          have hcalls := (run_logOk C toAcp hmax hnext hrun hfresh).calls
          have hserved := chatStep_served hmax C toAcp hok h hstep (hfresh.anti hcalls)
          have hstreams' : ∀ j, j < max → StreamOk C (next.server.sessions j) := by
            intro j hj
            exact (hstreams j hj).step ((hok.server.slots.of_zero j).here hj).recvsOut_le
              (chatStep_streamStep C toAcp j hstep)
          simp only [handledLog, hstep, ← List.append_assoc]
          exact ih hnext hserved hstreams' hrun

end Runs

/-- The bytes of a session that a step receives. -/
def receivedBytes (w : World) (sid : SessionID) : ChatEvent → List UInt8
  | .net (.recvDone idx bytes _) => if (w.server.sessions idx).sID = sid then bytes else []
  | _ => []

/-- The bytes of a session that are received in a run. -/
def receivedLog (C : Crypto) (toAcp : List UInt16 → List UInt8) (sid : SessionID) :
    World → List ChatEvent → List UInt8
  | _, [] => []
  | w, e :: es =>
      match chatStep C toAcp w e with
      | none => []
      | some next => receivedBytes w sid e ++ receivedLog C toAcp sid next es

/-- The streams of the sessions that have a slot are those of the run, and of every session
there ever was the requests are what its stream says. -/
structure Heard (C : Crypto) (max : Nat) (log : SessionID → List (List UInt8))
    (bytes : SessionID → List UInt8) (sv : Server) : Prop where
  current : ∀ j, j < max → 0 < timesUsed sv j →
    bytes (sv.sessions j).sID = (sv.sessions j).received
  unissued : ∀ sid, ¬ Issued sv sid → bytes sid = []
  parsed : ∀ sid, log sid ++ requests sv sid = (parse (frameReader C) (bytes sid)).1

section Heard

variable {C : Crypto} {toAcp : List UInt16 → List UInt8} {max : Nat}
  {log : SessionID → List (List UInt8)} {bytes : SessionID → List UInt8} {w w' : World}
  {lost : Multiset PacketRef} {e : ChatEvent}

theorem start_heard (C : Crypto) (max : Nat) :
    Heard C max (fun _ => []) (fun _ => []) (Server.start max) := by
  refine ⟨?_, fun _ _ => rfl, ?_⟩
  · intro j _ hused
    exact absurd hused (lt_irrefl 0)
  · intro sid
    have hparse : parse (frameReader C) [] = ([], .waiting []) := parse_of_incomplete rfl
    rw [hparse]
    rfl

theorem receivedBytes_of_silent {sid : SessionID} (hnot : ∀ idx bytes accepted,
    e = .net (.recvDone idx bytes accepted) → (w.server.sessions idx).sID ≠ sid) :
    receivedBytes w sid e = [] := by
  unfold receivedBytes
  split
  · exact if_neg (hnot _ _ _ rfl)
  · rfl

theorem chatStep_requests (hmax : max ≤ 65536) (hok : WorldOk w max lost)
    (hstep : chatStep C toAcp w e = some w') {sid : SessionID}
    (hnot : ∀ idx bytes accepted, e = .net (.recvDone idx bytes accepted) →
      (w.server.sessions idx).sID ≠ sid) :
    handledRequests w sid e ++ requests w'.server sid = requests w.server sid := by
  have hhandler {hd : Handler} {io : Nat → SendEnv} (hstart : startHandler toAcp w e = some hd) :
      handledRequests w sid e ++ requests (finishHandler C io hd).server sid =
        requests w.server sid := by
    obtain ⟨hserver, -, heffects, hjobs⟩ := startHandler_ok toAcp hok hstart
    rw [(finishHandler_requests hmax C io hserver heffects hjobs sid).1,
      requests_startHandler hstart]
  cases e with
  | update env io =>
      obtain ⟨hd, hstart, rfl⟩ := Option.map_eq_some_iff.mp hstep
      exact hhandler hstart
  | dbResult result userNo nickname io =>
      obtain ⟨hd, hstart, rfl⟩ := Option.map_eq_some_iff.mp hstep
      exact hhandler hstart
  | net e =>
      obtain ⟨-, sv, hnet, rfl⟩ := chatStep_net hstep
      rw [handledRequests, List.nil_append]
      cases e with
      | accept sock registered accepted =>
          obtain rfl := Option.some.inj hnet
          exact requests_of_still (acceptOne_still sock registered accepted)
      | recvDone idx bytes accepted =>
          obtain ⟨hidx, -, -, rfl⟩ := recvDone_enabled hok.server.slots hnet
          obtain ⟨-, news, -, hrequests⟩ :=
            recvDone_arrived C hok.server.owned hidx bytes accepted
          rw [hrequests, if_neg (hnot idx bytes accepted rfl), List.append_nil]
      | _ => exact requests_of_still (netStep_quiet C hnet (by simp) (by simp)).1

theorem Heard.acceptOne (h : Heard C max log bytes w.server) (hmax : max ≤ 65536)
    (hok : WorldOk w max lost) (hfresh : Fresh w.server) {sock : Nat}
    {registered accepted : Bool} (hfresh' : Fresh (w.server.acceptOne sock registered accepted))
    {j : Nat} (hj : j < max)
    (hused : 0 < timesUsed (w.server.acceptOne sock registered accepted) j) :
    bytes ((w.server.acceptOne sock registered accepted).sessions j).sID =
      ((w.server.acceptOne sock registered accepted).sessions j).received := by
  cases hpool : w.server.indexPool with
  | nil =>
      have heq : w.server.acceptOne sock registered accepted = w.server := by
        simp only [Server.acceptOne, Server.allocSession, hpool]
      rw [heq] at hused ⊢
      exact h.current j hj hused
  | cons idx rest =>
      obtain ⟨hnow, ⟨hreceived, -⟩, hsids, hsid⟩ :=
        acceptOne_opened hok.server.slots hpool sock registered accepted
      rcases eq_or_ne j idx with rfl | hne
      · rw [hsid, hreceived]
        exact h.unissued _ (notIssued_next hmax hok.server.slots hj hfresh (hnow ▸ hfresh' j))
      · have hcalm := acceptOne_calm_of_ne hpool hne sock registered accepted
        rw [hsids j hne, hcalm.stream.received]
        exact h.current j hj (hcalm.used ▸ hused)

theorem chatStep_current (hmax : max ≤ 65536) (hok : WorldOk w max lost)
    (hserved : Served max log w.server) (h : Heard C max log bytes w.server)
    (hstep : chatStep C toAcp w e = some w') (hfresh : Fresh w'.server) {j : Nat} (hj : j < max)
    (hused : 0 < timesUsed w'.server j) :
    bytes (w'.server.sessions j).sID ++ receivedBytes w (w'.server.sessions j).sID e =
      (w'.server.sessions j).received := by
  have hhandler {hd : Handler} {io : Nat → SendEnv} (hstart : startHandler toAcp w e = some hd)
      (hused : 0 < timesUsed (finishHandler C io hd).server j) :
      bytes ((finishHandler C io hd).server.sessions j).sID =
        ((finishHandler C io hd).server.sessions j).received := by
    obtain ⟨hserver, -, heffects, hjobs⟩ := startHandler_ok toAcp hok hstart
    obtain ⟨queue, hqueue⟩ := startHandler_server hstart
    have hcalm := handler_calm C toAcp j hstart io
    rw [finishHandler_sids hmax C io hserver heffects hjobs j, hcalm.stream.received, hqueue]
    exact h.current j hj (hcalm.used ▸ hused)
  have hcalls := (chatStep_logOk C toAcp hmax hok hstep hfresh).calls
  cases e with
  | update env io =>
      obtain ⟨hd, hstart, rfl⟩ := Option.map_eq_some_iff.mp hstep
      rw [receivedBytes_of_silent (by simp), List.append_nil]
      exact hhandler hstart hused
  | dbResult result userNo nickname io =>
      obtain ⟨hd, hstart, rfl⟩ := Option.map_eq_some_iff.mp hstep
      rw [receivedBytes_of_silent (by simp), List.append_nil]
      exact hhandler hstart hused
  | net e =>
      obtain ⟨-, sv, hnet, rfl⟩ := chatStep_net hstep
      have hsids := netStep_sids C hmax hok.server.slots hnet
      have hquiet := netStep_quiet C hnet
      cases e with
      | accept sock registered accepted =>
          obtain rfl := Option.some.inj hnet
          rw [receivedBytes_of_silent (by simp), List.append_nil]
          exact h.acceptOne hmax hok (hfresh.anti hcalls) hfresh hj hused
      | recvDone idx bs accepted =>
          obtain ⟨hidx, husedi, -, rfl⟩ := recvDone_enabled hok.server.slots hnet
          change bytes ((recvDone C w.server idx bs accepted).sessions j).sID ++ _ = _
          have htimes := uses_of_touches (recvDone_touches w.server idx C bs accepted) j
          have husedj : 0 < timesUsed w.server j := lt_of_lt_of_eq hused htimes
          rw [hsids (by simp) j, receivedBytes, h.current j hj husedj]
          rcases eq_or_ne j idx with rfl | hne
          · rw [if_pos rfl, recvDone_received]
          · rw [if_neg (hserved.sid_ne hmax (hfresh.anti hcalls) hidx hj husedi husedj hne.symm),
              List.append_nil, (recvDone_calm_of_ne C hne bs accepted).stream.received]
      | _ =>
          obtain ⟨-, hsame⟩ := hquiet (by simp) (by simp)
          rw [receivedBytes_of_silent (by simp), List.append_nil, hsids (by simp) j, (hsame j).2.1]
          exact h.current j hj ((hsame j).1 ▸ hused)

theorem receivedBytes_of_gone (hmax : max ≤ 65536) (hok : WorldOk w max lost)
    (hstep : chatStep C toAcp w e = some w') {sid : SessionID}
    (hgone : ∀ j, j < max → 0 < timesUsed w'.server j → (w'.server.sessions j).sID ≠ sid)
    {idx : Nat} {bs : List UInt8} {accepted : Bool}
    (he : e = .net (.recvDone idx bs accepted)) : (w.server.sessions idx).sID ≠ sid := by
  subst he
  obtain ⟨-, sv, hnet, rfl⟩ := chatStep_net hstep
  have hsid := netStep_sids C hmax hok.server.slots hnet (by simp) idx
  obtain ⟨hidx, husedi, -, rfl⟩ := recvDone_enabled hok.server.slots hnet
  have htimes := uses_of_touches (recvDone_touches w.server idx C bs accepted) idx
  rw [← hsid]
  exact hgone idx hidx (lt_of_lt_of_eq husedi htimes.symm)

theorem chatStep_heard (hmax : max ≤ 65536) (hok : WorldOk w max lost)
    (hserved : Served max log w.server) (h : Heard C max log bytes w.server)
    (hstep : chatStep C toAcp w e = some w') (hfresh : Fresh w'.server)
    (hstreams : ∀ j, j < max → StreamOk C (w'.server.sessions j)) :
    Heard C max (fun sid => log sid ++ handledRequests w sid e)
      (fun sid => bytes sid ++ receivedBytes w sid e) w'.server := by
  have hserved' := chatStep_served hmax C toAcp hok hserved hstep hfresh
  have hcurrent {j : Nat} (hj : j < max) (hused : 0 < timesUsed w'.server j) :=
    chatStep_current hmax hok hserved h hstep hfresh hj hused
  have hcalls := (chatStep_logOk C toAcp hmax hok hstep hfresh).calls
  refine ⟨fun j hj hused => hcurrent hj hused, ?_, ?_⟩
  · intro sid hunissued
    rw [h.unissued sid fun hissued => hunissued (Issued.mono hissued hcalls), List.nil_append]
    apply receivedBytes_of_silent
    intro idx bs accepted he hsame
    subst he
    obtain ⟨-, sv, hnet, -⟩ := chatStep_net hstep
    obtain ⟨-, -, hissued, -⟩ := recvDone_enabled hok.server.slots hnet
    exact hunissued (Issued.mono (hsame ▸ hissued) hcalls)
  · intro sid
    by_cases hgone : ∀ j, j < max → 0 < timesUsed w'.server j →
        (w'.server.sessions j).sID ≠ sid
    · have hnot : ∀ idx bs accepted, e = .net (.recvDone idx bs accepted) →
          (w.server.sessions idx).sID ≠ sid :=
        fun _ _ _ he => receivedBytes_of_gone hmax hok hstep hgone he
      rw [receivedBytes_of_silent hnot, List.append_nil, List.append_assoc,
        chatStep_requests hmax hok hstep hnot]
      exact h.parsed sid
    · push Not at hgone
      obtain ⟨j, hj, hused, rfl⟩ := hgone
      rw [hcurrent hj hused, ← (hstreams j hj).1]
      exact hserved'.exact j hj hused

theorem run_heard (hmax : max ≤ 65536) (hok : WorldOk w max lost)
    (hserved : Served max log w.server) (h : Heard C max log bytes w.server)
    (hstreams : ∀ j, j < max → StreamOk C (w.server.sessions j)) {events : List ChatEvent}
    (hrun : run (chatStep C toAcp) w events = some w') (hfresh : Fresh w'.server) :
    Heard C max (fun sid => log sid ++ handledLog C toAcp sid w events)
      (fun sid => bytes sid ++ receivedLog C toAcp sid w events) w'.server := by
  induction events generalizing w lost log bytes with
  | nil =>
      obtain rfl : w = w' := by simpa using hrun
      simp only [handledLog, receivedLog, List.append_nil]
      exact h
  | cons e events ih =>
      simp only [run] at hrun
      cases hstep : chatStep C toAcp w e with
      | none => simp [hstep] at hrun
      | some next =>
          simp only [hstep] at hrun
          have hnext := chatStep_worldOk C toAcp hmax hok hstep
          have hfresh' := hfresh.anti (run_logOk C toAcp hmax hnext hrun hfresh).calls
          have hserved' := chatStep_served hmax C toAcp hok hserved hstep hfresh'
          have hstreams' : ∀ j, j < max → StreamOk C (next.server.sessions j) := by
            intro j hj
            exact (hstreams j hj).step ((hok.server.slots.of_zero j).here hj).recvsOut_le
              (chatStep_streamStep C toAcp j hstep)
          have hheard := chatStep_heard hmax hok hserved h hstep hfresh' hstreams'
          simp only [handledLog, receivedLog, hstep, ← List.append_assoc]
          exact ih hnext hserved' hheard hstreams' hrun

theorem heard_of_run {maxSession : Nat} (hmax : maxSession ≤ 2 ^ 16) {events : List ChatEvent}
    (hrun : run (chatStep C toAcp) (World.start maxSession) events = some w)
    (hfresh : Fresh w.server) :
    Heard C maxSession (fun sid => handledLog C toAcp sid (World.start maxSession) events)
        (fun sid => receivedLog C toAcp sid (World.start maxSession) events) w.server ∧
      ∀ j, j < maxSession → StreamOk C (w.server.sessions j) := by
  have hempty : ∀ j, j < maxSession →
      StreamOk C ((World.start maxSession).server.sessions j) :=
    fun _ _ => streamOk_of_empty C rfl rfl rfl
  have hheard := run_heard hmax (start_worldOk maxSession) (start_served maxSession)
    (start_heard C maxSession) hempty hrun hfresh
  simp only [List.nil_append] at hheard
  exact ⟨hheard, (run_served hmax C toAcp (start_worldOk maxSession) (start_served maxSession)
    hempty hrun hfresh).2⟩

end Heard

/-- In every run in which no slot has used up its generations, the requests of any session,
whether it still has its slot or not, that the update thread has handled, followed by those
that still wait, are what the reference parser makes of the bytes received from it, each of
them once and in order; and of a session that has its slot these are the bytes received
there. -/
theorem handled_requests_eq_parse (C : Crypto) (toAcp : List UInt16 → List UInt8)
    {maxSession : Nat} (hmax : maxSession ≤ 2 ^ 16) {events : List ChatEvent} {w : World}
    (hrun : run (chatStep C toAcp) (World.start maxSession) events = some w)
    (hfresh : Fresh w.server) :
    (∀ sid, handledLog C toAcp sid (World.start maxSession) events ++ requests w.server sid =
      (parse (frameReader C) (receivedLog C toAcp sid (World.start maxSession) events)).1) ∧
    ∀ idx, idx < maxSession → 0 < timesUsed w.server idx →
      let s := w.server.sessions idx
      receivedLog C toAcp s.sID (World.start maxSession) events = s.received ∧
        handledLog C toAcp s.sID (World.start maxSession) events ++ requests w.server s.sID =
          (parse (frameReader C) s.received).1 := by
  obtain ⟨hheard, -⟩ := heard_of_run hmax hrun hfresh
  refine ⟨hheard.parsed, ?_⟩
  intro idx hidx hused s
  have hcurrent := hheard.current idx hidx hused
  refine ⟨hcurrent, ?_⟩
  rw [← hcurrent]
  exact hheard.parsed s.sID

/-- A client enters room 1 and writes there; the second request arrives with the first,
but for its last byte. -/
def twoRequests : List ChatEvent :=
  [.net (.accept 7 true true), .update zeroEnv fun _ => ⟨List.replicate 12 0, fun _ => true⟩,
    .net (.recvDone 0 ([4, 0] ++ List.replicate 28 0 ++ [2, 0, 1, 0] ++
      [6, 0] ++ List.replicate 28 0 ++ [4, 0, 2, 0, 104]) true),
    .update zeroEnv fun _ => ⟨List.replicate 12 0, fun _ => true⟩,
    .net (.recvDone 0 [105] true)]

/-- Then the client is gone, and the next one gets its slot. -/
def slotReused : List ChatEvent :=
  twoRequests ++ [.net (.sendDone 0 true), .net (.recvFailed 0), .net (.accept 8 true true)]

/-- The first request has been handled; the second one waits, although its session has no
slot any more. -/
theorem handled_requests_eq_parse_slotReused :
    ∃ w, run (chatStep Crypto.none fun _ => []) (World.start 1) slotReused = some w ∧
      (w.server.sessions 0).sID = sidOf 0 2 ∧
      handledLog Crypto.none (fun _ => []) (sidOf 0 1) (World.start 1) slotReused =
        [[2, 0, 1, 0]] ∧
      requests w.server (sidOf 0 1) = [[4, 0, 2, 0, 104, 105]] ∧
      (parse (frameReader Crypto.none)
        (receivedLog Crypto.none (fun _ => []) (sidOf 0 1) (World.start 1) slotReused)).1 =
          [[2, 0, 1, 0], [4, 0, 2, 0, 104, 105]] ∧
      (parse (frameReader Crypto.none) (w.server.sessions 0).received).1 = [] := by
  have hfacts : ((run (chatStep Crypto.none fun _ => []) (World.start 1) slotReused).map
      fun w => decide (w.server.calls.length < 2 ^ 31 ∧ 0 < timesUsed w.server 0 ∧
        (w.server.sessions 0).sID = sidOf 0 2 ∧
        (handledLog Crypto.none (fun _ => []) (sidOf 0 1) (World.start 1) slotReused =
            [[2, 0, 1, 0]] ∧ requests w.server (sidOf 0 1) = [[4, 0, 2, 0, 104, 105]]) ∧
        handledLog Crypto.none (fun _ => []) (sidOf 0 2) (World.start 1) slotReused ++
          requests w.server (sidOf 0 2) = [])) = some true := by
    decide +kernel
  obtain ⟨w, hrun, hw⟩ := Option.map_eq_some_iff.mp hfacts
  obtain ⟨hcalls, hused, hsid, ⟨hhandled, hwaiting⟩, hnone⟩ := of_decide_eq_true hw
  obtain ⟨hall, hcurrent⟩ := handled_requests_eq_parse Crypto.none (fun _ => []) (by decide) hrun
    fun idx => lt_of_le_of_lt (timesUsed_le w.server idx) hcalls
  have hgone := hall (sidOf 0 1)
  obtain ⟨-, hnew⟩ := hcurrent 0 (by decide) hused
  rw [hhandled, hwaiting] at hgone
  rw [hsid, hnone] at hnew
  exact ⟨w, hrun, hsid, hhandled, hwaiting, hgone.symm, hnew.symm⟩

end IocpChat.RequestDelivery
