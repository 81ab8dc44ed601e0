import IocpChat.PacketLifetimes

/-!
What a handler of the network layer leaves behind: the identity of the sessions,
which of them are closed, the counters, the content queue and the history of
calls.  A handler works on one slot, and beyond the packets and the I/O of its
session it can do three things to the server, in any number and order: queue a
received packet, give the slot back to the pool, and close the session.
-/

namespace IocpChat.ServerOutline

open IocpChat.Protocol
open IocpChat.PacketBuffer
open IocpChat.RingBuffer
open IocpChat.LanServer
open IocpChat.SendQueue
open IocpChat.ReceivePath
open IocpChat.SlotInvariant
open IocpChat.SlotLifecycle
open IocpChat.MessageOrigin
open IocpChat.ContentHandlers
open IocpChat.ChatRuns
open IocpChat.PacketLifetimes

/-- The server without packets, buffers and I/O. -/
structure Outline where
  maxSession : Nat
  sid : Nat → SessionID
  generation : Nat → BitVec 32
  closed : Nat → Bool
  totalAccept : Int
  totalDisconn : Int
  joinCnt : Int
  leaveCnt : Int
  contentQ : List Message
  calls : List Call

/-- What the server shows of itself. -/
def outline (sv : Server) : Outline where
  maxSession := sv.maxSession
  sid := fun idx => (sv.sessions idx).sID
  generation := fun idx => (sv.sessions idx).generation
  closed := fun idx => (sv.sessions idx).closeFlag
  totalAccept := sv.totalAccept
  totalDisconn := sv.totalDisconn
  joinCnt := sv.joinCnt
  leaveCnt := sv.leaveCnt
  contentQ := sv.contentQ
  calls := sv.calls

namespace Outline

/-- A received packet is queued. -/
def receive (o : Outline) (idx : Nat) (p : PacketRef) : Outline :=
  { o with contentQ := o.contentQ ++ [.recv (o.sid idx) p] }

/-- A slot goes back to the pool. -/
def free (o : Outline) (idx : Nat) : Outline :=
  { o with calls := o.calls ++ [.releaseSession idx] }

/-- `InitSession` in the next free slot. -/
def init (o : Outline) (idx : Nat) : Outline :=
  let generation := o.generation idx + 1
  { o with
    sid := Function.update o.sid idx (sessionId idx generation)
    generation := Function.update o.generation idx generation
    closed := Function.update o.closed idx false
    calls := o.calls ++ [.initSession idx (sessionId idx generation)] }

/-- The new session is counted and announced. -/
def join (o : Outline) (idx : Nat) : Outline :=
  { o with
    totalAccept := o.totalAccept + 1
    joinCnt := o.joinCnt + 1
    contentQ := o.contentQ ++ [.join (o.sid idx)]
    calls := o.calls ++ [.onClientJoin idx (o.sid idx)] }

/-- A session is closed. -/
def close (o : Outline) (idx : Nat) : Outline :=
  { o with
    closed := Function.update o.closed idx true
    totalDisconn := o.totalDisconn + 1
    leaveCnt := o.leaveCnt + 1
    contentQ := o.contentQ ++ [.leave (o.sid idx)]
    calls := o.calls ++ [.onClientLeave idx (o.sid idx)] }

end Outline

/-- The work of a handler on the slot `idx`. -/
inductive Touches (idx : Nat) (o : Outline) : Outline → Prop
  | refl : Touches idx o o
  | receive {o' : Outline} (h : Touches idx o o') (p : PacketRef) :
      Touches idx o (o'.receive idx p)
  | free {o' : Outline} (h : Touches idx o o') : Touches idx o (o'.free idx)
  | close {o' : Outline} (h : Touches idx o o') (hopen : o'.closed idx = false) :
      Touches idx o (o'.close idx)

namespace Touches

variable {idx : Nat} {o o' o'' : Outline}

theorem trans (h : Touches idx o o') (k : Touches idx o' o'') : Touches idx o o'' := by
  induction k with
  | refl => exact h
  | receive _ p ih => exact ih.receive p
  | free _ ih => exact ih.free
  | close _ hopen ih => exact ih.close hopen

theorem keeps {P : Outline → Prop} (h : Touches idx o o') (ho : P o)
    (hreceive : ∀ t p, P t → P (t.receive idx p)) (hfree : ∀ t, P t → P (t.free idx))
    (hclose : ∀ t, P t → t.closed idx = false → P (t.close idx)) : P o' := by
  induction h with
  | refl => exact ho
  | receive _ p ih => exact hreceive _ p ih
  | free _ ih => exact hfree _ ih
  | close _ hopen ih => exact hclose _ ih hopen

theorem maxSession_eq (h : Touches idx o o') : o'.maxSession = o.maxSession :=
  h.keeps (P := fun t => t.maxSession = o.maxSession) rfl (fun _ _ ht => ht) (fun _ ht => ht)
    (fun _ ht _ => ht)

theorem closed_of_closed (h : Touches idx o o') {i : Nat} (hclosed : o.closed i = true) :
    o'.closed i = true := by
  refine h.keeps (P := fun t => t.closed i = true) hclosed (fun _ _ ht => ht)
    (fun _ ht => ht) ?_
  intro t ht _
  rcases eq_or_ne i idx with rfl | hne
  · simp [Outline.close]
  · simpa [Outline.close, hne] using ht

end Touches

section Steps

variable (sv : Server) (idx : Nat)

theorem outline_setSession_eq (s : Session) :
    outline (sv.setSession idx s) = { outline sv with
      sid := Function.update (outline sv).sid idx s.sID
      generation := Function.update (outline sv).generation idx s.generation
      closed := Function.update (outline sv).closed idx s.closeFlag } := by
  have hrow {β : Type} (f : Session → β) :
      (fun i => f (Function.update sv.sessions idx s i)) =
        Function.update (fun i => f (sv.sessions i)) idx (f s) := by
    funext i
    exact Function.apply_update (fun _ => f) sv.sessions idx s i
  simp only [outline, Server.setSession, hrow]

theorem outline_setSession {s : Session} (hsid : s.sID = (sv.sessions idx).sID)
    (hgen : s.generation = (sv.sessions idx).generation)
    (hclose : s.closeFlag = (sv.sessions idx).closeFlag) :
    outline (sv.setSession idx s) = outline sv := by
  rw [outline_setSession_eq, hsid, hgen, hclose]
  simp [outline]

@[simp] theorem outline_setPacket (p : PacketRef) (pkt : CPacket) :
    outline (sv.setPacket p pkt) = outline sv := rfl

@[simp] theorem outline_addRef (p : PacketRef) : outline (sv.addRef p) = outline sv := rfl

@[simp] theorem outline_alloc : outline sv.alloc.2 = outline sv := by
  simp only [Server.alloc]
  split <;> rfl

@[simp] theorem outline_release (p : PacketRef) : outline (sv.release p) = outline sv := by
  simp only [Server.release]
  split <;> rfl

@[simp] theorem outline_releaseAll (ps : List PacketRef) :
    outline (sv.releaseAll ps) = outline sv := by
  induction ps generalizing sv with
  | nil => rfl
  | cons p ps ih => exact (ih (sv.release p)).trans (outline_release sv p)

@[simp] theorem outline_ioAddRef : outline (sv.ioAddRef idx) = outline sv :=
  outline_setSession sv idx rfl rfl rfl

@[simp] theorem outline_discardFrame : outline (discardFrame sv) = outline sv := by
  have halloc := outline_alloc sv
  simp only [discardFrame, outline_release]
  exact halloc

@[simp] theorem outline_setRecvBuffer (rb : CRingBuffer) :
    outline (setRecvBuffer sv idx rb) = outline sv :=
  outline_setSession sv idx rfl rfl rfl

@[simp] theorem outline_takeRecv (bytes : List UInt8) :
    outline (takeRecv sv idx bytes) = outline sv :=
  outline_setSession sv idx rfl rfl rfl

@[simp] theorem outline_takeSend : outline (takeSend sv idx) = outline sv :=
  outline_setSession sv idx rfl rfl rfl

@[simp] theorem outline_releaseBatch : outline (sv.releaseBatch idx) = outline sv := by
  refine Eq.trans ?_ (outline_releaseAll sv (sv.sessions idx).sendPkts)
  apply outline_setSession <;> rfl

theorem Touches.session {sv : Server} {idx : Nat} {o : Outline} (h : Touches idx o (outline sv))
    {s : Session} (hsid : s.sID = (sv.sessions idx).sID)
    (hgen : s.generation = (sv.sessions idx).generation)
    (hclose : s.closeFlag = (sv.sessions idx).closeFlag) :
    Touches idx o (outline (sv.setSession idx s)) :=
  outline_setSession sv idx hsid hgen hclose ▸ h

theorem ioRelease_touches : Touches idx (outline sv) (outline (sv.ioRelease idx)) := by
  have hset : outline (sv.setSession idx
      { sv.sessions idx with ioRefCount := (sv.sessions idx).ioRefCount - 1 }) = outline sv :=
    outline_setSession sv idx rfl rfl rfl
  simp only [Server.ioRelease]
  split
  · have hfree : Touches idx (outline sv) ((outline sv).free idx) := .free .refl
    rw [← hset] at hfree ⊢
    exact hfree
  · rw [hset]
    exact .refl

theorem outline_closed (head count : Nat) (pkts : List PacketRef) :
    outline { ((sv.setSession idx { sv.sessions idx with
      closeFlag := true, sock := none, sqHead := head, sqCount := count }).releaseAll
        pkts).onClientLeave idx (sv.sessions idx).sID with
      totalDisconn := ((sv.setSession idx { sv.sessions idx with
        closeFlag := true, sock := none, sqHead := head, sqCount := count }).releaseAll
          pkts).totalDisconn + 1 } = (outline sv).close idx := by
  generalize hset : sv.setSession idx { sv.sessions idx with
    closeFlag := true, sock := none, sqHead := head, sqCount := count } = sv₁
  have hclosed : outline (sv₁.releaseAll pkts) = { outline sv with
      closed := Function.update (outline sv).closed idx true } := by
    rw [outline_releaseAll, ← hset, outline_setSession_eq]
    simp [outline]
  simp only [outline, Outline.mk.injEq] at hclosed
  obtain ⟨hmax, hsid, hgen, hflag, haccept, hdisconn, hjoin, hleave, hcontent, hcalls⟩ := hclosed
  simp only [outline, Outline.close, Server.onClientLeave, hmax, hsid, hgen, hflag, haccept,
    hdisconn, hjoin, hleave, hcontent, hcalls]

theorem closeSession_touches : Touches idx (outline sv) (outline (sv.closeSession idx)) := by
  simp only [Server.closeSession]
  split
  · exact .refl
  · rename_i hopen
    obtain ⟨head, count, hs⟩ := takeQueue_snd (sv.sessions idx).sqCount
      { sv.sessions idx with closeFlag := true, sock := none }
    rw [hs]
    refine Touches.trans ?_ (ioRelease_touches _ idx)
    have hclose : Touches idx (outline sv) ((outline sv).close idx) :=
      .close .refl (by simpa [outline] using hopen)
    rw [← outline_closed sv idx head count] at hclose
    exact hclose

theorem postRecv_touches (accepted : Bool) :
    Touches idx (outline sv) (outline (sv.postRecv idx accepted)) := by
  simp only [Server.postRecv]
  split
  · refine Touches.session ?_ rfl rfl rfl
    rw [outline_ioAddRef]
    exact .refl
  · have hclose := closeSession_touches (sv.ioAddRef idx) idx
    rw [outline_ioAddRef] at hclose
    exact hclose.trans (ioRelease_touches _ idx)

theorem flushSend_touches (accepted : Bool) :
    Touches idx (outline sv) (outline (sv.flushSend idx accepted)) := by
  simp only [Server.flushSend]
  split
  · exact .refl
  · obtain ⟨head, count, hs⟩ := takeQueue_snd qsize
      { sv.sessions idx with sendPending := true }
    rw [hs]
    generalize ({ sv.sessions idx with sendPending := true }.takeQueue qsize).1 = pkts
    have hset := outline_setSession sv idx (s := { sv.sessions idx with
      sendPending := true, sqHead := head, sqCount := count, sendPkts := pkts }) rfl rfl rfl
    have hadd := (outline_ioAddRef _ idx).trans hset
    split
    · refine Touches.session ?_ rfl rfl rfl
      rw [hadd]
      exact .refl
    · refine Touches.trans (Touches.trans ?_ (closeSession_touches _ idx))
        (ioRelease_touches _ idx)
      rw [outline_releaseBatch, hadd]
      exact .refl

theorem onSendComplete_touches (accepted : Bool) :
    Touches idx (outline sv) (outline (sv.onSendComplete idx accepted)) := by
  have hflush := flushSend_touches (sv.releaseBatch idx) idx accepted
  rw [outline_releaseBatch] at hflush
  simp only [Server.onSendComplete]
  split
  · exact hflush
  · rw [outline_releaseBatch]
    exact .refl

theorem sendPacket_touches (sid : SessionID) (p : PacketRef) (accepted : Bool) :
    Touches (sidIndex sid) (outline sv) (outline (sv.sendPacket sid p accepted).2) := by
  simp only [Server.sendPacket]
  split
  · exact .refl
  · split
    · exact .refl
    · split
      · exact .refl
      · split
        · exact closeSession_touches sv _
        · have hset := outline_setSession (sv.addRef p) (sidIndex sid)
            (s := ((sv.addRef p).sessions (sidIndex sid)).enqueue p) rfl rfl rfl
          have hflush := flushSend_touches ((sv.addRef p).setSession (sidIndex sid)
            (((sv.addRef p).sessions (sidIndex sid)).enqueue p)) (sidIndex sid) accepted
          rwa [hset] at hflush

theorem disconnect_touches (sid : SessionID) :
    Touches (sidIndex sid) (outline sv) (outline (sv.disconnect sid).2) := by
  simp only [Server.disconnect]
  split
  · exact .refl
  · split
    · exact .refl
    · exact closeSession_touches sv _

theorem deliver_touches (plain : List UInt8) :
    Touches idx (outline sv) (outline (deliver sv idx plain)) := by
  have hreceive : Touches idx (outline sv) ((outline sv).receive idx sv.alloc.1) :=
    .receive .refl sv.alloc.1
  simp only [deliver, outline_release]
  simp only [Server.onRecv]
  refine Touches.session ?_ rfl rfl rfl
  rw [← outline_alloc sv] at hreceive ⊢
  exact hreceive

theorem recvLoop_touches (C : Crypto) :
    Touches idx (outline sv) (outline (recvLoop C idx sv).1) := by
  induction sv using recvLoop.induct C idx with
  | case1 sv hwait =>
      rw [recvLoop, hwait]
      exact .refl
  | case2 sv hlong =>
      rw [recvLoop, hlong]
      exact closeSession_touches sv idx
  | case3 sv hunder =>
      rw [recvLoop, hunder]
      exact .refl
  | case4 sv rb hbad =>
      have hclose := closeSession_touches (discardFrame (setRecvBuffer sv idx rb)) idx
      rw [outline_discardFrame, outline_setRecvBuffer] at hclose
      rw [recvLoop, hbad]
      exact hclose
  | case5 sv rb plain hframe ih =>
      have hdeliver := deliver_touches (setRecvBuffer sv idx rb) idx plain
      rw [outline_setRecvBuffer] at hdeliver
      rw [recvLoop, hframe]
      exact hdeliver.trans ih

theorem recvDone_touches (C : Crypto) (bytes : List UInt8) (accepted : Bool) :
    Touches idx (outline sv) (outline (recvDone C sv idx bytes accepted)) := by
  refine Touches.trans ?_ (ioRelease_touches _ idx)
  have hloop := recvLoop_touches (setRecvBuffer (takeRecv sv idx bytes) idx
    (((takeRecv sv idx bytes).sessions idx).recvBuffer.moveWritePos bytes.length)) idx C
  rw [outline_setRecvBuffer, outline_takeRecv] at hloop
  simp only [onRecvComplete, resumeRecv]
  split
  · exact hloop
  · split
    · exact hloop.trans (closeSession_touches _ idx)
    · exact hloop.trans (postRecv_touches _ idx accepted)

theorem recvFailed_touches : Touches idx (outline sv) (outline (recvFailed sv idx)) := by
  have hclose := closeSession_touches (takeRecv sv idx []) idx
  rw [outline_takeRecv] at hclose
  exact hclose.trans (ioRelease_touches _ idx)

theorem sendDone_touches (accepted : Bool) :
    Touches idx (outline sv) (outline (sendDone sv idx accepted)) := by
  have hsent := onSendComplete_touches (takeSend sv idx) idx accepted
  rw [outline_takeSend] at hsent
  exact hsent.trans (ioRelease_touches _ idx)

theorem sendFailed_touches : Touches idx (outline sv) (outline (sendFailed sv idx)) := by
  have hclose := closeSession_touches (takeSend sv idx) idx
  rw [outline_takeSend] at hclose
  exact hclose.trans (ioRelease_touches _ idx)

theorem outline_initSession (sock : Nat) :
    outline (sv.initSession idx sock) = (outline sv).init idx := by
  have hset := outline_setSession_eq sv idx ((sv.sessions idx).init idx sock)
  simp only [outline, Outline.mk.injEq] at hset
  obtain ⟨hmax, hsid, hgen, hflag, haccept, hdisconn, hjoin, hleave, hcontent, -⟩ := hset
  simp only [outline, Outline.init, Server.initSession, hmax, hsid, hgen, hflag, haccept, hdisconn,
    hjoin, hleave, hcontent]
  rfl

end Steps

section NetSteps

variable {sv sv' : Server} {max : Nat}

theorem acceptOne_cases (sv : Server) (sock : Nat) (registered accepted : Bool) :
    (sv.indexPool = [] ∧ sv.acceptOne sock registered accepted = sv) ∨
      ∃ idx rest, sv.indexPool = idx :: rest ∧
        Touches idx
          (if registered then ((outline sv).init idx).join idx else (outline sv).init idx)
          (outline (sv.acceptOne sock registered accepted)) := by
  simp only [Server.acceptOne, Server.allocSession]
  cases hpool : sv.indexPool with
  | nil => exact Or.inl ⟨rfl, rfl⟩
  | cons idx rest =>
      refine Or.inr ⟨idx, rest, rfl, ?_⟩
      have hinit := outline_initSession { sv with indexPool := rest } idx sock
      change outline _ = (outline sv).init idx at hinit
      rw [← hinit]
      dsimp only
      generalize Server.initSession _ idx sock = sv₁
      cases registered with
      | false =>
          simp only [Bool.not_false, if_true, Bool.false_eq_true, if_false]
          exact closeSession_touches sv₁ idx
      | true =>
          simp only [Bool.not_true, Bool.false_eq_true, if_false, if_true]
          exact postRecv_touches ({ sv₁ with totalAccept := sv₁.totalAccept + 1 }.onClientJoin
            idx (sv₁.sessions idx).sID) idx accepted

theorem netStep_touches (C : Crypto) (h : SlotsOk sv max 0 0)
    (hwrap : max ≤ 65536 ∨ ∀ i, timesUsed sv i < 2 ^ 31) {e : NetEvent}
    (hstep : netStep C sv e = some sv') (haccept : ∀ sock r a, e ≠ .accept sock r a) :
    sv' = sv ∨ ∃ idx, idx < max ∧ 0 < (sv.sessions idx).ioRefCount ∧
      Touches idx (outline sv) (outline sv') := by
  have hsize := h.size
  cases e with
  | accept sock registered accepted => exact absurd rfl (haccept sock registered accepted)
  | recvDone idx bytes accepted =>
      simp only [netStep, Option.ite_none_right_eq_some] at hstep
      obtain ⟨⟨hidx, hout, -⟩, hsv⟩ := hstep
      rw [hsize] at hidx
      exact Or.inr ⟨idx, hidx, live_of_recvsOut (h.of_zero idx) hidx hout,
        Option.some.inj hsv ▸ recvDone_touches sv idx C bytes accepted⟩
  | recvFailed idx =>
      simp only [netStep, Option.ite_none_right_eq_some] at hstep
      obtain ⟨⟨hidx, hout⟩, hsv⟩ := hstep
      rw [hsize] at hidx
      exact Or.inr ⟨idx, hidx, live_of_recvsOut (h.of_zero idx) hidx hout,
        Option.some.inj hsv ▸ recvFailed_touches sv idx⟩
  | sendDone idx accepted =>
      simp only [netStep, Option.ite_none_right_eq_some] at hstep
      obtain ⟨⟨hidx, hout⟩, hsv⟩ := hstep
      rw [hsize] at hidx
      exact Or.inr ⟨idx, hidx, live_of_sendsOut (h.of_zero idx) hidx hout,
        Option.some.inj hsv ▸ sendDone_touches sv idx accepted⟩
  | sendFailed idx =>
      simp only [netStep, Option.ite_none_right_eq_some] at hstep
      obtain ⟨⟨hidx, hout⟩, hsv⟩ := hstep
      rw [hsize] at hidx
      exact Or.inr ⟨idx, hidx, live_of_sendsOut (h.of_zero idx) hidx hout,
        Option.some.inj hsv ▸ sendFailed_touches sv idx⟩
  | sendPacket sid p accepted =>
      simp only [netStep, Option.ite_none_right_eq_some] at hstep
      obtain ⟨hissued, hsv⟩ := hstep
      have hsv := Option.some.inj hsv
      subst hsv
      rcases sendPacket_eq_or sv sid p accepted with heq | ⟨hidx, hgen, hopen⟩
      · exact Or.inl heq
      · rw [hsize] at hidx
        exact Or.inr ⟨_, hidx, live_of_issued h hwrap hissued hidx hgen hopen,
          sendPacket_touches sv sid p accepted⟩
  | disconnect sid =>
      simp only [netStep, Option.ite_none_right_eq_some] at hstep
      obtain ⟨hissued, hsv⟩ := hstep
      have hsv := Option.some.inj hsv
      subst hsv
      have htouches := disconnect_touches sv sid
      simp only [Server.disconnect] at htouches ⊢
      split
      · exact Or.inl rfl
      · split
        · exact Or.inl rfl
        · rename_i hmax hgen
          rcases Bool.eq_false_or_eq_true (sv.sessions (sidIndex sid)).closeFlag with
            hclosed | hopen
          · exact Or.inl (by simp [Server.closeSession, hclosed])
          · have hidx : sidIndex sid < max := by omega
            exact Or.inr ⟨_, hidx, live_of_issued h hwrap hissued hidx (not_not.mp hgen) hopen,
              closeSession_touches sv _⟩

end NetSteps

section Handlers

variable {sv : Server} {max : Nat} {held : Multiset PacketRef} {jobs : List DBJob}
  {P : Outline → Prop}

/-- `P` survives the work of any handler on a slot in use. -/
def Survives (max : Nat) (P : Outline → Prop) : Prop :=
  ∀ (sv : Server) (held : Multiset PacketRef) (idx : Nat) (o : Outline),
    ServerOk sv max held → idx < max → 0 < (sv.sessions idx).ioRefCount →
    Touches idx (outline sv) o → P (outline sv) → P o

theorem sendPacket_survives (hP : Survives max P) (hmax : max ≤ 65536)
    (h : ServerOk sv max held) {sid : SessionID} (hsid : Issued sv sid) (p : PacketRef)
    (accepted : Bool) (hsv : P (outline sv)) :
    P (outline (sv.sendPacket sid p accepted).2) := by
  rcases sendPacket_eq_or sv sid p accepted with heq | ⟨hidx, hgen, hopen⟩
  · rwa [heq]
  · rw [h.slots.size] at hidx
    exact hP sv held _ _ h hidx (live_of_issued h.slots (Or.inl hmax) hsid hidx hgen hopen)
      (sendPacket_touches sv sid p accepted) hsv

theorem sendAll_survives (hP : Survives max P) (hmax : max ≤ 65536) {p : PacketRef}
    (hp : p ∈ held) (accepted : SessionID → Bool) (h : ServerOk sv max held)
    {targets : List SessionID} (htargets : ∀ sid, sid ∈ targets → Issued sv sid)
    (hsv : P (outline sv)) : P (outline (sendAll p accepted targets sv)) := by
  induction targets generalizing sv with
  | nil => exact hsv
  | cons sid targets ih =>
      have hsid := htargets sid (by simp)
      obtain ⟨hsent, hcalls⟩ := sendPacket_serverOk hmax h hsid hp (accepted sid)
      refine ih hsent ?_ (sendPacket_survives hP hmax h hsid p (accepted sid) hsv)
      intro other hother
      exact Issued.mono (htargets other (by simp [hother])) hcalls

theorem outline_buildPacket (C : Crypto) (nonce : List UInt8) (fields : List (List UInt8))
    (sv : Server) : outline (buildPacket C nonce fields sv).2 = outline sv :=
  outline_alloc sv

theorem perform_survives (hP : Survives max P) (hmax : max ≤ 65536) (C : Crypto)
    (io : SendEnv) (h : ServerOk sv max held) {e : Effect}
    (he : EffectWithin (Issued sv) e) (hsv : P (outline sv)) :
    P (outline (perform C io sv jobs e).1) := by
  cases e with
  | pushJob job => exact hsv
  | send fields targets =>
      have hbuilt := buildPacket_calls C io.nonce fields sv
      simp only [perform, outline_release]
      refine sendAll_survives hP hmax (Multiset.mem_cons_self _ _) io.accepted
        (buildPacket_serverOk h C io.nonce fields) ?_ ?_
      · intro sid hsid
        exact Issued.mono (he sid hsid) (hbuilt ▸ List.prefix_refl _)
      · rwa [outline_buildPacket]

/-- What survives the handlers of the network layer survives whatever a handler
of the update thread sends. -/
theorem performAll_survives (hP : Survives max P) (hmax : max ≤ 65536) (C : Crypto)
    (io : Nat → SendEnv) {es : List Effect} (h : ServerOk sv max held)
    (hes : ∀ e, e ∈ es → EffectWithin (Issued sv) e) (hjobs : JobsIssued sv jobs)
    (hsv : P (outline sv)) : P (outline (performAll C io es sv jobs).1) := by
  induction es generalizing sv jobs io with
  | nil => exact hsv
  | cons e es ih =>
      have he := hes e (by simp)
      obtain ⟨hone, hcalls, hjobs'⟩ := perform_serverOk hmax h C (io 0) he hjobs
      refine ih (fun k => io (k + 1)) hone ?_ hjobs' (perform_survives hP hmax C (io 0) h he hsv)
      intro other hother
      exact EffectWithin.mono (hes other (by simp [hother])) hcalls

theorem finishHandler_survives (hP : Survives max P) (hmax : max ≤ 65536) (C : Crypto)
    (io : Nat → SendEnv) {hd : Handler} (h : ServerOk hd.server max held)
    (hes : ∀ e, e ∈ hd.effects → EffectWithin (Issued hd.server) e)
    (hjobs : JobsIssued hd.server hd.jobs) (hsv : P (outline hd.server)) :
    P (outline (finishHandler C io hd).server) := by
  have hdone := performAll_survives hP hmax C io h hes hjobs hsv
  obtain ⟨sv, content, jobs, effects, msg⟩ := hd
  cases msg with
  | none => exact hdone
  | some pkt =>
      simp only [finishHandler, outline_release]
      exact hdone

end Handlers

end IocpChat.ServerOutline
