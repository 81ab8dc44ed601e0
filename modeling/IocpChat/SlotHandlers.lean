import IocpChat.SlotAlone
import IocpChat.StreamReassembly

namespace IocpChat.SlotHandlers

open IocpChat.Protocol
open IocpChat.PacketBuffer
open IocpChat.LanServer
open IocpChat.ReceivePath
open IocpChat.SlotInvariant
open IocpChat.SlotSteps
open IocpChat.SlotLifecycle
open IocpChat.LabelledRun
open IocpChat.ThreadPool
open IocpChat.SlotInterleaving
open IocpChat.SlotAlone

variable {n : Nat}

section Receiving

theorem announced_deliver (sv : Server) (idx : Nat) (plain : List UInt8) (j : Nat) :
    announced (deliver sv idx plain) j = announced sv j := by
  have halloc := announced_alloc sv j
  simp only [deliver, announced_release]
  exact halloc

theorem announced_discardFrame (sv : Server) (j : Nat) :
    announced (discardFrame sv) j = announced sv j := by
  have halloc := announced_alloc sv j
  simp only [discardFrame, announced_release]
  exact halloc

theorem setRecvBuffer_receives (sv : Server) (idx : Nat) (rb : RingBuffer.CRingBuffer) :
    Receives idx sv (setRecvBuffer sv idx rb) := by
  refine ⟨⟨(sv.sessions idx).recvBuffer, (sv.sessions idx).received,
    (sv.sessions idx).delivered, ?_⟩, rfl, rfl⟩
  simp [setRecvBuffer, Server.setSession]

theorem deliver_receives (sv : Server) (idx : Nat) (plain : List UInt8) :
    Receives idx sv (deliver sv idx plain) := by
  refine ⟨⟨(sv.sessions idx).recvBuffer, (sv.sessions idx).received,
    (sv.sessions idx).delivered, ?_⟩, ?_, ?_⟩
  · simp [deliver, Server.onRecv, Server.setSession]
  · have halloc := congrArg SlotView.inPool (view_alloc sv idx)
    simp only [deliver, view_release]
    exact halloc
  · exact announced_deliver sv idx plain idx

theorem discardFrame_receives (sv : Server) (idx : Nat) : Receives idx sv (discardFrame sv) := by
  have hview := view_discardFrame sv idx
  have hsession : (discardFrame sv).sessions idx = sv.sessions idx :=
    congrArg SlotView.session hview
  exact ⟨⟨_, _, _, hsession.symm⟩, congrArg SlotView.inPool hview,
    announced_discardFrame sv idx⟩

theorem recvLoop_cases (C : Crypto) (idx : Nat) (sv : Server) :
    ((recvLoop C idx sv).2 = true ∧ Receives idx sv (recvLoop C idx sv).1) ∨
    ((recvLoop C idx sv).2 = false ∧
      ∃ sv₁, Receives idx sv sv₁ ∧ (recvLoop C idx sv).1 = sv₁.closeSession idx) := by
  induction sv using recvLoop.induct C idx with
  | case1 sv hwait =>
      rw [recvLoop, hwait]
      exact .inl ⟨rfl, .refl idx sv⟩
  | case2 sv hlong =>
      rw [recvLoop, hlong]
      exact .inr ⟨rfl, sv, .refl idx sv, rfl⟩
  | case3 sv hunder =>
      have hnext := StreamReassembly.nextFrame_eq C (sv.sessions idx).recvBuffer
      rw [hunder] at hnext
      split at hnext <;> simp at hnext
  | case4 sv rb hbad =>
      rw [recvLoop, hbad]
      exact .inr ⟨rfl, _, (setRecvBuffer_receives sv idx rb).trans
        (discardFrame_receives _ idx), rfl⟩
  | case5 sv rb plain hframe ih =>
      have hdeliver := (setRecvBuffer_receives sv idx rb).trans
        (deliver_receives _ idx plain)
      rw [recvLoop, hframe]
      rcases ih with ⟨hgo, hreceives⟩ | ⟨hgone, sv₁, hreceives, hclose⟩
      · exact .inl ⟨hgo, hdeliver.trans hreceives⟩
      · exact .inr ⟨hgone, sv₁, hdeliver.trans hreceives, hclose⟩

theorem onRecvComplete_cases (C : Crypto) (sv : Server) (idx bytes : Nat) (accepted : Bool) :
    ∃ sv₁, Receives idx sv sv₁ ∧
      (onRecvComplete C sv idx bytes accepted = sv₁.closeSession idx ∨
        onRecvComplete C sv idx bytes accepted = sv₁.postRecv idx accepted) := by
  have hset := setRecvBuffer_receives sv idx ((sv.sessions idx).recvBuffer.moveWritePos bytes)
  simp only [onRecvComplete, resumeRecv]
  rcases recvLoop_cases C idx (setRecvBuffer sv idx
    ((sv.sessions idx).recvBuffer.moveWritePos bytes)) with
    ⟨hgo, hreceives⟩ | ⟨hgone, sv₁, hreceives, hclose⟩
  · refine ⟨_, hset.trans hreceives, ?_⟩
    simp only [hgo, Bool.not_true, Bool.false_eq_true, if_false]
    split
    · exact .inl rfl
    · exact .inr rfl
  · refine ⟨sv₁, hset.trans hreceives, .inl ?_⟩
    simp only [hgone, Bool.not_false, if_true]
    exact hclose

end Receiving

/-- A call that begins on the slot and is made alone takes it to where the server
is in the end. -/
def Performs (idx : Nat) (t : Fin n) (sh : Shared n) (task : Task) (sv : Server) : Prop :=
  ∃ sh₁ is, begins idx sh task = some (sh₁, is) ∧ sh₁.lock = sh.lock ∧ Does idx t sh₁ is sv

section Calls

variable {idx : Nat} {t : Fin n} {sh : Shared n} {sv sv₁ : Server}

theorem Performs.run {task : Task} (h : Performs idx t sh task sv) :
    ∃ choices : List Bool, ∃ sh', run (slotStep idx) ⟨sh, fun _ => []⟩
        (.start t task :: choices.map (.run t)) = some ⟨sh', fun _ => []⟩ ∧
      Shows idx sh' sv ∧ sh'.lock = sh.lock := by
  obtain ⟨sh₁, is, hbegins, hlock, sh', halone, hshows, hlock'⟩ := h
  obtain ⟨choices, hchoices⟩ := halone.run fun _ => []
  refine ⟨choices, sh', ?_, hshows, hlock'.trans hlock⟩
  have hstart : slotStep idx ⟨sh, fun _ => []⟩ (.start t task) =
      some ⟨sh₁, Function.update (fun _ => []) t is⟩ := by
    simp [slotStep, ThreadPool.step, hbegins]
  rw [run_cons_of_step _ hstart, hchoices, Function.update_eq_self]

theorem failed_does (h : Shows idx sh sv) (hlock : sh.lock = none) :
    Does idx t sh.exchangeCloseFlag.1 (sh.exchangeCloseFlag.2 ++ [.decRef])
      ((sv.closeSession idx).ioRelease idx) := by
  have hclose : Does idx t sh ([.exchangeClose .other] ++ [.decRef])
      ((sv.closeSession idx).ioRelease idx) := by
    refine (exchangeClose_does h (.inl hlock) .other).seq ?_
    intro sh₁ hshows _
    exact decRef_does hshows
  exact hclose.of_exchange

theorem takeSend_shows (h : Shows idx sh sv) (failed : Nat) :
    Shows idx { sh with
      s := { sh.s with sendsOut := sh.s.sendsOut - 1 }
      failed := failed } (takeSend sv idx) :=
  h.update (f := fun s => { s with sendsOut := s.sendsOut - 1 }) (fun _ _ _ _ => rfl) rfl
    (Function.update_self _ _ _) rfl rfl rfl rfl

theorem takeRecv_shows (h : Shows idx sh sv) (bytes : List UInt8) :
    Shows idx { sh with s := { sh.s with recvsOut := sh.s.recvsOut - 1 } }
      (takeRecv sv idx bytes) := by
  have htaken : Shows idx { sh with s := { sh.s with recvsOut := sh.s.recvsOut - 1 } }
      (sv.setSession idx
        { sv.sessions idx with recvsOut := (sv.sessions idx).recvsOut - 1 }) :=
    h.update (f := fun s => { s with recvsOut := s.recvsOut - 1 }) (fun _ _ _ _ => rfl) rfl
      (Function.update_self _ _ _) rfl rfl rfl rfl
  refine htaken.receives ⟨⟨(sv.sessions idx).recvBuffer, (sv.sessions idx).received,
    (sv.sessions idx).delivered, ?_⟩, rfl, rfl⟩
  simp [takeRecv, Server.setSession]

theorem sendDone_performs (h : Shows idx sh sv) (hlock : sh.lock = none)
    (hout : 0 < (sv.sessions idx).sendsOut) {accepted : Bool}
    (haccepted : accepted = true → (sv.sessions idx).sock.isSome = true) :
    Performs idx t sh .sendDone (sendDone sv idx accepted) := by
  have hcount := h.session.reads Session.sendsOut fun _ _ _ _ => rfl
  change sh.s.sendsOut = (sv.sessions idx).sendsOut at hcount
  refine ⟨_, _, if_pos (by omega), rfl, ?_⟩
  change Does idx t _ ([.releaseBatch, .clearPending, .readCount] ++ [.decRef]) _
  have hopen : accepted = true → ((takeSend sv idx).sessions idx).sock.isSome = true := by
    simpa [takeSend, Server.setSession] using haccepted
  refine (readCount_does (takeSend_shows h sh.failed) (.inl hlock) hopen).seq ?_
  intro sh₁ hshows _
  exact decRef_does hshows

theorem sendFailed_performs (h : Shows idx sh sv) (hlock : sh.lock = none)
    (hout : 0 < (sv.sessions idx).sendsOut) :
    Performs idx t sh .sendFailed (sendFailed sv idx) := by
  have hcount := h.session.reads Session.sendsOut fun _ _ _ _ => rfl
  change sh.s.sendsOut = (sv.sessions idx).sendsOut at hcount
  refine ⟨_, _, if_pos (by omega), exchangeCloseFlag_lock _, ?_⟩
  exact failed_does (takeSend_shows h (sh.failed + 1)) hlock

theorem recvFailed_performs (h : Shows idx sh sv) (hlock : sh.lock = none)
    (hout : 0 < (sv.sessions idx).recvsOut) :
    Performs idx t sh .recvFailed (recvFailed sv idx) := by
  have hcount := h.session.reads Session.recvsOut fun _ _ _ _ => rfl
  change sh.s.recvsOut = (sv.sessions idx).recvsOut at hcount
  refine ⟨_, _, if_pos (by omega), exchangeCloseFlag_lock _, ?_⟩
  exact failed_does (takeRecv_shows h []) hlock

theorem recvDone_performs (C : Crypto) (h : Shows idx sh sv) (hlock : sh.lock = none)
    (hout : 0 < (sv.sessions idx).recvsOut) (bytes : List UInt8) {accepted : Bool}
    (haccepted : accepted = true → (sv.sessions idx).sock.isSome = true) :
    ∃ close, Performs idx t sh (.recvDone close) (recvDone C sv idx bytes accepted) := by
  have hcount := h.session.reads Session.recvsOut fun _ _ _ _ => rfl
  change sh.s.recvsOut = (sv.sessions idx).recvsOut at hcount
  have htaken := takeRecv_shows h bytes
  obtain ⟨sv₁, hreceives, hdone⟩ := onRecvComplete_cases C (takeRecv sv idx bytes) idx
    bytes.length accepted
  have hshows := htaken.receives hreceives
  have hsock : (sv₁.sessions idx).sock = (sv.sessions idx).sock := by
    have hkept := hreceives.session.reads Session.sock fun _ _ _ _ => rfl
    rw [← hkept]
    simp [takeRecv, Server.setSession]
  rw [recvDone]
  rcases hdone with hclose | hpost
  · refine ⟨true, _, _, if_pos (by omega), rfl, ?_⟩
    change Does idx t _ ([.exchangeClose .other] ++ [.decRef]) _
    rw [hclose]
    refine (exchangeClose_does hshows (.inl hlock) .other).seq ?_
    intro sh₁ hshows₁ _
    exact decRef_does hshows₁
  · refine ⟨false, _, _, if_pos (by omega), rfl, ?_⟩
    change Does idx t _ ([.addRefRecv false] ++ [.decRef]) _
    rw [hpost]
    have hopen : accepted = true → (sv₁.sessions idx).sock.isSome = true := by
      rwa [hsock]
    refine (addRefRecv_does hshows (.inl hlock) hopen false).seq ?_
    intro sh₁ hshows₁ _
    exact decRef_does hshows₁

theorem accept_performs (h : Shows idx sh sv) (hlock : sh.lock = none) {rest : List Nat}
    (hpool : sv.indexPool = idx :: rest) (sock : Nat) (registered accepted : Bool) :
    Performs idx t sh (.accept sock) (sv.acceptOne sock registered accepted) := by
  have hcount : sh.inPool = rest.count idx + 1 := by
    rw [h.pool]
    simp [view, hpool]
  refine ⟨_, _, if_pos (by omega), rfl, ?_⟩
  set taken : Shared n := { sh with
    inPool := sh.inPool - 1
    enqueued := []
    handed := []
    refused := false
    failed := 0
    pushes := 0 }
  set opened : Shared n :=
    { taken with s := sh.s.init idx sock, queuedFor := [], batchFor := [] }
  set sv₁ := { sv with indexPool := rest }.initSession idx sock with hsv₁
  have hopened : Shows idx opened sv₁ := by
    refine ⟨?_, ?_, ?_⟩
    · have hsession : (view sv₁ idx).session = (sv.sessions idx).init idx sock :=
        Function.update_self _ _ _
      rw [hsession]
      exact h.session.init idx sock
    · have hrest : (view sv₁ idx).inPool = rest.count idx := rfl
      rw [hrest]
      exact Nat.sub_eq_of_eq_add hcount
    · have hknown : announced sv₁ idx = announced sv idx := by
        simp [hsv₁, Server.initSession, announced, announcedFor, Server.setSession]
      rw [hknown]
      exact h.sids
  have haccept : sv.acceptOne sock registered accepted =
      if !registered then sv₁.closeSession idx
      else ({ sv₁ with totalAccept := sv₁.totalAccept + 1 }.onClientJoin idx
        (sv₁.sessions idx).sID).postRecv idx accepted := by
    simp only [Server.acceptOne, Server.allocSession, hpool, ← hsv₁]
  have hinit : Does idx t opened [.register] (sv.acceptOne sock registered accepted) := by
    rw [haccept]
    cases registered with
    | false => exact .step false rfl rfl (exchangeClose_does hopened (.inl hlock) .other)
    | true =>
        set joined := { sv₁ with totalAccept := sv₁.totalAccept + 1 }.onClientJoin idx
          (sv₁.sessions idx).sID
        have hjoined : Shows idx { opened with sids := opened.s.sID :: opened.sids } joined := by
          refine ⟨hopened.session, hopened.pool, ?_⟩
          have hsid : opened.s.sID = (sv₁.sessions idx).sID :=
            hopened.session.reads Session.sID fun _ _ _ _ => rfl
          have hknown : announced joined idx = (sv₁.sessions idx).sID :: announced sv₁ idx := by
            simp [joined, announced, Server.onClientJoin, announcedFor]
          rw [hknown, ← hsid, ← hopened.sids]
        have hsession : joined.sessions idx = (sv.sessions idx).init idx sock :=
          Function.update_self _ _ _
        refine .step true rfl rfl (addRefRecv_does hjoined (.inl hlock) ?_ true)
        intro _
        rw [hsession]
        rfl
  -- the fields are stored one after the other
  refine .step false rfl rfl (.step false rfl rfl (.step false rfl rfl (.step false rfl rfl ?_)))
  exact .step false rfl rfl (.step false rfl rfl (.step false rfl rfl hinit))

/-- The slot a handler works on. -/
def slotOf (sv : Server) : NetEvent → Option Nat
  | .accept _ _ _ => sv.indexPool.head?
  | .recvDone idx _ _ => some idx
  | .recvFailed idx => some idx
  | .sendDone idx _ => some idx
  | .sendFailed idx => some idx
  | .sendPacket sid _ _ => some (sidIndex sid)
  | .disconnect sid => some (sidIndex sid)

/-- Windows accepts nothing on a socket that is closed, and the content layer is
given the identifiers that were announced to it. -/
def Possible (sv : Server) : NetEvent → Prop
  | .recvDone idx _ accepted => accepted = true → (sv.sessions idx).sock.isSome = true
  | .sendDone idx accepted => accepted = true → (sv.sessions idx).sock.isSome = true
  | .sendPacket sid _ accepted => sid ∈ announced sv (sidIndex sid) ∧
      (accepted = true → (sv.sessions (sidIndex sid)).sock.isSome = true)
  | .disconnect sid => sid ∈ announced sv (sidIndex sid)
  | _ => True

/-- A handler of the network layer that runs to completion is a call on its slot
whose steps no other thread interrupts. -/
theorem netStep_performs {C : Crypto} {e : NetEvent} (h : Shows idx sh sv)
    (hlock : sh.lock = none) (hslot : slotOf sv e = some idx) (hidx : idx < sv.maxSession)
    (hpossible : Possible sv e) (hstep : netStep C sv e = some sv₁) :
    ∃ task, Performs idx t sh task sv₁ := by
  cases e with
  | accept sock registered accepted =>
      obtain ⟨rest, hpool⟩ := List.head?_eq_some_iff.mp hslot
      obtain rfl := Option.some.inj hstep
      exact ⟨_, accept_performs h hlock hpool sock registered accepted⟩
  | recvDone i bytes accepted =>
      obtain rfl := Option.some.inj hslot
      obtain ⟨⟨-, hout, -⟩, hsv⟩ := Option.ite_none_right_eq_some.mp hstep
      obtain rfl := Option.some.inj hsv
      obtain ⟨close, hperforms⟩ := recvDone_performs C h hlock hout bytes hpossible
      exact ⟨_, hperforms⟩
  | recvFailed i =>
      obtain rfl := Option.some.inj hslot
      obtain ⟨⟨-, hout⟩, hsv⟩ := Option.ite_none_right_eq_some.mp hstep
      obtain rfl := Option.some.inj hsv
      exact ⟨_, recvFailed_performs h hlock hout⟩
  | sendDone i accepted =>
      obtain rfl := Option.some.inj hslot
      obtain ⟨⟨-, hout⟩, hsv⟩ := Option.ite_none_right_eq_some.mp hstep
      obtain rfl := Option.some.inj hsv
      exact ⟨_, sendDone_performs h hlock hout hpossible⟩
  | sendFailed i =>
      obtain rfl := Option.some.inj hslot
      obtain ⟨⟨-, hout⟩, hsv⟩ := Option.ite_none_right_eq_some.mp hstep
      obtain rfl := Option.some.inj hsv
      exact ⟨_, sendFailed_performs h hlock hout⟩
  | sendPacket sid p accepted =>
      obtain rfl := Option.some.inj hslot
      obtain ⟨-, hsv⟩ := Option.ite_none_right_eq_some.mp hstep
      obtain rfl := Option.some.inj hsv
      have hsid : sid ∈ sh.sids := by
        rw [h.sids]
        exact hpossible.1
      refine ⟨.sendPacket sid p, sh, _, if_pos ⟨hsid, rfl⟩, rfl, ?_⟩
      exact readGeneration_does h hlock rfl hidx hpossible.2 p
  | disconnect sid =>
      obtain rfl := Option.some.inj hslot
      obtain ⟨-, hsv⟩ := Option.ite_none_right_eq_some.mp hstep
      obtain rfl := Option.some.inj hsv
      have hsid : sid ∈ sh.sids := by
        rw [h.sids]
        exact hpossible
      refine ⟨.disconnect sid, sh, _, if_pos ⟨hsid, rfl⟩, rfl, ?_⟩
      exact checkGeneration_does h (.inl hlock) rfl hidx

end Calls

/-- A slot that a handler of another slot leaves as it is. -/
structure Untouched (j : Nat) (sv sv' : Server) : Prop where
  slot : view sv' j = view sv j
  known : announced sv' j = announced sv j

section Frame

variable {idx j : Nat} {sv sv₁ sv₂ : Server}

theorem Untouched.refl (j : Nat) (sv : Server) : Untouched j sv sv := ⟨rfl, rfl⟩

theorem Untouched.trans (h : Untouched j sv sv₁) (k : Untouched j sv₁ sv₂) :
    Untouched j sv sv₂ :=
  ⟨k.slot.trans h.slot, k.known.trans h.known⟩

theorem setSession_untouched (hne : j ≠ idx) (sv : Server) (s : Session) :
    Untouched j sv (sv.setSession idx s) :=
  ⟨view_setSession_ne sv idx s hne, rfl⟩

theorem releaseAll_untouched (sv : Server) (ps : List PacketRef) (j : Nat) :
    Untouched j sv (sv.releaseAll ps) :=
  ⟨view_releaseAll sv ps j, announced_releaseAll sv ps j⟩

theorem ioRelease_untouched (hne : j ≠ idx) (sv : Server) :
    Untouched j sv (sv.ioRelease idx) := by
  simp only [Server.ioRelease]
  split
  · exact (setSession_untouched hne sv _).trans
      ⟨view_releaseSession_ne _ idx hne, announced_releaseSession _ idx j⟩
  · exact setSession_untouched hne sv _

theorem closeSession_untouched (hne : j ≠ idx) (sv : Server) :
    Untouched j sv (sv.closeSession idx) := by
  simp only [Server.closeSession]
  split
  · exact .refl j sv
  · refine Untouched.trans ?_ (ioRelease_untouched hne _)
    constructor
    · change view (((sv.setSession idx _).releaseAll _).onClientLeave idx _) j = _
      rw [view_onClientLeave_ne _ _ _ hne, view_releaseAll, view_setSession_ne _ _ _ hne]
    · change announced (((sv.setSession idx _).releaseAll _).onClientLeave idx _) j = _
      rw [announced_onClientLeave, announced_releaseAll]
      rfl

theorem postRecv_untouched (hne : j ≠ idx) (sv : Server) (accepted : Bool) :
    Untouched j sv (sv.postRecv idx accepted) := by
  have hadd : Untouched j sv (sv.ioAddRef idx) := setSession_untouched hne sv _
  simp only [Server.postRecv]
  split
  · exact hadd.trans (setSession_untouched hne _ _)
  · exact (hadd.trans (closeSession_untouched hne _)).trans (ioRelease_untouched hne _)

theorem releaseBatch_untouched (hne : j ≠ idx) (sv : Server) :
    Untouched j sv (sv.releaseBatch idx) :=
  (releaseAll_untouched sv _ j).trans (setSession_untouched hne _ _)

theorem flushSend_untouched (hne : j ≠ idx) (sv : Server) (accepted : Bool) :
    Untouched j sv (sv.flushSend idx accepted) := by
  have hposting (s : Session) : Untouched j sv ((sv.setSession idx s).ioAddRef idx) :=
    (setSession_untouched hne sv s).trans (setSession_untouched hne _ _)
  simp only [Server.flushSend]
  split
  · exact .refl j sv
  · split
    · exact (hposting _).trans (setSession_untouched hne _ _)
    · refine Untouched.trans ?_ (ioRelease_untouched hne _)
      refine Untouched.trans ?_ (closeSession_untouched hne _)
      exact (hposting _).trans (releaseBatch_untouched hne _)

theorem onSendComplete_untouched (hne : j ≠ idx) (sv : Server) (accepted : Bool) :
    Untouched j sv (sv.onSendComplete idx accepted) := by
  simp only [Server.onSendComplete]
  split
  · exact (releaseBatch_untouched hne sv).trans (flushSend_untouched hne _ accepted)
  · exact releaseBatch_untouched hne sv

theorem sendPacket_untouched {sid : SessionID} (hne : j ≠ sidIndex sid) (sv : Server)
    (p : PacketRef) (accepted : Bool) : Untouched j sv (sv.sendPacket sid p accepted).2 := by
  simp only [Server.sendPacket]
  split
  · exact .refl j sv
  · split
    · exact .refl j sv
    · split
      · exact .refl j sv
      · split
        · exact closeSession_untouched hne sv
        · have hadd : Untouched j sv (sv.addRef p) := ⟨rfl, rfl⟩
          exact (hadd.trans (setSession_untouched hne _ _)).trans
            (flushSend_untouched hne _ accepted)

theorem disconnect_untouched {sid : SessionID} (hne : j ≠ sidIndex sid) (sv : Server) :
    Untouched j sv (sv.disconnect sid).2 := by
  simp only [Server.disconnect]
  split
  · exact .refl j sv
  · split
    · exact .refl j sv
    · exact closeSession_untouched hne sv

theorem acceptOne_untouched (hne : sv.indexPool.head? ≠ some j) (sock : Nat)
    (registered accepted : Bool) :
    Untouched j sv (sv.acceptOne sock registered accepted) := by
  simp only [Server.acceptOne, Server.allocSession]
  cases hpool : sv.indexPool with
  | nil => exact .refl j sv
  | cons i rest =>
      have hji : j ≠ i := by
        rintro rfl
        simp [hpool] at hne
      have hinit : Untouched j sv ({ sv with indexPool := rest }.initSession i sock) := by
        constructor
        · simp [view, Server.initSession, Server.setSession, slotCall, hpool,
            Function.update_of_ne hji, hji.symm]
        · simp [announced, Server.initSession, Server.setSession, announcedFor]
      dsimp only
      split
      · exact hinit.trans (closeSession_untouched hji _)
      · refine (hinit.trans ?_).trans (postRecv_untouched hji _ accepted)
        constructor
        · rw [view_onClientJoin]
          rfl
        · simp [announced, Server.onClientJoin, announcedFor, hji.symm]

theorem deliver_untouched (hne : j ≠ idx) (sv : Server) (plain : List UInt8) :
    Untouched j sv (deliver sv idx plain) := by
  refine ⟨?_, announced_deliver sv idx plain j⟩
  have halloc := view_alloc sv j
  simp only [deliver, view_release]
  change view (Server.setSession _ idx _) j = _
  rw [view_setSession_ne _ _ _ hne]
  exact halloc

theorem discardFrame_untouched (sv : Server) (j : Nat) : Untouched j sv (discardFrame sv) :=
  ⟨view_discardFrame sv j, announced_discardFrame sv j⟩

theorem recvLoop_untouched (C : Crypto) (hne : j ≠ idx) (sv : Server) :
    Untouched j sv (recvLoop C idx sv).1 := by
  induction sv using recvLoop.induct C idx with
  | case1 sv hwait =>
      rw [recvLoop, hwait]
      exact .refl j sv
  | case2 sv hlong =>
      rw [recvLoop, hlong]
      exact closeSession_untouched hne sv
  | case3 sv hunder =>
      rw [recvLoop, hunder]
      exact .refl j sv
  | case4 sv rb hbad =>
      rw [recvLoop, hbad]
      exact ((setSession_untouched hne sv _).trans (discardFrame_untouched _ j)).trans
        (closeSession_untouched hne _)
  | case5 sv rb plain hframe ih =>
      rw [recvLoop, hframe]
      exact ((setSession_untouched hne sv _).trans (deliver_untouched hne _ plain)).trans ih

theorem onRecvComplete_untouched (C : Crypto) (hne : j ≠ idx) (sv : Server) (bytes : Nat)
    (accepted : Bool) : Untouched j sv (onRecvComplete C sv idx bytes accepted) := by
  have hloop := (setSession_untouched hne sv _).trans (recvLoop_untouched C hne
    (setRecvBuffer sv idx ((sv.sessions idx).recvBuffer.moveWritePos bytes)))
  simp only [onRecvComplete, resumeRecv]
  split
  · exact hloop
  · split
    · exact hloop.trans (closeSession_untouched hne _)
    · exact hloop.trans (postRecv_untouched hne _ accepted)

theorem netStep_untouched {C : Crypto} {e : NetEvent} (hslot : slotOf sv e ≠ some j)
    (hstep : netStep C sv e = some sv₁) : Untouched j sv sv₁ := by
  cases e with
  | accept sock registered accepted =>
      obtain rfl := Option.some.inj hstep
      exact acceptOne_untouched hslot sock registered accepted
  | recvDone i bytes accepted =>
      have hne : j ≠ i := fun h => hslot (congrArg some h.symm)
      obtain ⟨-, hsv⟩ := Option.ite_none_right_eq_some.mp hstep
      obtain rfl := Option.some.inj hsv
      exact ((setSession_untouched hne sv _).trans
        (onRecvComplete_untouched C hne _ bytes.length accepted)).trans
        (ioRelease_untouched hne _)
  | recvFailed i =>
      have hne : j ≠ i := fun h => hslot (congrArg some h.symm)
      obtain ⟨-, hsv⟩ := Option.ite_none_right_eq_some.mp hstep
      obtain rfl := Option.some.inj hsv
      exact ((setSession_untouched hne sv _).trans (closeSession_untouched hne _)).trans
        (ioRelease_untouched hne _)
  | sendDone i accepted =>
      have hne : j ≠ i := fun h => hslot (congrArg some h.symm)
      obtain ⟨-, hsv⟩ := Option.ite_none_right_eq_some.mp hstep
      obtain rfl := Option.some.inj hsv
      exact ((setSession_untouched hne sv _).trans
        (onSendComplete_untouched hne _ accepted)).trans (ioRelease_untouched hne _)
  | sendFailed i =>
      have hne : j ≠ i := fun h => hslot (congrArg some h.symm)
      obtain ⟨-, hsv⟩ := Option.ite_none_right_eq_some.mp hstep
      obtain rfl := Option.some.inj hsv
      exact ((setSession_untouched hne sv _).trans (closeSession_untouched hne _)).trans
        (ioRelease_untouched hne _)
  | sendPacket sid p accepted =>
      have hne : j ≠ sidIndex sid := fun h => hslot (congrArg some h.symm)
      obtain ⟨-, hsv⟩ := Option.ite_none_right_eq_some.mp hstep
      obtain rfl := Option.some.inj hsv
      exact sendPacket_untouched hne sv p accepted
  | disconnect sid =>
      have hne : j ≠ sidIndex sid := fun h => hslot (congrArg some h.symm)
      obtain ⟨-, hsv⟩ := Option.ite_none_right_eq_some.mp hstep
      obtain rfl := Option.some.inj hsv
      exact disconnect_untouched hne sv

end Frame

section Runs

variable {idx : Nat}

/-- The threads of a slot, all idle, have come to where the server is. -/
def Reached (n idx : Nat) (sv : Server) : Prop :=
  ∃ labels, ∃ sh : Shared n, run (slotStep idx) (pooled Session.new []) labels =
    some ⟨sh, fun _ => []⟩ ∧ Shows idx sh sv ∧ sh.lock = none

theorem start_reached {maxSession : Nat} (hidx : idx < maxSession) :
    Reached n idx (Server.start maxSession) := by
  refine ⟨[], _, rfl, ⟨⟨_, _, _, rfl⟩, ?_, rfl⟩, rfl⟩
  have hnodup : (List.range maxSession).reverse.Nodup := by simp [List.nodup_range]
  exact (List.count_eq_one_of_mem hnodup (by simpa using hidx)).symm

theorem Reached.step {C : Crypto} {sv sv₁ : Server} {e : NetEvent} (t : Fin n)
    (h : Reached n idx sv) (hidx : idx < sv.maxSession) (hpossible : Possible sv e)
    (hstep : netStep C sv e = some sv₁) : Reached n idx sv₁ := by
  obtain ⟨labels, sh, hrun, hshows, hlock⟩ := h
  rcases eq_or_ne (slotOf sv e) (some idx) with hslot | hslot
  · obtain ⟨task, hperforms⟩ := netStep_performs hshows hlock hslot hidx hpossible hstep
    obtain ⟨choices, sh', hcall, hshows', hsame⟩ := hperforms.run (t := t)
    refine ⟨labels ++ .start t task :: choices.map (.run t), sh', ?_, hshows',
      hsame.trans hlock⟩
    rw [run_append, hrun]
    exact hcall
  · have huntouched := netStep_untouched hslot hstep
    refine ⟨labels, sh, hrun, ⟨?_, ?_, ?_⟩, hlock⟩
    · rw [huntouched.slot]
      exact hshows.session
    · rw [huntouched.slot]
      exact hshows.pool
    · rw [huntouched.known]
      exact hshows.sids

/-- Every run of the network layer is, at each of its slots, a run of the threads
that work on the slot, in which they do not interrupt each other. -/
theorem run_reached (C : Crypto) {maxSession : Nat} (hmax : maxSession ≤ 65536)
    {events : List NetEvent} {sv : Server}
    (hpossible : Meets (netStep C) Possible (Server.start maxSession) events)
    (hrun : run (netStep C) (Server.start maxSession) events = some sv)
    (hidx : idx < maxSession) (t : Fin n) : Reached n idx sv := by
  refine (invariant_of_meets (netStep C)
    (J := fun s => SlotsOk s maxSession 0 0 ∧ Reached n idx s) ?_
    ⟨start_slotsOk maxSession, start_reached hidx⟩ hpossible hrun).2
  rintro s e s' ⟨hslots, hreached⟩ hguard hstep
  refine ⟨netStep_slotsOk C hslots (.inl hmax) hstep, hreached.step t ?_ hguard hstep⟩
  rw [hslots.size]
  exact hidx

end Runs

end IocpChat.SlotHandlers
