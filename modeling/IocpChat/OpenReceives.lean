import IocpChat.PacketLifetimes
import IocpChat.StreamReassembly

namespace IocpChat.OpenReceives

open IocpChat.Protocol
open IocpChat.PacketBuffer
open IocpChat.RingBuffer
open IocpChat.LanServer
open IocpChat.ReceivePath
open IocpChat.SlotInvariant
open IocpChat.SlotSteps
open IocpChat.SlotLifecycle
open IocpChat.ContentHandlers
open IocpChat.ChatRuns
open IocpChat.PacketLifetimes
open IocpChat.LabelledRun
open IocpChat.StreamReassembly

section Worlds

variable (C : Crypto) (toAcp : List UInt16 → List UInt8) (j : Nat)

theorem sendAll_calm (p : PacketRef) (accepted : SessionID → Bool) (targets : List SessionID)
    (sv : Server) : Calm sv (sendAll p accepted targets sv) j := by
  induction targets generalizing sv with
  | nil => exact ⟨.refl _, rfl⟩
  | cons sid targets ih => exact (sendPacket_calm sv j sid p (accepted sid)).trans (ih _)

theorem release_calm (sv : Server) (p : PacketRef) : Calm sv (sv.release p) j :=
  calm_of_eq (Server.release_sessions sv p) (timesUsed_congr (view_release sv p j))

theorem buildPacket_calm (nonce : List UInt8) (fields : List (List UInt8)) (sv : Server) :
    Calm sv (buildPacket C nonce fields sv).2 j :=
  calm_of_eq (Server.alloc_sessions sv) (timesUsed_congr (view_alloc sv j))

theorem perform_calm (io : SendEnv) (sv : Server) (jobs : List DBJob) (e : Effect) :
    Calm sv (perform C io sv jobs e).1 j := by
  cases e with
  | pushJob job => exact ⟨.refl _, rfl⟩
  | send fields targets =>
      exact (buildPacket_calm C j io.nonce fields sv).trans
        ((sendAll_calm j _ io.accepted targets _).trans (release_calm j _ _))

theorem performAll_calm (io : Nat → SendEnv) (es : List Effect) (sv : Server)
    (jobs : List DBJob) : Calm sv (performAll C io es sv jobs).1 j := by
  induction es generalizing sv jobs io with
  | nil => exact ⟨.refl _, rfl⟩
  | cons e es ih => exact (perform_calm C j (io 0) sv jobs e).trans (ih _ _ _)

theorem finishHandler_calm (io : Nat → SendEnv) (hd : Handler) :
    Calm hd.server (finishHandler C io hd).server j := by
  obtain ⟨sv, content, jobs, effects, msg⟩ := hd
  have hdone := performAll_calm C j io effects sv jobs
  cases msg with
  | none => exact hdone
  | some pkt => exact hdone.trans (release_calm j _ pkt)

theorem handler_calm {w : World} {e : ChatEvent} {hd : Handler}
    (hstart : startHandler toAcp w e = some hd) (io : Nat → SendEnv) :
    Calm w.server (finishHandler C io hd).server j := by
  obtain ⟨queue, hqueue⟩ := startHandler_server hstart
  have hpop : Calm w.server hd.server j := by
    rw [hqueue]
    exact ⟨.refl _, rfl⟩
  exact hpop.trans (finishHandler_calm C j io hd)

theorem chatStep_streamStep {w w' : World} {e : ChatEvent}
    (hstep : chatStep C toAcp w e = some w') : StreamStep C w.server w'.server j := by
  cases e with
  | net e =>
      obtain ⟨-, sv, hnet, rfl⟩ := chatStep_net hstep
      exact netStep_streamStep C hnet j
  | update env io =>
      obtain ⟨hd, hstart, rfl⟩ := Option.map_eq_some_iff.mp hstep
      exact .calm (handler_calm C toAcp j hstart io)
  | dbResult result userNo nickname io =>
      obtain ⟨hd, hstart, rfl⟩ := Option.map_eq_some_iff.mp hstep
      exact .calm (handler_calm C toAcp j hstart io)

end Worlds

/-- A receive that is outstanding has room, and an open session has one outstanding. -/
structure Listens (sv : Server) (j : Nat) : Prop where
  room : 0 < (sv.sessions j).recvsOut →
    0 < (sv.sessions j).recvBuffer.directEnqueueSize
  posted : 0 < timesUsed sv j → (sv.sessions j).closeFlag = false →
    0 < (sv.sessions j).recvsOut

section Steps

variable {sv sv' : Server} {j idx : Nat}

theorem Listens.calm (h : Listens sv j) (hcalm : Calm sv sv' j) : Listens sv' j := by
  obtain ⟨hstream, hused⟩ := hcalm
  refine ⟨?_, ?_⟩
  · rw [hstream.recvsOut, hstream.recvBuffer]
    exact h.room
  · rw [hused, hstream.recvsOut]
    intro hpos hopen
    apply h.posted hpos
    rw [Bool.eq_false_iff]
    intro hclosed
    rw [hstream.closed hclosed] at hopen
    cases hopen

theorem listens_of_closed (hclosed : (sv.sessions j).closeFlag = true)
    (hroom : 0 < (sv.sessions j).recvsOut → 0 < (sv.sessions j).recvBuffer.directEnqueueSize) :
    Listens sv j := by
  refine ⟨hroom, ?_⟩
  intro _ hopen
  rw [hclosed] at hopen
  cases hopen

theorem closeSession_listens
    (hroom : 0 < (sv.sessions j).recvsOut → 0 < (sv.sessions j).recvBuffer.directEnqueueSize) :
    Listens (sv.closeSession j) j := by
  have hstream := (closeSession_calm sv j j).stream
  apply listens_of_closed (closeSession_closed sv j)
  rwa [hstream.recvsOut, hstream.recvBuffer]

theorem postRecv_listens (hroom : 0 < (sv.sessions j).recvBuffer.directEnqueueSize)
    (accepted : Bool) : Listens (sv.postRecv j accepted) j := by
  have hbuffer := (postRecv_keeps sv j accepted j).2.2.1
  cases accepted with
  | true =>
      refine ⟨?_, ?_⟩
      · intro _
        rwa [hbuffer]
      · intro _ _
        simp [Server.postRecv, Server.ioAddRef, Server.setSession]
  | false =>
      have hadd := (ioAddRef_calm sv j j).stream
      have hclose : Listens ((sv.ioAddRef j).closeSession j) j := by
        apply closeSession_listens
        intro _
        rwa [hadd.recvBuffer]
      exact hclose.calm (ioRelease_calm _ j j)

theorem directEnqueueSize_clear_pos (rb : CRingBuffer) : 0 < rb.clear.directEnqueueSize := by
  simp [CRingBuffer.directEnqueueSize, CRingBuffer.clear, ringbufferSize]

theorem acceptOne_calm_of_ne {rest : List Nat} (hpool : sv.indexPool = idx :: rest)
    (hne : j ≠ idx) (sock : Nat) (registered accepted : Bool) :
    Calm sv (sv.acceptOne sock registered accepted) j := by
  simp only [Server.acceptOne, Server.allocSession, hpool]
  generalize hinit : { sv with indexPool := rest }.initSession idx sock = sv₁
  have hcalm : Calm sv sv₁ j := by
    rw [← hinit]
    refine ⟨(setSession_calm_of_ne sv idx j _ hne).stream, ?_⟩
    simp [timesUsed, view, Server.initSession, Server.setSession, slotCall, Ne.symm hne]
  cases registered with
  | false => exact hcalm.trans (closeSession_calm sv₁ idx j)
  | true =>
      have hjoin : Calm sv₁ ({ sv₁ with totalAccept := sv₁.totalAccept + 1 }.onClientJoin idx
          (sv₁.sessions idx).sID) j :=
        calm_of_eq rfl (timesUsed_append rfl (by simp))
      exact hcalm.trans (hjoin.trans ((postRecv_keeps _ idx accepted j).2.2.2.2 hne))

theorem acceptOne_listens (h : Listens sv j) (sock : Nat) (registered accepted : Bool) :
    Listens (sv.acceptOne sock registered accepted) j := by
  cases hpool : sv.indexPool with
  | nil =>
      simp only [Server.acceptOne, Server.allocSession, hpool]
      exact h
  | cons idx rest =>
      rcases eq_or_ne j idx with rfl | hne
      · simp only [Server.acceptOne, Server.allocSession, hpool]
        generalize hinit : { sv with indexPool := rest }.initSession j sock = sv₁
        have hroom : 0 < (sv₁.sessions j).recvBuffer.directEnqueueSize := by
          rw [← hinit]
          simpa [Server.initSession, Server.setSession, Session.init] using
            directEnqueueSize_clear_pos (sv.sessions j).recvBuffer
        cases registered with
        | false => exact closeSession_listens fun _ => hroom
        | true =>
            have hjoined : 0 < (({ sv₁ with totalAccept := sv₁.totalAccept + 1 }.onClientJoin j
                (sv₁.sessions j).sID).sessions j).recvBuffer.directEnqueueSize := hroom
            exact postRecv_listens hjoined accepted
      · exact h.calm (acceptOne_calm_of_ne hpool hne sock registered accepted)

theorem recvFailed_listens (h : Listens sv j) (hle : (sv.sessions idx).recvsOut ≤ 1) :
    Listens (recvFailed sv idx) j := by
  rcases eq_or_ne j idx with rfl | hne
  · have htaken : ((takeRecv sv j []).sessions j).recvsOut = 0 := by
      simp only [takeRecv, Server.setSession, Function.update_self]
      omega
    have hclose : Listens ((takeRecv sv j []).closeSession j) j := by
      apply closeSession_listens
      omega
    exact hclose.calm (ioRelease_calm _ j j)
  · exact h.calm ((setSession_calm_of_ne sv idx j _ hne).trans
      ((closeSession_calm (takeRecv sv idx []) idx j).trans (ioRelease_calm _ idx j)))

theorem recvDone_calm_of_ne (C : Crypto) (hne : j ≠ idx) (bytes : List UInt8)
    (accepted : Bool) : Calm sv (recvDone C sv idx bytes accepted) j := by
  simp only [recvDone, onRecvComplete]
  generalize hin : setRecvBuffer _ idx _ = sv₁
  have hcalm : Calm sv sv₁ j := by
    rw [← hin]
    exact (setSession_calm_of_ne sv idx j _ hne).trans (setSession_calm_of_ne _ idx j _ hne)
  exact hcalm.trans (((recvLoop_consumed C idx sv₁).other j hne).trans
    (((resumeRecv_keeps idx accepted _ j).2.2.2.2 hne).trans (ioRelease_calm _ idx j)))

/-- A receive that completes is followed by the next one, or by the end of the session. -/
theorem recvDone_listens (C : Crypto) (h : Listens sv j)
    (hle : (sv.sessions idx).recvsOut ≤ 1) (bytes : List UInt8) (accepted : Bool) :
    Listens (recvDone C sv idx bytes accepted) j := by
  rcases eq_or_ne j idx with rfl | hne
  · simp only [recvDone, onRecvComplete]
    generalize hin : setRecvBuffer _ j _ = sv₁
    have hloop := recvLoop_consumed C j sv₁
    generalize recvLoop C j sv₁ = out at hloop ⊢
    have htaken : (sv₁.sessions j).recvsOut = 0 := by
      rw [← hin]
      simp only [takeRecv, setRecvBuffer, Server.setSession, Function.update_self]
      omega
    have hnone : (out.1.sessions j).recvsOut = 0 := hloop.recvsOut.trans htaken
    refine Listens.calm ?_ (ioRelease_calm _ j j)
    have hverdict := hloop.verdict
    split at hverdict
    · simp only [resumeRecv, hverdict.1, Bool.not_true, Bool.false_eq_true, if_false]
      split
      · apply closeSession_listens
        omega
      · rename_i hroom
        exact postRecv_listens (Nat.pos_of_ne_zero hroom) accepted
    · simp only [resumeRecv, hverdict.1, Bool.not_false, if_true]
      apply listens_of_closed hverdict.2
      omega
  · exact h.calm (recvDone_calm_of_ne C hne bytes accepted)

theorem netStep_listens (C : Crypto) {max : Nat} (hslots : SlotsOk sv max 0 0)
    (h : Listens sv j) {e : NetEvent} (hstep : netStep C sv e = some sv') : Listens sv' j := by
  have hle {idx : Nat} (hidx : idx < sv.maxSession) : (sv.sessions idx).recvsOut ≤ 1 :=
    ((hslots.of_zero idx).here (hslots.size ▸ hidx)).recvsOut_le
  cases e with
  | accept sock registered accepted =>
      exact Option.some.inj hstep ▸ acceptOne_listens h sock registered accepted
  | recvDone idx bytes accepted =>
      simp only [netStep, Option.ite_none_right_eq_some] at hstep
      obtain ⟨⟨hidx, -⟩, hsv⟩ := hstep
      exact Option.some.inj hsv ▸ recvDone_listens C h (hle hidx) bytes accepted
  | recvFailed idx =>
      simp only [netStep, Option.ite_none_right_eq_some] at hstep
      obtain ⟨⟨hidx, -⟩, hsv⟩ := hstep
      exact Option.some.inj hsv ▸ recvFailed_listens h (hle hidx)
  | sendDone idx accepted =>
      simp only [netStep, Option.ite_none_right_eq_some] at hstep
      exact h.calm (Option.some.inj hstep.2 ▸ sendDone_calm sv idx j accepted)
  | sendFailed idx =>
      simp only [netStep, Option.ite_none_right_eq_some] at hstep
      exact h.calm (Option.some.inj hstep.2 ▸ sendFailed_calm sv idx j)
  | sendPacket sid p accepted =>
      simp only [netStep, Option.ite_none_right_eq_some] at hstep
      exact h.calm (Option.some.inj hstep.2 ▸ sendPacket_calm sv j sid p accepted)
  | disconnect sid =>
      simp only [netStep, Option.ite_none_right_eq_some] at hstep
      exact h.calm (Option.some.inj hstep.2 ▸ disconnect_calm sv j sid)

theorem chatStep_listens (C : Crypto) (toAcp : List UInt16 → List UInt8) {max : Nat}
    {w w' : World} (hslots : SlotsOk w.server max 0 0) (h : Listens w.server j) {e : ChatEvent}
    (hstep : chatStep C toAcp w e = some w') : Listens w'.server j := by
  cases e with
  | net e =>
      obtain ⟨-, sv, hnet, rfl⟩ := chatStep_net hstep
      exact netStep_listens C hslots h hnet
  | update env io =>
      obtain ⟨hd, hstart, rfl⟩ := Option.map_eq_some_iff.mp hstep
      exact h.calm (handler_calm C toAcp j hstart io)
  | dbResult result userNo nickname io =>
      obtain ⟨hd, hstart, rfl⟩ := Option.map_eq_some_iff.mp hstep
      exact h.calm (handler_calm C toAcp j hstart io)

end Steps

/-- In every state of every run, a session that was opened and is not closed has exactly
one receive outstanding, which can take whatever the client sends next; and no receive is
outstanding with an empty buffer. -/
theorem open_session_listens (C : Crypto) (toAcp : List UInt16 → List UInt8)
    {maxSession : Nat} (hmax : maxSession ≤ 2 ^ 16) {events : List ChatEvent} {w : World}
    (hrun : run (chatStep C toAcp) (World.start maxSession) events = some w) (idx : Nat)
    (hidx : idx < maxSession) :
    (0 < timesUsed w.server idx → (w.server.sessions idx).closeFlag = false →
      (w.server.sessions idx).recvsOut = 1 ∧
        ∀ b accepted, ∃ w', chatStep C toAcp w (.net (.recvDone idx [b] accepted)) = some w') ∧
    (0 < (w.server.sessions idx).recvsOut →
      0 < (w.server.sessions idx).recvBuffer.directEnqueueSize) := by
  have hinv : (∃ lost, WorldOk w maxSession lost) ∧ Listens w.server idx := by
    refine invariant_of_run (chatStep C toAcp)
      (J := fun t => (∃ lost, WorldOk t maxSession lost) ∧ Listens t.server idx) ?_ ?_ hrun
    · rintro t e u ⟨⟨lost, hok⟩, hlistens⟩ hstep
      exact ⟨⟨_, chatStep_worldOk C toAcp hmax hok hstep⟩,
        chatStep_listens C toAcp hok.server.slots hlistens hstep⟩
    · refine ⟨⟨0, start_worldOk maxSession⟩, ⟨?_, ?_⟩⟩
      · intro hout
        exact absurd hout (lt_irrefl 0)
      · intro hused
        exact absurd hused (lt_irrefl 0)
  obtain ⟨⟨lost, hok⟩, hlistens⟩ := hinv
  refine ⟨?_, hlistens.room⟩
  intro hused hopen
  have hout := hlistens.posted hused hopen
  have hle := ((hok.server.slots.of_zero idx).here hidx).recvsOut_le
  have hroom := hlistens.room hout
  refine ⟨Nat.le_antisymm hle hout, ?_⟩
  intro b accepted
  have hidx' : idx < w.server.maxSession := hok.server.slots.size ▸ hidx
  have hfit : idx < w.server.maxSession ∧ 0 < (w.server.sessions idx).recvsOut ∧
      0 < [b].length ∧ [b].length ≤ (w.server.sessions idx).recvBuffer.directEnqueueSize :=
    ⟨hidx', hout, Nat.one_pos, hroom⟩
  refine ⟨{ w with server := recvDone C w.server idx [b] accepted }, ?_⟩
  simp only [chatStep, netStep, if_pos hfit, Option.map_some]

/-- A client whose join has been handled can go on sending. -/
theorem open_session_listens_after_join :
    ∃ w, run (chatStep Crypto.none fun _ => []) (World.start 1)
      [.net (.accept 7 true true), .update zeroEnv fun _ => ⟨[], fun _ => true⟩] = some w ∧
      (w.server.sessions 0).recvsOut = 1 := by
  have hsome : ((run (chatStep Crypto.none fun _ => []) (World.start 1)
      [.net (.accept 7 true true), .update zeroEnv fun _ => ⟨[], fun _ => true⟩]).map fun w =>
        decide (0 < timesUsed w.server 0 ∧ (w.server.sessions 0).closeFlag = false)) =
      some true := by
    decide
  obtain ⟨w, hrun, hw⟩ := Option.map_eq_some_iff.mp hsome
  obtain ⟨hused, hopen⟩ := of_decide_eq_true hw
  exact ⟨w, hrun, ((open_session_listens Crypto.none _ (by decide) hrun 0 (by decide)).1
    hused hopen).1⟩

end IocpChat.OpenReceives
