import IocpChat.SlotLifecycle

namespace IocpChat.MessageOrigin

open IocpChat.Protocol
open IocpChat.PacketBuffer
open IocpChat.RingBuffer
open IocpChat.LanServer
open IocpChat.SendQueue
open IocpChat.ReceivePath
open IocpChat.SlotInvariant
open IocpChat.SlotSteps
open IocpChat.SlotLifecycle

/-- The session that a message is about. -/
def messageSid : Message → SessionID
  | .join sid => sid
  | .leave sid => sid
  | .recv sid _ => sid

/-- A step on behalf of the session in slot `idx`. -/
structure Grows (idx : Nat) (sv sv' : Server) : Prop where
  calls : sv.calls <+: sv'.calls
  sids : ∀ i, (sv'.sessions i).sID = (sv.sessions i).sID
  messages : ∀ m, m ∈ sv'.contentQ →
    m ∈ sv.contentQ ∨ messageSid m = (sv.sessions idx).sID

theorem Issued.mono {sv sv' : Server} {sid : SessionID} (h : Issued sv sid)
    (hcalls : sv.calls <+: sv'.calls) : Issued sv' sid := by
  obtain ⟨c, hc, hissues⟩ := h
  exact ⟨c, hcalls.subset hc, hissues⟩

namespace Grows

variable {idx : Nat} {sv sv' sv'' : Server}

theorem refl (idx : Nat) (sv : Server) : Grows idx sv sv :=
  ⟨List.prefix_refl _, fun _ => rfl, fun _ => Or.inl⟩

theorem trans (h : Grows idx sv sv') (k : Grows idx sv' sv'') : Grows idx sv sv'' := by
  refine ⟨h.calls.trans k.calls, fun i => (k.sids i).trans (h.sids i), ?_⟩
  intro m hm
  rcases k.messages m hm with hold | hsid
  · exact h.messages m hold
  · exact Or.inr (hsid.trans (h.sids idx))

theorem of_same (hcalls : sv'.calls = sv.calls) (hsessions : sv'.sessions = sv.sessions)
    (hcontent : sv'.contentQ = sv.contentQ) : Grows idx sv sv' := by
  refine ⟨hcalls ▸ List.prefix_refl _, fun i => by rw [hsessions], ?_⟩
  intro m hm
  exact Or.inl (hcontent ▸ hm)

end Grows

section Steps

variable (sv : Server) (idx : Nat)

theorem setSession_grows {s : Session} (h : s.sID = (sv.sessions idx).sID) :
    Grows idx sv (sv.setSession idx s) := by
  refine ⟨List.prefix_refl _, ?_, fun _ => Or.inl⟩
  intro i
  rcases eq_or_ne i idx with rfl | hne
  · simpa [Server.setSession] using h
  · simp [Server.setSession, hne]

theorem alloc_grows : Grows idx sv sv.alloc.2 := by
  simp only [Server.alloc]
  split
  · exact .of_same rfl rfl rfl
  · exact .of_same rfl rfl rfl

theorem release_grows (p : PacketRef) : Grows idx sv (sv.release p) := by
  simp only [Server.release]
  split
  · exact .of_same rfl rfl rfl
  · exact .of_same rfl rfl rfl

theorem releaseAll_grows (ps : List PacketRef) : Grows idx sv (sv.releaseAll ps) := by
  induction ps generalizing sv with
  | nil => exact .refl idx sv
  | cons p ps ih => exact (release_grows sv idx p).trans (ih (sv.release p))

theorem ioAddRef_grows : Grows idx sv (sv.ioAddRef idx) := setSession_grows sv idx rfl

theorem ioRelease_grows : Grows idx sv (sv.ioRelease idx) := by
  have hset := setSession_grows sv idx
    (s := { sv.sessions idx with ioRefCount := (sv.sessions idx).ioRefCount - 1 }) rfl
  simp only [Server.ioRelease]
  split
  · exact hset.trans ⟨List.prefix_append _ _, fun _ => rfl, fun _ => Or.inl⟩
  · exact hset

theorem onClientLeave_grows : Grows idx sv (sv.onClientLeave idx (sv.sessions idx).sID) := by
  refine ⟨List.prefix_append _ _, fun _ => rfl, ?_⟩
  intro m hm
  rcases List.mem_append.mp hm with hold | hnew
  · exact Or.inl hold
  · rw [List.mem_singleton.mp hnew]
    exact Or.inr rfl

theorem closeSession_grows : Grows idx sv (sv.closeSession idx) := by
  simp only [Server.closeSession]
  split
  · exact .refl idx sv
  · obtain ⟨head, count, hs⟩ := takeQueue_snd (sv.sessions idx).sqCount
      { sv.sessions idx with closeFlag := true, sock := none }
    rw [hs]
    generalize ({ sv.sessions idx with closeFlag := true, sock := none }.takeQueue
      (sv.sessions idx).sqCount).1 = pkts
    have hset := setSession_grows sv idx (s := { sv.sessions idx with
      closeFlag := true, sock := none, sqHead := head, sqCount := count }) rfl
    have hrel := hset.trans (releaseAll_grows _ idx pkts)
    have hleave := hrel.trans (onClientLeave_grows _ idx)
    rw [hrel.sids idx] at hleave
    refine Grows.trans ?_ (ioRelease_grows _ idx)
    exact hleave.trans (.of_same rfl rfl rfl)

theorem postRecv_grows (accepted : Bool) : Grows idx sv (sv.postRecv idx accepted) := by
  have hadd := ioAddRef_grows sv idx
  simp only [Server.postRecv]
  split
  · refine hadd.trans (setSession_grows _ idx ?_)
    rfl
  · exact hadd.trans ((closeSession_grows _ idx).trans (ioRelease_grows _ idx))

theorem releaseBatch_grows : Grows idx sv (sv.releaseBatch idx) := by
  refine (releaseAll_grows sv idx _).trans (setSession_grows _ idx ?_)
  rfl

theorem flushSend_grows (accepted : Bool) : Grows idx sv (sv.flushSend idx accepted) := by
  simp only [Server.flushSend]
  split
  · exact .refl idx sv
  · obtain ⟨head, count, hs⟩ := takeQueue_snd qsize
      { sv.sessions idx with sendPending := true }
    rw [hs]
    generalize ({ sv.sessions idx with sendPending := true }.takeQueue qsize).1 = pkts
    have hadd := (setSession_grows sv idx (s := { sv.sessions idx with
      sendPending := true, sqHead := head, sqCount := count, sendPkts := pkts }) rfl).trans
      (ioAddRef_grows _ idx)
    split
    · refine hadd.trans (setSession_grows _ idx ?_)
      rfl
    · exact hadd.trans ((releaseBatch_grows _ idx).trans
        ((closeSession_grows _ idx).trans (ioRelease_grows _ idx)))

theorem onSendComplete_grows (accepted : Bool) :
    Grows idx sv (sv.onSendComplete idx accepted) := by
  have hclear := releaseBatch_grows sv idx
  simp only [Server.onSendComplete]
  split
  · exact hclear.trans (flushSend_grows _ idx accepted)
  · exact hclear

theorem sendPacket_grows (sid : SessionID) (p : PacketRef) (accepted : Bool) :
    Grows (sidIndex sid) sv (sv.sendPacket sid p accepted).2 := by
  simp only [Server.sendPacket]
  split
  · exact .refl _ sv
  · split
    · exact .refl _ sv
    · split
      · exact .refl _ sv
      · split
        · exact closeSession_grows sv _
        · refine Grows.trans ?_ (flushSend_grows _ _ accepted)
          have hadd : Grows (sidIndex sid) sv (sv.addRef p) := .of_same rfl rfl rfl
          refine hadd.trans (setSession_grows _ _ ?_)
          rfl

theorem onRecv_grows (p : PacketRef) : Grows idx sv (sv.onRecv idx p) := by
  refine ⟨List.prefix_refl _, ?_, ?_⟩
  · intro i
    rcases eq_or_ne i idx with rfl | hne
    · simp [Server.onRecv, Server.setSession]
    · simp [Server.onRecv, Server.setSession, Server.addRef, Server.setPacket, hne]
  · intro m hm
    rcases List.mem_append.mp hm with hold | hnew
    · exact Or.inl hold
    · rw [List.mem_singleton.mp hnew]
      exact Or.inr rfl

theorem deliver_grows (plain : List UInt8) : Grows idx sv (deliver sv idx plain) := by
  have hraw : Grows idx sv (sv.alloc.2.setPacket sv.alloc.1
      ((sv.alloc.2.packets sv.alloc.1).attachRaw plain)) :=
    (alloc_grows sv idx).trans (.of_same rfl rfl rfl)
  exact hraw.trans ((onRecv_grows _ idx _).trans (release_grows _ idx _))

theorem setRecvBuffer_grows (rb : CRingBuffer) : Grows idx sv (setRecvBuffer sv idx rb) :=
  setSession_grows sv idx rfl

theorem discardFrame_grows : Grows idx sv (discardFrame sv) := by
  refine Grows.trans ?_ (release_grows _ idx _)
  exact (alloc_grows sv idx).trans (.of_same rfl rfl rfl)

theorem recvLoop_grows (C : Crypto) : Grows idx sv (recvLoop C idx sv).1 := by
  induction sv using recvLoop.induct C idx with
  | case1 sv hwait =>
      rw [recvLoop, hwait]
      exact .refl idx sv
  | case2 sv hlong =>
      rw [recvLoop, hlong]
      exact closeSession_grows sv idx
  | case3 sv hunder =>
      rw [recvLoop, hunder]
      exact .refl idx sv
  | case4 sv rb hbad =>
      rw [recvLoop, hbad]
      exact (setRecvBuffer_grows sv idx rb).trans
        ((discardFrame_grows _ idx).trans (closeSession_grows _ idx))
  | case5 sv rb plain hframe ih =>
      rw [recvLoop, hframe]
      exact (setRecvBuffer_grows sv idx rb).trans ((deliver_grows _ idx plain).trans ih)

theorem recvDone_grows (C : Crypto) (bytes : List UInt8) (accepted : Bool) :
    Grows idx sv (recvDone C sv idx bytes accepted) := by
  refine Grows.trans ?_ (ioRelease_grows _ idx)
  have htaken : Grows idx sv (takeRecv sv idx bytes) := setSession_grows sv idx rfl
  refine htaken.trans ?_
  have hloop := (setRecvBuffer_grows (takeRecv sv idx bytes) idx
    (((takeRecv sv idx bytes).sessions idx).recvBuffer.moveWritePos bytes.length)).trans
    (recvLoop_grows _ idx C)
  simp only [onRecvComplete, resumeRecv]
  split
  · exact hloop
  · split
    · exact hloop.trans (closeSession_grows _ idx)
    · exact hloop.trans (postRecv_grows _ idx accepted)

theorem recvFailed_grows : Grows idx sv (recvFailed sv idx) := by
  have htaken : Grows idx sv (takeRecv sv idx []) := setSession_grows sv idx rfl
  exact htaken.trans ((closeSession_grows _ idx).trans (ioRelease_grows _ idx))

theorem sendDone_grows (accepted : Bool) : Grows idx sv (sendDone sv idx accepted) := by
  have htaken : Grows idx sv (takeSend sv idx) := setSession_grows sv idx rfl
  exact htaken.trans ((onSendComplete_grows _ idx accepted).trans (ioRelease_grows _ idx))

theorem sendFailed_grows : Grows idx sv (sendFailed sv idx) := by
  have htaken : Grows idx sv (takeSend sv idx) := setSession_grows sv idx rfl
  exact htaken.trans ((closeSession_grows _ idx).trans (ioRelease_grows _ idx))

end Steps

section Issued

variable {sv sv' : Server} {max idx busy : Nat}

theorem initSession_of_init {sid : SessionID} (h : .init sid ∈ (view sv idx).calls) :
    .initSession idx sid ∈ sv.calls := (mem_view_calls sv idx (.init sid)).mp h

theorem issued_of_init {sid : SessionID} (h : .init sid ∈ (view sv idx).calls) :
    Issued sv sid :=
  ⟨_, initSession_of_init h, by simp [Call.issues]⟩

theorem init_of_live (h : SlotsOk sv max idx busy) (hidx : idx < max)
    (hlive : 0 < (sv.sessions idx).ioRefCount) :
    .init (sv.sessions idx).sID ∈ (view sv idx).calls := by
  cases h.here hidx with
  | free _ _ _ _ _ href =>
      have href : (sv.sessions idx).ioRefCount = 0 := href
      omega
  | used n hcalls _ _ hsid =>
      have hsid : (sv.sessions idx).sID = sidOf idx (n + 1) := hsid
      rw [hcalls, hsid, ongoing]
      split <;> simp

theorem issued_sID (h : SlotsOk sv max idx busy) (hidx : idx < max)
    (hlive : 0 < (sv.sessions idx).ioRefCount) : Issued sv (sv.sessions idx).sID :=
  issued_of_init (init_of_live h hidx hlive)

theorem live_of_recvsOut (h : SlotsOk sv max idx busy) (hidx : idx < max)
    (hout : 0 < (sv.sessions idx).recvsOut) : 0 < (sv.sessions idx).ioRefCount := by
  cases h.here hidx with
  | free _ _ _ _ _ _ hrecv =>
      have hrecv : (sv.sessions idx).recvsOut = 0 := hrecv
      omega
  | used _ _ _ _ _ _ hpos => exact hpos

theorem live_of_sendsOut (h : SlotsOk sv max idx busy) (hidx : idx < max)
    (hout : 0 < (sv.sessions idx).sendsOut) : 0 < (sv.sessions idx).ioRefCount := by
  cases h.here hidx with
  | free _ _ _ _ _ _ _ hsend =>
      have hsend : (sv.sessions idx).sendsOut = 0 := hsend
      omega
  | used _ _ _ _ _ _ hpos => exact hpos

/-- The messages in the queue are about sessions that there have been. -/
def MessagesIssued (sv : Server) : Prop := ∀ m, m ∈ sv.contentQ → Issued sv (messageSid m)

theorem Grows.messagesIssued (h : Grows idx sv sv') (hold : MessagesIssued sv)
    (hsid : Issued sv (sv.sessions idx).sID) : MessagesIssued sv' := by
  intro m hm
  rcases h.messages m hm with hmem | hnew
  · exact Issued.mono (hold m hmem) h.calls
  · rw [hnew]
    exact Issued.mono hsid h.calls

/-- What a handler guarantees about identifiers: none is forgotten, and the
messages it leaves carry issued ones. -/
def KeepsIssued (sv sv' : Server) : Prop := sv.calls <+: sv'.calls ∧ MessagesIssued sv'

theorem sendPacket_eq_or (sv : Server) (sid : SessionID) (p : PacketRef) (accepted : Bool) :
    (sv.sendPacket sid p accepted).2 = sv ∨
      (sidIndex sid < sv.maxSession ∧
        (sv.sessions (sidIndex sid)).generation = sidGeneration sid ∧
        (sv.sessions (sidIndex sid)).closeFlag = false) := by
  simp only [Server.sendPacket]
  split
  · exact Or.inl rfl
  · split
    · exact Or.inl rfl
    · rename_i hmax hgen
      split
      · exact Or.inl rfl
      · rename_i hopen
        exact Or.inr ⟨by omega, not_not.mp hgen, by simpa using hopen⟩

theorem sendPacket_keepsIssued (h : SlotsOk sv max 0 0) {sid : SessionID}
    (hlive : sidIndex sid < max →
      (sv.sessions (sidIndex sid)).generation = sidGeneration sid →
      (sv.sessions (sidIndex sid)).closeFlag = false →
      0 < (sv.sessions (sidIndex sid)).ioRefCount)
    (hold : MessagesIssued sv) (p : PacketRef) (accepted : Bool) :
    KeepsIssued sv (sv.sendPacket sid p accepted).2 := by
  have hgrows := sendPacket_grows sv sid p accepted
  rcases sendPacket_eq_or sv sid p accepted with heq | ⟨hidx, hgen, hopen⟩
  · rw [heq]
    exact ⟨List.prefix_refl _, hold⟩
  · rw [h.size] at hidx
    have hsid := issued_sID (h.of_zero (sidIndex sid)) hidx (hlive hidx hgen hopen)
    exact ⟨hgrows.calls, hgrows.messagesIssued hold hsid⟩

theorem disconnect_keepsIssued (h : SlotsOk sv max 0 0) {sid : SessionID}
    (hlive : sidIndex sid < max →
      (sv.sessions (sidIndex sid)).generation = sidGeneration sid →
      (sv.sessions (sidIndex sid)).closeFlag = false →
      0 < (sv.sessions (sidIndex sid)).ioRefCount)
    (hold : MessagesIssued sv) : KeepsIssued sv (sv.disconnect sid).2 := by
  simp only [Server.disconnect]
  split
  · exact ⟨List.prefix_refl _, hold⟩
  · rename_i hmax
    split
    · exact ⟨List.prefix_refl _, hold⟩
    · rename_i hgen
      have hidx : sidIndex sid < max := by
        have hsize := h.size
        omega
      rcases Bool.eq_false_or_eq_true (sv.sessions (sidIndex sid)).closeFlag with hclosed | hopen
      · simpa only [Server.closeSession, hclosed, if_true] using ⟨List.prefix_refl _, hold⟩
      · have hgrows := closeSession_grows sv (sidIndex sid)
        have hsid := issued_sID (h.of_zero (sidIndex sid)) hidx
          (hlive hidx (not_not.mp hgen) hopen)
        exact ⟨hgrows.calls, hgrows.messagesIssued hold hsid⟩

theorem acceptOne_keepsIssued (h : SlotsOk sv max 0 0) (hold : MessagesIssued sv)
    (sock : Nat) (registered accepted : Bool) :
    KeepsIssued sv (sv.acceptOne sock registered accepted) := by
  simp only [Server.acceptOne]
  split
  · exact ⟨List.prefix_refl _, hold⟩
  · rename_i i sv₁ halloc
    obtain ⟨hi, hslots, hpos, -⟩ := allocSession_slotsOk h halloc
    have hsid := issued_sID hslots hi hpos
    have hopened : KeepsIssued sv sv₁ := by
      simp only [Server.allocSession] at halloc
      split at halloc
      · simp at halloc
      · obtain ⟨-, hsv⟩ := Prod.mk.inj (Option.some.inj halloc)
        subst hsv
        refine ⟨List.prefix_append _ _, ?_⟩
        intro m hm
        exact Issued.mono (hold m hm) (List.prefix_append _ _)
    split
    · have hgrows := closeSession_grows sv₁ i
      exact ⟨hopened.1.trans hgrows.calls, hgrows.messagesIssued hopened.2 hsid⟩
    · have hjoin : Grows i sv₁ ({ sv₁ with totalAccept := sv₁.totalAccept + 1 }.onClientJoin i
          (sv₁.sessions i).sID) := by
        refine ⟨List.prefix_append _ _, fun _ => rfl, ?_⟩
        intro m hm
        rcases List.mem_append.mp hm with hmem | hnew
        · exact Or.inl hmem
        · rw [List.mem_singleton.mp hnew]
          exact Or.inr rfl
      have hgrows := hjoin.trans (postRecv_grows _ i accepted)
      exact ⟨hopened.1.trans hgrows.calls, hgrows.messagesIssued hopened.2 hsid⟩

theorem netStep_keepsIssued (C : Crypto) (h : SlotsOk sv max 0 0)
    (hwrap : max ≤ 65536 ∨ ∀ i, timesUsed sv i < 2 ^ 31) (hold : MessagesIssued sv)
    {e : NetEvent} (hstep : netStep C sv e = some sv') : KeepsIssued sv sv' := by
  have hsize := h.size
  have hkeeps (i : Nat) (t : Server) (hi : i < sv.maxSession)
      (hlive : 0 < (sv.sessions i).ioRefCount) (hgrows : Grows i sv t) : KeepsIssued sv t :=
    ⟨hgrows.calls, hgrows.messagesIssued hold
      (issued_sID (h.of_zero i) (hsize ▸ hi) hlive)⟩
  cases e with
  | accept sock registered accepted =>
      exact Option.some.inj hstep ▸ acceptOne_keepsIssued h hold sock registered accepted
  | recvDone idx bytes accepted =>
      simp only [netStep, Option.ite_none_right_eq_some] at hstep
      obtain ⟨⟨hidx, hout, -⟩, hsv⟩ := hstep
      exact Option.some.inj hsv ▸ hkeeps idx _ hidx
        (live_of_recvsOut (h.of_zero idx) (hsize ▸ hidx) hout)
        (recvDone_grows sv idx C bytes accepted)
  | recvFailed idx =>
      simp only [netStep, Option.ite_none_right_eq_some] at hstep
      obtain ⟨⟨hidx, hout⟩, hsv⟩ := hstep
      exact Option.some.inj hsv ▸ hkeeps idx _ hidx
        (live_of_recvsOut (h.of_zero idx) (hsize ▸ hidx) hout) (recvFailed_grows sv idx)
  | sendDone idx accepted =>
      simp only [netStep, Option.ite_none_right_eq_some] at hstep
      obtain ⟨⟨hidx, hout⟩, hsv⟩ := hstep
      exact Option.some.inj hsv ▸ hkeeps idx _ hidx
        (live_of_sendsOut (h.of_zero idx) (hsize ▸ hidx) hout) (sendDone_grows sv idx accepted)
  | sendFailed idx =>
      simp only [netStep, Option.ite_none_right_eq_some] at hstep
      obtain ⟨⟨hidx, hout⟩, hsv⟩ := hstep
      exact Option.some.inj hsv ▸ hkeeps idx _ hidx
        (live_of_sendsOut (h.of_zero idx) (hsize ▸ hidx) hout) (sendFailed_grows sv idx)
  | sendPacket sid p accepted =>
      simp only [netStep, Option.ite_none_right_eq_some] at hstep
      obtain ⟨hissued, hsv⟩ := hstep
      exact Option.some.inj hsv ▸ sendPacket_keepsIssued h (live_of_issued h hwrap hissued)
        hold p accepted
  | disconnect sid =>
      simp only [netStep, Option.ite_none_right_eq_some] at hstep
      obtain ⟨hissued, hsv⟩ := hstep
      exact Option.some.inj hsv ▸ disconnect_keepsIssued h (live_of_issued h hwrap hissued) hold

end Issued

end IocpChat.MessageOrigin
