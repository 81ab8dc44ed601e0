import IocpChat.FrameStream
import IocpChat.SlotLifecycle

namespace IocpChat.StreamReassembly

open IocpChat.Protocol
open IocpChat.PacketBuffer
open IocpChat.RingBuffer
open IocpChat.LanServer
open IocpChat.SendQueue
open IocpChat.ReceivePath
open IocpChat.FrameStream
open IocpChat.SlotInvariant
open IocpChat.SlotSteps
open IocpChat.SlotLifecycle
open IocpChat.LabelledRun

/-- The length field at the front of a stream. -/
def frameLen (s : List UInt8) : Nat := (leWord (s.getD 0 0) (s.getD 1 0)).toNat

/-- The front of a stream as the protocol reads it. -/
def frameFront (C : Crypto) (s : List UInt8) : Front (List UInt8) :=
  if s.length < pktHeaderSize then .incomplete
  else if packetBufferSize - pktHeaderSize < frameLen s then .invalid
  else if s.length < pktHeaderSize + frameLen s then .incomplete
  else
    match decode C (s.take (pktHeaderSize + frameLen s)) with
    | none => .invalid
    | some plain => .frame plain (pktHeaderSize + frameLen s)

theorem frameLen_append {s : List UInt8} (t : List UInt8) (h : pktHeaderSize ≤ s.length) :
    frameLen (s ++ t) = frameLen s := by
  simp only [pktHeaderSize] at h
  simp only [frameLen, List.getD_eq_getElem?_getD]
  rw [List.getElem?_append_left (by omega), List.getElem?_append_left (by omega)]

theorem frameLen_take {s : List UInt8} {n : Nat} (h : pktHeaderSize ≤ n) :
    frameLen (s.take n) = frameLen s := by
  simp only [pktHeaderSize] at h
  simp only [frameLen, List.getD_eq_getElem?_getD]
  rw [List.getElem?_take_of_lt (by omega), List.getElem?_take_of_lt (by omega)]

theorem frameFront_frame {C : Crypto} {s plain : List UInt8} {n : Nat}
    (h : frameFront C s = .frame plain n) :
    n = pktHeaderSize + frameLen s ∧ n ≤ s.length ∧ n ≤ packetBufferSize ∧
      decode C (s.take n) = some plain := by
  simp only [frameFront] at h
  split at h
  · simp at h
  · split at h
    · simp at h
    · rename_i hlen
      split at h
      · simp at h
      · rename_i hfit
        split at h
        · simp at h
        · rename_i plain' hdecode
          obtain ⟨hplain, hn⟩ := Front.frame.inj h
          subst hplain hn
          refine ⟨rfl, by omega, ?_, hdecode⟩
          simp only [packetBufferSize, pktHeaderSize] at hlen ⊢
          omega

theorem frameFront_length {C : Crypto} {s plain : List UInt8} {n : Nat}
    (h : frameFront C s = .frame plain n) :
    plain.length ≤ packetBufferSize - pktHeaderSize := by
  obtain ⟨hn, -, hsize, hdecode⟩ := frameFront_frame h
  have hle : plain.length ≤ frameLen (s.take n) := decode_length hdecode
  rw [frameLen_take (by omega)] at hle
  omega

theorem frameFront_append (C : Crypto) {s : List UInt8} (t : List UInt8)
    (h : frameFront C s ≠ .incomplete) : frameFront C (s ++ t) = frameFront C s := by
  simp only [frameFront] at h ⊢
  split at h
  · simp at h
  · rename_i hheader
    have hheader' : ¬ (s ++ t).length < pktHeaderSize := by
      rw [List.length_append]
      omega
    rw [if_neg hheader, if_neg hheader', frameLen_append t (by omega)]
    split at h
    · rename_i hlen
      rw [if_pos hlen, if_pos hlen]
    · rename_i hlen
      rw [if_neg hlen, if_neg hlen]
      split at h
      · simp at h
      · rename_i hfit
        have hfit' : ¬ (s ++ t).length < pktHeaderSize + frameLen s := by
          rw [List.length_append]
          omega
        rw [if_neg hfit, if_neg hfit', List.take_append_of_le_length (by omega)]

/-- The reference parser. -/
def frameReader (C : Crypto) : Reader UInt8 (List UInt8) where
  front := frameFront C
  size_pos := by
    intro s x n h
    obtain ⟨hn, -⟩ := frameFront_frame h
    simp only [pktHeaderSize] at hn
    omega
  size_le := fun h => (frameFront_frame h).2.1
  frame_append := by
    intro s x n t h
    rw [frameFront_append C t (by simp [h]), h]
  invalid_append := by
    intro s t h
    rw [frameFront_append C t (by simp [h]), h]

section Ring

variable (C : Crypto) (rb : CRingBuffer)

theorem peek_header (h : pktHeaderSize ≤ rb.useSize) :
    ∃ header, rb.peek pktHeaderSize = some header ∧ header.length = pktHeaderSize ∧
      (leWord (header.getD 0 0) (header.getD 1 0)).toNat = frameLen rb.contents := by
  refine ⟨_, rb.peek_eq_take h, ?_, frameLen_take (le_refl _)⟩
  rw [List.length_take, rb.contents_length]
  omega

/-- One turn of the loop does on the ring buffer what the reference does on its
contents. -/
theorem nextFrame_eq :
    match frameFront C rb.contents with
    | .incomplete => nextFrame C rb = .wait
    | .invalid => nextFrame C rb = .tooLong ∨
        nextFrame C rb = .badMac (rb.moveReadPos (pktHeaderSize + frameLen rb.contents))
    | .frame plain n => nextFrame C rb = .frame (rb.moveReadPos n) plain := by
  simp only [frameFront, nextFrame, rb.contents_length]
  rcases Nat.lt_or_ge rb.useSize pktHeaderSize with hheader | hheader
  · simp only [if_pos hheader]
  · obtain ⟨header, hpeek, -, hlen⟩ := peek_header rb hheader
    simp only [if_neg (Nat.not_lt.mpr hheader), hpeek, hlen]
    rcases Nat.lt_or_ge (packetBufferSize - pktHeaderSize) (frameLen rb.contents) with
      hlong | hshort
    · simp only [if_pos hlong, true_or]
    · simp only [if_neg (Nat.not_lt.mpr hshort)]
      rcases Nat.lt_or_ge rb.useSize (pktHeaderSize + frameLen rb.contents) with hless | hfit
      · simp only [if_pos hless]
      · have hpos : 0 < pktHeaderSize + frameLen rb.contents :=
          Nat.add_pos_left (by decide) _
        simp only [if_neg (Nat.not_lt.mpr hfit), rb.read_eq hfit hpos]
        cases decode C (rb.contents.take (pktHeaderSize + frameLen rb.contents)) with
        | none => exact Or.inr rfl
        | some plain => rfl

theorem frameFront_of_nextFrame :
    match nextFrame C rb with
    | .wait => frameFront C rb.contents = .incomplete
    | .tooLong => frameFront C rb.contents = .invalid
    | .underflow => False
    | .badMac _ => frameFront C rb.contents = .invalid
    | .frame rb' plain => ∃ n, frameFront C rb.contents = .frame plain n ∧
        rb' = rb.moveReadPos n := by
  have hnext := nextFrame_eq C rb
  cases hfront : frameFront C rb.contents with
  | incomplete =>
      rw [hfront] at hnext
      simp only [hnext]
  | invalid =>
      rw [hfront] at hnext
      rcases hnext with hnext | hnext <;> simp only [hnext]
  | frame plain n =>
      rw [hfront] at hnext
      simp only [hnext]
      exact ⟨n, rfl, rfl⟩

/-- Every `Peek` and `Read` of a turn succeeds in full, and what it reads fits
the local buffers of `packetBufferSize` bytes. -/
def ReadsInFull : Prop :=
  (pktHeaderSize ≤ rb.useSize →
    ∃ header, rb.peek pktHeaderSize = some header ∧ header.length = pktHeaderSize) ∧
  nextFrame C rb ≠ .underflow ∧
  ∀ rb', (nextFrame C rb = .badMac rb' ∨ ∃ plain, nextFrame C rb = .frame rb' plain) →
    ∃ n buf, pktHeaderSize ≤ n ∧ n ≤ packetBufferSize ∧ rb.read n = (some buf, rb') ∧
      buf.length = n

theorem readsInFull : ReadsInFull C rb := by
  refine ⟨?_, ?_, ?_⟩
  · intro h
    obtain ⟨header, hpeek, hlength, -⟩ := peek_header rb h
    exact ⟨header, hpeek, hlength⟩
  · have hnext := frameFront_of_nextFrame C rb
    intro hunder
    simp only [hunder] at hnext
  · intro rb' h
    simp only [nextFrame] at h
    split at h
    · simp at h
    · rename_i hheader
      obtain ⟨header, hpeek, -, hlen⟩ := peek_header rb (by omega)
      rw [hpeek] at h
      simp only [hlen] at h
      split at h
      · simp at h
      · rename_i hlong
        split at h
        · simp at h
        · rename_i hfit
          have hpos : 0 < pktHeaderSize + frameLen rb.contents :=
            Nat.add_pos_left (by decide) _
          have hread := rb.read_eq (show pktHeaderSize + frameLen rb.contents ≤ rb.useSize
            by omega) hpos
          refine ⟨pktHeaderSize + frameLen rb.contents,
            rb.contents.take (pktHeaderSize + frameLen rb.contents), by omega, ?_, ?_, ?_⟩
          · simp only [packetBufferSize, pktHeaderSize] at hlong ⊢
            omega
          · rw [hread] at h ⊢
            simp only at h
            cases hdecode : decode C (rb.contents.take (pktHeaderSize + frameLen rb.contents)) with
            | none =>
                rw [hdecode] at h
                simpa using h
            | some plain =>
                rw [hdecode] at h
                simpa using h
          · rw [List.length_take, rb.contents_length]
            omega

end Ring

/-- A step that does not touch what the receive path keeps of a session. -/
structure SameStream (s t : Session) : Prop where
  received : t.received = s.received
  delivered : t.delivered = s.delivered
  recvBuffer : t.recvBuffer = s.recvBuffer
  recvsOut : t.recvsOut = s.recvsOut
  closed : s.closeFlag = true → t.closeFlag = true

/-- The step has left the stream of slot `j` alone. -/
structure Calm (sv sv' : Server) (j : Nat) : Prop where
  stream : SameStream (sv.sessions j) (sv'.sessions j)
  used : timesUsed sv' j = timesUsed sv j

theorem SameStream.refl (s : Session) : SameStream s s := ⟨rfl, rfl, rfl, rfl, id⟩

theorem SameStream.trans {s t u : Session} (h : SameStream s t) (k : SameStream t u) :
    SameStream s u :=
  ⟨k.received.trans h.received, k.delivered.trans h.delivered,
    k.recvBuffer.trans h.recvBuffer, k.recvsOut.trans h.recvsOut, k.closed ∘ h.closed⟩

theorem Calm.trans {sv sv' sv'' : Server} {j : Nat} (h : Calm sv sv' j)
    (k : Calm sv' sv'' j) : Calm sv sv'' j :=
  ⟨h.stream.trans k.stream, k.used.trans h.used⟩

theorem calm_of_eq {sv sv' : Server} {j : Nat} (hs : sv'.sessions = sv.sessions)
    (hused : timesUsed sv' j = timesUsed sv j) : Calm sv sv' j :=
  ⟨hs ▸ SameStream.refl _, hused⟩

theorem timesUsed_congr {sv sv' : Server} {j : Nat} (h : view sv' j = view sv j) :
    timesUsed sv' j = timesUsed sv j := by
  rw [timesUsed, timesUsed, h]

theorem timesUsed_append {sv sv' : Server} {j : Nat} {c : Call}
    (h : sv'.calls = sv.calls ++ [c]) (hc : ∀ i sid, c ≠ .initSession i sid) :
    timesUsed sv' j = timesUsed sv j := by
  simp only [timesUsed, view, h, List.filterMap_append, List.countP_append]
  cases c with
  | initSession i sid => exact absurd rfl (hc i sid)
  | onClientJoin i sid => simp [slotCall]
  | onClientLeave i sid => rcases eq_or_ne i j with rfl | hne <;> simp [slotCall, *]
  | releaseSession i => rcases eq_or_ne i j with rfl | hne <;> simp [slotCall, *]

section Calm

variable (sv : Server) (idx j : Nat)

theorem setSession_calm {s : Session} (h : SameStream (sv.sessions idx) s) :
    Calm sv (sv.setSession idx s) j := by
  refine ⟨?_, rfl⟩
  rcases eq_or_ne j idx with rfl | hne
  · simpa [Server.setSession] using h
  · simpa [Server.setSession, Function.update_of_ne hne] using SameStream.refl _

theorem setSession_calm_of_ne (s : Session) (hne : j ≠ idx) :
    Calm sv (sv.setSession idx s) j := by
  refine ⟨?_, rfl⟩
  simpa [Server.setSession, Function.update_of_ne hne] using SameStream.refl _

theorem releaseAll_calm (ps : List PacketRef) : Calm sv (sv.releaseAll ps) j :=
  calm_of_eq (Server.releaseAll_sessions sv ps) (timesUsed_congr (view_releaseAll sv ps j))

theorem ioAddRef_calm : Calm sv (sv.ioAddRef idx) j :=
  setSession_calm sv idx j ⟨rfl, rfl, rfl, rfl, id⟩

theorem ioRelease_calm : Calm sv (sv.ioRelease idx) j := by
  have hset := setSession_calm sv idx j
    (s := { sv.sessions idx with ioRefCount := (sv.sessions idx).ioRefCount - 1 })
    ⟨rfl, rfl, rfl, rfl, id⟩
  simp only [Server.ioRelease]
  split
  · exact hset.trans (calm_of_eq rfl (timesUsed_append rfl (by simp)))
  · exact hset

theorem closeSession_calm : Calm sv (sv.closeSession idx) j := by
  simp only [Server.closeSession]
  split
  · exact ⟨SameStream.refl _, rfl⟩
  · obtain ⟨head, count, hs⟩ := takeQueue_snd (sv.sessions idx).sqCount
      { sv.sessions idx with closeFlag := true, sock := none }
    rw [hs]
    refine Calm.trans ?_ (ioRelease_calm _ idx j)
    refine (setSession_calm sv idx j ?_).trans ((releaseAll_calm _ j _).trans
      (calm_of_eq rfl (timesUsed_append rfl (by simp))))
    exact ⟨rfl, rfl, rfl, rfl, fun _ => rfl⟩

theorem releaseBatch_calm : Calm sv (sv.releaseBatch idx) j := by
  refine (releaseAll_calm sv j _).trans (setSession_calm _ idx j ?_)
  exact ⟨rfl, rfl, rfl, rfl, id⟩

theorem flushSend_calm (accepted : Bool) : Calm sv (sv.flushSend idx accepted) j := by
  simp only [Server.flushSend]
  split
  · exact ⟨SameStream.refl _, rfl⟩
  · obtain ⟨head, count, hs⟩ := takeQueue_snd qsize
      { sv.sessions idx with sendPending := true }
    rw [hs]
    generalize ({ sv.sessions idx with sendPending := true }.takeQueue qsize).1 = pkts
    have hadd : Calm sv ((sv.setSession idx { sv.sessions idx with
        sendPending := true, sqHead := head, sqCount := count, sendPkts := pkts }).ioAddRef
          idx) j := by
      refine (setSession_calm sv idx j ?_).trans (ioAddRef_calm _ idx j)
      exact ⟨rfl, rfl, rfl, rfl, id⟩
    split
    · exact hadd.trans (setSession_calm _ idx j ⟨rfl, rfl, rfl, rfl, id⟩)
    · exact hadd.trans ((releaseBatch_calm _ idx j).trans
        ((closeSession_calm _ idx j).trans (ioRelease_calm _ idx j)))

theorem onSendComplete_calm (accepted : Bool) :
    Calm sv (sv.onSendComplete idx accepted) j := by
  have hclear := releaseBatch_calm sv idx j
  simp only [Server.onSendComplete]
  split
  · exact hclear.trans (flushSend_calm _ idx j accepted)
  · exact hclear

theorem sendPacket_calm (sid : SessionID) (p : PacketRef) (accepted : Bool) :
    Calm sv (sv.sendPacket sid p accepted).2 j := by
  simp only [Server.sendPacket]
  split
  · exact ⟨SameStream.refl _, rfl⟩
  · split
    · exact ⟨SameStream.refl _, rfl⟩
    · split
      · exact ⟨SameStream.refl _, rfl⟩
      · split
        · exact closeSession_calm sv _ j
        · refine Calm.trans ?_ (flushSend_calm _ _ j accepted)
          refine (calm_of_eq rfl rfl : Calm sv (sv.addRef p) j).trans
            (setSession_calm (sv.addRef p) _ j ?_)
          exact ⟨rfl, rfl, rfl, rfl, id⟩

theorem disconnect_calm (sid : SessionID) : Calm sv (sv.disconnect sid).2 j := by
  simp only [Server.disconnect]
  split
  · exact ⟨SameStream.refl _, rfl⟩
  · split
    · exact ⟨SameStream.refl _, rfl⟩
    · exact closeSession_calm sv _ j

theorem sendDone_calm (accepted : Bool) : Calm sv (sendDone sv idx accepted) j := by
  refine Calm.trans ?_ ((onSendComplete_calm _ idx j accepted).trans (ioRelease_calm _ idx j))
  exact setSession_calm sv idx j ⟨rfl, rfl, rfl, rfl, id⟩

theorem sendFailed_calm : Calm sv (sendFailed sv idx) j := by
  refine Calm.trans ?_ ((closeSession_calm _ idx j).trans (ioRelease_calm _ idx j))
  exact setSession_calm sv idx j ⟨rfl, rfl, rfl, rfl, id⟩

end Calm

theorem deliver_sessions (sv : Server) (idx : Nat) {plain : List UInt8}
    (h : plain.length ≤ packetBufferSize - pktHeaderSize) :
    (deliver sv idx plain).sessions = Function.update sv.sessions idx
      { sv.sessions idx with delivered := (sv.sessions idx).delivered ++ [plain] } := by
  have hpayload := CPacket.payload_attachRaw (sv.alloc.2.packets sv.alloc.1) h
  simp only [CPacket.payload, CPacket.getDataSize] at hpayload
  simp [deliver, Server.onRecv, Server.setSession, Server.addRef, Server.setPacket,
    CPacket.payload, CPacket.getDataSize, hpayload]

theorem deliver_used (sv : Server) (idx : Nat) (plain : List UInt8) (j : Nat) :
    timesUsed (deliver sv idx plain) j = timesUsed sv j := by
  have halloc : timesUsed sv.alloc.2 j = timesUsed sv j := timesUsed_congr (view_alloc sv j)
  have hrelease := timesUsed_congr (view_release ((sv.alloc.2.setPacket sv.alloc.1
    ((sv.alloc.2.packets sv.alloc.1).attachRaw plain)).onRecv idx sv.alloc.1) sv.alloc.1 j)
  exact hrelease.trans halloc

theorem discardFrame_calm (sv : Server) (j : Nat) : Calm sv (discardFrame sv) j := by
  refine calm_of_eq ?_ (timesUsed_congr (view_discardFrame sv j))
  simp [discardFrame]

/-- What the loop of `OnRecvComplete` makes of the buffered bytes. -/
structure Consumed (C : Crypto) (idx : Nat) (sv : Server) (out : Server × Bool) : Prop where
  other : ∀ j, j ≠ idx → Calm sv out.1 j
  used : timesUsed out.1 idx = timesUsed sv idx
  received : (out.1.sessions idx).received = (sv.sessions idx).received
  recvsOut : (out.1.sessions idx).recvsOut = (sv.sessions idx).recvsOut
  delivered : (out.1.sessions idx).delivered = (sv.sessions idx).delivered ++
    (parse (frameReader C) (sv.sessions idx).recvBuffer.contents).1
  verdict :
    match (parse (frameReader C) (sv.sessions idx).recvBuffer.contents).2 with
    | .waiting rest => out.2 = true ∧ (out.1.sessions idx).recvBuffer.contents = rest
    | .rejected => out.2 = false ∧ (out.1.sessions idx).closeFlag = true

theorem consumed_of_invalid {C : Crypto} {idx : Nat} {sv sv' : Server}
    (hfront : frameFront C (sv.sessions idx).recvBuffer.contents = .invalid)
    (hother : ∀ j, j ≠ idx → Calm sv sv' j) (hused : timesUsed sv' idx = timesUsed sv idx)
    (hsame : ∃ rb, sv'.sessions idx = { sv.sessions idx with recvBuffer := rb }) :
    Consumed C idx sv (sv'.closeSession idx, false) := by
  obtain ⟨rb, hrb⟩ := hsame
  have hparse := parse_of_invalid (R := frameReader C) hfront
  have hclose := closeSession_calm sv' idx idx
  refine ⟨?_, hclose.used.trans hused, ?_, ?_, ?_, ?_⟩
  · intro j hj
    exact (hother j hj).trans (closeSession_calm sv' idx j)
  · rw [hclose.stream.received, hrb]
  · rw [hclose.stream.recvsOut, hrb]
  · rw [hclose.stream.delivered, hrb, hparse, List.append_nil]
  · rw [hparse]
    exact ⟨rfl, closeSession_closed sv' idx⟩

theorem recvLoop_consumed (C : Crypto) (idx : Nat) (sv : Server) :
    Consumed C idx sv (recvLoop C idx sv) := by
  induction sv using recvLoop.induct C idx with
  | case1 sv hwait =>
      have hfront := frameFront_of_nextFrame C (sv.sessions idx).recvBuffer
      simp only [hwait] at hfront
      have hparse := parse_of_incomplete (R := frameReader C) hfront
      rw [recvLoop, hwait]
      refine ⟨fun j _ => ⟨SameStream.refl _, rfl⟩, rfl, rfl, rfl, ?_, ?_⟩
      · rw [hparse, List.append_nil]
      · rw [hparse]
        exact ⟨rfl, rfl⟩
  | case2 sv hlong =>
      have hfront := frameFront_of_nextFrame C (sv.sessions idx).recvBuffer
      simp only [hlong] at hfront
      rw [recvLoop, hlong]
      exact consumed_of_invalid hfront (fun j _ => ⟨SameStream.refl _, rfl⟩) rfl ⟨_, rfl⟩
  | case3 sv hunder =>
      have hfront := frameFront_of_nextFrame C (sv.sessions idx).recvBuffer
      simp only [hunder] at hfront
  | case4 sv rb hbad =>
      have hfront := frameFront_of_nextFrame C (sv.sessions idx).recvBuffer
      simp only [hbad] at hfront
      rw [recvLoop, hbad]
      refine consumed_of_invalid hfront ?_ ?_ ⟨rb, ?_⟩
      · intro j hj
        exact (setSession_calm_of_ne sv idx j _ hj).trans (discardFrame_calm _ j)
      · exact (discardFrame_calm (setRecvBuffer sv idx rb) idx).used
      · simp [discardFrame, setRecvBuffer, Server.setSession]
  | case5 sv rb plain hframe ih =>
      have hfront := frameFront_of_nextFrame C (sv.sessions idx).recvBuffer
      simp only [hframe] at hfront
      obtain ⟨n, hfront, hrb⟩ := hfront
      have hfit := (frameFront_frame hfront).2.1
      rw [CRingBuffer.contents_length] at hfit
      have hsessions := deliver_sessions (setRecvBuffer sv idx rb) idx (frameFront_length hfront)
      have hhere : (deliver (setRecvBuffer sv idx rb) idx plain).sessions idx =
          { sv.sessions idx with
            recvBuffer := rb
            delivered := (sv.sessions idx).delivered ++ [plain] } := by
        rw [hsessions, Function.update_self]
        simp [setRecvBuffer, Server.setSession]
      have hparse := parse_of_frame (R := frameReader C) hfront
      have hdrop :
          ((deliver (setRecvBuffer sv idx rb) idx plain).sessions idx).recvBuffer.contents =
            (sv.sessions idx).recvBuffer.contents.drop n := by
        rw [hhere]
        simp only [hrb]
        exact CRingBuffer.contents_moveReadPos _ hfit
      rw [recvLoop, hframe]
      refine ⟨?_, ?_, ?_, ?_, ?_, ?_⟩
      · intro j hj
        refine Calm.trans ⟨?_, ?_⟩ (ih.other j hj)
        · rw [hsessions, Function.update_of_ne hj]
          exact (setSession_calm_of_ne sv idx j _ hj).stream
        · exact deliver_used _ idx plain j
      · exact ih.used.trans (deliver_used _ idx plain idx)
      · exact ih.received.trans (by rw [hhere])
      · exact ih.recvsOut.trans (by rw [hhere])
      · rw [hparse]
        have hdelivered := ih.delivered
        rw [hdrop, hhere] at hdelivered
        rw [hdelivered, List.append_assoc]
        rfl
      · rw [hparse]
        have hverdict := ih.verdict
        rw [hdrop] at hverdict
        exact hverdict

theorem postRecv_keeps (sv : Server) (idx : Nat) (accepted : Bool) (j : Nat) :
    ((sv.postRecv idx accepted).sessions j).received = (sv.sessions j).received ∧
    ((sv.postRecv idx accepted).sessions j).delivered = (sv.sessions j).delivered ∧
    ((sv.postRecv idx accepted).sessions j).recvBuffer = (sv.sessions j).recvBuffer ∧
    timesUsed (sv.postRecv idx accepted) j = timesUsed sv j ∧
    (j ≠ idx → Calm sv (sv.postRecv idx accepted) j) := by
  have hadd := ioAddRef_calm sv idx j
  cases accepted with
  | true =>
      have hother (hj : j ≠ idx) := hadd.trans (setSession_calm_of_ne (sv.ioAddRef idx) idx j
        { (sv.ioAddRef idx).sessions idx with
          recvsOut := ((sv.ioAddRef idx).sessions idx).recvsOut + 1 } hj)
      rcases eq_or_ne j idx with rfl | hne
      · refine ⟨?_, ?_, ?_, rfl, fun hj => absurd rfl hj⟩ <;>
          simp [Server.postRecv, Server.ioAddRef, Server.setSession]
      · exact ⟨(hother hne).stream.received, (hother hne).stream.delivered,
          (hother hne).stream.recvBuffer, rfl, hother⟩
  | false =>
      have hcalm : Calm sv (sv.postRecv idx false) j :=
        hadd.trans ((closeSession_calm _ idx j).trans (ioRelease_calm _ idx j))
      exact ⟨hcalm.stream.received, hcalm.stream.delivered, hcalm.stream.recvBuffer,
        hcalm.used, fun _ => hcalm⟩

/-- All that one handler can do to the stream of a session. -/
inductive StreamStep (C : Crypto) (sv sv' : Server) (j : Nat) : Prop where
  | calm (h : Calm sv sv' j)
  | opened (hused : timesUsed sv' j = timesUsed sv j + 1)
      (hreceived : (sv'.sessions j).received = [])
      (hdelivered : (sv'.sessions j).delivered = [])
      (hempty : (sv'.sessions j).recvBuffer.contents = [])
  | failed (hout : 0 < (sv.sessions j).recvsOut) (hused : timesUsed sv' j = timesUsed sv j)
      (hreceived : (sv'.sessions j).received = (sv.sessions j).received)
      (hdelivered : (sv'.sessions j).delivered = (sv.sessions j).delivered)
      (hbuffer : (sv'.sessions j).recvBuffer = (sv.sessions j).recvBuffer)
  | completed (bytes : List UInt8) (hout : 0 < (sv.sessions j).recvsOut)
      (hused : timesUsed sv' j = timesUsed sv j)
      (hreceived : (sv'.sessions j).received = (sv.sessions j).received ++ bytes)
      (hdelivered : (sv'.sessions j).delivered = (sv.sessions j).delivered ++
        (parse (frameReader C) ((sv.sessions j).recvBuffer.contents ++ bytes)).1)
      (hverdict :
        match (parse (frameReader C) ((sv.sessions j).recvBuffer.contents ++ bytes)).2 with
        | .waiting rest => (sv'.sessions j).recvBuffer.contents = rest
        | .rejected => (sv'.sessions j).closeFlag = true ∧
            (sv'.sessions j).recvsOut = (sv.sessions j).recvsOut - 1)

theorem acceptOne_streamStep (C : Crypto) (sv : Server) (sock : Nat)
    (registered accepted : Bool) (j : Nat) :
    StreamStep C sv (sv.acceptOne sock registered accepted) j := by
  cases hpool : sv.indexPool with
  | nil =>
      simp only [Server.acceptOne, Server.allocSession, hpool]
      exact .calm ⟨SameStream.refl _, rfl⟩
  | cons idx rest =>
      simp only [Server.acceptOne, Server.allocSession, hpool]
      generalize hinit : { sv with indexPool := rest }.initSession idx sock = sv₁
      rcases eq_or_ne j idx with rfl | hne
      · have hused : timesUsed sv₁ j = timesUsed sv j + 1 := by
          simp [← hinit, timesUsed, view, Server.initSession, Server.setSession, slotCall]
        have hsession : sv₁.sessions j = (sv.sessions j).init j sock := by
          simp [← hinit, Server.initSession, Server.setSession]
        cases registered with
        | false =>
            have hclose := closeSession_calm sv₁ j j
            refine .opened (hclose.used.trans hused) ?_ ?_ ?_
            · exact hclose.stream.received.trans (by rw [hsession]; rfl)
            · exact hclose.stream.delivered.trans (by rw [hsession]; rfl)
            · exact (congrArg CRingBuffer.contents hclose.stream.recvBuffer).trans
                (by rw [hsession]; rfl)
        | true =>
            obtain ⟨hreceived, hdelivered, hbuffer, hused', -⟩ := postRecv_keeps
              ({ sv₁ with totalAccept := sv₁.totalAccept + 1 }.onClientJoin j
                (sv₁.sessions j).sID) j accepted j
            have hjoin : timesUsed ({ sv₁ with totalAccept := sv₁.totalAccept + 1 }.onClientJoin
                j (sv₁.sessions j).sID) j = timesUsed sv₁ j :=
              timesUsed_append rfl (by simp)
            refine .opened (hused'.trans (hjoin.trans hused)) ?_ ?_ ?_
            · exact hreceived.trans (by
                change (sv₁.sessions j).received = []
                rw [hsession]
                rfl)
            · exact hdelivered.trans (by
                change (sv₁.sessions j).delivered = []
                rw [hsession]
                rfl)
            · exact (congrArg CRingBuffer.contents hbuffer).trans (by
                change (sv₁.sessions j).recvBuffer.contents = []
                rw [hsession]
                rfl)
      · have hcalm : Calm sv sv₁ j := by
          rw [← hinit]
          refine ⟨(setSession_calm_of_ne sv idx j _ hne).stream, ?_⟩
          simp [timesUsed, view, Server.initSession, Server.setSession, slotCall, Ne.symm hne]
        cases registered with
        | false => exact .calm (hcalm.trans (closeSession_calm sv₁ idx j))
        | true =>
            obtain ⟨-, -, -, -, hother⟩ := postRecv_keeps
              ({ sv₁ with totalAccept := sv₁.totalAccept + 1 }.onClientJoin idx
                (sv₁.sessions idx).sID) idx accepted j
            have hjoin : Calm sv₁ ({ sv₁ with totalAccept := sv₁.totalAccept + 1 }.onClientJoin
                idx (sv₁.sessions idx).sID) j :=
              calm_of_eq rfl (timesUsed_append rfl (by simp))
            exact .calm (hcalm.trans (hjoin.trans (hother hne)))

theorem recvFailed_streamStep (C : Crypto) (sv : Server) {idx : Nat}
    (hout : 0 < (sv.sessions idx).recvsOut) (j : Nat) :
    StreamStep C sv (recvFailed sv idx) j := by
  have htail := (closeSession_calm (takeRecv sv idx []) idx j).trans (ioRelease_calm _ idx j)
  rcases eq_or_ne j idx with rfl | hne
  · refine .failed hout htail.used ?_ ?_ ?_
    · exact htail.stream.received.trans (by simp [takeRecv, Server.setSession])
    · exact htail.stream.delivered.trans (by simp [takeRecv, Server.setSession])
    · exact htail.stream.recvBuffer.trans
        (by simp [takeRecv, Server.setSession, CRingBuffer.receive])
  · exact .calm ((setSession_calm_of_ne sv idx j _ hne).trans htail)

theorem resumeRecv_keeps (idx : Nat) (accepted : Bool) (out : Server × Bool) (j : Nat) :
    ((resumeRecv idx accepted out).sessions j).received = (out.1.sessions j).received ∧
    ((resumeRecv idx accepted out).sessions j).delivered = (out.1.sessions j).delivered ∧
    ((resumeRecv idx accepted out).sessions j).recvBuffer = (out.1.sessions j).recvBuffer ∧
    timesUsed (resumeRecv idx accepted out) j = timesUsed out.1 j ∧
    (j ≠ idx → Calm out.1 (resumeRecv idx accepted out) j) := by
  simp only [resumeRecv]
  split
  · exact ⟨rfl, rfl, rfl, rfl, fun _ => ⟨SameStream.refl _, rfl⟩⟩
  · split
    · have hclose := closeSession_calm out.1 idx j
      exact ⟨hclose.stream.received, hclose.stream.delivered, hclose.stream.recvBuffer,
        hclose.used, fun _ => hclose⟩
    · exact postRecv_keeps out.1 idx accepted j

theorem recvDone_received (C : Crypto) (sv : Server) (idx : Nat) (bytes : List UInt8)
    (accepted : Bool) : ((recvDone C sv idx bytes accepted).sessions idx).received =
      (sv.sessions idx).received ++ bytes := by
  simp only [recvDone, onRecvComplete]
  rw [(ioRelease_calm _ idx idx).stream.received, (resumeRecv_keeps idx accepted _ idx).1,
    (recvLoop_consumed C idx _).received]
  simp [takeRecv, setRecvBuffer, Server.setSession]

theorem recvDone_streamStep (C : Crypto) (sv : Server) {idx : Nat} {bytes : List UInt8}
    (hout : 0 < (sv.sessions idx).recvsOut)
    (hfit : bytes.length ≤ (sv.sessions idx).recvBuffer.directEnqueueSize)
    (accepted : Bool) (j : Nat) : StreamStep C sv (recvDone C sv idx bytes accepted) j := by
  simp only [recvDone, onRecvComplete]
  generalize hin : setRecvBuffer _ idx _ = sv₁
  have hsession : sv₁.sessions idx =
      { sv.sessions idx with
        recvBuffer := ((sv.sessions idx).recvBuffer.receive bytes).moveWritePos bytes.length
        received := (sv.sessions idx).received ++ bytes
        recvsOut := (sv.sessions idx).recvsOut - 1 } := by
    simp [← hin, takeRecv, setRecvBuffer, Server.setSession]
  have hcontents : (sv₁.sessions idx).recvBuffer.contents =
      (sv.sessions idx).recvBuffer.contents ++ bytes := by
    rw [hsession]
    exact CRingBuffer.contents_receive _ hfit
  have hloop := recvLoop_consumed C idx sv₁
  generalize recvLoop C idx sv₁ = out at hloop ⊢
  obtain ⟨hreceived, hdelivered, hbuffer, hused, hother⟩ := resumeRecv_keeps idx accepted out j
  have hend := ioRelease_calm (resumeRecv idx accepted out) idx j
  rcases eq_or_ne j idx with rfl | hne
  · have hused₁ : timesUsed sv₁ j = timesUsed sv j := by
      rw [← hin]
      rfl
    refine .completed bytes hout ?_ ?_ ?_ ?_
    · exact hend.used.trans (hused.trans (hloop.used.trans hused₁))
    · rw [hend.stream.received, hreceived, hloop.received, hsession]
    · rw [hend.stream.delivered, hdelivered, hloop.delivered, hcontents, hsession]
    · have hverdict := hloop.verdict
      rw [hcontents] at hverdict
      split at hverdict
      · rw [hend.stream.recvBuffer, hbuffer]
        exact hverdict.2
      · obtain ⟨hgo, hclosed⟩ := hverdict
        have hsame : resumeRecv j accepted out = out.1 := by
          simp [resumeRecv, hgo]
        rw [hsame] at hend ⊢
        refine ⟨hend.stream.closed hclosed, ?_⟩
        rw [hend.stream.recvsOut, hloop.recvsOut, hsession]
  · refine .calm (Calm.trans ?_ ((hloop.other j hne).trans ((hother hne).trans hend)))
    rw [← hin]
    exact (setSession_calm_of_ne sv idx j _ hne).trans (setSession_calm_of_ne _ idx j _ hne)

theorem netStep_streamStep (C : Crypto) {sv sv' : Server} {e : NetEvent}
    (h : netStep C sv e = some sv') (j : Nat) : StreamStep C sv sv' j := by
  cases e with
  | accept sock registered accepted =>
      exact Option.some.inj h ▸ acceptOne_streamStep C sv sock registered accepted j
  | recvDone idx bytes accepted =>
      simp only [netStep, Option.ite_none_right_eq_some] at h
      obtain ⟨⟨-, hout, -, hfit⟩, hsv⟩ := h
      exact Option.some.inj hsv ▸ recvDone_streamStep C sv hout hfit accepted j
  | recvFailed idx =>
      simp only [netStep, Option.ite_none_right_eq_some] at h
      obtain ⟨⟨-, hout⟩, hsv⟩ := h
      exact Option.some.inj hsv ▸ recvFailed_streamStep C sv hout j
  | sendDone idx accepted =>
      simp only [netStep, Option.ite_none_right_eq_some] at h
      exact .calm (Option.some.inj h.2 ▸ sendDone_calm sv idx j accepted)
  | sendFailed idx =>
      simp only [netStep, Option.ite_none_right_eq_some] at h
      exact .calm (Option.some.inj h.2 ▸ sendFailed_calm sv idx j)
  | sendPacket sid p accepted =>
      simp only [netStep, Option.ite_none_right_eq_some] at h
      exact .calm (Option.some.inj h.2 ▸ sendPacket_calm sv j sid p accepted)
  | disconnect sid =>
      simp only [netStep, Option.ite_none_right_eq_some] at h
      exact .calm (Option.some.inj h.2 ▸ disconnect_calm sv j sid)

/-- The session has delivered what the reference parser makes of the bytes it
received; the ring buffer holds the rest, unless the stream was rejected. -/
def StreamOk (C : Crypto) (s : Session) : Prop :=
  s.delivered = (parse (frameReader C) s.received).1 ∧
  match (parse (frameReader C) s.received).2 with
  | .waiting rest => s.recvBuffer.contents = rest
  | .rejected => s.closeFlag = true ∧ s.recvsOut = 0

theorem streamOk_of_empty (C : Crypto) {s : Session} (hreceived : s.received = [])
    (hdelivered : s.delivered = []) (hempty : s.recvBuffer.contents = []) :
    StreamOk C s := by
  have hparse : parse (frameReader C) [] = ([], .waiting []) := parse_of_incomplete rfl
  rw [StreamOk, hreceived, hparse]
  exact ⟨hdelivered, hempty⟩

theorem StreamOk.waiting {C : Crypto} {s : Session} (h : StreamOk C s)
    (hout : 0 < s.recvsOut) :
    (parse (frameReader C) s.received).2 = .waiting s.recvBuffer.contents := by
  obtain ⟨-, hverdict⟩ := h
  split at hverdict
  · rename_i rest hwaiting
    rw [hwaiting, hverdict]
  · omega

theorem StreamOk.step {C : Crypto} {sv sv' : Server} {j : Nat}
    (h : StreamOk C (sv.sessions j)) (hle : (sv.sessions j).recvsOut ≤ 1)
    (hstep : StreamStep C sv sv' j) : StreamOk C (sv'.sessions j) := by
  cases hstep with
  | calm hcalm =>
      obtain ⟨hreceived, hdelivered, hbuffer, hrecvs, hclosed⟩ := hcalm.stream
      rw [StreamOk, hreceived, hdelivered, hbuffer, hrecvs]
      refine ⟨h.1, ?_⟩
      have hverdict := h.2
      split at hverdict
      · exact hverdict
      · exact ⟨hclosed hverdict.1, hverdict.2⟩
  | opened _ hreceived hdelivered hempty =>
      exact streamOk_of_empty C hreceived hdelivered hempty
  | failed hout _ hreceived hdelivered hbuffer =>
      have hwaiting := h.waiting hout
      rw [StreamOk, hreceived, hdelivered, hbuffer, hwaiting]
      exact ⟨h.1, rfl⟩
  | completed bytes hout _ hreceived hdelivered hverdict =>
      have hparse := parse_append_of_waiting bytes (h.waiting hout)
      rw [StreamOk, hreceived, hparse]
      refine ⟨by rw [hdelivered, h.1], ?_⟩
      simp only
      split at hverdict
      · exact hverdict
      · exact ⟨hverdict.1, by omega⟩

theorem quiet_of_no_recv (C : Crypto) {sv sv' : Server} {idx : Nat}
    (hnone : (sv.sessions idx).recvsOut = 0) {events : List NetEvent}
    (hrun : run (netStep C) sv events = some sv') :
    timesUsed sv idx ≤ timesUsed sv' idx ∧
    (timesUsed sv' idx = timesUsed sv idx →
      (sv'.sessions idx).delivered = (sv.sessions idx).delivered ∧
      (sv'.sessions idx).recvsOut = 0) := by
  refine invariant_of_run (netStep C) (J := fun t => timesUsed sv idx ≤ timesUsed t idx ∧
    (timesUsed t idx = timesUsed sv idx →
      (t.sessions idx).delivered = (sv.sessions idx).delivered ∧
      (t.sessions idx).recvsOut = 0)) ?_ ⟨le_refl _, fun _ => ⟨rfl, hnone⟩⟩ hrun
  rintro t e u ⟨hle, hquiet⟩ hstep
  cases netStep_streamStep C hstep idx with
  | calm h =>
      rw [h.used, h.stream.delivered, h.stream.recvsOut]
      exact ⟨hle, hquiet⟩
  | opened hused => exact ⟨by omega, fun _ => by omega⟩
  | failed hout hused => exact ⟨by omega, fun hsame => by have := (hquiet (by omega)).2; omega⟩
  | completed bytes hout hused =>
      exact ⟨by omega, fun hsame => by have := (hquiet (by omega)).2; omega⟩

/-- The loop of `OnRecvComplete` cut off after a number of turns. -/
def recvTurns (C : Crypto) (idx : Nat) : Nat → Server → Option (Server × Bool)
  | 0, _ => none
  | turns + 1, sv =>
      match nextFrame C (sv.sessions idx).recvBuffer with
      | .wait => some (sv, true)
      | .tooLong => some (sv.closeSession idx, false)
      | .underflow => some (sv, false)
      | .badMac rb => some ((discardFrame (setRecvBuffer sv idx rb)).closeSession idx, false)
      | .frame rb plain => recvTurns C idx turns (deliver (setRecvBuffer sv idx rb) idx plain)

theorem recvTurns_eq (C : Crypto) (idx : Nat) {turns : Nat} {sv : Server}
    (h : (sv.sessions idx).recvBuffer.useSize < turns) :
    recvTurns C idx turns sv = some (recvLoop C idx sv) := by
  induction turns generalizing sv with
  | zero => omega
  | succ turns ih =>
      cases hnext : nextFrame C (sv.sessions idx).recvBuffer with
      | frame rb plain =>
          have hlt := nextFrame_frame_lt hnext
          rw [recvTurns, recvLoop, hnext]
          apply ih
          rw [deliver_recvBuffer]
          simp only [setRecvBuffer, Server.setSession, Function.update_self]
          omega
      | _ => rw [recvTurns, recvLoop, hnext]

/-- In every run, each session has delivered exactly what the reference parser
outputs on the bytes it received; after a rejected frame it is closed for good.
The loop reads in full whatever it asks for and ends within as many turns as
there are bytes. -/
theorem delivered_eq_parse (C : Crypto) {maxSession : Nat} (hmax : maxSession ≤ 2 ^ 16)
    {events : List NetEvent} {sv : Server}
    (hrun : run (netStep C) (Server.start maxSession) events = some sv) (idx : Nat)
    (hidx : idx < maxSession) :
    (sv.sessions idx).delivered =
      (parse (frameReader C) (sv.sessions idx).received).1 ∧
    ((parse (frameReader C) (sv.sessions idx).received).2 = .rejected →
      (sv.sessions idx).closeFlag = true ∧ (sv.sessions idx).recvsOut = 0 ∧
      ∀ more sv', run (netStep C) sv more = some sv' →
        timesUsed sv' idx = timesUsed sv idx →
        (sv'.sessions idx).delivered = (sv.sessions idx).delivered ∧
        (sv'.sessions idx).recvsOut = 0) ∧
    (∀ rb, ReadsInFull C rb) ∧
    (∀ t : Server, recvTurns C idx ((t.sessions idx).recvBuffer.useSize + 1) t =
      some (recvLoop C idx t)) := by
  have hinv : SlotsOk sv maxSession 0 0 ∧ StreamOk C (sv.sessions idx) := by
    refine invariant_of_run (netStep C)
      (J := fun t => SlotsOk t maxSession 0 0 ∧ StreamOk C (t.sessions idx)) ?_
      ⟨start_slotsOk maxSession, streamOk_of_empty C rfl rfl rfl⟩ hrun
    rintro t e u ⟨hslots, hstream⟩ hstep
    refine ⟨netStep_slotsOk C hslots (Or.inl hmax) hstep, ?_⟩
    exact hstream.step ((hslots.of_zero idx).here hidx).recvsOut_le
      (netStep_streamStep C hstep idx)
  obtain ⟨hdelivered, hverdict⟩ := hinv.2
  refine ⟨hdelivered, ?_, readsInFull C, ?_⟩
  · intro hrejected
    rw [hrejected] at hverdict
    refine ⟨hverdict.1, hverdict.2, ?_⟩
    intro more sv' hmore
    exact (quiet_of_no_recv C hverdict.2 hmore).2
  · intro t
    exact recvTurns_eq C idx (by omega)

/-- A frame that comes in two pieces is delivered once; a header that announces 65535 bytes,
begun in the second piece, is all the client needs to be cut off. -/
theorem delivered_before_long_header :
    ∃ sv, run (netStep Crypto.none) (Server.start 1)
      [.accept 7 true true, .recvDone 0 ([4, 0] ++ List.replicate 20 0) true,
        .recvDone 0 (List.replicate 8 0 ++ [2, 0, 1, 0] ++ List.replicate 10 255) true,
        .recvDone 0 (List.replicate 20 255) true] = some sv ∧
      (sv.sessions 0).delivered = [[2, 0, 1, 0]] ∧ (sv.sessions 0).closeFlag = true ∧
      (sv.sessions 0).recvsOut = 0 := by
  have hreceived : ((run (netStep Crypto.none) (Server.start 1)
      [.accept 7 true true, .recvDone 0 ([4, 0] ++ List.replicate 20 0) true,
        .recvDone 0 (List.replicate 8 0 ++ [2, 0, 1, 0] ++ List.replicate 10 255) true,
        .recvDone 0 (List.replicate 20 255) true]).map fun sv => (sv.sessions 0).received) =
      some ([4, 0] ++ List.replicate 28 0 ++ [2, 0, 1, 0] ++ List.replicate 30 255) := by
    decide +kernel
  obtain ⟨sv, hrun, hsv⟩ := Option.map_eq_some_iff.mp hreceived
  have hlong : parse (frameReader Crypto.none) (List.replicate 30 255) = ([], .rejected) :=
    parse_of_invalid rfl
  have hparse : parse (frameReader Crypto.none)
      ([4, 0] ++ List.replicate 28 0 ++ [2, 0, 1, 0] ++ List.replicate 30 255) =
        ([[2, 0, 1, 0]], .rejected) := by
    have hfront : (frameReader Crypto.none).front
        ([4, 0] ++ List.replicate 28 0 ++ [2, 0, 1, 0] ++ List.replicate 30 255) =
          .frame [2, 0, 1, 0] 34 := rfl
    have hrest : ([4, 0] ++ List.replicate 28 0 ++ [2, 0, 1, 0] ++
        List.replicate 30 (255 : UInt8)).drop 34 = List.replicate 30 255 := rfl
    rw [parse_of_frame hfront, hrest, hlong]
  obtain ⟨hdelivered, hrejected, -⟩ :=
    delivered_eq_parse Crypto.none (by decide) hrun 0 (by decide)
  rw [hsv, hparse] at hdelivered hrejected
  exact ⟨sv, hrun, hdelivered, (hrejected rfl).1, (hrejected rfl).2.1⟩

end IocpChat.StreamReassembly
