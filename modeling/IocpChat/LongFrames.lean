import IocpChat.ClientRequests
import IocpChat.RingQueue
import IocpChat.ServerOutline

namespace IocpChat.LongFrames

open IocpChat.Protocol
open IocpChat.PacketBuffer
open IocpChat.RingBuffer
open IocpChat.LanServer
open IocpChat.ReceivePath
open IocpChat.FrameCodec
open IocpChat.FrameStream
open IocpChat.SlotSteps
open IocpChat.SlotLifecycle
open IocpChat.StreamReassembly
open IocpChat.LabelledRun

/-- An open session with a receive posted, these bytes in its ring buffer and these
payloads passed to `OnRecv` so far. -/
structure Awaits (s : Session) (held : List UInt8) (passed : List (List UInt8)) : Prop where
  isOpen : s.closeFlag = false
  posted : 0 < s.recvsOut
  contents : s.recvBuffer.contents = held
  delivered : s.delivered = passed

/-- Whatever receive completions bring the rest of the frame, the session stays open
with room for a further receive, and with the last byte the plaintext is passed on. -/
def Receivable (C : Crypto) (sv : Server) (idx : Nat) (frame plain : List UInt8) : Prop :=
  ∀ (chunks : List (List UInt8)) (sv' : Server),
    (sv.sessions idx).recvBuffer.contents ++ chunks.flatten <+: frame →
    run (netStep C) sv (chunks.map fun bytes => .recvDone idx bytes true) = some sv' →
    (sv'.sessions idx).closeFlag = false ∧ 0 < (sv'.sessions idx).recvsOut ∧
      0 < (sv'.sessions idx).recvBuffer.directEnqueueSize ∧
      (sv'.sessions idx).delivered = (sv.sessions idx).delivered ++
        if (sv.sessions idx).recvBuffer.contents ++ chunks.flatten = frame then [plain] else []

theorem recvLoop_closeFlag {C : Crypto} {idx : Nat} {sv : Server}
    (h : (recvLoop C idx sv).2 = true) :
    ((recvLoop C idx sv).1.sessions idx).closeFlag = (sv.sessions idx).closeFlag := by
  induction sv using recvLoop.induct C idx with
  | case1 sv hwait => rw [recvLoop, hwait]
  | case2 sv hlong =>
      rw [recvLoop, hlong] at h
      cases h
  | case3 sv hunder =>
      rw [recvLoop, hunder] at h
      cases h
  | case4 sv rb hbad =>
      rw [recvLoop, hbad] at h
      cases h
  | case5 sv rb plain hframe ih =>
      rw [recvLoop, hframe] at h ⊢
      refine (ih h).trans ?_
      simp [deliver, Server.onRecv, Server.setSession, setRecvBuffer]

theorem directEnqueueSize_pos_iff (rb : CRingBuffer) :
    0 < rb.directEnqueueSize ↔ rb.contents.length < 4095 := by
  have hzero := RingQueue.directEnqueueSize_eq_zero_iff rb
  have hlt := rb.useSize_lt
  rw [rb.contents_length]
  simp only [CRingBuffer.freeSize, ringbufferSize] at hzero hlt
  omega

section Completion

variable {C : Crypto} {sv : Server} {idx : Nat} {bytes held rest : List UInt8}
  {passed : List (List UInt8)}

theorem recvDone_waiting (h : Awaits (sv.sessions idx) held passed)
    (hfit : bytes.length ≤ (sv.sessions idx).recvBuffer.directEnqueueSize)
    (hparse : (parse (frameReader C) (held ++ bytes)).2 = .waiting rest) :
    (rest.length < 4095 → Awaits ((recvDone C sv idx bytes true).sessions idx) rest
      (passed ++ (parse (frameReader C) (held ++ bytes)).1)) ∧
    (4095 ≤ rest.length → ((recvDone C sv idx bytes true).sessions idx).closeFlag = true ∧
      ((recvDone C sv idx bytes true).sessions idx).delivered =
        passed ++ (parse (frameReader C) (held ++ bytes)).1) := by
  simp only [recvDone, onRecvComplete]
  generalize hin : setRecvBuffer _ idx _ = sv₁
  have hsession : sv₁.sessions idx =
      { sv.sessions idx with
        recvBuffer := ((sv.sessions idx).recvBuffer.receive bytes).moveWritePos bytes.length
        received := (sv.sessions idx).received ++ bytes
        recvsOut := (sv.sessions idx).recvsOut - 1 } := by
    simp [← hin, takeRecv, setRecvBuffer, Server.setSession]
  have hcontents : (sv₁.sessions idx).recvBuffer.contents = held ++ bytes := by
    rw [hsession, ← h.contents]
    exact CRingBuffer.contents_receive _ hfit
  have hloop := recvLoop_consumed C idx sv₁
  have hverdict := hloop.verdict
  rw [hcontents, hparse] at hverdict
  obtain ⟨hgo, hrest⟩ := hverdict
  have hopen := recvLoop_closeFlag hgo
  rw [hsession, h.isOpen] at hopen
  have hpassed := hloop.delivered
  rw [hcontents, hsession, h.delivered] at hpassed
  generalize recvLoop C idx sv₁ = out at *
  have hroom := directEnqueueSize_pos_iff (out.1.sessions idx).recvBuffer
  rw [hrest] at hroom
  have hcalm := ioRelease_calm (resumeRecv idx true out) idx idx
  have hpassed' : (((resumeRecv idx true out).ioRelease idx).sessions idx).delivered =
      passed ++ (parse (frameReader C) (held ++ bytes)).1 := by
    rw [hcalm.stream.delivered, (resumeRecv_keeps idx true out idx).2.1, hpassed]
  constructor
  · intro hshort
    have hresume : resumeRecv idx true out = out.1.postRecv idx true := by
      rw [resumeRecv, hgo, if_neg (by simp), if_neg (by omega)]
    refine ⟨?_, ?_, ?_, hpassed'⟩
    · rw [ioRelease_closeFlag, hresume]
      simpa [Server.postRecv, Server.ioAddRef, Server.setSession] using hopen
    · rw [hcalm.stream.recvsOut, hresume]
      simp [Server.postRecv, Server.ioAddRef, Server.setSession]
    · rw [hcalm.stream.recvBuffer, (resumeRecv_keeps idx true out idx).2.2.1, hrest]
  · intro hfull
    refine ⟨?_, hpassed'⟩
    rw [ioRelease_closeFlag, resumeRecv, hgo, if_neg (by simp), if_pos (by omega)]
    exact closeSession_closed out.1 idx

end Completion

theorem length_lt_of_part {part whole : List UInt8} (hpart : part <+: whole)
    (hne : part ≠ whole) : part.length < whole.length :=
  lt_of_le_of_ne hpart.length_le fun h => hne (hpart.eq_of_length h)

section Frames

variable (C : Crypto) {nonce plain : List UInt8}

theorem parse_part (hnonce : nonce.length = pktNonceSize)
    (hplain : plain.length ≤ packetBufferSize - pktHeaderSize) {part : List UInt8}
    (hpart : part <+: sealed C nonce plain) (hne : part ≠ sealed C nonce plain) :
    parse (frameReader C) part = ([], .waiting part) := by
  apply parse_of_incomplete
  have hshort : part.length < pktHeaderSize + plain.length :=
    (length_lt_of_part hpart hne).trans_eq (sealed_length C hnonce plain)
  obtain ⟨rest, hrest⟩ := hpart
  change frameFront C part = .incomplete
  rw [frameFront]
  split
  · rfl
  · rename_i hheader
    have hlen : frameLen part = plain.length := by
      rw [← frameLen_append rest (by omega), hrest]
      apply announced_sealed
      simp only [packetBufferSize, pktHeaderSize] at hplain
      omega
    rw [hlen, if_neg (by omega), if_pos hshort]

theorem parse_whole (hnonce : nonce.length = pktNonceSize)
    (hplain : plain.length ≤ packetBufferSize - pktHeaderSize) :
    parse (frameReader C) (sealed C nonce plain) = ([plain], .waiting []) := by
  have hsmall : plain.length < 65536 := by
    simp only [packetBufferSize, pktHeaderSize] at hplain
    omega
  have hlength := sealed_length C hnonce plain
  have hlen : frameLen (sealed C nonce plain) = plain.length := announced_sealed C nonce hsmall
  have hfront : (frameReader C).front (sealed C nonce plain) =
      .frame plain (pktHeaderSize + plain.length) := by
    change frameFront C _ = _
    rw [frameFront, hlen, hlength, if_neg (by omega), if_neg (by omega), if_neg (by omega),
      ← hlength, List.take_length, decode_sealed C hnonce hsmall]
  rw [parse_of_frame hfront, ← hlength, List.drop_length]
  have hempty : parse (frameReader C) [] = ([], .waiting []) := parse_of_incomplete rfl
  rw [hempty]

theorem awaits_chunks (hnonce : nonce.length = pktNonceSize) (hplain : plain.length ≤ 4065)
    {sv sv' : Server} {idx : Nat} {held : List UInt8} {passed : List (List UInt8)}
    (h : Awaits (sv.sessions idx) held passed) (hne : held ≠ sealed C nonce plain)
    {chunks : List (List UInt8)} (hpart : held ++ chunks.flatten <+: sealed C nonce plain)
    (hrun : run (netStep C) sv (chunks.map fun bytes => .recvDone idx bytes true) = some sv') :
    if held ++ chunks.flatten = sealed C nonce plain then
      Awaits (sv'.sessions idx) [] (passed ++ [plain])
    else Awaits (sv'.sessions idx) (held ++ chunks.flatten) passed := by
  have hadmitted : plain.length ≤ packetBufferSize - pktHeaderSize := hplain.trans (by decide)
  have hlength := sealed_length C hnonce plain
  simp only [pktHeaderSize] at hlength
  induction chunks generalizing sv held with
  | nil =>
      obtain rfl := Option.some.inj hrun
      simpa [hne] using h
  | cons bytes chunks ih =>
      simp only [List.flatten_cons, ← List.append_assoc] at hpart ⊢
      simp only [List.map_cons, run, netStep] at hrun
      split at hrun
      · cases hrun
      · rename_i sv₁ hstep
        simp only [Option.ite_none_right_eq_some] at hstep
        obtain ⟨⟨-, -, -, hfit⟩, hsv⟩ := hstep
        obtain rfl := Option.some.inj hsv
        have hfront := (List.prefix_append (held ++ bytes) chunks.flatten).trans hpart
        rcases eq_or_ne (held ++ bytes) (sealed C nonce plain) with heq | hne'
        · have hparse := parse_whole C hnonce hadmitted
          rw [← heq] at hparse
          obtain ⟨hgoes, -⟩ := recvDone_waiting h hfit (congrArg Prod.snd hparse)
          have hawaits := hgoes (by simp)
          rw [hparse] at hawaits
          -- nothing is left of the frame, and no completion is empty
          have hflatten : chunks.flatten = [] := by
            have hle := hpart.length_le
            rw [heq, List.length_append] at hle
            exact List.eq_nil_of_length_eq_zero (by omega)
          have hnil : chunks = [] := by
            rcases chunks with _ | ⟨bytes', chunks⟩
            · rfl
            · simp only [List.flatten_cons, List.append_eq_nil_iff] at hflatten
              simp [run, netStep, hflatten.1] at hrun
          subst hnil
          obtain rfl := Option.some.inj hrun
          simpa [heq] using hawaits
        · have hparse := parse_part C hnonce hadmitted hfront hne'
          obtain ⟨hgoes, -⟩ := recvDone_waiting h hfit (congrArg Prod.snd hparse)
          have hshort : (held ++ bytes).length < 4095 := by
            have hlt := length_lt_of_part hfront hne'
            omega
          have hawaits := hgoes hshort
          rw [hparse, List.append_nil] at hawaits
          exact ih hawaits hne' hpart hrun

theorem next_byte (hnonce : nonce.length = pktNonceSize) (hplain : plain.length = 4066)
    {sv : Server} {idx : Nat} (hidx : idx < sv.maxSession) {held : List UInt8}
    {passed : List (List UInt8)} (h : Awaits (sv.sessions idx) held passed)
    (hpart : held <+: sealed C nonce plain) (hroom : held.length < 4095) :
    ∃ (b : UInt8) (sv₁ : Server), held ++ [b] <+: sealed C nonce plain ∧
      netStep C sv (.recvDone idx [b] true) = some sv₁ ∧ sv₁.maxSession = sv.maxSession ∧
      (held.length < 4094 → Awaits (sv₁.sessions idx) (held ++ [b]) passed) ∧
      (held.length = 4094 → (sv₁.sessions idx).closeFlag = true) := by
  have hlength := sealed_length C hnonce plain
  simp only [pktHeaderSize, hplain] at hlength
  obtain ⟨b, hnext⟩ : ∃ b, held ++ [b] <+: sealed C nonce plain := by
    obtain ⟨_ | ⟨b, rest⟩, hrest⟩ := hpart
    · rw [← hrest, List.append_nil] at hlength
      omega
    · exact ⟨b, rest, by rw [← hrest, List.append_assoc, List.singleton_append]⟩
  have hdirect : [b].length ≤ (sv.sessions idx).recvBuffer.directEnqueueSize :=
    (directEnqueueSize_pos_iff (sv.sessions idx).recvBuffer).mpr (h.contents ▸ hroom)
  have hne : held ++ [b] ≠ sealed C nonce plain := by
    intro heq
    rw [← heq, List.length_append, List.length_singleton] at hlength
    omega
  have hparse := parse_part C hnonce (hplain.trans_le (by decide)) hnext hne
  obtain ⟨hgoes, hcloses⟩ := recvDone_waiting h hdirect (congrArg Prod.snd hparse)
  rw [hparse, List.append_nil, List.length_append, List.length_singleton] at hgoes
  rw [List.length_append, List.length_singleton] at hcloses
  refine ⟨b, recvDone C sv idx [b] true, hnext, ?_, ?_, ?_, ?_⟩
  · exact if_pos ⟨hidx, h.posted, Nat.one_pos, hdirect⟩
  · exact (ServerOutline.recvDone_touches sv idx C [b] true).maxSession_eq
  · intro hlt
    exact hgoes (by omega)
  · intro heq
    exact (hcloses (by omega)).1

/-- A frame that the buffer cannot hold fills it up, and the session is closed. -/
theorem chunks_close (hnonce : nonce.length = pktNonceSize) (hplain : plain.length = 4066)
    {sv : Server} {idx : Nat} (hidx : idx < sv.maxSession) {held : List UInt8}
    {passed : List (List UInt8)} (h : Awaits (sv.sessions idx) held passed)
    (hpart : held <+: sealed C nonce plain) {left : Nat}
    (hleft : held.length + (left + 1) = 4095) :
    ∃ (chunks : List (List UInt8)) (sv' : Server),
      held ++ chunks.flatten <+: sealed C nonce plain ∧
      run (netStep C) sv (chunks.map fun bytes => .recvDone idx bytes true) = some sv' ∧
      (sv'.sessions idx).closeFlag = true := by
  induction left generalizing sv held with
  | zero =>
      obtain ⟨b, sv₁, hnext, hstep, -, -, hcloses⟩ :=
        next_byte C hnonce hplain hidx h hpart (by omega)
      exact ⟨[[b]], sv₁, by simpa using hnext, by simp [run, hstep], hcloses (by omega)⟩
  | succ left ih =>
      obtain ⟨b, sv₁, hnext, hstep, hmax, hgoes, -⟩ :=
        next_byte C hnonce hplain hidx h hpart (by omega)
      obtain ⟨chunks, sv', hchunks, hrun, hclosed⟩ := ih (hmax.symm ▸ hidx) (hgoes (by omega))
        hnext (by rw [List.length_append, List.length_singleton]; omega)
      refine ⟨[b] :: chunks, sv', ?_, ?_, hclosed⟩
      · simpa using hchunks
      · rw [List.map_cons, run_cons_of_step _ hstep]
        exact hrun

end Frames

/-- Of the frames that the length check lets through, and wherever in the ring buffer
they begin, exactly those with at most 4065 bytes of plaintext can be received. -/
theorem frame_receivable_iff (C : Crypto) {nonce plain : List UInt8}
    (hnonce : nonce.length = pktNonceSize)
    (hplain : plain.length ≤ packetBufferSize - pktHeaderSize)
    {sv : Server} {idx : Nat} (hidx : idx < sv.maxSession)
    (hopen : (sv.sessions idx).closeFlag = false) (hposted : 0 < (sv.sessions idx).recvsOut)
    (hpart : (sv.sessions idx).recvBuffer.contents <+: sealed C nonce plain)
    (hne : (sv.sessions idx).recvBuffer.contents ≠ sealed C nonce plain) :
    Receivable C sv idx (sealed C nonce plain) plain ↔ plain.length ≤ 4065 := by
  have hawaits : Awaits (sv.sessions idx) (sv.sessions idx).recvBuffer.contents
      (sv.sessions idx).delivered := ⟨hopen, hposted, rfl, rfl⟩
  have hlength := sealed_length C hnonce plain
  simp only [pktHeaderSize] at hlength
  constructor
  · intro hreceivable
    by_contra hlong
    have hplain : plain.length = 4066 := le_antisymm hplain (Nat.lt_of_not_le hlong)
    obtain ⟨-, -, hdirect, -⟩ := hreceivable [] sv (by simpa using hpart) rfl
    rw [directEnqueueSize_pos_iff] at hdirect
    obtain ⟨left, hleft⟩ := Nat.exists_eq_add_of_lt hdirect
    obtain ⟨chunks, sv', hchunks, hrun, hclosed⟩ :=
      chunks_close C hnonce hplain hidx hawaits hpart hleft.symm
    have hopen' := (hreceivable chunks sv' hchunks hrun).1
    rw [hclosed] at hopen'
    cases hopen'
  · intro hshort chunks sv' hchunks hrun
    have hresult := awaits_chunks C hnonce hshort hawaits hne hchunks hrun
    split at hresult
    · rename_i hall
      have hempty : (sv'.sessions idx).recvBuffer.contents.length < 4095 := by
        rw [hresult.contents]
        decide
      exact ⟨hresult.isOpen, hresult.posted, (directEnqueueSize_pos_iff _).mpr hempty,
        by rw [hresult.delivered, if_pos hall]⟩
    · rename_i hmissing
      have hroom : (sv'.sessions idx).recvBuffer.contents.length < 4095 := by
        have hlt := length_lt_of_part hchunks hmissing
        rw [hresult.contents]
        omega
      exact ⟨hresult.isOpen, hresult.posted, (directEnqueueSize_pos_iff _).mpr hroom,
        by rw [hresult.delivered, if_neg hmissing, List.append_nil]⟩

/-- The first client has connected. -/
def connected : Server := (Server.start 1).acceptOne 7 true true

theorem connected_awaits : Awaits (connected.sessions 0) [] [] := ⟨rfl, by decide, rfl, rfl⟩

/-- The frame of `n` zeros. -/
def zeroFrame (n : Nat) : List UInt8 :=
  sealed Crypto.none (List.replicate pktNonceSize 0) (List.replicate n 0)

theorem zeroFrame_length (n : Nat) : (zeroFrame n).length = 30 + n := by
  rw [zeroFrame, sealed_length Crypto.none List.length_replicate, List.length_replicate]
  rfl

/-- A frame of 4065 zeros for the first client. -/
theorem frame_receivable_4065 :
    Receivable Crypto.none connected 0 (zeroFrame 4065) (List.replicate 4065 0) := by
  have hlength := zeroFrame_length 4065
  have hempty := connected_awaits.contents
  refine (frame_receivable_iff Crypto.none List.length_replicate ?_ (by decide)
    connected_awaits.isOpen connected_awaits.posted ?_ ?_).mpr ?_
  · rw [List.length_replicate]
    decide
  · rw [hempty]
    exact List.nil_prefix
  · rw [hempty]
    intro h
    rw [zeroFrame, ← h, List.length_nil] at hlength
    omega
  · rw [List.length_replicate]

/-- One byte more: after a completion with the first 4095 bytes of the frame the
session is closed, and nothing has been passed on. -/
theorem frame_4066_closes : ∃ sv', run (netStep Crypto.none) connected
      [.recvDone 0 ((zeroFrame 4066).take 4095) true] = some sv' ∧
    (sv'.sessions 0).closeFlag = true ∧ (sv'.sessions 0).delivered = [] := by
  have hlength := zeroFrame_length 4066
  have hpart : (zeroFrame 4066).take 4095 <+: zeroFrame 4066 := List.take_prefix _ _
  have htake : ((zeroFrame 4066).take 4095).length = 4095 := by
    rw [List.length_take, hlength]
    rfl
  generalize (zeroFrame 4066).take 4095 = part at *
  have hfit : part.length ≤ (connected.sessions 0).recvBuffer.directEnqueueSize :=
    htake.trans_le (by decide)
  have hne : part ≠ zeroFrame 4066 := by
    rintro rfl
    omega
  have hparse := parse_part Crypto.none List.length_replicate
    (by rw [List.length_replicate]; decide) hpart hne
  obtain ⟨-, hcloses⟩ := recvDone_waiting connected_awaits hfit (congrArg Prod.snd hparse)
  obtain ⟨hclosed, hnothing⟩ := hcloses htake.ge
  rw [List.nil_append, List.nil_append, hparse] at hnothing
  have hstep : netStep Crypto.none connected (.recvDone 0 part true) =
      some (recvDone Crypto.none connected 0 part true) :=
    if_pos ⟨by decide, by decide, by omega, hfit⟩
  exact ⟨_, run_cons_of_step (netStep Crypto.none) hstep [], hclosed, hnothing⟩

end IocpChat.LongFrames
