import IocpChat.ClientRequests

namespace IocpChat.ClientAgreement

open IocpChat.Protocol
open IocpChat.RingWindow
open IocpChat.PacketBuffer
open IocpChat.FrameCodec
open IocpChat.ContentHandlers
open IocpChat.LanServer
open IocpChat.RoomMembership
open IocpChat.ContentSteps
open IocpChat.ChatRuns
open IocpChat.ClientRequests

/-- What the fields of a packet say. -/
inductive Answer : List (List UInt8) → DummyClient.Shown → Prop
  | loginRes (rc : ResultCode) (userNo : BitVec 32) (nickname : List UInt16)
      (hnickname : nickname.length = maxNicknameLen) :
      Answer [wordBytes PacketType.scLoginRes.code, [rc.code], intBytes userNo,
          nickname.flatMap wordBytes]
        (.loginRes rc.code userNo (nickname.flatMap wordBytes))
  | signupRes (rc : ResultCode) (userNo : BitVec 32) :
      Answer [wordBytes PacketType.scSignupRes.code, [rc.code], intBytes userNo]
        (.signupRes rc.code userNo)
  | roomEnterRes (rc : ResultCode) (no : UInt16) :
      Answer [wordBytes PacketType.scRoomEnterRes.code, [rc.code], wordBytes no]
        (.roomEnterRes rc.code no)
  | chatRes (pl : CPlayer) (chatLen : UInt16) (chat : List UInt8)
      (hlength : chat.length = chatLen.toNat) (hchat : chat.length ≤ maxChatLen) :
      Answer [wordBytes PacketType.scChatRes.code, pl.nicknameField, wordBytes chatLen, chat]
        (.chatRes pl.nicknameField chat)
  | userJoin (pl : CPlayer) :
      Answer [wordBytes PacketType.scUserJoin.code, pl.nicknameField] (.userJoin pl.nicknameField)
  | userLeave (pl : CPlayer) :
      Answer [wordBytes PacketType.scUserLeave.code, pl.nicknameField]
        (.userLeave pl.nicknameField)

section Handlers

variable (c : Content) {fields : List (List UInt8)} {targets : List SessionID}

theorem readPacket_length {pkt : CPacket} {len : Nat} {bytes : List UInt8}
    (h : (pkt.readPacket len).1 = some bytes) : bytes.length = len := by
  simp only [CPacket.readPacket] at h
  split at h
  · rw [← Option.some.inj h, slice_length]
  · simp at h

theorem handleChat_answer (env : Env) (sid : SessionID) (pkt : CPacket)
    (h : Effect.send fields targets ∈ (handleChat env c sid pkt).2) :
    ∃ shown, Answer fields shown := by
  simp only [handleChat] at h
  generalize (pkt.readWord env.chatLen).1 = chatLen at h
  generalize (pkt.readWord env.chatLen).2 = pkt' at h
  split at h
  · simp at h
  · rename_i hlen
    split at h
    · simp at h
    · split at h
      · simp at h
      · split at h
        · simp at h
        · obtain ⟨rfl, -⟩ := Effect.send.inj (List.mem_singleton.mp h)
          -- The text is as long as announced whether or not it could be read.
          rcases hread : pkt'.readPacket chatLen.toNat with ⟨_ | bytes, pkt''⟩
          · exact ⟨_, .chatRes _ chatLen _ (slice_length _ _ _) (by simpa using hlen)⟩
          · have hbytes := readPacket_length (congrArg Prod.fst hread)
            have hshort : bytes.length ≤ maxChatLen := by omega
            exact ⟨_, .chatRes _ chatLen bytes hbytes hshort⟩

theorem handleRoomEnter_answer (env : Env) (sid : SessionID) (pkt : CPacket)
    (h : Effect.send fields targets ∈ (handleRoomEnter env c sid pkt).2) :
    ∃ shown, Answer fields shown := by
  rcases fields_of_handleRoomEnter h with ⟨no, rfl⟩ | ⟨pl, rfl⟩
  · exact ⟨_, .roomEnterRes .success no⟩
  · exact ⟨_, .userJoin pl⟩

theorem handleRoomLeave_answer (env : Env) (sid : SessionID)
    (h : Effect.send fields targets ∈ (handleRoomLeave env c sid).2) :
    ∃ shown, Answer fields shown := by
  obtain ⟨pl, rfl⟩ := fields_of_handleRoomLeave h
  exact ⟨_, .userLeave pl⟩

theorem handleRecv_answer (env : Env) (sid : SessionID) (pkt : CPacket)
    (h : Effect.send fields targets ∈ (handleRecv env c sid pkt).2) :
    ∃ shown, Answer fields shown := by
  cases dispatch env sid pkt with
  | login _ hlogin => exact absurd (hlogin c ▸ h) (send_not_mem_handleLogin env c sid _ _ _)
  | signUp _ hsignUp => exact absurd (hsignUp c ▸ h) (send_not_mem_handleSignUp env c sid _ _ _)
  | roomEnter _ henter => exact handleRoomEnter_answer c env sid _ (henter c ▸ h)
  | roomLeave _ hleave => exact handleRoomLeave_answer c env sid (hleave c ▸ h)
  | chat _ hchat => exact handleChat_answer c env sid _ (hchat c ▸ h)
  | unknown _ _ hunknown => simp [hunknown] at h

theorem handleDbResult_answer (toAcp : List UInt16 → List UInt8) (r : DBResult)
    (h : Effect.send fields targets ∈ (handleDbResult toAcp c r).2) :
    ∃ shown, Answer fields shown := by
  simp only [handleDbResult] at h
  split at h
  · simp at h
  · split at h
    · obtain ⟨rfl, -⟩ := Effect.send.inj (List.mem_singleton.mp h)
      exact ⟨_, .loginRes _ _ _ (slice_length _ _ _)⟩
    · obtain ⟨rfl, -⟩ := Effect.send.inj (List.mem_singleton.mp h)
      exact ⟨_, .signupRes _ _⟩

/-- Every packet that a handler builds is one of the answers. -/
theorem answer_of_outcome (toAcp : List UInt16 → List UInt8) (e : Event)
    (h : Effect.send fields targets ∈ (outcome toAcp c e).2) : ∃ shown, Answer fields shown := by
  cases e with
  | join env sid => simp [outcome] at h
  | leave sid => simp [outcome] at h
  | recv env sid pkt => exact handleRecv_answer c env sid pkt h
  | dbResult r => exact handleDbResult_answer c toAcp r h

end Handlers

section Frames

/-- The bytes that `FlushSend` passes to `WSASend` for a packet. -/
def wireBytes (sv : Server) (p : PacketRef) : List UInt8 :=
  slice (sv.packets p).buffer 0 (sv.packets p).getPacketSize

theorem written_writePacket (p : CPacket) {src : List UInt8}
    (h : p.writePos + src.length ≤ packetBufferSize) :
    written (p.writePacket src) = written p ++ src := by
  have hheader := p.header_le_readPos.trans p.readPos_le_writePos
  simp only [written, CPacket.writePacket, h, dite_true]
  rw [show p.writePos + src.length - pktHeaderSize =
    (p.writePos - pktHeaderSize) + src.length by omega, slice_add,
    show pktHeaderSize + (p.writePos - pktHeaderSize) = p.writePos by omega, slice_blit_self,
    slice_blit_of_disjoint _ _ (.inl (by omega))]

theorem written_writePackets (fields : List (List UInt8)) (p : CPacket)
    (h : p.writePos + fields.flatten.length ≤ packetBufferSize) :
    written (fields.foldl CPacket.writePacket p) = written p ++ fields.flatten := by
  induction fields generalizing p with
  | nil => simp
  | cons field fields ih =>
      rw [List.flatten_cons, List.length_append] at h
      have hfit : p.writePos + field.length ≤ packetBufferSize := by omega
      have hpos : (p.writePacket field).writePos = p.writePos + field.length := by
        simp [CPacket.writePacket, hfit]
      rw [List.foldl_cons, ih _ (by omega), written_writePacket p hfit, List.flatten_cons,
        List.append_assoc]

theorem alloc_writePos (sv : Server) :
    (sv.alloc.2.packets sv.alloc.1).writePos = pktHeaderSize := by
  simp only [Server.alloc]
  split <;> simp [Server.setPacket, CPacket.clear, CPacket.new]

theorem wireBytes_buildPacket (C : Crypto) {nonce : List UInt8}
    (hnonce : nonce.length = pktNonceSize) (fields : List (List UInt8))
    (hfields : pktHeaderSize + fields.flatten.length ≤ packetBufferSize) (sv : Server) :
    wireBytes (buildPacket C nonce fields sv).2 (buildPacket C nonce fields sv).1 =
      sealed C nonce fields.flatten := by
  have hpos := alloc_writePos sv
  have hwritten := written_writePackets fields (sv.alloc.2.packets sv.alloc.1) (by omega)
  have hempty : written (sv.alloc.2.packets sv.alloc.1) = [] := by
    rw [written, hpos, Nat.sub_self, slice_zero]
  rw [hempty, List.nil_append] at hwritten
  rw [← hwritten, ← slice_setHeader C hnonce]
  simp [wireBytes, buildPacket, Server.setPacket]

theorem recvLoop_sealed (C : Crypto) (fresh : List UInt8 → Nat → UInt8) {nonce plain : List UInt8}
    (hnonce : nonce.length = pktNonceSize) (hplain : plain.length < 65536)
    (rest : List UInt8) :
    ∃ old, DummyClient.recvLoop C fresh (sealed C nonce plain ++ rest) =
      (DummyClient.showMessage (blit old 0 plain) :: (DummyClient.recvLoop C fresh rest).1,
        (DummyClient.recvLoop C fresh rest).2) := by
  have hlength := sealed_length C hnonce plain
  have hlen : DummyClient.payloadLen (sealed C nonce plain ++ rest) = plain.length := by
    have hfront := StreamReassembly.frameLen_append rest
      (s := sealed C nonce plain) (by omega)
    exact hfront.trans (announced_sealed C nonce hplain)
  have hheader : DummyClient.pktHeaderSize = pktHeaderSize := rfl
  have htake : (sealed C nonce plain ++ rest).take (pktHeaderSize + plain.length) =
      sealed C nonce plain := by
    rw [← hlength, List.take_left]
  have hdrop : (sealed C nonce plain ++ rest).drop (pktHeaderSize + plain.length) = rest := by
    rw [← hlength, List.drop_left]
  refine ⟨fresh (sealed C nonce plain ++ rest), ?_⟩
  rw [DummyClient.recvLoop, hheader, hlen, List.length_append, hlength, if_neg (by omega),
    if_neg (by omega), htake, hdrop, clientDecode_eq, decode_sealed C hnonce hplain]

theorem recvLoop_partial (C : Crypto) (fresh : List UInt8 → Nat → UInt8)
    {nonce plain : List UInt8} (hnonce : nonce.length = pktNonceSize)
    (hplain : plain.length < 65536) {k : Nat} (hk : k < (sealed C nonce plain).length) :
    DummyClient.recvLoop C fresh ((sealed C nonce plain).take k) =
      ([], some ((sealed C nonce plain).take k)) := by
  have hheader : DummyClient.pktHeaderSize = pktHeaderSize := rfl
  have hlength := sealed_length C hnonce plain
  have htake : ((sealed C nonce plain).take k).length = k := by
    rw [List.length_take]
    omega
  rw [DummyClient.recvLoop, htake, hheader]
  split
  · rfl
  · rename_i hshort
    have hlen : DummyClient.payloadLen ((sealed C nonce plain).take k) = plain.length :=
      (StreamReassembly.frameLen_take (by omega)).trans (announced_sealed C nonce hplain)
    rw [hlen, if_pos (by omega)]

end Frames

section Fields

variable {m : Nat → UInt8} {pos : Nat}

theorem slice_shift (m : Nat → UInt8) (k pos len : Nat) :
    slice (fun i => m (k + i)) pos len = slice m (k + pos) len := by
  simp only [slice, Nat.add_assoc]

theorem slice_field (m : Nat → UInt8) (front : List (List UInt8)) (field : List UInt8)
    (back : List (List UInt8)) {pos len : Nat} (hpos : front.flatten.length = pos)
    (hlen : field.length = len) :
    slice (blit m 0 (front ++ field :: back).flatten) pos len = field := by
  subst hpos hlen
  rw [List.flatten_append, List.flatten_cons,
    slice_blit_zero _ _ (by simp only [List.length_append]; omega), List.drop_left,
    List.take_left]

theorem readWord_of_slice {w : UInt16} (h : slice m pos 2 = wordBytes w) :
    DummyClient.readWord m pos = w := by
  have hcells : slice m pos 2 = [m pos, m (pos + 1)] := rfl
  rw [hcells] at h
  simp only [wordBytes, List.cons.injEq, and_true] at h
  rw [DummyClient.readWord, h.1, h.2]
  exact leWord_wordBytes w

theorem readInt_of_slice {v : BitVec 32} (h : slice m pos 4 = intBytes v) :
    DummyClient.readInt m pos = v := by
  have hcells : slice m pos 4 = [m pos, m (pos + 1), m (pos + 2), m (pos + 3)] := rfl
  rw [hcells] at h
  simp only [intBytes, List.cons.injEq, and_true] at h
  obtain ⟨h0, h1, h2, h3⟩ := h
  have hv := v.isLt
  rw [DummyClient.readInt, h0, h1, h2, h3]
  apply BitVec.eq_of_toNat_eq
  simp only [BitVec.toNat_ofNat, UInt8.toNat_ofNat']
  omega

theorem readByte_of_slice {b : UInt8} (h : slice m pos 1 = [b]) : m pos = b :=
  (List.cons.inj h).1

theorem nicknameField_length (pl : CPlayer) : pl.nicknameField.length = maxNicknameLen :=
  slice_length _ _ _

end Fields

section Shown

variable (old : Nat → UInt8)

theorem show_loginRes (rc : ResultCode) (userNo : BitVec 32) {nickname : List UInt16}
    (hnickname : nickname.length = maxNicknameLen) :
    DummyClient.showMessage (blit old 0 [wordBytes PacketType.scLoginRes.code, [rc.code],
        intBytes userNo, nickname.flatMap wordBytes].flatten) =
      .loginRes rc.code userNo (nickname.flatMap wordBytes) := by
  set type := wordBytes PacketType.scLoginRes.code
  set nick := nickname.flatMap wordBytes with hnick
  have hlength : nick.length = 64 := by
    have hwide := wideBytes_length nickname
    rw [hnickname] at hwide
    exact hwide
  set plain := blit old 0 [type, [rc.code], intBytes userNo, nick].flatten
  have htype : DummyClient.readWord plain 0 = PacketType.scLoginRes.code :=
    readWord_of_slice (slice_field old [] type [[rc.code], intBytes userNo, nick] rfl rfl)
  have hrc : plain (2 + 0) = rc.code :=
    readByte_of_slice (slice_field old [type] [rc.code] [intBytes userNo, nick] rfl rfl)
  have hno : DummyClient.readInt (fun i => plain (2 + i)) 1 = userNo := by
    apply readInt_of_slice
    rw [slice_shift]
    exact slice_field old [type, [rc.code]] (intBytes userNo) [nick] rfl rfl
  have hnick : slice (fun i => plain (2 + i)) 5 (2 * DummyClient.maxNicknameLen) = nick := by
    rw [slice_shift]
    exact slice_field old [type, [rc.code], intBytes userNo] nick [] rfl hlength
  simp only [DummyClient.showMessage, htype, hrc, hno, hnick]
  rfl

theorem show_signupRes (rc : ResultCode) (userNo : BitVec 32) :
    DummyClient.showMessage (blit old 0 [wordBytes PacketType.scSignupRes.code, [rc.code],
        intBytes userNo].flatten) = .signupRes rc.code userNo := by
  set type := wordBytes PacketType.scSignupRes.code
  set plain := blit old 0 [type, [rc.code], intBytes userNo].flatten
  have htype : DummyClient.readWord plain 0 = PacketType.scSignupRes.code :=
    readWord_of_slice (slice_field old [] type [[rc.code], intBytes userNo] rfl rfl)
  have hrc : plain (2 + 0) = rc.code :=
    readByte_of_slice (slice_field old [type] [rc.code] [intBytes userNo] rfl rfl)
  have hno : DummyClient.readInt (fun i => plain (2 + i)) 1 = userNo := by
    apply readInt_of_slice
    rw [slice_shift]
    exact slice_field old [type, [rc.code]] (intBytes userNo) [] rfl rfl
  simp only [DummyClient.showMessage, htype, hrc, hno]
  rfl

theorem show_roomEnterRes (rc : ResultCode) (no : UInt16) :
    DummyClient.showMessage (blit old 0 [wordBytes PacketType.scRoomEnterRes.code, [rc.code],
        wordBytes no].flatten) = .roomEnterRes rc.code no := by
  set type := wordBytes PacketType.scRoomEnterRes.code
  set plain := blit old 0 [type, [rc.code], wordBytes no].flatten
  have htype : DummyClient.readWord plain 0 = PacketType.scRoomEnterRes.code :=
    readWord_of_slice (slice_field old [] type [[rc.code], wordBytes no] rfl rfl)
  have hrc : plain (2 + 0) = rc.code :=
    readByte_of_slice (slice_field old [type] [rc.code] [wordBytes no] rfl rfl)
  have hno : DummyClient.readWord (fun i => plain (2 + i)) 1 = no := by
    apply readWord_of_slice
    rw [slice_shift]
    exact slice_field old [type, [rc.code]] (wordBytes no) [] rfl rfl
  simp only [DummyClient.showMessage, htype, hrc, hno]
  rfl

theorem show_chatRes (pl : CPlayer) {chatLen : UInt16} {chat : List UInt8}
    (hlength : chat.length = chatLen.toNat) (hchat : chat.length ≤ maxChatLen) :
    DummyClient.showMessage (blit old 0 [wordBytes PacketType.scChatRes.code, pl.nicknameField,
        wordBytes chatLen, chat].flatten) = .chatRes pl.nicknameField chat := by
  set type := wordBytes PacketType.scChatRes.code with htypeBytes
  have hnickLen := nicknameField_length pl
  set nick := pl.nicknameField
  set plain := blit old 0 [type, nick, wordBytes chatLen, chat].flatten
  have hfront : [type, nick].flatten.length = 2 + maxNicknameLen := by
    simp [htypeBytes, hnickLen]
  have htype : DummyClient.readWord plain 0 = PacketType.scChatRes.code :=
    readWord_of_slice (slice_field old [] type [nick, wordBytes chatLen, chat] rfl rfl)
  have hnick : slice (fun i => plain (2 + i)) 0 DummyClient.maxNicknameLen = nick := by
    rw [slice_shift]
    exact slice_field old [type] nick [wordBytes chatLen, chat] rfl hnickLen
  have hlen : DummyClient.readWord (fun i => plain (2 + i)) DummyClient.maxNicknameLen =
      chatLen := by
    apply readWord_of_slice
    rw [slice_shift]
    exact slice_field old [type, nick] (wordBytes chatLen) [chat] hfront rfl
  have hcopy : (if chatLen.toNat < DummyClient.maxChatLen then chatLen.toNat
      else DummyClient.maxChatLen) = chat.length := by
    have hmax : DummyClient.maxChatLen = maxChatLen := rfl
    rw [hmax, hlength]
    split
    · rfl
    · omega
  have htext : slice (fun i => plain (2 + i)) (DummyClient.maxNicknameLen + 2) chat.length =
      chat := by
    rw [slice_shift]
    refine slice_field old [type, nick, wordBytes chatLen] chat [] ?_ rfl
    simp [htypeBytes, hnickLen, maxNicknameLen, DummyClient.maxNicknameLen]
  simp only [DummyClient.showMessage, htype, hnick, hlen, hcopy, htext]
  rfl

theorem slices_of_notice (type : UInt16) (pl : CPlayer) :
    DummyClient.readWord (blit old 0 [wordBytes type, pl.nicknameField].flatten) 0 = type ∧
      slice (fun i => blit old 0 [wordBytes type, pl.nicknameField].flatten (2 + i)) 0
        DummyClient.maxNicknameLen = pl.nicknameField := by
  constructor
  · exact readWord_of_slice (slice_field old [] (wordBytes type) [pl.nicknameField] rfl rfl)
  · rw [slice_shift]
    exact slice_field old [wordBytes type] pl.nicknameField [] rfl (nicknameField_length pl)

theorem show_userJoin (pl : CPlayer) :
    DummyClient.showMessage (blit old 0 [wordBytes PacketType.scUserJoin.code,
        pl.nicknameField].flatten) = .userJoin pl.nicknameField := by
  obtain ⟨htype, hnick⟩ := slices_of_notice old PacketType.scUserJoin.code pl
  simp only [DummyClient.showMessage, htype, hnick]
  rfl

theorem show_userLeave (pl : CPlayer) :
    DummyClient.showMessage (blit old 0 [wordBytes PacketType.scUserLeave.code,
        pl.nicknameField].flatten) = .userLeave pl.nicknameField := by
  obtain ⟨htype, hnick⟩ := slices_of_notice old PacketType.scUserLeave.code pl
  simp only [DummyClient.showMessage, htype, hnick]
  rfl

end Shown

theorem showMessage_of_answer {fields : List (List UInt8)} {shown : DummyClient.Shown}
    (h : Answer fields shown) (old : Nat → UInt8) :
    DummyClient.showMessage (blit old 0 fields.flatten) = shown := by
  rcases h with
    ⟨rc, userNo, nickname, hnickname⟩ | ⟨rc, userNo⟩ | ⟨rc, no⟩ |
      ⟨pl, chatLen, chat, hlength, hchat⟩ | ⟨pl⟩ | ⟨pl⟩
  · exact show_loginRes old rc userNo hnickname
  · exact show_signupRes old rc userNo
  · exact show_roomEnterRes old rc no
  · exact show_chatRes old pl hlength hchat
  · exact show_userJoin old pl
  · exact show_userLeave old pl

theorem answer_length {fields : List (List UInt8)} {shown : DummyClient.Shown}
    (h : Answer fields shown) : fields.flatten.length ≤ 292 := by
  rcases h with
    ⟨rc, userNo, nickname, hnickname⟩ | ⟨rc, userNo⟩ | ⟨rc, no⟩ |
      ⟨pl, chatLen, chat, hlength, hchat⟩ | ⟨pl⟩ | ⟨pl⟩
  · have hwide := wideBytes_length nickname
    rw [DummyClient.wideBytes, hnickname] at hwide
    simp [hwide, intBytes, maxNicknameLen]
  · simp [intBytes]
  · simp
  · have hnick := nicknameField_length pl
    simp only [maxNicknameLen, maxChatLen] at hnick hchat
    simp [hnick]
    omega
  · have hnick := nicknameField_length pl
    simp [hnick, maxNicknameLen]
  · have hnick := nicknameField_length pl
    simp [hnick, maxNicknameLen]

/-- The client shows this for a packet built from the fields, whatever stands behind
it in the stream, and nothing while the frame is not complete. -/
def ClientShows (L : DummyClient.OpenSsl) (fields : List (List UInt8))
    (shown : DummyClient.Shown) : Prop :=
  ∀ (sv : Server) (nonce : List UInt8) (fresh : List UInt8 → Nat → UInt8) (rest : List UInt8),
    nonce.length = pktNonceSize →
    let built := buildPacket (serverCrypto L) nonce fields sv
    let frame := wireBytes built.2 built.1
    let recvLoop := DummyClient.recvLoop (DummyClient.clientCrypto L) fresh
    recvLoop (frame ++ rest) = (shown :: (recvLoop rest).1, (recvLoop rest).2) ∧
    ∀ k, k < frame.length → recvLoop (frame.take k) = ([], some (frame.take k))

theorem clientShows_of_answer (L : DummyClient.OpenSsl) {fields : List (List UInt8)}
    {shown : DummyClient.Shown} (h : Answer fields shown) : ClientShows L fields shown := by
  intro sv nonce fresh rest hnonce built frame recvLoop
  have hshort := answer_length h
  have hframe : frame = sealed (serverCrypto L) nonce fields.flatten := by
    apply wireBytes_buildPacket _ hnonce
    simp only [pktHeaderSize, packetBufferSize]
    omega
  have hsmall : fields.flatten.length < 65536 := by omega
  refine ⟨?_, ?_⟩
  · obtain ⟨old, hloop⟩ := recvLoop_sealed (serverCrypto L) fresh hnonce hsmall rest
    rw [showMessage_of_answer h] at hloop
    rw [hframe]
    exact hloop
  · intro k hk
    rw [hframe] at hk ⊢
    exact recvLoop_partial (serverCrypto L) fresh hnonce hsmall hk

/-- Every request of the client is read back by its handler, and the client shows
every answer as the handler wrote it. -/
theorem client_and_server_agree (L : DummyClient.OpenSsl) (env : DummyClient.SendLocals)
    (toAcp : List UInt16 → List UInt8) :
    (∀ account password, 0 ∉ account → 0 ∉ password →
      Handed L (DummyClient.sendLogin (DummyClient.clientCrypto L) env account password)
        (ReadsLogin account password)) ∧
    (∀ account password nickname, 0 ∉ account → 0 ∉ password → 0 ∉ nickname →
      Handed L
        (DummyClient.sendSignUp (DummyClient.clientCrypto L) env account password nickname)
        (ReadsSignUp account password nickname)) ∧
    (∀ roomNo, Handed L (DummyClient.sendRoomEnter (DummyClient.clientCrypto L) env roomNo)
      (ReadsRoomEnter roomNo)) ∧
    Handed L (DummyClient.sendRoomLeave (DummyClient.clientCrypto L) env) ReadsRoomLeave ∧
    (∀ chat : List UInt8, chat.length ≤ 1023 →
      Handed L (DummyClient.sendChat (DummyClient.clientCrypto L) env chat)
        (ReadsChat ((chat ++ [0]).take 256))) ∧
    ∀ (c : Content) (e : Event) (fields : List (List UInt8)) (targets : List SessionID),
      Effect.send fields targets ∈ (outcome toAcp c e).2 →
      ∃ shown, Answer fields shown ∧ ClientShows L fields shown := by
  refine ⟨?_, ?_, roomEnter_handed L env, roomLeave_handed L env, ?_, ?_⟩
  · intro account password haccount hpassword
    exact login_handed L env haccount hpassword
  · intro account password nickname haccount hpassword hnickname
    exact signUp_handed L env haccount hpassword hnickname
  · intro chat hchat
    exact chat_handed L env hchat
  · intro c e fields targets hsend
    obtain ⟨shown, hsaid⟩ := answer_of_outcome c toAcp e hsend
    exact ⟨shown, hsaid, clientShows_of_answer L hsaid⟩

/-- A keystream and a MAC that only add up bytes. -/
def sumSsl : DummyClient.OpenSsl where
  keystream := fun key nonce i => (key ++ nonce).getD (i % 28) 0
  hmac := fun key message => List.replicate pktMacFullSize (key.sum + message.sum)
  hmac_length := fun _ _ => List.length_replicate

def zeroLocals : DummyClient.SendLocals where
  nonce := List.replicate 12 0
  buf := fun _ => 0
  nonce_length := rfl

/-- One player, whose session is 7. -/
def onePlayer : Content := handleJoin zeroEnv Content.initial 7

def signedUp : DBResult where
  type := .signUp
  sid := 7
  result := 0
  userNo := 3
  nickname := fun _ => 0

theorem client_and_server_agree_on_signUp :
    Handed sumSsl
      (DummyClient.sendSignUp (DummyClient.clientCrypto sumSsl) zeroLocals [97] [98] [99, 100])
      (ReadsSignUp [97] [98] [99, 100]) ∧
    ∃ shown, Answer [wordBytes PacketType.scSignupRes.code, [ResultCode.success.code],
        intBytes 3] shown ∧
      ClientShows sumSsl [wordBytes PacketType.scSignupRes.code, [ResultCode.success.code],
        intBytes 3] shown := by
  have h := client_and_server_agree sumSsl zeroLocals (fun _ => [])
  refine ⟨h.2.1 [97] [98] [99, 100] (by decide) (by decide) (by decide), ?_⟩
  exact h.2.2.2.2.2 onePlayer (.dbResult signedUp) _ [7] (List.mem_singleton.mpr rfl)

end IocpChat.ClientAgreement
