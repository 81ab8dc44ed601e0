import IocpChat.ChatRuns
import IocpChat.ContentSteps
import IocpChat.DummyClient
import IocpChat.FrameCodec
import IocpChat.StreamReassembly

namespace IocpChat.ClientRequests

open IocpChat.Protocol
open IocpChat.RingWindow
open IocpChat.PacketBuffer
open IocpChat.FrameCodec
open IocpChat.ContentHandlers
open IocpChat.LanServer
open IocpChat.ChatRuns

section Readers

variable {pkt : CPacket} {xs ys : List UInt8}

theorem payload_length (pkt : CPacket) :
    pkt.payload.length = pkt.writePos - pkt.readPos := by
  simp [CPacket.payload, CPacket.getDataSize]

theorem readPacket_of_payload (h : pkt.payload = xs ++ ys) :
    ∃ pkt', pkt.readPacket xs.length = (some xs, pkt') ∧ pkt'.payload = ys := by
  have hlength := payload_length pkt
  rw [h, List.length_append] at hlength
  have horder := pkt.readPos_le_writePos
  have hfit : pkt.readPos + xs.length ≤ pkt.writePos := by omega
  have hsplit : slice pkt.buffer pkt.readPos xs.length ++
      slice pkt.buffer (pkt.readPos + xs.length) ys.length = xs ++ ys := by
    rw [← slice_add, ← h, CPacket.payload, CPacket.getDataSize, hlength]
  obtain ⟨hfirst, hrest⟩ := List.append_inj hsplit (by simp)
  refine ⟨_, by simp only [CPacket.readPacket, hfit, dite_true, hfirst]; rfl, ?_⟩
  have hleft : pkt.writePos - (pkt.readPos + xs.length) = ys.length := by omega
  simp only [CPacket.payload, CPacket.getDataSize, hleft]
  exact hrest

theorem readWord_of_payload {w : UInt16} (h : pkt.payload = wordBytes w ++ ys) (old : UInt16) :
    ∃ pkt', pkt.readWord old = (w, pkt') ∧ pkt'.payload = ys := by
  obtain ⟨pkt', hread, hrest⟩ := readPacket_of_payload h
  refine ⟨pkt', ?_, hrest⟩
  rw [wordBytes_length] at hread
  simp only [CPacket.readWord, hread, Prod.mk.injEq, and_true]
  exact leWord_wordBytes w

theorem wideBytes_length (ws : List UInt16) :
    (DummyClient.wideBytes ws).length = 2 * ws.length := by
  induction ws with
  | nil => rfl
  | cons w ws ih =>
      rw [DummyClient.wideBytes, List.flatMap_cons, List.length_append, wordBytes_length]
      rw [DummyClient.wideBytes] at ih
      rw [ih, List.length_cons]
      omega

theorem leWord_wideBytes (ws : List UInt16) {i : Nat} (hi : i < ws.length) :
    leWord ((DummyClient.wideBytes ws).getD (2 * i) 0)
      ((DummyClient.wideBytes ws).getD (2 * i + 1) 0) = ws[i] := by
  induction ws generalizing i with
  | nil => simp at hi
  | cons w ws ih =>
      rcases i with _ | i
      · exact leWord_wordBytes w
      · have hrest := ih (i := i) (by simpa using hi)
        simpa [DummyClient.wideBytes, wordBytes, Nat.mul_add] using hrest

theorem readWide_of_payload {ws : List UInt16} (h : pkt.payload = DummyClient.wideBytes ws ++ ys)
    (dest : Nat → UInt16) :
    ∃ pkt', readWide pkt ws.length dest = (blit dest 0 ws, pkt') ∧ pkt'.payload = ys := by
  obtain ⟨pkt', hread, hrest⟩ := readPacket_of_payload h
  refine ⟨pkt', ?_, hrest⟩
  rw [wideBytes_length] at hread
  simp only [readWide, hread, Prod.mk.injEq, and_true]
  funext i
  rcases Nat.lt_or_ge i ws.length with hi | hi
  · rw [if_pos hi, leWord_wideBytes ws hi]
    simp [blit, hi]
  · rw [if_neg (Nat.not_lt.mpr hi), blit_of_ge _ _ (by simpa using hi)]

end Readers

section Strings

/-- The characters of a `wchar_t` array of this size up to the terminator. -/
def wideChars (size : Nat) (a : Nat → UInt16) : List UInt16 :=
  (slice a 0 size).takeWhile (· ≠ 0)

/-- A box of `n` characters with a truncated string in it, padded with zeros. -/
def box (n : Nat) (src : List UInt16) : List UInt16 :=
  DummyClient.wcsncpyTruncate n src ++
    List.replicate (n - (DummyClient.wcsncpyTruncate n src).length) 0

variable {n : Nat} {src : List UInt16}

theorem wcsncpyTruncate_length_le (hn : 0 < n) (src : List UInt16) :
    (DummyClient.wcsncpyTruncate n src).length ≤ n := by
  simp only [DummyClient.wcsncpyTruncate, List.length_append, List.length_take,
    List.length_singleton]
  omega

theorem box_length (hn : 0 < n) (src : List UInt16) : (box n src).length = n := by
  have hle := wcsncpyTruncate_length_le hn src
  rw [box, List.length_append, List.length_replicate]
  omega

theorem wideChars_box (hn : 0 < n) (hsrc : 0 ∉ src) (dest : Nat → UInt16) :
    wideChars (n + 1) (blit (blit dest 0 (box n src)) (n - 1) [0]) = src.take (n - 1) := by
  set a := blit (blit dest 0 (box n src)) (n - 1) [0] with ha
  have hlength : (src.take (n - 1)).length ≤ n - 1 := by simp
  set k := (src.take (n - 1)).length with hk
  have hbox : (box n src).take (k + 1) = src.take (n - 1) ++ [0] := by
    have hlen : (DummyClient.wcsncpyTruncate n src).length = k + 1 := by
      simp [DummyClient.wcsncpyTruncate, hk]
    rw [box, ← hlen, List.take_left]
    rfl
  have hold : slice (blit dest 0 (box n src)) 0 (k + 1) = src.take (n - 1) ++ [0] := by
    rw [slice_blit_zero _ _ (by rw [box_length hn]; omega), List.drop_zero, hbox]
  have hfirst : slice a 0 k = src.take (n - 1) := by
    rw [ha, slice_blit_of_disjoint _ _ (Or.inl (by omega))]
    rw [slice_add] at hold
    exact (List.append_inj hold (by simp [hk])).1
  have hzero : a k = 0 := by
    rcases Nat.lt_or_ge k (n - 1) with hlt | hge
    · rw [ha, blit_of_lt _ _ hlt]
      rw [slice_add] at hold
      have hlast := (List.append_inj hold (by simp [hk])).2
      simpa [slice] using hlast
    · have hkn : k = n - 1 := by omega
      rw [ha, hkn]
      simp [blit]
  have hsplit : n + 1 = k + (1 + (n - k)) := by omega
  rw [wideChars, hsplit, slice_add, hfirst, slice_add]
  have hnext : slice a (0 + k) 1 = [0] := by simp [slice, hzero]
  rw [hnext, List.takeWhile_append_of_pos]
  · simp
  · intro c hc
    have hmem := List.mem_of_mem_take hc
    simp only [ne_eq, decide_not, Bool.not_eq_true', decide_eq_false_iff_not]
    rintro rfl
    exact hsrc hmem

end Strings

section Payloads

variable {m : Nat → UInt8} {pos : Nat}

/-- A payload is filled from the front, the rest of it still zero. -/
def ZeroFrom (m : Nat → UInt8) (pos : Nat) : Prop := ∀ i, pos ≤ i → m i = 0

theorem zeroFrom_blit (h : ZeroFrom m pos) {xs : List UInt8} {n : Nat} (hn : xs.length ≤ n) :
    ZeroFrom (blit m pos xs) (pos + n) := by
  intro i hi
  rw [blit_of_ge _ _ (by omega)]
  exact h i (by omega)

theorem slice_blit_next (m : Nat → UInt8) (pos : Nat) (xs : List UInt8) :
    slice (blit m pos xs) 0 (pos + xs.length) = slice m 0 pos ++ xs := by
  rw [slice_add, slice_blit_of_disjoint _ _ (Or.inl (by omega)), Nat.zero_add, slice_blit_self]

theorem wideBytes_append (xs ys : List UInt16) :
    DummyClient.wideBytes (xs ++ ys) = DummyClient.wideBytes xs ++ DummyClient.wideBytes ys :=
  List.flatMap_append

theorem wideBytes_zeros (n : Nat) :
    DummyClient.wideBytes (List.replicate n 0) = List.replicate (2 * n) 0 := by
  induction n with
  | zero => rfl
  | succ n ih =>
      rw [List.replicate_succ, Nat.mul_succ, List.replicate_succ, List.replicate_succ, ← ih]
      rfl

theorem slice_zero_eq (h : ZeroFrom m pos) (n : Nat) :
    slice m pos n = List.replicate n 0 := by
  apply List.ext_getElem
  · simp
  · intro i _ _
    simp [slice, h (pos + i) (by omega)]

theorem slice_blit_box (h : ZeroFrom m pos) {n : Nat} (hn : 0 < n) (src : List UInt16) :
    slice (blit m pos (DummyClient.wideBytes (DummyClient.wcsncpyTruncate n src))) 0
        (pos + 2 * n) =
      slice m 0 pos ++ DummyClient.wideBytes (box n src) := by
  set s := DummyClient.wcsncpyTruncate n src with hs
  have hle : s.length ≤ n := wcsncpyTruncate_length_le hn src
  have hlength := wideBytes_length s
  have hzero : ZeroFrom (blit m pos (DummyClient.wideBytes s)) (pos + 2 * s.length) :=
    zeroFrom_blit h (by omega)
  have hsplit : pos + 2 * n =
      (pos + (DummyClient.wideBytes s).length) + 2 * (n - s.length) := by omega
  rw [hsplit, slice_add, slice_blit_next, Nat.zero_add, hlength, slice_zero_eq hzero, box,
    wideBytes_append, wideBytes_zeros, ← hs, List.append_assoc]

theorem zeroFrom_zero : ZeroFrom (fun _ => 0) 0 := fun _ _ => rfl

theorem boxBytes_le {n : Nat} (hn : 0 < n) (src : List UInt16) :
    (DummyClient.wideBytes (DummyClient.wcsncpyTruncate n src)).length ≤ 2 * n := by
  rw [wideBytes_length]
  exact Nat.mul_le_mul_left 2 (wcsncpyTruncate_length_le hn src)

theorem slice_credentials (type : UInt16) (account password : List UInt16) :
    let m := blit (blit (blit (fun _ => 0) 0 (wordBytes type)) 2
      (DummyClient.wideBytes (DummyClient.wcsncpyTruncate maxAccountLen account)))
      (2 + 2 * maxAccountLen)
      (DummyClient.wideBytes (DummyClient.wcsncpyTruncate maxPasswordLen password))
    slice m 0 (2 + 2 * maxAccountLen + 2 * maxPasswordLen) =
        wordBytes type ++ DummyClient.wideBytes (box maxAccountLen account) ++
          DummyClient.wideBytes (box maxPasswordLen password) ∧
      ZeroFrom m (2 + 2 * maxAccountLen + 2 * maxPasswordLen) := by
  have htype : ZeroFrom (blit (fun _ => 0) 0 (wordBytes type)) (0 + 2) :=
    zeroFrom_blit zeroFrom_zero (le_refl 2)
  have haccount := zeroFrom_blit htype (boxBytes_le (n := maxAccountLen) (by decide) account)
  have hpassword := zeroFrom_blit haccount
    (boxBytes_le (n := maxPasswordLen) (by decide) password)
  simp only [Nat.zero_add] at htype haccount hpassword
  refine ⟨?_, hpassword⟩
  rw [slice_blit_box haccount (by decide), slice_blit_box htype (by decide)]
  have hfront := slice_blit_next (fun _ => 0) 0 (wordBytes type)
  rw [Nat.zero_add, wordBytes_length] at hfront
  rw [hfront]
  rfl

theorem loginPayload_eq (account password : List UInt16) :
    DummyClient.loginPayload account password =
      wordBytes PacketType.csLoginReq.code ++
        (DummyClient.wideBytes (box maxAccountLen account) ++
          (DummyClient.wideBytes (box maxPasswordLen password) ++ [])) := by
  rw [List.append_nil, ← List.append_assoc]
  exact (slice_credentials PacketType.csLoginReq.code account password).1

theorem signUpPayload_eq (account password nickname : List UInt16) :
    DummyClient.signUpPayload account password nickname =
      wordBytes PacketType.csSignupReq.code ++
        (DummyClient.wideBytes (box maxAccountLen account) ++
          (DummyClient.wideBytes (box maxPasswordLen password) ++
            (DummyClient.wideBytes (box maxNicknameLen nickname) ++ []))) := by
  obtain ⟨hslice, hzero⟩ := slice_credentials PacketType.csSignupReq.code account password
  have hbox := slice_blit_box hzero (n := maxNicknameLen) (by decide) nickname
  rw [hslice] at hbox
  simp only [List.append_nil, ← List.append_assoc]
  exact hbox

theorem roomEnterPayload_eq (roomNo : UInt16) :
    DummyClient.roomEnterPayload roomNo =
      wordBytes PacketType.csRoomEnterReq.code ++ (wordBytes roomNo ++ []) := by
  rw [List.append_nil]
  exact (slice_blit_next _ 2 (wordBytes roomNo)).trans
    (congrArg (· ++ wordBytes roomNo) (slice_blit_next (fun _ => 0) 0
      (wordBytes PacketType.csRoomEnterReq.code)))

theorem roomLeavePayload_eq :
    DummyClient.roomLeavePayload = wordBytes PacketType.csRoomLeaveReq.code ++ [] := rfl

theorem chatLen_toNat {chat : List UInt8} (hchat : chat.length ≤ 1023) :
    (DummyClient.chatLen chat).toNat = ((chat ++ [0]).take maxChatLen).length := by
  have hlen : (UInt16.ofNat chat.length + 1).toNat = chat.length + 1 := by
    rw [UInt16.toNat_add, UInt16.toNat_ofNat']
    have hone : (1 : UInt16).toNat = 1 := rfl
    rw [hone]
    omega
  simp only [DummyClient.chatLen, hlen, List.length_take, List.length_append,
    List.length_singleton]
  have hmax : DummyClient.maxChatLen = 256 := rfl
  have hmax' : maxChatLen = 256 := rfl
  split
  · rw [UInt16.toNat_ofNat']
    omega
  · rw [hlen]
    omega

theorem chatPayload_eq {chat : List UInt8} (hchat : chat.length ≤ 1023) :
    DummyClient.chatPayload chat =
      wordBytes PacketType.csChatReq.code ++ (wordBytes (DummyClient.chatLen chat) ++
        ((chat ++ [0]).take maxChatLen ++ [])) := by
  have hlen := chatLen_toNat hchat
  have htext : (chat ++ [0]).take (DummyClient.chatLen chat).toNat =
      (chat ++ [0]).take maxChatLen := by
    rw [hlen, List.length_take]
    exact List.take_eq_take_min.symm
  simp only [DummyClient.chatPayload, htext]
  rw [hlen, slice_blit_next, List.append_nil]
  have hfront := slice_blit_next
    (blit (fun _ => 0) 0 (wordBytes DummyClient.PacketType.csChatReq.code)) 2
    (wordBytes (DummyClient.chatLen chat))
  have htype := slice_blit_next (fun _ => 0) 0 (wordBytes DummyClient.PacketType.csChatReq.code)
  rw [wordBytes_length] at hfront htype
  rw [hfront, htype, List.append_assoc]
  rfl

end Payloads

/-- The keys in `CPacket.h`. -/
def pktAesKey : List UInt8 :=
  [0x2B, 0x7E, 0x15, 0x16, 0x28, 0xAE, 0xD2, 0xA6,
    0xAB, 0xF7, 0x15, 0x88, 0x09, 0xCF, 0x4F, 0x3C]

def pktMacKey : List UInt8 :=
  [0xA1, 0xB2, 0xC3, 0xD4, 0xE5, 0xF6, 0x07, 0x18,
    0x29, 0x3A, 0x4B, 0x5C, 0x6D, 0x7E, 0x8F, 0x90,
    0xAA, 0xBB, 0xCC, 0xDD, 0xEE, 0xFF, 0x11, 0x22,
    0x33, 0x44, 0x55, 0x66, 0x77, 0x88, 0x99, 0x00]

/-- The primitives as the server uses them. -/
def serverCrypto (L : DummyClient.OpenSsl) : Crypto := L.under pktAesKey pktMacKey

theorem clientCrypto_eq (L : DummyClient.OpenSsl) :
    DummyClient.clientCrypto L = serverCrypto L := rfl

theorem clientEncode_eq : DummyClient.encode = encode := rfl

theorem clientDecode_eq : DummyClient.decode = decode := rfl

theorem nextFrame_sealed (C : Crypto) {nonce payload : List UInt8}
    (hnonce : nonce.length = pktNonceSize)
    (hpayload : payload.length ≤ packetBufferSize - pktHeaderSize)
    {rb : RingBuffer.CRingBuffer} {rest : List UInt8}
    (hrb : rb.contents = sealed C nonce payload ++ rest) :
    ∃ rb', ReceivePath.nextFrame C rb = .frame rb' payload ∧ rb'.contents = rest := by
  have hsmall : payload.length < 65536 := by
    simp only [packetBufferSize, pktHeaderSize] at hpayload
    omega
  have hlength := sealed_length C hnonce payload
  have hlen : StreamReassembly.frameLen (sealed C nonce payload ++ rest) = payload.length := by
    rw [StreamReassembly.frameLen_append _ (by omega)]
    exact announced_sealed C nonce hsmall
  have hfront : StreamReassembly.frameFront C rb.contents =
      .frame payload (pktHeaderSize + payload.length) := by
    have htake : (sealed C nonce payload ++ rest).take (pktHeaderSize + payload.length) =
        sealed C nonce payload := by
      rw [← hlength, List.take_left]
    rw [hrb, StreamReassembly.frameFront, hlen, htake, decode_sealed C hnonce hsmall,
      List.length_append, hlength, if_neg (by omega), if_neg (by omega), if_neg (by omega)]
  have hnext := StreamReassembly.nextFrame_eq C rb
  rw [hfront] at hnext
  refine ⟨_, hnext, ?_⟩
  rw [rb.contents_moveReadPos, hrb, ← hlength, List.drop_left]
  rw [← rb.contents_length, hrb, List.length_append, hlength]
  omega

theorem sendPacket_eq (L : DummyClient.OpenSsl) (env : DummyClient.SendLocals)
    {payload : List UInt8} (hfit : pktHeaderSize + payload.length ≤ 1024) :
    DummyClient.sendPacket (DummyClient.clientCrypto L) env payload =
      some (sealed (serverCrypto L) env.nonce payload) := by
  have hsize : ¬ DummyClient.sendBufferSize < DummyClient.pktHeaderSize + payload.length := by
    simp only [pktHeaderSize] at hfit
    simp only [DummyClient.sendBufferSize, DummyClient.pktHeaderSize]
    omega
  rw [DummyClient.sendPacket, if_neg hsize, clientEncode_eq, clientCrypto_eq]
  exact congrArg some (slice_encode (serverCrypto L) env.nonce_length payload env.buf)

theorem payload_release (sv : Server) (p : PacketRef) :
    ((sv.release p).packets p).payload = (sv.packets p).payload := by
  simp only [Server.release]
  split <;> simp [Server.setPacket, CPacket.payload, CPacket.getDataSize]

theorem deliver_queued (sv : Server) (idx : Nat) {plain : List UInt8}
    (hplain : plain.length ≤ packetBufferSize - pktHeaderSize) :
    ∃ p, (ReceivePath.deliver sv idx plain).contentQ =
        sv.contentQ ++ [Message.recv (sv.sessions idx).sID p] ∧
      ((ReceivePath.deliver sv idx plain).packets p).payload = plain := by
  have hqueue : sv.alloc.2.contentQ = sv.contentQ := by
    simp only [Server.alloc]
    split <;> rfl
  refine ⟨sv.alloc.1, ?_, ?_⟩
  · simp only [ReceivePath.deliver, PacketOwnership.release_contentQ]
    simp [Server.onRecv, Server.setSession, Server.addRef, Server.setPacket, hqueue]
  · rw [ReceivePath.deliver, payload_release]
    have hpayload := CPacket.payload_attachRaw (sv.alloc.2.packets sv.alloc.1) hplain
    simpa [Server.onRecv, Server.setSession, Server.addRef, Server.setPacket,
      CPacket.payload, CPacket.getDataSize] using hpayload

/-- The client sends a frame, and the receive loop of a session whose ring buffer
starts with it queues a packet that is handled so. -/
def Handed (L : DummyClient.OpenSsl) (sent : Option (List UInt8)) (handled : CPacket → Prop) :
    Prop :=
  ∃ frame payload, sent = some frame ∧
    ∀ (sv : Server) (idx : Nat) (rest : List UInt8),
      (sv.sessions idx).recvBuffer.contents = frame ++ rest →
      ∃ rb p, rb.contents = rest ∧
        ReceivePath.recvLoop (serverCrypto L) idx sv =
          ReceivePath.recvLoop (serverCrypto L) idx
            (ReceivePath.deliver (ReceivePath.setRecvBuffer sv idx rb) idx payload) ∧
        (ReceivePath.deliver (ReceivePath.setRecvBuffer sv idx rb) idx payload).contentQ =
          sv.contentQ ++ [Message.recv (sv.sessions idx).sID p] ∧
        handled
          ((ReceivePath.deliver (ReceivePath.setRecvBuffer sv idx rb) idx payload).packets p)

theorem handed_of_payload (L : DummyClient.OpenSsl) (env : DummyClient.SendLocals)
    {payload : List UInt8} (hfit : pktHeaderSize + payload.length ≤ 1024)
    {handled : CPacket → Prop} (hhandled : ∀ pkt, pkt.payload = payload → handled pkt) :
    Handed L (DummyClient.sendPacket (DummyClient.clientCrypto L) env payload) handled := by
  have hpayload : payload.length ≤ packetBufferSize - pktHeaderSize := by
    simp only [packetBufferSize, pktHeaderSize] at *
    omega
  refine ⟨_, payload, sendPacket_eq L env hfit, ?_⟩
  intro sv idx rest hbuffer
  obtain ⟨rb, hnext, hrest⟩ := nextFrame_sealed _ env.nonce_length hpayload hbuffer
  obtain ⟨p, hqueue, hread⟩ := deliver_queued (ReceivePath.setRecvBuffer sv idx rb) idx hpayload
  refine ⟨rb, p, hrest, ?_, ?_, hhandled _ hread⟩
  · rw [ReceivePath.recvLoop, hnext]
  · rw [hqueue]
    simp [ReceivePath.setRecvBuffer, Server.setSession]

/-- `Handle_Login` takes the packet, and a known player's job has these strings. -/
def ReadsLogin (account password : List UInt16) (pkt : CPacket) : Prop :=
  ∀ (env : Env) (c : Content) (sid : SessionID),
    handleRecv env c sid pkt = handleLogin env c sid (pkt.readWord env.type).2 ∧
    ∀ pl, c.players.lookup sid = some pl →
      ∃ job, handleRecv env c sid pkt = (c, [.pushJob job]) ∧
        job.type = .login ∧ job.sid = sid ∧
        wideChars (maxAccountLen + 1) job.account = account.take 31 ∧
        wideChars (maxPasswordLen + 1) job.password = password.take 63

/-- Whatever the content is, the handler of the request finds what the user typed, cut to
the length of its arrays. -/
def ReadsSignUp (account password nickname : List UInt16) (pkt : CPacket) : Prop :=
  ∀ (env : Env) (c : Content) (sid : SessionID),
    handleRecv env c sid pkt = handleSignUp env c sid (pkt.readWord env.type).2 ∧
    ∀ pl, c.players.lookup sid = some pl →
      ∃ job, handleRecv env c sid pkt = (c, [.pushJob job]) ∧
        job.type = .signUp ∧ job.sid = sid ∧
        wideChars (maxAccountLen + 1) job.account = account.take 31 ∧
        wideChars (maxPasswordLen + 1) job.password = password.take 63 ∧
        wideChars (maxNicknameLen + 1) job.nickname = nickname.take 31

/-- `HandleRoomEnter` takes the packet and reads this room number from it. -/
def ReadsRoomEnter (roomNo : UInt16) (pkt : CPacket) : Prop :=
  ∀ (env : Env) (c : Content) (sid : SessionID),
    handleRecv env c sid pkt = handleRoomEnter env c sid (pkt.readWord env.type).2 ∧
    ((pkt.readWord env.type).2.readWord env.no).1 = roomNo

/-- The request reaches its handler. -/
def ReadsRoomLeave (pkt : CPacket) : Prop :=
  ∀ (env : Env) (c : Content) (sid : SessionID),
    handleRecv env c sid pkt = handleRoomLeave env c sid

/-- `HandleChat` takes the packet, reads this text with its length from it, and
passes both on to the room of the sender. -/
def ReadsChat (text : List UInt8) (pkt : CPacket) : Prop :=
  ∀ (env : Env) (c : Content) (sid : SessionID),
    handleRecv env c sid pkt = handleChat env c sid (pkt.readWord env.type).2 ∧
    (∃ pkt', (pkt.readWord env.type).2.readWord env.chatLen =
        (UInt16.ofNat text.length, pkt') ∧
      (pkt'.readPacket text.length).1 = some text) ∧
    ∀ pl i, c.players.lookup sid = some pl → pl.state = .inRoom →
      getRoom pl.roomNo = some i →
      handleRecv env c sid pkt =
        (c, [.send [wordBytes PacketType.scChatRes.code, pl.nicknameField,
          wordBytes (UInt16.ofNat text.length), text] (env.order (c.rooms i).users)])

section Handlers

variable {pkt : CPacket}

theorem readsLogin_of_payload {account password : List UInt16} (haccount : 0 ∉ account)
    (hpassword : 0 ∉ password) (h : pkt.payload = DummyClient.loginPayload account password) :
    ReadsLogin account password pkt := by
  intro env c sid
  rw [loginPayload_eq] at h
  obtain ⟨pkt₁, htype, hbody⟩ := readWord_of_payload h env.type
  have hdispatch : handleRecv env c sid pkt = handleLogin env c sid pkt₁ := by
    rw [handleRecv, htype]
    rfl
  rw [hdispatch, htype]
  refine ⟨rfl, ?_⟩
  intro pl hpl
  obtain ⟨pkt₂, hacc, hbody⟩ := readWide_of_payload hbody (emptyWide env.accountMemory)
  obtain ⟨pkt₃, hpass, -⟩ := readWide_of_payload hbody (emptyWide env.passwordMemory)
  rw [box_length (by decide)] at hacc hpass
  simp only [handleLogin, hpl, hacc, hpass]
  exact ⟨_, rfl, rfl, rfl, wideChars_box (by decide) haccount _,
    wideChars_box (by decide) hpassword _⟩

theorem readsSignUp_of_payload {account password nickname : List UInt16}
    (haccount : 0 ∉ account) (hpassword : 0 ∉ password) (hnickname : 0 ∉ nickname)
    (h : pkt.payload = DummyClient.signUpPayload account password nickname) :
    ReadsSignUp account password nickname pkt := by
  intro env c sid
  rw [signUpPayload_eq] at h
  obtain ⟨pkt₁, htype, hbody⟩ := readWord_of_payload h env.type
  have hdispatch : handleRecv env c sid pkt = handleSignUp env c sid pkt₁ := by
    rw [handleRecv, htype]
    rfl
  rw [hdispatch, htype]
  refine ⟨rfl, ?_⟩
  intro pl hpl
  obtain ⟨pkt₂, hacc, hbody⟩ := readWide_of_payload hbody (emptyWide env.accountMemory)
  obtain ⟨pkt₃, hpass, hbody⟩ := readWide_of_payload hbody (emptyWide env.passwordMemory)
  obtain ⟨pkt₄, hnick, -⟩ := readWide_of_payload hbody (emptyWide env.nicknameMemory)
  rw [box_length (by decide)] at hacc hpass hnick
  simp only [handleSignUp, hpl, hacc, hpass, hnick]
  exact ⟨_, rfl, rfl, rfl, wideChars_box (by decide) haccount _,
    wideChars_box (by decide) hpassword _, wideChars_box (by decide) hnickname _⟩

theorem readsRoomEnter_of_payload {roomNo : UInt16}
    (h : pkt.payload = DummyClient.roomEnterPayload roomNo) : ReadsRoomEnter roomNo pkt := by
  intro env c sid
  rw [roomEnterPayload_eq] at h
  obtain ⟨pkt₁, htype, hbody⟩ := readWord_of_payload h env.type
  obtain ⟨pkt₂, hno, -⟩ := readWord_of_payload hbody env.no
  rw [handleRecv, htype, hno]
  exact ⟨rfl, rfl⟩

theorem readsRoomLeave_of_payload (h : pkt.payload = DummyClient.roomLeavePayload) :
    ReadsRoomLeave pkt := by
  intro env c sid
  rw [roomLeavePayload_eq] at h
  obtain ⟨pkt₁, htype, -⟩ := readWord_of_payload h env.type
  rw [handleRecv, htype]
  rfl

theorem readsChat_of_payload {chat : List UInt8} (hchat : chat.length ≤ 1023)
    (h : pkt.payload = DummyClient.chatPayload chat) :
    ReadsChat ((chat ++ [0]).take maxChatLen) pkt := by
  intro env c sid
  have hlen := chatLen_toNat hchat
  rw [chatPayload_eq hchat] at h
  set text := (chat ++ [0]).take maxChatLen with htext
  have hword : DummyClient.chatLen chat = UInt16.ofNat text.length := by
    rw [← hlen, UInt16.ofNat_toNat]
  rw [hword] at h hlen
  obtain ⟨pkt₁, htype, hbody⟩ := readWord_of_payload h env.type
  obtain ⟨pkt₂, hword₂, hbody⟩ := readWord_of_payload hbody env.chatLen
  obtain ⟨pkt₃, hread, -⟩ := readPacket_of_payload hbody
  have hdispatch : handleRecv env c sid pkt = handleChat env c sid pkt₁ := by
    rw [handleRecv, htype]
    rfl
  rw [hdispatch, htype]
  refine ⟨rfl, ⟨pkt₂, hword₂, congrArg Prod.fst hread⟩, ?_⟩
  intro pl i hpl hstate hroom
  have hshort : ¬ maxChatLen < text.length := by
    rw [htext, List.length_take]
    omega
  simp only [handleChat, hword₂, hlen, hshort, if_false, hread, hpl, hstate, hroom, ne_eq,
    not_true_eq_false]

end Handlers

section Requests

variable (L : DummyClient.OpenSsl) (env : DummyClient.SendLocals)

theorem login_handed {account password : List UInt16} (haccount : 0 ∉ account)
    (hpassword : 0 ∉ password) :
    Handed L (DummyClient.sendLogin (DummyClient.clientCrypto L) env account password)
      (ReadsLogin account password) := by
  apply handed_of_payload
  · rw [DummyClient.loginPayload, slice_length]
    decide
  · intro pkt hpkt
    exact readsLogin_of_payload haccount hpassword hpkt

theorem signUp_handed {account password nickname : List UInt16} (haccount : 0 ∉ account)
    (hpassword : 0 ∉ password) (hnickname : 0 ∉ nickname) :
    Handed L
      (DummyClient.sendSignUp (DummyClient.clientCrypto L) env account password nickname)
      (ReadsSignUp account password nickname) := by
  apply handed_of_payload
  · rw [DummyClient.signUpPayload, slice_length]
    decide
  · intro pkt hpkt
    exact readsSignUp_of_payload haccount hpassword hnickname hpkt

theorem roomEnter_handed (roomNo : UInt16) :
    Handed L (DummyClient.sendRoomEnter (DummyClient.clientCrypto L) env roomNo)
      (ReadsRoomEnter roomNo) := by
  apply handed_of_payload
  · rw [DummyClient.roomEnterPayload, slice_length]
    decide
  · intro pkt hpkt
    exact readsRoomEnter_of_payload hpkt

theorem roomLeave_handed :
    Handed L (DummyClient.sendRoomLeave (DummyClient.clientCrypto L) env) ReadsRoomLeave := by
  apply handed_of_payload
  · decide
  · intro pkt hpkt
    exact readsRoomLeave_of_payload hpkt

theorem chat_handed {chat : List UInt8} (hchat : chat.length ≤ 1023) :
    Handed L (DummyClient.sendChat (DummyClient.clientCrypto L) env chat)
      (ReadsChat ((chat ++ [0]).take 256)) := by
  apply handed_of_payload
  · have hlen := chatLen_toNat hchat
    have hmax : ((chat ++ [0]).take maxChatLen).length ≤ 256 := List.length_take_le _ _
    simp only [DummyClient.chatPayload, slice_length, pktHeaderSize]
    omega
  · intro pkt hpkt
    exact readsChat_of_payload hchat hpkt

end Requests

end IocpChat.ClientRequests
