import IocpChat.ClientAgreement
import IocpChat.SessionIds

/-!
`Encode` and `Decode` where each OpenSSL call may fail.  None of their results is looked at:
a call that fails leaves its output as it was, and so do the calls on a context that could
not be made or initialised.
-/

namespace IocpChat.FailingCodec

open IocpChat.Protocol
open IocpChat.RingWindow
open IocpChat.PacketBuffer
open IocpChat.FrameCodec
open IocpChat.LanServer
open IocpChat.ClientAgreement
open IocpChat.SessionIds

/-- A nonce as `RAND_bytes` fills it. -/
structure Nonce where
  bytes : List UInt8
  length_eq : bytes.length = pktNonceSize

/-- A local `mac[PKT_MAC_FULL_SIZE]`, which is not initialised. -/
structure MacArray where
  bytes : List UInt8
  length_eq : bytes.length = pktMacFullSize

/-- `EVP_CIPHER_CTX_new`, the `Init_ex` and the `Update` of one direction. -/
structure CipherCalls where
  ctxNew : Bool
  init : Bool
  update : Bool

/-- All calls on the cipher context have succeeded. -/
def CipherCalls.ok (calls : CipherCalls) : Bool := calls.ctxNew && calls.init && calls.update

/-- The calls on the MAC context that may fail. -/
structure HmacCalls where
  ctxNew : Bool
  init : Bool
  updateHeader : Bool
  updateBody : Bool
  final : Bool

/-- All calls on the MAC context have succeeded. -/
def HmacCalls.ok (calls : HmacCalls) : Bool :=
  calls.ctxNew && calls.init && calls.updateHeader && calls.updateBody && calls.final

/-- What the array holds behind `HMAC_Final`: the MAC of the pieces whose update went well. -/
def HmacCalls.result (C : Crypto) (calls : HmacCalls) (stack : MacArray)
    (header body : List UInt8) : List UInt8 :=
  if calls.ctxNew && calls.init && calls.final then
    C.hmac ((if calls.updateHeader then header else []) ++
      (if calls.updateBody then body else []))
  else stack.bytes

/-- `rand` is what `RAND_bytes` writes, or `none` where it fails. -/
structure EncodeCalls where
  rand : Option Nonce
  cipher : CipherCalls
  hmac : HmacCalls
  stack : MacArray

/-- The calls of `Decode`, and the array that the MAC is written to. -/
structure DecodeCalls where
  hmac : HmacCalls
  cipher : CipherCalls
  stack : MacArray

/-- The block behind `RAND_bytes`. -/
def randBytes (rand : Option Nonce) (m : Nat → UInt8) : Nat → UInt8 :=
  match rand with
  | some nonce => blit m pktNonceOffset nonce.bytes
  | none => m

/-- `Encode` in place: `plain` is what stands behind the header of `out`. -/
def encode (C : Crypto) (calls : EncodeCalls) (plainLen : Nat) (m : Nat → UInt8) :
    Nat → UInt8 :=
  let m := randBytes calls.rand m
  let iv := slice m pktNonceOffset pktNonceSize
  let plain := slice m pktHeaderSize plainLen
  let m := if calls.cipher.ok then blit m pktHeaderSize (C.cipher iv plain) else m
  let m := blit m 0 (wordBytes (UInt16.ofNat plainLen))
  let mac := calls.hmac.result C calls.stack (slice m 0 pktMacOffset)
    (slice m pktHeaderSize plainLen)
  blit m pktMacOffset (mac.take pktMacSize)

/-- `SetHeader` on a packet whose payload stands behind the header. -/
def setHeader (C : Crypto) (calls : EncodeCalls) (p : CPacket) : CPacket :=
  { p with buffer := encode C calls (p.writePos - pktHeaderSize) p.buffer }

/-- `Decode` on the memory at `frame`, with the length it returns and the block at
`outPlain`, or `none` for the result `-1`. -/
def decode (C : Crypto) (calls : DecodeCalls) (frame outPlain : Nat → UInt8) :
    Option (Nat × (Nat → UInt8)) :=
  let len := (leWord (frame 0) (frame 1)).toNat
  let recvMac := slice frame pktMacOffset pktMacSize
  let calcMac := calls.hmac.result C calls.stack (slice frame 0 pktMacOffset)
    (slice frame pktHeaderSize len)
  if recvMac ≠ calcMac.take pktMacSize then none
  else
    let iv := slice frame pktNonceOffset pktNonceSize
    let plain := C.cipher iv (slice frame pktHeaderSize len)
    some (len, if calls.cipher.ok then blit outPlain 0 plain else outPlain)

theorem HmacCalls.result_of_ok (C : Crypto) {calls : HmacCalls} (h : calls.ok = true)
    (stack : MacArray) (header body : List UInt8) :
    calls.result C stack header body = C.hmac (header ++ body) := by
  simp only [HmacCalls.ok, Bool.and_eq_true] at h
  simp [HmacCalls.result, h]

theorem nonceField_blit (nonce : Nonce) (m : Nat → UInt8) :
    slice (blit m pktNonceOffset nonce.bytes) pktNonceOffset pktNonceSize = nonce.bytes := by
  have h := slice_blit_self m pktNonceOffset nonce.bytes
  rwa [nonce.length_eq] at h

theorem setHeader_of_ok (C : Crypto) {calls : EncodeCalls} {nonce : Nonce}
    (hrand : calls.rand = some nonce) (hcipher : calls.cipher.ok = true)
    (hhmac : calls.hmac.ok = true) (p : CPacket) :
    setHeader C calls p = p.setHeader C nonce.bytes := by
  simp only [setHeader, encode, hrand, randBytes, nonceField_blit, hcipher, if_true,
    HmacCalls.result_of_ok C hhmac, CPacket.setHeader, PacketBuffer.encode, slice_length]

theorem decode_of_ok (C : Crypto) {calls : DecodeCalls} (hhmac : calls.hmac.ok = true)
    (hcipher : calls.cipher.ok = true) (frame outPlain : Nat → UInt8) {len : Nat}
    (hlen : len = (leWord (frame 0) (frame 1)).toNat) :
    decode C calls frame outPlain =
      (PacketBuffer.decode C (slice frame 0 (pktHeaderSize + len))).map
        fun plain => (plain.length, blit outPlain 0 plain) := by
  have hfields : ∀ k n, k + n ≤ pktHeaderSize + len →
      ((slice frame 0 (pktHeaderSize + len)).drop k).take n = slice frame k n := by
    intro k n h
    rw [take_drop_slice frame h, Nat.zero_add]
  have hsize : pktHeaderSize = 30 := rfl
  have hnonce := hfields pktNonceOffset pktNonceSize (by simp [pktNonceOffset, pktNonceSize]; omega)
  have hmac := hfields pktMacOffset pktMacSize (by simp [pktMacOffset, pktMacSize]; omega)
  have hfront := hfields 0 pktMacOffset (by simp [pktMacOffset]; omega)
  simp only [decode, PacketBuffer.decode]
  rw [getD_slice frame (by omega), getD_slice frame (by omega), ← hlen, hnonce, hmac,
    hfields pktHeaderSize len (le_refl _)]
  rw [List.drop_zero] at hfront
  rw [hfront, HmacCalls.result_of_ok C hhmac, hcipher]
  simp only [if_true, ne_eq, ite_not]
  split
  · simp
  · rfl

/-- The nonce of a frame. -/
def nonceField (frame : List UInt8) : List UInt8 := (frame.drop pktNonceOffset).take pktNonceSize

/-- The cipher text of a frame. -/
def body (frame : List UInt8) : List UInt8 := frame.drop pktHeaderSize

/-- The nonce field of a packet behind `RAND_bytes`, which a failed call leaves as the last
use of the packet has left it. -/
def nonceBehindRand (calls : EncodeCalls) (p : CPacket) : List UInt8 :=
  slice (randBytes calls.rand p.buffer) pktNonceOffset pktNonceSize

theorem slice_header_randBytes (rand : Option Nonce) (m : Nat → UInt8) (len : Nat) :
    slice (randBytes rand m) pktHeaderSize len = slice m pktHeaderSize len := by
  cases rand with
  | none => rfl
  | some nonce =>
      apply slice_blit_of_disjoint
      right
      rw [nonce.length_eq]
      decide

theorem result_length (C : Crypto) (calls : HmacCalls) (stack : MacArray)
    (header body : List UInt8) : (calls.result C stack header body).length = pktMacFullSize := by
  unfold HmacCalls.result
  split
  · exact C.hmac_length _
  · exact stack.length_eq

theorem slice_nonce_encode (C : Crypto) (calls : EncodeCalls) (plainLen : Nat)
    (m : Nat → UInt8) :
    slice (encode C calls plainLen m) pktNonceOffset pktNonceSize =
      slice (randBytes calls.rand m) pktNonceOffset pktNonceSize := by
  simp only [encode]
  rw [slice_blit_of_disjoint _ _ (.inl (by decide)),
    slice_blit_of_disjoint _ _ (.inr (by simp [pktNonceOffset]))]
  split
  · exact slice_blit_of_disjoint _ _ (.inl (by decide))
  · rfl

theorem slice_body_encode (C : Crypto) (calls : EncodeCalls) (plainLen : Nat)
    (m : Nat → UInt8) :
    slice (encode C calls plainLen m) pktHeaderSize plainLen =
      if calls.cipher.ok then
        C.cipher (slice (randBytes calls.rand m) pktNonceOffset pktNonceSize)
          (slice m pktHeaderSize plainLen)
      else slice m pktHeaderSize plainLen := by
  simp only [encode]
  rw [slice_blit_of_disjoint _ _ (.inr ?_),
    slice_blit_of_disjoint _ _ (.inr (by simp [pktHeaderSize]))]
  · split
    · have h := slice_blit_self (randBytes calls.rand m) pktHeaderSize
        (C.cipher (slice (randBytes calls.rand m) pktNonceOffset pktNonceSize)
          (slice (randBytes calls.rand m) pktHeaderSize plainLen))
      rw [Crypto.cipher_length, slice_length] at h
      rw [h, slice_header_randBytes]
    · exact slice_header_randBytes calls.rand m plainLen
  · rw [List.length_take, result_length]
    decide

theorem writePos_eq (p : CPacket) : p.writePos = pktHeaderSize + (p.writePos - pktHeaderSize) :=
  (Nat.add_sub_cancel' (p.header_le_readPos.trans p.readPos_le_writePos)).symm

/-- The frame of a packet that `SetHeader` has been called on, whatever has failed in it. -/
def frameOf (C : Crypto) (calls : EncodeCalls) (p : CPacket) : List UInt8 :=
  slice (setHeader C calls p).buffer 0 (setHeader C calls p).getPacketSize

theorem nonceField_frameOf (C : Crypto) (calls : EncodeCalls) (p : CPacket) :
    nonceField (frameOf C calls p) = nonceBehindRand calls p := by
  have hsize : pktNonceOffset + pktNonceSize ≤ (setHeader C calls p).getPacketSize :=
    Nat.le_trans (by decide) (p.header_le_readPos.trans p.readPos_le_writePos)
  rw [nonceField, frameOf, take_drop_slice _ hsize, Nat.zero_add]
  exact slice_nonce_encode C calls _ _

theorem body_frameOf (C : Crypto) (calls : EncodeCalls) (p : CPacket) :
    body (frameOf C calls p) =
      if calls.cipher.ok then C.cipher (nonceBehindRand calls p) (written p) else written p := by
  have hsize : (setHeader C calls p).getPacketSize =
      pktHeaderSize + (p.writePos - pktHeaderSize) := writePos_eq p
  rw [body, frameOf, hsize, slice_add, List.drop_left' (slice_length _ _ _), Nat.zero_add]
  exact slice_body_encode C calls _ _

/-- `SetHeader` on a packet and `SendPacket` to one session: the frame, if it is sent. -/
def sendSealed (C : Crypto) (calls : EncodeCalls) (sv : Server) (sid : SessionID)
    (p : PacketRef) (accepted : Bool) : Option (List UInt8) :=
  let sv := sv.setPacket p (setHeader C calls (sv.packets p))
  if (sv.sendPacket sid p accepted).1 then some (wireBytes sv p) else none

/-- The session is open under the identifier and its queue has room. -/
def Takes (sv : Server) (sid : SessionID) : Prop :=
  PassesChecks sv sid ∧ (sv.sessions (sidIndex sid)).closeFlag = false ∧
    (sv.sessions (sidIndex sid)).sqCount < qsize

/-- The length that the frame in memory announces. -/
def announcedAt (frame : Nat → UInt8) : Nat := (leWord (frame 0) (frame 1)).toNat

/-- The decryption of the cipher text of the frame in memory. -/
def plainAt (C : Crypto) (frame : Nat → UInt8) : List UInt8 :=
  C.cipher (slice frame pktNonceOffset pktNonceSize)
    (slice frame pktHeaderSize (announcedAt frame))

/-- The frame carries the tag that stands in the array behind the HMAC calls. -/
def Matches (C : Crypto) (calls : DecodeCalls) (frame : Nat → UInt8) : Prop :=
  slice frame pktMacOffset pktMacSize =
    (calls.hmac.result C calls.stack (slice frame 0 pktMacOffset)
      (slice frame pktHeaderSize (announcedAt frame))).take pktMacSize

theorem sendPacket_fst (sv : Server) (sid : SessionID) (p : PacketRef) (accepted : Bool) :
    (sv.sendPacket sid p accepted).1 = true ↔ Takes sv sid := by
  simp only [Server.sendPacket, Takes, PassesChecks]
  split
  · rename_i hmax
    simp [Nat.not_lt.mpr hmax]
  · rename_i hmax
    split
    · rename_i hgen
      simp [hgen]
    · rename_i hgen
      split
      · rename_i hclosed
        simp [hclosed]
      · rename_i hopen
        split
        · rename_i hfull
          simp [Nat.not_lt.mpr hfull]
        · rename_i hroom
          simp [Nat.not_le.mp hmax, not_not.mp hgen, hopen, Nat.not_le.mp hroom]

theorem sendSealed_eq_some_iff (C : Crypto) (calls : EncodeCalls) (sv : Server)
    (sid : SessionID) (p : PacketRef) (accepted : Bool) (frame : List UInt8) :
    sendSealed C calls sv sid p accepted = some frame ↔
      Takes sv sid ∧ frameOf C calls (sv.packets p) = frame := by
  set sv' := sv.setPacket p (setHeader C calls (sv.packets p)) with hsv'
  have htakes : (sv'.sendPacket sid p accepted).1 = true ↔ Takes sv sid :=
    sendPacket_fst sv' sid p accepted
  have hframe : wireBytes sv' p = frameOf C calls (sv.packets p) := by
    have hpacket : sv'.packets p = setHeader C calls (sv.packets p) :=
      Function.update_self p _ sv.packets
    rw [wireBytes, hpacket, frameOf]
  simp only [sendSealed, ← hsv']
  split
  · rename_i hsent
    rw [hframe, Option.some.injEq]
    exact (and_iff_right (htakes.mp hsent)).symm
  · rename_i hrefused
    exact iff_of_false (Option.some_ne_none frame).symm fun h => hrefused (htakes.mpr h.1)

theorem decode_eq_some_iff (C : Crypto) (calls : DecodeCalls) (frame outPlain : Nat → UInt8)
    (len : Nat) (out : Nat → UInt8) :
    decode C calls frame outPlain = some (len, out) ↔
      Matches C calls frame ∧ len = announcedAt frame ∧
        out = if calls.cipher.ok then blit outPlain 0 (plainAt C frame) else outPlain := by
  simp only [decode, Matches, ne_eq, ite_not]
  split
  · rename_i hmatch
    simp only [Option.some.injEq, Prod.mk.injEq, eq_comm (a := len), eq_comm (a := out)]
    exact (and_iff_right hmatch).symm
  · rename_i hdiffer
    exact iff_of_false (Option.some_ne_none (len, out)).symm fun h => hdiffer h.1

theorem slice_plain (C : Crypto) (frame outPlain : Nat → UInt8) :
    slice (blit outPlain 0 (plainAt C frame)) 0 (announcedAt frame) = plainAt C frame := by
  have h := slice_blit_self outPlain 0 (plainAt C frame)
  rwa [plainAt, Crypto.cipher_length, slice_length] at h

theorem send_fails_closed_iff (C : Crypto) (calls : EncodeCalls) (sv : Server)
    (sid : SessionID) (p : PacketRef) (accepted : Bool) :
    (∀ frame, sendSealed C calls sv sid p accepted = some frame →
        ∃ nonce, calls.rand = some nonce ∧ nonceField frame = nonce.bytes ∧
          body frame = C.cipher nonce.bytes (written (sv.packets p))) ↔
      (Takes sv sid → ∃ nonce, calls.rand = some nonce ∧
        (calls.cipher.ok = true ∨
          C.cipher nonce.bytes (written (sv.packets p)) = written (sv.packets p))) := by
  have hsent := sendSealed_eq_some_iff C calls sv sid p accepted
  have hnonce : ∀ nonce, calls.rand = some nonce →
      nonceBehindRand calls (sv.packets p) = nonce.bytes := by
    intro nonce hrand
    rw [nonceBehindRand, hrand]
    exact nonceField_blit nonce _
  constructor
  · intro h htakes
    obtain ⟨nonce, hrand, -, hbody⟩ := h _ ((hsent _).mpr ⟨htakes, rfl⟩)
    refine ⟨nonce, hrand, ?_⟩
    rw [body_frameOf, hnonce nonce hrand] at hbody
    cases hcipher : calls.cipher.ok with
    | true => exact .inl rfl
    | false =>
        right
        simpa [hcipher] using hbody.symm
  · intro h frame hframe
    obtain ⟨htakes, rfl⟩ := (hsent frame).mp hframe
    obtain ⟨nonce, hrand, hcipher⟩ := h htakes
    refine ⟨nonce, hrand, ?_, ?_⟩
    · rw [nonceField_frameOf, hnonce nonce hrand]
    · rw [body_frameOf, hnonce nonce hrand]
      rcases hcipher with hok | hsame
      · rw [if_pos hok]
      · rw [hsame, ite_self]

theorem decode_fails_closed_iff (C : Crypto) (calls : DecodeCalls)
    (frame outPlain : Nat → UInt8) :
    (∀ len out, decode C calls frame outPlain = some (len, out) →
        calls.hmac.ok = true ∧ slice out 0 len = plainAt C frame) ↔
      (Matches C calls frame → calls.hmac.ok = true ∧
        (calls.cipher.ok = true ∨ slice outPlain 0 (announcedAt frame) = plainAt C frame)) := by
  constructor
  · intro h hmatch
    obtain ⟨hhmac, hout⟩ := h _ _
      ((decode_eq_some_iff C calls frame outPlain _ _).mpr ⟨hmatch, rfl, rfl⟩)
    refine ⟨hhmac, ?_⟩
    cases hcipher : calls.cipher.ok with
    | true => exact .inl rfl
    | false =>
        right
        simpa [hcipher] using hout
  · intro h len out hdecode
    obtain ⟨hmatch, rfl, rfl⟩ := (decode_eq_some_iff C calls frame outPlain _ _).mp hdecode
    obtain ⟨hhmac, hplain⟩ := h hmatch
    refine ⟨hhmac, ?_⟩
    cases hcipher : calls.cipher.ok with
    | true => exact slice_plain C frame outPlain
    | false => simpa [hcipher] using hplain

/-- The codec fails closed exactly where the calls whose results are not looked at have gone
well: for a frame that is sent `RAND_bytes` and the encryption, for one that is accepted the
HMAC and the decryption, where these change anything. -/
theorem codec_fails_closed_iff (C : Crypto) (calls : EncodeCalls) (sv : Server)
    (sid : SessionID) (p : PacketRef) (accepted : Bool) (dcalls : DecodeCalls)
    (frame outPlain : Nat → UInt8) :
    ((∀ sent, sendSealed C calls sv sid p accepted = some sent →
        ∃ nonce, calls.rand = some nonce ∧ nonceField sent = nonce.bytes ∧
          body sent = C.cipher nonce.bytes (written (sv.packets p))) ↔
      (Takes sv sid → ∃ nonce, calls.rand = some nonce ∧
        (calls.cipher.ok = true ∨
          C.cipher nonce.bytes (written (sv.packets p)) = written (sv.packets p)))) ∧
    ((∀ len out, decode C dcalls frame outPlain = some (len, out) →
        dcalls.hmac.ok = true ∧ slice out 0 len = plainAt C frame) ↔
      (Matches C dcalls frame → dcalls.hmac.ok = true ∧
        (dcalls.cipher.ok = true ∨
          slice outPlain 0 (announcedAt frame) = plainAt C frame))) :=
  ⟨send_fails_closed_iff C calls sv sid p accepted,
    decode_fails_closed_iff C dcalls frame outPlain⟩

def onesNonce : Nonce := ⟨List.replicate pktNonceSize 1, rfl⟩

def zeroMac : MacArray := ⟨List.replicate pktMacFullSize 0, rfl⟩

/-- Every call but `EVP_EncryptUpdate` goes well. -/
def failedUpdate : EncodeCalls :=
  ⟨some onesNonce, ⟨true, true, false⟩, ⟨true, true, true, true, true⟩, zeroMac⟩

/-- Every call but `RAND_bytes` goes well. -/
def failedRand : EncodeCalls :=
  ⟨none, ⟨true, true, true⟩, ⟨true, true, true, true, true⟩, zeroMac⟩

/-- One open session, and a packet on its second use. -/
def recycledServer : Server :=
  ((Server.start 1).acceptOne 5 true true).setPacket 0
    (((CPacket.new.writePacket [1, 2]).setHeader sumCrypto onesNonce.bytes).clear.writePacket
      [104, 105])

/-- With a failed encryption the plaintext is sent under a valid tag, and with a failed
`RAND_bytes` the nonce of the packet's first use is. -/
theorem unsealed_frames_sent :
    (¬ ∀ sent, sendSealed sumCrypto failedUpdate recycledServer (sessionId 0 1) 0 true =
        some sent → ∃ nonce, failedUpdate.rand = some nonce ∧ nonceField sent = nonce.bytes ∧
          body sent = sumCrypto.cipher nonce.bytes (written (recycledServer.packets 0))) ∧
    (¬ ∀ sent, sendSealed sumCrypto failedRand recycledServer (sessionId 0 1) 0 true =
        some sent → ∃ nonce, failedRand.rand = some nonce ∧ nonceField sent = nonce.bytes ∧
          body sent = sumCrypto.cipher nonce.bytes (written (recycledServer.packets 0))) ∧
    (sendSealed sumCrypto failedUpdate recycledServer (sessionId 0 1) 0 true).map
      (fun sent => (body sent, decide (tag sent = expectedTag sumCrypto sent))) =
        some ([104, 105], true) ∧
    (sendSealed sumCrypto failedRand recycledServer (sessionId 0 1) 0 true).map nonceField =
      some onesNonce.bytes := by
  refine ⟨?_, ?_, by decide, by decide⟩
  · intro h
    obtain ⟨nonce, hrand, -, hbody⟩ := h _ rfl
    obtain rfl : onesNonce = nonce := Option.some.inj hrand
    revert hbody
    decide
  · intro h
    obtain ⟨nonce, hrand, -⟩ := h _ rfl
    cases hrand

end IocpChat.FailingCodec
