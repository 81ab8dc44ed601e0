import Mathlib.Data.UInt
import IocpChat.PacketBuffer

namespace IocpChat.FrameCodec

open IocpChat.Protocol
open IocpChat.RingWindow
open IocpChat.PacketBuffer

/-- The frame of a plaintext under a nonce. -/
def sealed (C : Crypto) (nonce plain : List UInt8) : List UInt8 :=
  let header := wordBytes (UInt16.ofNat plain.length) ++ nonce
  header ++ ((C.hmac (header ++ C.cipher nonce plain)).take pktMacSize ++ C.cipher nonce plain)

/-- The value of the two length bytes. -/
def announced (frame : List UInt8) : Nat :=
  (leWord (frame.getD 0 0) (frame.getD 1 0)).toNat

/-- The MAC bytes of a frame. -/
def tag (frame : List UInt8) : List UInt8 := (frame.drop pktMacOffset).take pktMacSize

/-- The MAC bytes that `Decode` asks for. -/
def expectedTag (C : Crypto) (frame : List UInt8) : List UInt8 :=
  (C.hmac (frame.take pktMacOffset ++
    (frame.drop pktHeaderSize).take (announced frame))).take pktMacSize

@[simp] theorem cipher_cipher (C : Crypto) (nonce bytes : List UInt8) :
    C.cipher nonce (C.cipher nonce bytes) = bytes := by
  apply List.ext_getElem
  · simp
  · intro i _ _
    simp only [Crypto.cipher, List.getElem_mapIdx]
    rw [UInt8.xor_assoc, UInt8.xor_self, UInt8.xor_zero]

@[simp] theorem wordBytes_length (w : UInt16) : (wordBytes w).length = 2 := rfl

theorem leWord_wordBytes (w : UInt16) :
    leWord (UInt8.ofNat w.toNat) (UInt8.ofNat (w.toNat / 256)) = w := by
  have hw := w.toNat_lt
  apply UInt16.toNat_inj.mp
  simp only [leWord_toNat, UInt8.toNat_ofNat']
  omega

theorem wordBytes_leWord (lo hi : UInt8) : wordBytes (leWord lo hi) = [lo, hi] := by
  have hlo := lo.toNat_lt
  have hhi := hi.toNat_lt
  simp only [wordBytes, leWord_toNat, List.cons.injEq, and_true]
  refine ⟨?_, ?_⟩
  · apply UInt8.toNat_inj.mp
    simp only [UInt8.toNat_ofNat']
    omega
  · apply UInt8.toNat_inj.mp
    simp only [UInt8.toNat_ofNat']
    omega

theorem macTake_length (C : Crypto) (message : List UInt8) :
    ((C.hmac message).take pktMacSize).length = pktMacSize := by
  rw [List.length_take, C.hmac_length]
  rfl

theorem sealed_length (C : Crypto) {nonce : List UInt8} (hnonce : nonce.length = pktNonceSize)
    (plain : List UInt8) : (sealed C nonce plain).length = pktHeaderSize + plain.length := by
  simp only [sealed, List.length_append, wordBytes_length, hnonce, macTake_length,
    Crypto.cipher_length]
  simp only [pktNonceSize, pktMacSize, pktHeaderSize]
  omega

theorem slice_encode (C : Crypto) {nonce : List UInt8} (hnonce : nonce.length = pktNonceSize)
    (plain : List UInt8) (m : Nat → UInt8) :
    slice (encode C nonce plain m) 0 (pktHeaderSize + plain.length) = sealed C nonce plain := by
  set w := wordBytes (UInt16.ofNat plain.length) with hw
  set cipher := C.cipher nonce plain with hcipher
  have hclen : cipher.length = plain.length := Crypto.cipher_length C nonce plain
  have hwlen : w.length = 2 := rfl
  set m1 := blit m pktNonceOffset nonce with hm1
  set m2 := blit m1 pktHeaderSize cipher with hm2
  set m3 := blit m2 0 w with hm3
  have hword : slice m3 0 2 = w := by
    have h := slice_blit_self m2 0 w
    rwa [hwlen] at h
  have hnonce3 : slice m3 2 12 = nonce := by
    have h := slice_blit_self m 2 nonce
    rw [hnonce] at h
    rw [hm3, slice_blit_of_disjoint _ _ (.inr (by simp [hwlen])), hm2,
      slice_blit_of_disjoint _ _ (.inl (by decide))]
    exact h
  have hcipher3 : slice m3 30 plain.length = cipher := by
    have h := slice_blit_self m1 30 cipher
    rw [hclen] at h
    rw [hm3, slice_blit_of_disjoint _ _ (.inr (by simp [hwlen]))]
    exact h
  have hheader : slice m3 0 14 = w ++ nonce := by
    rw [show (14 : Nat) = 2 + 12 from rfl, slice_add, hword, Nat.zero_add, hnonce3]
  set mac := (C.hmac (w ++ nonce ++ cipher)).take pktMacSize with hmac
  have hmaclen : mac.length = 16 := macTake_length C _
  have hencode : encode C nonce plain m = blit m3 pktMacOffset mac := by
    simp only [encode, ← hw, ← hcipher, ← hm1, ← hm2, ← hm3]
    rw [show slice m3 0 pktMacOffset = w ++ nonce from hheader,
      show slice m3 pktHeaderSize plain.length = cipher from hcipher3]
  rw [hencode, show pktHeaderSize + plain.length = 14 + (16 + plain.length) by
    simp only [pktHeaderSize]; omega, slice_add, slice_add, Nat.zero_add]
  have hfront : slice (blit m3 pktMacOffset mac) 0 14 = w ++ nonce := by
    rw [slice_blit_of_disjoint _ _ (.inl (by decide))]
    exact hheader
  have hmid : slice (blit m3 pktMacOffset mac) 14 16 = mac := by
    have h := slice_blit_self m3 14 mac
    rwa [hmaclen] at h
  have hback : slice (blit m3 pktMacOffset mac) (14 + 16) plain.length = cipher := by
    rw [slice_blit_of_disjoint _ _ (.inr (by simp [hmaclen, pktMacOffset]))]
    exact hcipher3
  rw [hfront, hmid, hback]
  rfl

theorem decode_eq (C : Crypto) (frame : List UInt8) :
    decode C frame = if tag frame = expectedTag C frame then
      some (C.cipher ((frame.drop pktNonceOffset).take pktNonceSize)
        ((frame.drop pktHeaderSize).take (announced frame)))
    else none := rfl

theorem take_two {frame : List UInt8} (hframe : pktHeaderSize ≤ frame.length) :
    frame.take 2 = wordBytes (UInt16.ofNat (announced frame)) := by
  rcases frame with _ | ⟨lo, _ | ⟨hi, rest⟩⟩
  · simp [pktHeaderSize] at hframe
  · simp [pktHeaderSize] at hframe
  · change [lo, hi] = wordBytes (UInt16.ofNat (leWord lo hi).toNat)
    rw [UInt16.ofNat_toNat, wordBytes_leWord]

theorem frame_eq_fields {frame : List UInt8}
    (hframe : frame.length = pktHeaderSize + announced frame) :
    frame = wordBytes (UInt16.ofNat (announced frame)) ++
      (frame.drop pktNonceOffset).take pktNonceSize ++
        (tag frame ++ (frame.drop pktHeaderSize).take (announced frame)) := by
  have hrest : (frame.drop pktHeaderSize).take (announced frame) = frame.drop pktHeaderSize := by
    apply List.take_of_length_le
    rw [List.length_drop, hframe, Nat.add_sub_cancel_left]
  rw [hrest, ← take_two (by omega)]
  have hmac : frame.drop pktHeaderSize = (frame.drop pktMacOffset).drop pktMacSize := by
    rw [List.drop_drop]
    rfl
  have hnonce : frame.drop pktMacOffset = (frame.drop pktNonceOffset).drop pktNonceSize := by
    rw [List.drop_drop]
    rfl
  rw [tag, hmac, List.take_append_drop, hnonce, List.append_assoc, List.take_append_drop]
  exact (List.take_append_drop 2 frame).symm

theorem announced_sealed (C : Crypto) (nonce : List UInt8) {plain : List UInt8}
    (hplain : plain.length < 65536) :
    announced (sealed C nonce plain) = plain.length := by
  change (leWord (UInt8.ofNat (UInt16.ofNat plain.length).toNat)
    (UInt8.ofNat ((UInt16.ofNat plain.length).toNat / 256))).toNat = plain.length
  rw [leWord_wordBytes, UInt16.toNat_ofNat']
  omega

theorem decode_sealed (C : Crypto) {nonce plain : List UInt8}
    (hnonce : nonce.length = pktNonceSize) (hplain : plain.length < 65536) :
    decode C (sealed C nonce plain) = some plain := by
  have hlen := announced_sealed C nonce hplain
  set header := wordBytes (UInt16.ofNat plain.length) ++ nonce with hheader
  set mac := (C.hmac (header ++ C.cipher nonce plain)).take pktMacSize with hmac
  have hframe : sealed C nonce plain = header ++ (mac ++ C.cipher nonce plain) := rfl
  have hheaderLen : header.length = pktMacOffset := by
    rw [hheader, List.length_append, wordBytes_length, hnonce]
    rfl
  have hmacLen : mac.length = pktMacSize := macTake_length C _
  have htail : (sealed C nonce plain).drop pktHeaderSize = C.cipher nonce plain := by
    rw [show pktHeaderSize = (header ++ mac).length by
      rw [List.length_append, hheaderLen, hmacLen]; rfl, hframe, ← List.append_assoc,
      List.drop_left]
  have htag : tag (sealed C nonce plain) = mac := by
    rw [tag, ← hheaderLen, ← hmacLen, hframe, List.drop_left, List.take_left]
  have hfront : (sealed C nonce plain).take pktMacOffset = header := by
    rw [← hheaderLen, hframe, List.take_left]
  have hnonceField : ((sealed C nonce plain).drop pktNonceOffset).take pktNonceSize = nonce := by
    rw [hframe, hheader, List.append_assoc,
      show pktNonceOffset = (wordBytes (UInt16.ofNat plain.length)).length from rfl,
      List.drop_left, ← hnonce, List.take_left]
  have hcipher : (C.cipher nonce plain).take plain.length = C.cipher nonce plain :=
    List.take_of_length_le (by simp)
  rw [decode_eq, expectedTag, htag, hfront, htail, hlen, hcipher, hnonceField, if_pos hmac,
    cipher_cipher]

/-- What `Decode` accepts is a frame, and the one of the text it returns. -/
theorem sealed_of_decode (C : Crypto) {frame plain : List UInt8}
    (hframe : frame.length = pktHeaderSize + announced frame)
    (hdecode : decode C frame = some plain) :
    sealed C ((frame.drop pktNonceOffset).take pktNonceSize) plain = frame := by
  rw [decode_eq] at hdecode
  split at hdecode
  · rename_i htag
    have hplain := Option.some.inj hdecode
    have hcipher : C.cipher ((frame.drop pktNonceOffset).take pktNonceSize) plain =
        (frame.drop pktHeaderSize).take (announced frame) := by
      rw [← hplain, cipher_cipher]
    have hlen : plain.length = announced frame := by
      rw [← hplain, Crypto.cipher_length, List.length_take, List.length_drop, hframe,
        Nat.add_sub_cancel_left, Nat.min_self]
    have hheader : frame.take pktMacOffset = wordBytes (UInt16.ofNat (announced frame)) ++
        (frame.drop pktNonceOffset).take pktNonceSize := by
      rw [show pktMacOffset = 2 + pktNonceSize from rfl, List.take_add, take_two (by omega)]
      rfl
    conv_rhs => rw [frame_eq_fields hframe]
    rw [sealed, hlen, hcipher, htag, expectedTag, hheader]
  · cases hdecode

theorem isSome_decode_iff (C : Crypto) (frame : List UInt8) :
    (decode C frame).isSome ↔ tag frame = expectedTag C frame := by
  rw [decode_eq]
  split <;> simp_all

/-- The plaintext that `SetHeader` seals: everything written behind the header. -/
def written (p : CPacket) : List UInt8 := slice p.buffer pktHeaderSize (p.writePos - pktHeaderSize)

/-- Sealing in place leaves the frame of what was written: the nonce is stored in
front of the text, and the cipher text takes its place. -/
theorem slice_setHeader (C : Crypto) {nonce : List UInt8} (hnonce : nonce.length = pktNonceSize)
    (p : CPacket) :
    slice (p.setHeader C nonce).buffer 0 (p.setHeader C nonce).getPacketSize =
      sealed C nonce (written p) := by
  have hplain : slice (blit p.buffer pktNonceOffset nonce) pktHeaderSize
      (p.writePos - pktHeaderSize) = written p := by
    rw [slice_blit_of_disjoint _ _ (.inr (by rw [hnonce]; decide))]
    rfl
  have hsize : p.writePos = pktHeaderSize + (written p).length := by
    have hheader := p.header_le_readPos.trans p.readPos_le_writePos
    rw [written, slice_length]
    omega
  have hbuffer : (p.setHeader C nonce).buffer = encode C nonce (written p) p.buffer := by
    simp only [CPacket.setHeader, hplain]
  have hpacketSize : (p.setHeader C nonce).getPacketSize = p.writePos := rfl
  rw [hbuffer, hpacketSize, hsize, slice_encode C hnonce]

theorem nonceField_length {frame : List UInt8}
    (hframe : frame.length = pktHeaderSize + announced frame) :
    ((frame.drop pktNonceOffset).take pktNonceSize).length = pktNonceSize := by
  rw [List.length_take, List.length_drop, hframe]
  simp only [pktNonceSize, pktNonceOffset, pktHeaderSize]
  omega

theorem decode_eq_some_iff_sealed (C : Crypto) {frame : List UInt8}
    (hframe : frame.length = pktHeaderSize + announced frame) (plain : List UInt8) :
    decode C frame = some plain ↔
      ∃ nonce, nonce.length = pktNonceSize ∧ frame = sealed C nonce plain := by
  constructor
  · intro hdecode
    exact ⟨(frame.drop pktNonceOffset).take pktNonceSize, nonceField_length hframe,
      (sealed_of_decode C hframe hdecode).symm⟩
  · rintro ⟨nonce, hnonce, rfl⟩
    apply decode_sealed C hnonce
    rw [sealed_length C hnonce] at hframe
    have hbound := (leWord ((sealed C nonce plain).getD 0 0)
      ((sealed C nonce plain).getD 1 0)).toNat_lt
    simp only [announced] at hframe
    omega

theorem decode_accepts_encoded (C : Crypto) {frame : List UInt8}
    (hframe : frame.length = pktHeaderSize + announced frame) :
    (∀ plain m, decode C frame = some plain ↔
      ∃ nonce, nonce.length = pktNonceSize ∧
        frame = slice (encode C nonce plain m) 0 (pktHeaderSize + plain.length)) ∧
    (∀ m, decode C frame = none ↔ ¬ ∃ plain nonce, nonce.length = pktNonceSize ∧
        frame = slice (encode C nonce plain m) 0 (pktHeaderSize + plain.length)) ∧
    (∀ plain, decode C frame = some plain → plain.length = announced frame) ∧
    (∀ p : CPacket, decode C frame = some (written p) ↔
      ∃ nonce, nonce.length = pktNonceSize ∧
        frame = slice (p.setHeader C nonce).buffer 0 (p.setHeader C nonce).getPacketSize) ∧
    ∀ i b rest, (decode C (frame.set i b ++ rest)).isSome ↔
      tag (frame.set i b ++ rest) = expectedTag C (frame.set i b ++ rest) := by
  have hencoded : ∀ plain m, decode C frame = some plain ↔
      ∃ nonce, nonce.length = pktNonceSize ∧
        frame = slice (encode C nonce plain m) 0 (pktHeaderSize + plain.length) := by
    intro plain m
    rw [decode_eq_some_iff_sealed C hframe]
    constructor
    · rintro ⟨nonce, hnonce, h⟩
      exact ⟨nonce, hnonce, by rw [slice_encode C hnonce, h]⟩
    · rintro ⟨nonce, hnonce, h⟩
      exact ⟨nonce, hnonce, by rw [h, slice_encode C hnonce]⟩
  refine ⟨hencoded, ?_, ?_, ?_, ?_⟩
  · intro m
    simp only [← hencoded _ m]
    rw [Option.eq_none_iff_forall_ne_some, not_exists]
  · intro plain hdecode
    have hlength := congrArg List.length (sealed_of_decode C hframe hdecode)
    rw [sealed_length C (nonceField_length hframe), hframe] at hlength
    omega
  · intro p
    rw [decode_eq_some_iff_sealed C hframe]
    constructor
    · rintro ⟨nonce, hnonce, h⟩
      exact ⟨nonce, hnonce, by rw [slice_setHeader C hnonce, h]⟩
    · rintro ⟨nonce, hnonce, h⟩
      exact ⟨nonce, hnonce, by rw [h, slice_setHeader C hnonce]⟩
  · intro i b rest
    exact isSome_decode_iff C _

/-- A MAC that only adds up the bytes, and a keystream that repeats the nonce. -/
def sumCrypto : Crypto where
  keystream := fun nonce i => nonce.getD (i % pktNonceSize) 0
  hmac := fun message => List.replicate pktMacFullSize message.sum
  hmac_length := fun _ => List.length_replicate

theorem decode_accepts_encoded_hi :
    decode sumCrypto ([2, 0] ++ List.replicate 12 1 ++ List.replicate 16 223 ++ [105, 104]) =
      some [104, 105] ∧
    decode sumCrypto ([2, 0] ++ List.replicate 12 1 ++ List.replicate 16 223 ++ [105, 105]) =
      none := by
  have hframe : ([2, 0] ++ List.replicate 12 1 ++ List.replicate 16 223 ++ [105, 104] :
      List UInt8).length = pktHeaderSize +
        announced ([2, 0] ++ List.replicate 12 1 ++ List.replicate 16 223 ++ [105, 104]) := by
    decide
  have h := decode_accepts_encoded sumCrypto hframe
  refine ⟨?_, ?_⟩
  · exact (h.1 [104, 105] (fun _ => 0)).mpr ⟨List.replicate 12 1, rfl, by decide⟩
  · have htampered := (h.2.2.2.2 31 105 []).not.mpr (by decide)
    exact Option.not_isSome_iff_eq_none.mp htampered

end IocpChat.FrameCodec
