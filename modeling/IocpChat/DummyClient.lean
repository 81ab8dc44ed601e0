import IocpChat.PacketBuffer

namespace IocpChat.DummyClient

open IocpChat.Protocol
open IocpChat.RingWindow
open IocpChat.PacketBuffer

/-- The client has its own copy of the packet types. -/
inductive PacketType where
  | csLoginReq
  | csRoomEnterReq
  | csRoomLeaveReq
  | csChatReq
  | csSignupReq
  | scLoginRes
  | scRoomEnterRes
  | scChatRes
  | scUserJoin
  | scUserLeave
  | scSignupRes
  deriving DecidableEq, Repr

def PacketType.code : PacketType → UInt16
  | .csLoginReq => 1
  | .csRoomEnterReq => 2
  | .csRoomLeaveReq => 3
  | .csChatReq => 4
  | .csSignupReq => 5
  | .scLoginRes => 101
  | .scRoomEnterRes => 102
  | .scChatRes => 103
  | .scUserJoin => 104
  | .scUserLeave => 105
  | .scSignupRes => 106

def maxNicknameLen : Nat := 32
def maxAccountLen : Nat := 32
def maxPasswordLen : Nat := 64
def maxChatLen : Nat := 256
def pktNonceOffset : Nat := 2
def pktNonceSize : Nat := 12
def pktMacOffset : Nat := 14
def pktMacSize : Nat := 16
def pktHeaderSize : Nat := 30

def pktAesKey : List UInt8 :=
  [0x2B, 0x7E, 0x15, 0x16, 0x28, 0xAE, 0xD2, 0xA6,
    0xAB, 0xF7, 0x15, 0x88, 0x09, 0xCF, 0x4F, 0x3C]

def pktMacKey : List UInt8 :=
  [0xA1, 0xB2, 0xC3, 0xD4, 0xE5, 0xF6, 0x07, 0x18,
    0x29, 0x3A, 0x4B, 0x5C, 0x6D, 0x7E, 0x8F, 0x90,
    0xAA, 0xBB, 0xCC, 0xDD, 0xEE, 0xFF, 0x11, 0x22,
    0x33, 0x44, 0x55, 0x66, 0x77, 0x88, 0x99, 0x00]

/-- The two OpenSSL primitives with the key as an argument. -/
structure OpenSsl where
  keystream : List UInt8 → List UInt8 → Nat → UInt8
  hmac : List UInt8 → List UInt8 → List UInt8
  hmac_length : ∀ key message, (hmac key message).length = pktMacFullSize

/-- The codec under one pair of keys. -/
def OpenSsl.under (L : OpenSsl) (aesKey macKey : List UInt8) : Crypto where
  keystream := L.keystream aesKey
  hmac := L.hmac macKey
  hmac_length := L.hmac_length macKey

/-- The primitives as the client uses them. -/
def clientCrypto (L : OpenSsl) : Crypto := L.under pktAesKey pktMacKey

/-- The client's `Encode` into the block `m`. -/
def encode (C : Crypto) (nonce plain : List UInt8) (m : Nat → UInt8) : Nat → UInt8 :=
  let m := blit m pktNonceOffset nonce
  let m := blit m pktHeaderSize (C.cipher nonce plain)
  let m := blit m 0 (wordBytes (UInt16.ofNat plain.length))
  let mac := C.hmac (slice m 0 pktMacOffset ++ slice m pktHeaderSize plain.length)
  blit m pktMacOffset (mac.take pktMacSize)

/-- The client's `Decode`, with `none` for the result `-1`. -/
def decode (C : Crypto) (frame : List UInt8) : Option (List UInt8) :=
  let len := leWord (frame.getD 0 0) (frame.getD 1 0)
  let nonce := (frame.drop pktNonceOffset).take pktNonceSize
  let recvMac := (frame.drop pktMacOffset).take pktMacSize
  let cipher := (frame.drop pktHeaderSize).take len.toNat
  let calcMac := C.hmac (frame.take pktMacOffset ++ cipher)
  if recvMac = calcMac.take pktMacSize then some (C.cipher nonce cipher) else none

/-- What sending takes from outside: the nonce, and what the local buffer held. -/
structure SendLocals where
  nonce : List UInt8
  buf : Nat → UInt8
  nonce_length : nonce.length = pktNonceSize

/-- The size of `buf` in `SendPacket`. -/
def sendBufferSize : Nat := 1024

/-- `SendPacket`: the bytes passed to `SendAll`, or `none` where the payload is
refused. -/
def sendPacket (C : Crypto) (env : SendLocals) (payload : List UInt8) : Option (List UInt8) :=
  if sendBufferSize < pktHeaderSize + payload.length then none
  else some (slice (encode C env.nonce payload env.buf) 0 (pktHeaderSize + payload.length))

/-- Wide characters as they lie in memory. -/
def wideBytes (s : List UInt16) : List UInt8 := s.flatMap wordBytes

/-- What `wcsncpy_s(dest, n, src, _TRUNCATE)` stores: at most `n - 1` characters and
the terminator. -/
def wcsncpyTruncate (n : Nat) (src : List UInt16) : List UInt16 := src.take (n - 1) ++ [0]

/-- The payload of `SendLogin`, on a zeroed array. -/
def loginPayload (account password : List UInt16) : List UInt8 :=
  let payload := blit (fun _ => 0) 0 (wordBytes PacketType.csLoginReq.code)
  let payload := blit payload 2 (wideBytes (wcsncpyTruncate maxAccountLen account))
  let payload := blit payload (2 + 2 * maxAccountLen)
    (wideBytes (wcsncpyTruncate maxPasswordLen password))
  slice payload 0 (2 + 2 * maxAccountLen + 2 * maxPasswordLen)

/-- The payload of `SendSignUp`. -/
def signUpPayload (account password nickname : List UInt16) : List UInt8 :=
  let payload := blit (fun _ => 0) 0 (wordBytes PacketType.csSignupReq.code)
  let payload := blit payload 2 (wideBytes (wcsncpyTruncate maxAccountLen account))
  let payload := blit payload (2 + 2 * maxAccountLen)
    (wideBytes (wcsncpyTruncate maxPasswordLen password))
  let payload := blit payload (2 + 2 * maxAccountLen + 2 * maxPasswordLen)
    (wideBytes (wcsncpyTruncate maxNicknameLen nickname))
  slice payload 0 (2 + 2 * maxAccountLen + 2 * maxPasswordLen + 2 * maxNicknameLen)

/-- The payload of `SendRoomEnter`. -/
def roomEnterPayload (roomNo : UInt16) : List UInt8 :=
  let payload := blit (fun _ => 0) 0 (wordBytes PacketType.csRoomEnterReq.code)
  let payload := blit payload 2 (wordBytes roomNo)
  slice payload 0 4

/-- The payload of `SendRoomLeave`. -/
def roomLeavePayload : List UInt8 :=
  slice (blit (fun _ => 0) 0 (wordBytes PacketType.csRoomLeaveReq.code)) 0 2

/-- `(WORD)strlen(chat) + 1`, at most `MAX_CHAT_LEN`. -/
def chatLen (chat : List UInt8) : UInt16 :=
  let len := UInt16.ofNat chat.length + 1
  if maxChatLen < len.toNat then UInt16.ofNat maxChatLen else len

/-- The text is copied together with its terminator. -/
def chatPayload (chat : List UInt8) : List UInt8 :=
  let payload := blit (fun _ => 0) 0 (wordBytes PacketType.csChatReq.code)
  let payload := blit payload 2 (wordBytes (chatLen chat))
  let payload := blit payload 4 ((chat ++ [0]).take (chatLen chat).toNat)
  slice payload 0 (4 + (chatLen chat).toNat)

section Requests

variable (C : Crypto) (env : SendLocals)

/-- `SendLogin`: the bytes that it passes to `SendAll`. -/
def sendLogin (account password : List UInt16) : Option (List UInt8) :=
  sendPacket C env (loginPayload account password)

/-- `SendSignUp`. -/
def sendSignUp (account password nickname : List UInt16) : Option (List UInt8) :=
  sendPacket C env (signUpPayload account password nickname)

/-- `SendRoomEnter`. -/
def sendRoomEnter (roomNo : UInt16) : Option (List UInt8) :=
  sendPacket C env (roomEnterPayload roomNo)

/-- `SendRoomLeave`. -/
def sendRoomLeave : Option (List UInt8) := sendPacket C env roomLeavePayload

/-- `SendChat`. -/
def sendChat (chat : List UInt8) : Option (List UInt8) := sendPacket C env (chatPayload chat)

end Requests

/-- What `InteractiveRecvThread` prints of a message. -/
inductive Shown where
  | loginRes (result : UInt8) (userNo : BitVec 32) (nick : List UInt8)
  | signupRes (result : UInt8) (userNo : BitVec 32)
  | roomEnterRes (result : UInt8) (roomNo : UInt16)
  | chatRes (nickname chat : List UInt8)
  | userJoin (nickname : List UInt8)
  | userLeave (nickname : List UInt8)
  | unknown (type : UInt16)
  deriving DecidableEq, Repr

/-- A `WORD` at an offset. -/
def readWord (m : Nat → UInt8) (pos : Nat) : UInt16 := leWord (m pos) (m (pos + 1))

/-- An `int` at an offset. -/
def readInt (m : Nat → UInt8) (pos : Nat) : BitVec 32 :=
  BitVec.ofNat 32 ((m pos).toNat + 256 * (m (pos + 1)).toNat +
    65536 * (m (pos + 2)).toNat + 16777216 * (m (pos + 3)).toNat)

/-- The `switch` over the message in the local `plain`. -/
def showMessage (plain : Nat → UInt8) : Shown :=
  let type := readWord plain 0
  let body := fun i => plain (2 + i)
  if type = PacketType.scLoginRes.code then
    .loginRes (body 0) (readInt body 1) (slice body 5 (2 * maxNicknameLen))
  else if type = PacketType.scSignupRes.code then .signupRes (body 0) (readInt body 1)
  else if type = PacketType.scRoomEnterRes.code then .roomEnterRes (body 0) (readWord body 1)
  else if type = PacketType.scChatRes.code then
    let len := (readWord body maxNicknameLen).toNat
    let copyLen := if len < maxChatLen then len else maxChatLen
    .chatRes (slice body 0 maxNicknameLen) (slice body (maxNicknameLen + 2) copyLen)
  else if type = PacketType.scUserJoin.code then .userJoin (slice body 0 maxNicknameLen)
  else if type = PacketType.scUserLeave.code then .userLeave (slice body 0 maxNicknameLen)
  else .unknown type

/-- The length in the header at the front of the buffer. -/
def payloadLen (buf : List UInt8) : Nat := (leWord (buf.getD 0 0) (buf.getD 1 0)).toNat

/-- The inner loop of `InteractiveRecvThread` over the bytes it has buffered: what is
shown, and the bytes that are left, or `none` after a MAC mismatch.  `fresh` is what
the uninitialised `plain` holds. -/
def recvLoop (C : Crypto) (fresh : List UInt8 → Nat → UInt8) (buf : List UInt8) :
    List Shown × Option (List UInt8) :=
  if buf.length < pktHeaderSize then ([], some buf)
  else if buf.length < pktHeaderSize + payloadLen buf then ([], some buf)
  else
    match decode C (buf.take (pktHeaderSize + payloadLen buf)) with
    | none => ([], none)
    | some plain =>
        let next := recvLoop C fresh (buf.drop (pktHeaderSize + payloadLen buf))
        (showMessage (blit (fresh buf) 0 plain) :: next.1, next.2)
termination_by buf.length
decreasing_by
  rw [List.length_drop]
  simp only [pktHeaderSize] at *
  omega

end IocpChat.DummyClient
