import Mathlib.Data.BitVec

namespace IocpChat.Protocol

/-- A 64-bit session identifier. -/
abbrev SessionID := BitVec 64

instance lawfulBEqSessionID : LawfulBEq SessionID := inferInstance

def maxNicknameLen : Nat := 32
def maxAccountLen : Nat := 32
def maxPasswordLen : Nat := 64
def maxChatLen : Nat := 256
def maxRoomCount : Nat := 5
def invalidRoomNo : UInt16 := 0xffff

/-- The packet types. -/
inductive PacketType where
  | csLoginReq
  | csRoomEnterReq
  | csRoomLeaveReq
  | csChatReq
  | csSignupReq
  | scLoginRes
  | scRoomEnterRes
  | scChatRes
  | scUserJoin
  | scUserLeave
  | scSignupRes
  deriving DecidableEq, Repr

def PacketType.code : PacketType → UInt16
  | .csLoginReq => 1
  | .csRoomEnterReq => 2
  | .csRoomLeaveReq => 3
  | .csChatReq => 4
  | .csSignupReq => 5
  | .scLoginRes => 101
  | .scRoomEnterRes => 102
  | .scChatRes => 103
  | .scUserJoin => 104
  | .scUserLeave => 105
  | .scSignupRes => 106

/-- The result codes. -/
inductive ResultCode where
  | success
  | fail
  | invalidNickname
  | invalidRoom
  | alreadyInRoom
  | notInRoom
  | invalidAccount
  | invalidPassword
  | duplicateAccount
  | duplicateNickname
  deriving DecidableEq, Repr

def ResultCode.code : ResultCode → UInt8
  | .success => 0
  | .fail => 1
  | .invalidNickname => 2
  | .invalidRoom => 3
  | .alreadyInRoom => 4
  | .notInRoom => 5
  | .invalidAccount => 6
  | .invalidPassword => 7
  | .duplicateAccount => 8
  | .duplicateNickname => 9

/-- `MapLoginResult`. -/
def mapLoginResult (spResult : Int) : ResultCode :=
  match spResult with
  | 0 => .success
  | 1 => .invalidAccount
  | 2 => .invalidPassword
  | _ => .fail

/-- `MapSignUpResult`. -/
def mapSignUpResult (spResult : Int) : ResultCode :=
  match spResult with
  | 0 => .success
  | 1 => .duplicateAccount
  | 2 => .duplicateNickname
  | _ => .fail

/-- A `WORD` from its two bytes in memory. -/
def leWord (lo hi : UInt8) : UInt16 := UInt16.ofNat (lo.toNat + 256 * hi.toNat)

/-- The bytes of a `WORD` in memory. -/
def wordBytes (w : UInt16) : List UInt8 :=
  [UInt8.ofNat w.toNat, UInt8.ofNat (w.toNat / 256)]

/-- The bytes of an `int` in memory. -/
def intBytes (v : BitVec 32) : List UInt8 :=
  [UInt8.ofNat v.toNat, UInt8.ofNat (v.toNat / 256),
    UInt8.ofNat (v.toNat / 65536), UInt8.ofNat (v.toNat / 16777216)]

@[simp] theorem leWord_toNat (lo hi : UInt8) :
    (leWord lo hi).toNat = lo.toNat + 256 * hi.toNat := by
  have hlo := lo.toNat_lt
  have hhi := hi.toNat_lt
  simp only [leWord, UInt16.toNat_ofNat']
  omega

/-- The bits of the generation in an identifier. -/
def bitMasking : SessionID := 0x0000FFFFFFFFFFFF#64

/-- The identifier `InitSession` computes: the slot index in the upper 16 bits,
or-ed with the `LONG` generation converted to 64 bits. -/
def sessionId (idx : Nat) (generation : BitVec 32) : SessionID :=
  (BitVec.ofNat 64 idx <<< 48) ||| generation.signExtend 64

/-- `(int)(sid >> 48)` -/
def sidIndex (sid : SessionID) : Nat := (sid >>> 48).toNat

/-- `(LONG)(sid & Bit_Masking)` -/
def sidGeneration (sid : SessionID) : BitVec 32 := (sid &&& bitMasking).setWidth 32

theorem bitMasking_getLsbD {i : Nat} (hi : i < 32) : bitMasking.getLsbD i = true := by
  have h : ∀ j : Fin 32, bitMasking.getLsbD j.val = true := by decide
  exact h ⟨i, hi⟩

@[simp] theorem sidGeneration_sessionId (idx : Nat) (generation : BitVec 32) :
    sidGeneration (sessionId idx generation) = generation := by
  apply BitVec.eq_of_getLsbD_eq
  intro i hi
  have hi48 : i < 48 := by omega
  have hi64 : i < 64 := by omega
  simp only [sidGeneration, sessionId, BitVec.getLsbD_setWidth, BitVec.getLsbD_and,
    BitVec.getLsbD_or, BitVec.getLsbD_shiftLeft, BitVec.getLsbD_signExtend,
    bitMasking_getLsbD hi, hi, hi48, hi64]
  simp

theorem sidIndex_sessionId {idx : Nat} (hidx : idx < 65536) {generation : BitVec 32}
    (hpos : generation.toNat < 2 ^ 31) : sidIndex (sessionId idx generation) = idx := by
  have hmsb : generation.msb = false := by
    rw [BitVec.msb_eq_decide]
    simpa using hpos
  have hhigh : generation.setWidth 64 >>> 48 = 0#64 := by
    apply BitVec.eq_of_toNat_eq
    rw [BitVec.toNat_ushiftRight, BitVec.toNat_setWidth, Nat.shiftRight_eq_div_pow]
    have hlt := generation.isLt
    simp only [BitVec.toNat_ofNat]
    omega
  rw [sidIndex, sessionId, BitVec.signExtend_eq_setWidth_of_msb_false hmsb,
    BitVec.ushiftRight_or_distrib, hhigh, BitVec.or_zero]
  simp only [BitVec.toNat_ushiftRight, BitVec.toNat_shiftLeft, BitVec.toNat_ofNat,
    Nat.shiftLeft_eq, Nat.shiftRight_eq_div_pow]
  omega

theorem sidIndex_sessionId_zero {idx : Nat} (hidx : idx < 65536) :
    sidIndex (sessionId idx 0#32) = idx :=
  sidIndex_sessionId hidx (by decide)

end IocpChat.Protocol
