import IocpChat.ClientAgreement

/-!
A packet as a sequence of fields.  The cursors of `CPacket` are `int`s here, and each
bound is checked in the arithmetic the source checks it in: `ReadPacket` and
`WritePacket` add two `int`s, the operators add an `int` to a `size_t`.  For sizes
that do not make an `int` overflow this is the packet with its cursors in order, and
what is written on one side of the wire is read on the other.
-/

namespace IocpChat.PacketFields

open IocpChat.Protocol
open IocpChat.RingWindow
open IocpChat.PacketBuffer
open IocpChat.FrameCodec
open IocpChat.LanServer
open IocpChat.ClientRequests
open IocpChat.ClientAgreement

/-- Conversion to `int`. -/
def toInt (n : Int) : Int := n.bmod (2 ^ 32)

/-- Conversion to `size_t`. -/
def toSize (n : Int) : Int := n % 2 ^ 64

/-- The packet with its cursors as the source declares them. -/
structure RawPacket where
  buffer : Nat → UInt8
  readPos : Int
  writePos : Int

namespace RawPacket

/-- `ReadPacket`, in `int` arithmetic. -/
def readPacket (p : RawPacket) (len : Nat) : Option (List UInt8) × RawPacket :=
  if toInt (p.readPos + len) ≤ p.writePos then
    (some (slice p.buffer p.readPos.toNat len), { p with readPos := toInt (p.readPos + len) })
  else (none, p)

/-- `WritePacket`, in `int` arithmetic. -/
def writePacket (p : RawPacket) (src : List UInt8) : RawPacket :=
  if toInt (p.writePos + src.length) ≤ packetBufferSize then
    { p with
      buffer := blit p.buffer p.writePos.toNat src
      writePos := toInt (p.writePos + src.length) }
  else p

/-- `operator<<` of a value with these bytes. -/
def put (p : RawPacket) (value : List UInt8) : RawPacket :=
  if toSize packetBufferSize < toSize (toSize p.writePos + value.length) then p
  else
    { p with
      buffer := blit p.buffer p.writePos.toNat value
      writePos := toInt (toSize p.writePos + value.length) }

/-- `operator>>` to a value of this size. -/
def get (p : RawPacket) (size : Nat) : Option (List UInt8) × RawPacket :=
  if toSize p.writePos < toSize (toSize p.readPos + size) then (none, p)
  else
    (some (slice p.buffer p.readPos.toNat size),
      { p with readPos := toInt (toSize p.readPos + size) })

def getDataSize (p : RawPacket) : Int := p.writePos - p.readPos

def getPacketSize (p : RawPacket) : Int := p.writePos

/-- `AttachRaw`. -/
def attachRaw (p : RawPacket) (plainBuf : List UInt8) : RawPacket :=
  if (packetBufferSize - pktHeaderSize : Int) < plainBuf.length then p
  else
    { buffer := blit p.buffer pktHeaderSize plainBuf
      readPos := pktHeaderSize
      writePos := pktHeaderSize + plainBuf.length }

/-- `SetHeader`. -/
def setHeader (C : Crypto) (nonce : List UInt8) (p : RawPacket) : RawPacket :=
  let plain := slice (blit p.buffer pktNonceOffset nonce) pktHeaderSize
    (p.writePos - pktHeaderSize).toNat
  { p with buffer := encode C nonce plain p.buffer }

end RawPacket

/-- The packet with its cursors as integers. -/
def raw (p : CPacket) : RawPacket := ⟨p.buffer, p.readPos, p.writePos⟩

/-- A size that can be added to a cursor without overflow. -/
def Small (n : Nat) : Prop := n < 2 ^ 31 - packetBufferSize

section Refinement

variable (p : CPacket)

theorem toInt_eq {n : Nat} (h : n < 2 ^ 31) : toInt n = n := by
  apply Int.bmod_eq_of_le <;> omega

theorem toSize_eq {n : Nat} (h : n < 2 ^ 31) : toSize n = n :=
  Int.emod_eq_of_lt (by omega) (by omega)

theorem readPos_add_lt {n : Nat} (h : Small n) : p.readPos + n < 2 ^ 31 := by
  have horder := p.readPos_le_writePos
  have hsize := p.writePos_le_size
  simp only [Small] at h
  omega

theorem writePos_add_lt {n : Nat} (h : Small n) : p.writePos + n < 2 ^ 31 := by
  have hsize := p.writePos_le_size
  simp only [Small] at h
  omega

theorem raw_readPacket {len : Nat} (h : Small len) :
    (raw p).readPacket len = ((p.readPacket len).1, raw (p.readPacket len).2) := by
  have hsum : toInt ((p.readPos : Int) + len) = ((p.readPos + len : Nat) : Int) :=
    toInt_eq (readPos_add_lt p h)
  rcases Nat.lt_or_ge p.writePos (p.readPos + len) with hshort | hfit
  · have hshort : ¬ p.readPos + len ≤ p.writePos := Nat.not_le.mpr hshort
    simp only [RawPacket.readPacket, CPacket.readPacket, raw, hsum, Int.ofNat_le, hshort,
      if_false, dite_false]
  · simp only [RawPacket.readPacket, CPacket.readPacket, raw, hsum, Int.ofNat_le, hfit, if_true,
      dite_true, Int.toNat_natCast]

theorem raw_writePacket {src : List UInt8} (h : Small src.length) :
    (raw p).writePacket src = raw (p.writePacket src) := by
  have hsum : toInt ((p.writePos : Int) + src.length) = ((p.writePos + src.length : Nat) : Int) :=
    toInt_eq (writePos_add_lt p h)
  rcases Nat.lt_or_ge packetBufferSize (p.writePos + src.length) with hfull | hfit
  · have hfull : ¬ p.writePos + src.length ≤ packetBufferSize := Nat.not_le.mpr hfull
    simp only [RawPacket.writePacket, CPacket.writePacket, raw, hsum, Int.ofNat_le, hfull,
      if_false, dite_false]
  · simp only [RawPacket.writePacket, CPacket.writePacket, raw, hsum, Int.ofNat_le, hfit,
      if_true, dite_true, Int.toNat_natCast]

theorem toSize_pos {n k : Nat} (h : n + k < 2 ^ 31) :
    toSize n + k = ((n + k : Nat) : Int) := by
  rw [toSize_eq (by omega)]
  rfl

/-- The two ways of checking a bound agree. -/
theorem raw_put {value : List UInt8} (h : Small value.length) :
    (raw p).put value = (raw p).writePacket value := by
  have hlt := writePos_add_lt p h
  have hsum := toSize_pos hlt
  have hsum' : (p.writePos : Int) + value.length = ((p.writePos + value.length : Nat) : Int) := rfl
  simp only [RawPacket.put, RawPacket.writePacket, raw, hsum, hsum', toInt_eq hlt, toSize_eq hlt,
    toSize_eq (show packetBufferSize < 2 ^ 31 by decide)]
  simp only [← Int.not_le, ite_not]

theorem raw_get {size : Nat} (h : Small size) :
    (raw p).get size = (raw p).readPacket size := by
  have hlt := readPos_add_lt p h
  have hsum := toSize_pos hlt
  have hsum' : (p.readPos : Int) + size = ((p.readPos + size : Nat) : Int) := rfl
  have hend : p.writePos < 2 ^ 31 := p.writePos_le_size.trans_lt (by decide)
  simp only [RawPacket.get, RawPacket.readPacket, raw, hsum, hsum', toInt_eq hlt, toSize_eq hlt,
    toSize_eq hend]
  simp only [← Int.not_le, ite_not]

theorem raw_attachRaw (plain : List UInt8) :
    (raw p).attachRaw plain = raw (p.attachRaw plain) := by
  have hguard : ((packetBufferSize - pktHeaderSize : Int) < plain.length) ↔
      packetBufferSize - pktHeaderSize < plain.length := by
    simp only [packetBufferSize, pktHeaderSize]
    omega
  simp only [RawPacket.attachRaw, CPacket.attachRaw, hguard]
  split <;> rfl

theorem raw_setHeader (C : Crypto) (nonce : List UInt8) :
    (raw p).setHeader C nonce = raw (p.setHeader C nonce) := by
  have hlen : ((p.writePos : Int) - pktHeaderSize).toNat = p.writePos - pktHeaderSize := by
    omega
  simp only [RawPacket.setHeader, CPacket.setHeader, raw, hlen]

end Refinement

/-- What is asked for on the reading side: a value through the operator, or a block
of bytes. -/
inductive Shape where
  | value (size : Nat)
  | block (len : Nat)
  deriving DecidableEq, Repr

/-- What is written: a value by an operator, a block by `WritePacket`. -/
inductive Field where
  | value (bytes : List UInt8)
  | block (bytes : List UInt8)
  deriving DecidableEq, Repr

/-- The bytes that it takes. -/
def Shape.size : Shape → Nat
  | .value size => size
  | .block len => len

/-- The bytes of a field. -/
def Field.bytes : Field → List UInt8
  | .value bytes => bytes
  | .block bytes => bytes

/-- How the field is read back. -/
def Field.shape : Field → Shape
  | .value bytes => .value bytes.length
  | .block bytes => .block bytes.length

namespace RawPacket

/-- A field is written by its function. -/
def write (p : RawPacket) : Field → RawPacket
  | .value bytes => p.put bytes
  | .block bytes => p.writePacket bytes

/-- A field is read by its function. -/
def read (p : RawPacket) : Shape → Option (List UInt8) × RawPacket
  | .value size => p.get size
  | .block len => p.readPacket len

/-- Fields are read one after the other. -/
def readAll : RawPacket → List Shape → List (Option (List UInt8)) × RawPacket
  | p, [] => ([], p)
  | p, shape :: shapes =>
      let (dest, p) := p.read shape
      let (dests, p) := p.readAll shapes
      (dest :: dests, p)

end RawPacket

section Fields

variable (p : CPacket)

theorem raw_write {field : Field} (h : Small field.bytes.length) :
    (raw p).write field = raw (p.writePacket field.bytes) := by
  cases field with
  | value bytes => exact (raw_put p h).trans (raw_writePacket p h)
  | block bytes => exact raw_writePacket p h

theorem raw_read {shape : Shape} (h : Small shape.size) :
    (raw p).read shape = ((p.readPacket shape.size).1, raw (p.readPacket shape.size).2) := by
  cases shape with
  | value size => exact (raw_get p h).trans (raw_readPacket p h)
  | block len => exact raw_readPacket p h

theorem raw_writeAll {fields : List Field} (h : ∀ field ∈ fields, Small field.bytes.length) :
    fields.foldl RawPacket.write (raw p) =
      raw ((fields.map Field.bytes).foldl CPacket.writePacket p) := by
  induction fields generalizing p with
  | nil => rfl
  | cons field fields ih =>
      rw [List.forall_mem_cons] at h
      rw [List.foldl_cons, raw_write p h.1, ih _ h.2, List.map_cons, List.foldl_cons]

theorem raw_readAll {fields : List Field} (h : ∀ field ∈ fields, Small field.bytes.length)
    (hpayload : p.payload = (fields.map Field.bytes).flatten) :
    ∃ q : CPacket, (raw p).readAll (fields.map Field.shape) =
      (fields.map fun field => some field.bytes, raw q) ∧ q.payload = [] := by
  induction fields generalizing p with
  | nil => exact ⟨p, rfl, hpayload⟩
  | cons field fields ih =>
      rw [List.forall_mem_cons] at h
      rw [List.map_cons, List.flatten_cons] at hpayload
      obtain ⟨p', hread, hrest⟩ := readPacket_of_payload hpayload
      have hsize : field.shape.size = field.bytes.length := by
        cases field <;> rfl
      have hfirst : (raw p).read field.shape = (some field.bytes, raw p') := by
        rw [raw_read p (hsize ▸ h.1), hsize, hread]
      obtain ⟨q, hall, hdone⟩ := ih p' h.2 hrest
      refine ⟨q, ?_, hdone⟩
      simp only [List.map_cons, RawPacket.readAll, hfirst, hall]

end Fields

/-- Everything that is done to a packet between `Alloc` and `Release`. -/
inductive PacketOp where
  | write (field : Field)
  | read (shape : Shape)
  | attach (plainBuf : List UInt8)
  | header (C : Crypto) (nonce : List UInt8)

namespace PacketOp

/-- The bytes that are passed to the operation. -/
def size : PacketOp → Nat
  | .write field => field.bytes.length
  | .read shape => shape.size
  | .attach _ => 0
  | .header _ _ => 0

/-- One operation on the packet. -/
def apply (p : RawPacket) : PacketOp → RawPacket
  | .write field => p.write field
  | .read shape => (p.read shape).2
  | .attach plainBuf => p.attachRaw plainBuf
  | .header C nonce => p.setHeader C nonce

/-- The bytes that are stored to the variable an operation reads into. -/
def stored (p : RawPacket) : PacketOp → Option (List UInt8)
  | .read shape => (p.read shape).1
  | _ => none

/-- The operation finds enough room, or enough bytes. -/
def Fits (p : RawPacket) : PacketOp → Prop
  | .write field => p.writePos + field.bytes.length ≤ packetBufferSize
  | .read shape => p.readPos + shape.size ≤ p.writePos
  | .attach plainBuf => pktHeaderSize + plainBuf.length ≤ packetBufferSize
  | .header _ _ => True

end PacketOp

section Operations

variable (p : CPacket)

theorem apply_raw {op : PacketOp} (h : Small op.size) :
    ∃ q : CPacket, op.apply (raw p) = raw q := by
  cases op with
  | write field => exact ⟨_, raw_write p h⟩
  | read shape => exact ⟨_, congrArg Prod.snd (raw_read p h)⟩
  | attach plainBuf => exact ⟨_, raw_attachRaw p plainBuf⟩
  | header C nonce => exact ⟨_, raw_setHeader p C nonce⟩

theorem applyAll_raw {ops : List PacketOp} (h : ∀ op ∈ ops, Small op.size) :
    ∃ q : CPacket, ops.foldl PacketOp.apply (raw p) = raw q := by
  induction ops generalizing p with
  | nil => exact ⟨p, rfl⟩
  | cons op ops ih =>
      rw [List.forall_mem_cons] at h
      obtain ⟨q, hq⟩ := apply_raw p h.1
      rw [List.foldl_cons, hq]
      exact ih q h.2

theorem apply_of_not_fits {op : PacketOp} (h : Small op.size) (hfits : ¬ op.Fits (raw p)) :
    op.apply (raw p) = raw p ∧ op.stored (raw p) = none := by
  cases op with
  | write field =>
      have hfull : ¬ p.writePos + field.bytes.length ≤ packetBufferSize := by
        simp only [PacketOp.Fits, raw] at hfits
        omega
      refine ⟨?_, rfl⟩
      rw [PacketOp.apply, raw_write p h, CPacket.writePacket, dif_neg hfull]
  | read shape =>
      have hshort : ¬ p.readPos + shape.size ≤ p.writePos := by
        simp only [PacketOp.Fits, raw] at hfits
        omega
      rw [PacketOp.apply, PacketOp.stored, raw_read p h, CPacket.readPacket, dif_neg hshort]
      exact ⟨rfl, rfl⟩
  | attach plainBuf =>
      have hlong : packetBufferSize - pktHeaderSize < plainBuf.length := by
        simp only [PacketOp.Fits, packetBufferSize, pktHeaderSize] at hfits ⊢
        omega
      refine ⟨?_, rfl⟩
      rw [PacketOp.apply, raw_attachRaw, CPacket.attachRaw, dif_pos hlong]
  | header C nonce => exact absurd trivial hfits

end Operations

/-- The packet that `Alloc` returns, which is new or comes from the pool with the bytes
of its last use. -/
def allocated (sv : Server) : RawPacket := raw (sv.alloc.2.packets sv.alloc.1)

/-- Fields that fit are read on the other side as they were written, and nothing is
left; and no sequence of operations brings the cursors out of order, or does anything
where it does not fit. -/
theorem fields_round_trip (C : Crypto) {nonce : List UInt8}
    (hnonce : nonce.length = pktNonceSize) (sv sv' : Server) :
    (∀ fields : List Field, (fields.map Field.bytes).flatten.length ≤ 4066 →
      ∃ p plain q,
        (fields.foldl RawPacket.write (allocated sv)).setHeader C nonce = p ∧
        decode C (slice p.buffer 0 p.getPacketSize.toNat) = some plain ∧
        ((allocated sv').attachRaw plain).readAll (fields.map Field.shape) =
          (fields.map fun field => some field.bytes, q) ∧
        q.getDataSize = 0) ∧
    ∀ (ops : List PacketOp) (p : RawPacket), (∀ op ∈ ops, Small op.size) →
      ops.foldl PacketOp.apply (allocated sv) = p →
      (30 ≤ p.readPos ∧ p.readPos ≤ p.writePos ∧ p.writePos ≤ 4096) ∧
      ∀ op : PacketOp, Small op.size → ¬ op.Fits p → op.apply p = p ∧ op.stored p = none := by
  constructor
  · intro fields hfields
    have hsmall : ∀ field ∈ fields, Small field.bytes.length := by
      intro field hfield
      have hle : field.bytes.length ≤ (fields.map Field.bytes).flatten.length :=
        (List.sublist_flatten_of_mem (List.mem_map_of_mem hfield)).length_le
      exact (hle.trans hfields).trans_lt (by decide)
    set plain := (fields.map Field.bytes).flatten with hplain
    have hpos := alloc_writePos sv
    have hwritten := written_writePackets (fields.map Field.bytes)
      (sv.alloc.2.packets sv.alloc.1) (by rw [hpos]; exact Nat.add_le_add_left hfields 30)
    have hempty : written (sv.alloc.2.packets sv.alloc.1) = [] := by
      rw [written, hpos, Nat.sub_self, slice_zero]
    rw [hempty, List.nil_append] at hwritten
    obtain ⟨q, hread, hdone⟩ := raw_readAll ((sv'.alloc.2.packets sv'.alloc.1).attachRaw plain)
      hsmall (CPacket.payload_attachRaw _ hfields)
    refine ⟨_, plain, raw q, rfl, ?_, ?_, ?_⟩
    · rw [allocated, raw_writeAll _ hsmall, raw_setHeader]
      have hslice := slice_setHeader C hnonce
        ((fields.map Field.bytes).foldl CPacket.writePacket (sv.alloc.2.packets sv.alloc.1))
      rw [hwritten] at hslice
      exact (congrArg (decode C) hslice).trans
        (decode_sealed C hnonce (hfields.trans_lt (by decide)))
    · rw [allocated, raw_attachRaw]
      exact hread
    · have hsize := payload_length q
      have horder := q.readPos_le_writePos
      rw [hdone, List.length_nil] at hsize
      simp only [RawPacket.getDataSize, raw]
      omega
  · rintro ops p hops rfl
    obtain ⟨q, hq⟩ := applyAll_raw (sv.alloc.2.packets sv.alloc.1) hops
    rw [allocated, hq]
    refine ⟨⟨?_, ?_, ?_⟩, ?_⟩
    · exact Int.ofNat_le.mpr q.header_le_readPos
    · exact Int.ofNat_le.mpr q.readPos_le_writePos
    · exact Int.ofNat_le.mpr q.writePos_le_size
    · intro op hop hfits
      exact apply_of_not_fits q hop hfits

/-- A word and two characters, from one new packet to another. -/
theorem fields_round_trip_word : ∃ p plain q,
    (([.value [5, 0], .block [104, 105]] : List Field).foldl RawPacket.write
      (allocated (Server.start 1))).setHeader sumCrypto (List.replicate 12 1) = p ∧
    decode sumCrypto (slice p.buffer 0 p.getPacketSize.toNat) = some plain ∧
    ((allocated (Server.start 1)).attachRaw plain).readAll [.value 2, .block 2] =
      ([some [5, 0], some [104, 105]], q) ∧
    q.getDataSize = 0 := by
  have hnonce : (List.replicate 12 1 : List UInt8).length = pktNonceSize := rfl
  obtain ⟨hfields, -⟩ := fields_round_trip sumCrypto hnonce (Server.start 1) (Server.start 1)
  exact hfields [.value [5, 0], .block [104, 105]] (by decide)

end IocpChat.PacketFields
