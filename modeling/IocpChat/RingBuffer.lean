import IocpChat.RingWindow

namespace IocpChat.RingBuffer

open IocpChat.RingWindow

/-- The size of the block. -/
def ringbufferSize : Nat := 4096

/-- The positions stay inside the block. -/
structure CRingBuffer where
  front : Nat
  rear : Nat
  buffer : Nat → UInt8
  front_lt : front < ringbufferSize
  rear_lt : rear < ringbufferSize

namespace CRingBuffer

/-- `GetUseSize`. -/
def useSize (rb : CRingBuffer) : Nat :=
  if rb.front ≤ rb.rear then rb.rear - rb.front else ringbufferSize - rb.front + rb.rear

/-- `GetFreeSize`. -/
def freeSize (rb : CRingBuffer) : Nat := ringbufferSize - 1 - rb.useSize

/-- `DirectEnqueueSize`: the room behind `rear` up to the end of the block. -/
def directEnqueueSize (rb : CRingBuffer) : Nat :=
  if rb.front ≤ rb.rear then
    if rb.front = 0 then ringbufferSize - 1 - rb.rear else ringbufferSize - rb.rear
  else rb.front - rb.rear - 1

/-- `MoveWritePos`. -/
def moveWritePos (rb : CRingBuffer) (size : Nat) : CRingBuffer :=
  { rb with
    rear := (rb.rear + size) % ringbufferSize
    rear_lt := Nat.mod_lt _ (by decide) }

/-- `DirectDequeueSize`. -/
def directDequeueSize (rb : CRingBuffer) : Nat :=
  if rb.front ≤ rb.rear then rb.rear - rb.front else ringbufferSize - rb.front

/-- `MoveReadPos`. -/
def moveReadPos (rb : CRingBuffer) (size : Nat) : CRingBuffer :=
  { rb with
    front := (rb.front + size) % ringbufferSize
    front_lt := Nat.mod_lt _ (by decide) }

/-- `Clear`. -/
def clear (rb : CRingBuffer) : CRingBuffer :=
  { rb with
    front := 0
    rear := 0
    front_lt := by decide
    rear_lt := by decide }

/-- The constructor. -/
def new : CRingBuffer where
  front := 0
  rear := 0
  buffer := fun _ => 0
  front_lt := by decide
  rear_lt := by decide

/-- `Peek`: the bytes copied to `dest`, or `none` where it returns 0 without
copying. -/
def peek (rb : CRingBuffer) (size : Nat) : Option (List UInt8) :=
  if rb.useSize < size then none
  else if size ≤ rb.directDequeueSize then some (slice rb.buffer rb.front size)
  else some (slice rb.buffer rb.front rb.directDequeueSize ++
    slice rb.buffer 0 (size - rb.directDequeueSize))

/-- `Read`, which moves on by what it has read. -/
def read (rb : CRingBuffer) (size : Nat) : Option (List UInt8) × CRingBuffer :=
  match rb.peek size with
  | none => (none, rb)
  | some dest => (some dest, if 0 < size then rb.moveReadPos size else rb)

/-- A completed receive has copied its bytes to `GetWritePtr()`. -/
def receive (rb : CRingBuffer) (bytes : List UInt8) : CRingBuffer :=
  { rb with buffer := blit rb.buffer rb.rear bytes }

/-- The bytes from `front` to `rear`, in the order they are read. -/
def contents (rb : CRingBuffer) : List UInt8 :=
  window rb.buffer ringbufferSize rb.front rb.useSize

@[simp] theorem contents_length (rb : CRingBuffer) :
    rb.contents.length = rb.useSize := by
  simp [contents]

theorem useSize_eq_mod (rb : CRingBuffer) :
    rb.useSize = (ringbufferSize + rb.rear - rb.front) % ringbufferSize := by
  have hf := rb.front_lt
  have hr := rb.rear_lt
  simp only [useSize, ringbufferSize] at *
  split <;> omega

theorem useSize_lt (rb : CRingBuffer) : rb.useSize < ringbufferSize := by
  rw [useSize_eq_mod]
  exact Nat.mod_lt _ (by decide)

theorem rear_eq (rb : CRingBuffer) :
    rb.rear = (rb.front + rb.useSize) % ringbufferSize := by
  have hf := rb.front_lt
  have hr := rb.rear_lt
  simp only [useSize_eq_mod, ringbufferSize] at *
  omega

theorem rear_add_directEnqueueSize_le (rb : CRingBuffer) :
    rb.rear + rb.directEnqueueSize ≤ ringbufferSize := by
  have hf := rb.front_lt
  have hr := rb.rear_lt
  simp only [directEnqueueSize]
  split
  · split <;> omega
  · omega

theorem directEnqueueSize_le_freeSize (rb : CRingBuffer) :
    rb.directEnqueueSize ≤ rb.freeSize := by
  have hf := rb.front_lt
  have hr := rb.rear_lt
  simp only [directEnqueueSize, freeSize, useSize]
  split
  · split <;> omega
  · omega

theorem useSize_moveReadPos (rb : CRingBuffer) {size : Nat} (h : size ≤ rb.useSize) :
    (rb.moveReadPos size).useSize = rb.useSize - size := by
  have hf := rb.front_lt
  have hr := rb.rear_lt
  simp only [useSize_eq_mod, moveReadPos, ringbufferSize] at *
  omega

theorem useSize_moveWritePos (rb : CRingBuffer) {size : Nat} (h : size ≤ rb.freeSize) :
    (rb.moveWritePos size).useSize = rb.useSize + size := by
  have hf := rb.front_lt
  have hr := rb.rear_lt
  simp only [useSize_eq_mod, moveWritePos, freeSize, ringbufferSize] at *
  omega

theorem contents_moveReadPos (rb : CRingBuffer) {size : Nat} (h : size ≤ rb.useSize) :
    (rb.moveReadPos size).contents = rb.contents.drop size := by
  simp only [contents, useSize_moveReadPos rb h]
  conv_rhs => rw [← Nat.add_sub_cancel' h, window_add]
  rw [List.drop_left' (window_length _ _ _ _)]
  exact window_mod_head _ _ _ _

theorem peek_eq_take (rb : CRingBuffer) {size : Nat} (h : size ≤ rb.useSize) :
    rb.peek size = some (rb.contents.take size) := by
  have hf := rb.front_lt
  have hr := rb.rear_lt
  have htake : rb.contents.take size = window rb.buffer ringbufferSize rb.front size := by
    simp only [contents]
    rw [← Nat.add_sub_cancel' h, window_add, List.take_left' (window_length _ _ _ _)]
  rw [htake]
  simp only [peek, Nat.not_lt.mpr h, if_false]
  by_cases hdirect : size ≤ rb.directDequeueSize
  · rw [if_pos hdirect, window_eq_slice]
    simp only [directDequeueSize] at hdirect
    split at hdirect <;> omega
  · rw [if_neg hdirect]
    have hwrap : ¬ rb.front ≤ rb.rear := by
      intro hle
      simp only [directDequeueSize, useSize, hle, if_true] at hdirect h
      exact hdirect h
    simp only [directDequeueSize, useSize, hwrap, if_false] at hdirect h ⊢
    have hrest : rb.front + size - ringbufferSize =
        size - (ringbufferSize - rb.front) := by omega
    rw [window_eq_slices rb.buffer (Nat.le_of_lt hf) (by omega) (by omega), hrest]

theorem read_eq (rb : CRingBuffer) {size : Nat} (h : size ≤ rb.useSize) (hpos : 0 < size) :
    rb.read size = (some (rb.contents.take size), rb.moveReadPos size) := by
  simp [read, peek_eq_take rb h, hpos]

/-- A completion that fits behind `rear` appends its bytes. -/
theorem contents_receive (rb : CRingBuffer) {bytes : List UInt8}
    (h : bytes.length ≤ rb.directEnqueueSize) :
    ((rb.receive bytes).moveWritePos bytes.length).contents = rb.contents ++ bytes := by
  have hend := rear_add_directEnqueueSize_le rb
  have hfree := directEnqueueSize_le_freeSize rb
  have hlt := useSize_lt rb
  have huse : ((rb.receive bytes).moveWritePos bytes.length).useSize =
      rb.useSize + bytes.length :=
    useSize_moveWritePos (rb.receive bytes) (Nat.le_trans h hfree)
  simp only [freeSize] at hfree
  simp only [contents, huse]
  exact window_blit rb.buffer bytes (rear_eq rb) (by omega) (by omega)

end CRingBuffer

end IocpChat.RingBuffer
