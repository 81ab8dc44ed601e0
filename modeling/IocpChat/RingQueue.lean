import IocpChat.LabelledRun
import IocpChat.RingBuffer

namespace IocpChat.RingQueue

open IocpChat.RingWindow
open IocpChat.RingBuffer
open IocpChat.LabelledRun

/-- What the callers do with the buffer.  A direct write copies its bytes to
`GetWritePtr()` and moves `rear` behind them. -/
inductive RingOp where
  | write (bytes : List UInt8)
  | peek (size : Nat)
  | read (size : Nat)
  | moveReadPos (size : Nat)
  | clear
  deriving DecidableEq, Repr

/-- A direct write keeps to `DirectEnqueueSize()`, and `MoveReadPos` to
`UseSize()`. -/
def ringStep (rb : CRingBuffer) : RingOp → Option CRingBuffer
  | .write bytes =>
      if bytes.length ≤ rb.directEnqueueSize then
        some ((rb.receive bytes).moveWritePos bytes.length)
      else none
  | .peek _ => some rb
  | .read size => some (rb.read size).2
  | .moveReadPos size => if size ≤ rb.useSize then some (rb.moveReadPos size) else none
  | .clear => some rb.clear

/-- The bytes `Peek` and `Read` copy to their destination, if they copy any. -/
def ringDest (rb : CRingBuffer) : RingOp → Option (List UInt8)
  | .peek size => rb.peek size
  | .read size => (rb.read size).1
  | _ => none

/-- The return value of `Peek` and of `Read`. -/
def returned (size : Nat) : Option (List UInt8) → Nat
  | none => 0
  | some _ => size

/-- The operations on the abstract queue. -/
def queueStep (q : List UInt8) : RingOp → List UInt8
  | .write bytes => q ++ bytes
  | .peek _ => q
  | .read size => if size ≤ q.length then q.drop size else q
  | .moveReadPos size => q.drop size
  | .clear => []

/-- What the operation hands out. -/
def queueDest (q : List UInt8) : RingOp → Option (List UInt8)
  | .peek size => if size ≤ q.length then some (q.take size) else none
  | .read size => if size ≤ q.length then some (q.take size) else none
  | _ => none

section Steps

variable (rb : CRingBuffer)

theorem useSize_add_freeSize : rb.useSize + rb.freeSize = ringbufferSize - 1 := by
  have hlt := rb.useSize_lt
  simp only [CRingBuffer.freeSize]
  omega

theorem directEnqueueSize_eq_zero_iff : rb.directEnqueueSize = 0 ↔ rb.freeSize = 0 := by
  have hf := rb.front_lt
  have hr := rb.rear_lt
  simp only [CRingBuffer.directEnqueueSize, CRingBuffer.freeSize, CRingBuffer.useSize]
  split
  · split <;> omega
  · omega

theorem peek_of_gt {size : Nat} (h : rb.useSize < size) : rb.peek size = none := by
  rw [CRingBuffer.peek, if_pos h]

theorem read_of_gt {size : Nat} (h : rb.useSize < size) : rb.read size = (none, rb) := by
  rw [CRingBuffer.read, peek_of_gt rb h]

theorem read_of_le {size : Nat} (h : size ≤ rb.useSize) :
    (rb.read size).1 = some (rb.contents.take size) ∧
      (rb.read size).2.contents = rb.contents.drop size := by
  rcases Nat.eq_zero_or_pos size with rfl | hpos
  · constructor
    · simp [CRingBuffer.read, rb.peek_eq_take h]
    · simp [CRingBuffer.read, rb.peek_eq_take h]
  · rw [rb.read_eq h hpos]
    exact ⟨rfl, rb.contents_moveReadPos h⟩

theorem ringDest_eq (op : RingOp) : ringDest rb op = queueDest rb.contents op := by
  cases op with
  | peek size =>
      simp only [ringDest, queueDest, rb.contents_length]
      split
      · rename_i hle
        exact rb.peek_eq_take hle
      · rename_i hgt
        exact peek_of_gt rb (Nat.not_le.mp hgt)
  | read size =>
      simp only [ringDest, queueDest, rb.contents_length]
      split
      · rename_i hle
        exact (read_of_le rb hle).1
      · rename_i hgt
        rw [read_of_gt rb (Nat.not_le.mp hgt)]
  | _ => rfl

variable {rb} {rb' : CRingBuffer}

/-- One operation on the buffer is the same operation on its contents. -/
theorem contents_ringStep (op : RingOp) (h : ringStep rb op = some rb') :
    rb'.contents = queueStep rb.contents op := by
  cases op with
  | write bytes =>
      obtain ⟨hfit, hrb⟩ := Option.ite_none_right_eq_some.mp h
      obtain rfl := Option.some.inj hrb
      exact rb.contents_receive hfit
  | peek size =>
      obtain rfl := Option.some.inj h
      rfl
  | read size =>
      obtain rfl := Option.some.inj h
      simp only [queueStep, rb.contents_length]
      split
      · rename_i hle
        exact (read_of_le rb hle).2
      · rename_i hgt
        rw [read_of_gt rb (Nat.not_le.mp hgt)]
  | moveReadPos size =>
      obtain ⟨hle, hrb⟩ := Option.ite_none_right_eq_some.mp h
      obtain rfl := Option.some.inj hrb
      exact rb.contents_moveReadPos hle
  | clear =>
      obtain rfl := Option.some.inj h
      rfl

end Steps

/-- The buffer is a queue of these bytes, at most 4095 of them. -/
structure Represents (rb : CRingBuffer) (q : List UInt8) : Prop where
  contents : rb.contents = q
  front : rb.front < 4096
  rear : rb.rear < 4096
  useSize : rb.useSize = q.length
  capacity : rb.useSize + rb.freeSize = 4095
  direct_le : rb.directEnqueueSize ≤ rb.freeSize
  direct_zero : rb.directEnqueueSize = 0 ↔ rb.freeSize = 0
  direct_end : rb.rear + rb.directEnqueueSize ≤ 4096

theorem represents_contents (rb : CRingBuffer) : Represents rb rb.contents where
  contents := rfl
  front := rb.front_lt
  rear := rb.rear_lt
  useSize := rb.contents_length.symm
  capacity := useSize_add_freeSize rb
  direct_le := rb.directEnqueueSize_le_freeSize
  direct_zero := directEnqueueSize_eq_zero_iff rb
  direct_end := rb.rear_add_directEnqueueSize_le

/-- Whatever is done to a cleared buffer, it represents the queue to which the
same was done, and it goes on like that queue: a direct write appends its bytes,
`Peek` and `Read` of what is there give the first bytes, ask for more and nothing
happens, and `Read` takes away what it gives. -/
theorem ring_is_queue (rb₀ : CRingBuffer) {ops : List RingOp} {rb : CRingBuffer}
    (hrun : run ringStep rb₀.clear ops = some rb) :
    Represents rb (ops.foldl queueStep []) ∧
    (∀ op rb', ringStep rb op = some rb' →
      Represents rb' (queueStep (ops.foldl queueStep []) op) ∧
        ringDest rb op = queueDest (ops.foldl queueStep []) op) ∧
    ∀ size,
      (size ≤ rb.useSize →
        rb.peek size = some (rb.contents.take size) ∧ returned size (rb.peek size) = size ∧
        (rb.read size).1 = some (rb.contents.take size) ∧
        (rb.read size).2.contents = rb.contents.drop size) ∧
      (rb.useSize < size →
        rb.peek size = none ∧ returned size (rb.peek size) = 0 ∧
        rb.read size = (none, rb) ∧ returned size (rb.read size).1 = 0) := by
  have hq : rb.contents = ops.foldl queueStep [] :=
    view_of_run ringStep CRingBuffer.contents (fun _ op _ => contents_ringStep op) hrun
  rw [← hq]
  refine ⟨represents_contents rb, ?_, ?_⟩
  · intro op rb' hstep
    rw [← contents_ringStep op hstep]
    exact ⟨represents_contents rb', ringDest_eq rb op⟩
  · intro size
    constructor
    · intro hle
      refine ⟨rb.peek_eq_take hle, ?_, read_of_le rb hle⟩
      rw [rb.peek_eq_take hle]
      rfl
    · intro hgt
      rw [read_of_gt rb hgt, peek_of_gt rb hgt]
      exact ⟨rfl, rfl, rfl, rfl⟩

/-- Three bytes in, two out, and five that are not there. -/
theorem ring_is_queue_afterRead : ∃ rb, run ringStep CRingBuffer.new.clear
    [.write [1, 2, 3], .read 2, .read 5] = some rb ∧ rb.contents = [3] ∧
      rb.read 5 = (none, rb) := by
  obtain ⟨rb, hrun⟩ : ∃ rb, run ringStep CRingBuffer.new.clear
      [.write [1, 2, 3], .read 2, .read 5] = some rb := ⟨_, rfl⟩
  obtain ⟨hqueue, -, hsize⟩ := ring_is_queue CRingBuffer.new hrun
  refine ⟨rb, hrun, hqueue.contents, ((hsize 5).2 ?_).2.2.1⟩
  rw [hqueue.useSize]
  decide

end IocpChat.RingQueue
