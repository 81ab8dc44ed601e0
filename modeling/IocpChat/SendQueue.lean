import IocpChat.LanServer

namespace IocpChat.SendQueue

open IocpChat.RingWindow
open IocpChat.LanServer

theorem takeQueue_snd (limit : Nat) (s : Session) :
    ∃ head count, (s.takeQueue limit).2 = { s with sqHead := head, sqCount := count } := by
  induction limit generalizing s with
  | zero => exact ⟨s.sqHead, s.sqCount, rfl⟩
  | succ limit ih =>
      simp only [Session.takeQueue]
      split
      · obtain ⟨head, count, h⟩ := ih
          { s with sqHead := (s.sqHead + 1) % qsize, sqCount := s.sqCount - 1 }
        exact ⟨head, count, h⟩
      · exact ⟨s.sqHead, s.sqCount, rfl⟩

theorem takeQueue_frame {β : Type*} (f : Session → β)
    (hf : ∀ s head count, f { s with sqHead := head, sqCount := count } = f s)
    (limit : Nat) (s : Session) : f (s.takeQueue limit).2 = f s := by
  obtain ⟨head, count, h⟩ := takeQueue_snd limit s
  rw [h, hf]

theorem takeQueue_sqCount_le (limit : Nat) (s : Session) :
    (s.takeQueue limit).2.sqCount ≤ s.sqCount := by
  induction limit generalizing s with
  | zero => exact le_refl _
  | succ limit ih =>
      simp only [Session.takeQueue]
      split
      · exact (ih _).trans (Nat.sub_le _ _)
      · exact le_refl _

theorem takeQueue_all (limit : Nat) {s : Session} (hhead : s.sqHead < qsize)
    (hlimit : s.sqCount ≤ limit) :
    (s.takeQueue limit).1 = s.queued ∧
      (s.takeQueue limit).2 =
        { s with sqHead := (s.sqHead + s.sqCount) % qsize, sqCount := 0 } := by
  induction limit generalizing s with
  | zero =>
      have hzero : s.sqCount = 0 := by omega
      refine ⟨?_, ?_⟩
      · simp [Session.takeQueue, Session.queued, hzero]
      · simp only [Session.takeQueue, hzero, Nat.add_zero, Nat.mod_eq_of_lt hhead]
        rw [← hzero]
  | succ limit ih =>
      simp only [Session.takeQueue]
      split
      · obtain ⟨hfst, hsnd⟩ := ih
          (s := { s with sqHead := (s.sqHead + 1) % qsize, sqCount := s.sqCount - 1 })
          (Nat.mod_lt _ (by decide)) (by simp only; omega)
        have hcount : s.sqCount = (s.sqCount - 1) + 1 := by omega
        refine ⟨?_, ?_⟩
        · rw [hfst]
          simp only [Session.queued]
          conv_rhs => rw [hcount, window_succ, Nat.mod_eq_of_lt hhead]
        · rw [hsnd]
          simp only [Nat.mod_add_mod]
          rw [show s.sqHead + 1 + (s.sqCount - 1) = s.sqHead + s.sqCount by omega]
      · have hzero : s.sqCount = 0 := by omega
        refine ⟨?_, ?_⟩
        · simp [Session.queued, hzero]
        · simp only [hzero, Nat.add_zero, Nat.mod_eq_of_lt hhead]
          rw [← hzero]

theorem queued_enqueue {s : Session} (htail : s.sqTail = (s.sqHead + s.sqCount) % qsize)
    (hroom : s.sqCount < qsize) (p : PacketRef) :
    (s.enqueue p).queued = s.queued ++ [p] := by
  simp only [Session.queued, Session.enqueue, htail]
  exact window_update s.sendQ p hroom

/-- The circular queue is in order. -/
structure RingOk (s : Session) : Prop where
  head_lt : s.sqHead < qsize
  tail_eq : s.sqTail = (s.sqHead + s.sqCount) % qsize
  count_le : s.sqCount ≤ qsize

theorem RingOk.enqueue {s : Session} (h : RingOk s) (hroom : s.sqCount < qsize)
    (p : PacketRef) : RingOk (s.enqueue p) := by
  refine ⟨h.head_lt, ?_, ?_⟩
  · simp only [Session.enqueue, h.tail_eq, Nat.mod_add_mod, Nat.add_assoc]
  · simp only [Session.enqueue]
    omega

theorem RingOk.takeAll {s : Session} (h : RingOk s) {limit : Nat} (hlimit : s.sqCount ≤ limit) :
    RingOk (s.takeQueue limit).2 := by
  rw [(takeQueue_all limit h.head_lt hlimit).2]
  refine ⟨Nat.mod_lt _ (by decide), ?_, Nat.zero_le _⟩
  simp only [h.tail_eq, Nat.add_zero, Nat.mod_mod]

end IocpChat.SendQueue
