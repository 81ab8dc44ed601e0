import IocpChat.SendGate

/-!
The order in which packets leave.  While the socket is open and no send was
refused on it, what was enqueued is what was handed to `WSASend`, then the batch
of the thread that holds the gate, then what is still queued.  A refused send
opens the gate before the session is closed, and its batch is lost: from there
on the order is only safe if no further send is accepted.
-/

namespace IocpChat.SendOrder

open IocpChat.Protocol
open IocpChat.RingWindow
open IocpChat.LanServer
open IocpChat.SendQueue
open IocpChat.LabelledRun
open IocpChat.ThreadPool
open IocpChat.SlotInterleaving
open IocpChat.SlotRelease
open IocpChat.SendGate

variable {n : Nat}

/-- The thread that holds the gate has taken its batch off the queue. -/
def loaded : Instr → Nat
  | .addRefSend _ | .wsaSend _ => 1
  | _ => 0

/-- The thread that holds the gate has no batch yet, or no more. -/
def unloaded : Instr → Nat
  | .dequeue _ | .clearPending => 1
  | _ => 0

/-- The step moves packets from one place to another. -/
def movesPackets : Instr → Bool
  | .enterQueue _ _ | .dequeue _ | .wsaSend _ | .releaseBatch | .closeSocket | .drain => true
  | _ => false

/-- The step is the call of `WSASend`. -/
def posts : Instr → Bool
  | .wsaSend _ => true
  | _ => false

/-- The batch of the thread that holds the gate. -/
def batch (st : SlotState n) : List PacketRef :=
  if 0 < total loaded st.threads then st.shared.s.sendPkts else []

/-- What was enqueued is what was handed on, the batch in hand, and the queue. -/
def InOrder (st : SlotState n) : Prop :=
  st.shared.enqueued = st.shared.handed ++ batch st ++ st.shared.s.queued

/-- The invariant: the order of the packets while the socket is open and no send was refused. -/
structure Ordered (st : SlotState n) : Prop where
  gated : Gated st
  drains : ∀ t, ∀ i ∈ st.threads t, i = .drain → st.shared.s.sock = none
  order : st.shared.s.sock.isSome = true → st.shared.refused = false → InOrder st
  handed : st.shared.handed <+: st.shared.enqueued

theorem gate_eq (i : Instr) : gate i = loaded i + unloaded i := by
  cases i <;> rfl

section Local

variable {idx : Nat} {t : Fin n} {accepted : Bool} {sh sh' : Shared n} {i j : Instr}
  {new : List Instr} {task : Task}

theorem exec_sock (h : exec idx t accepted sh i = some (sh', new)) (hi : isInit i = false) :
    (sh.s.sock = none → sh'.s.sock = none) ∧ (.drain ∈ new → sh'.s.sock = none) := by
  have hframe := takeQueue_frame (·.sock) (fun _ _ _ => rfl)
  cases i <;> grind [exec, Shared.exchangeCloseFlag, isInit, Session.enqueue]

theorem exec_quiet (h : exec idx t accepted sh i = some (sh', new)) (hi : isInit i = false)
    (hquiet : movesPackets i = false) :
    sh'.s.queued = sh.s.queued ∧ sh'.s.sendPkts = sh.s.sendPkts ∧ sh'.s.sock = sh.s.sock ∧
      sh'.enqueued = sh.enqueued ∧ sh'.handed = sh.handed ∧ sh'.refused = sh.refused ∧
      weight loaded new = loaded i := by
  cases i <;>
    grind [exec, Shared.exchangeCloseFlag, isInit, movesPackets, loaded, Session.queued,
      weight_nil, weight_cons]

theorem begins_quiet (h : begins idx sh task = some (sh', new))
    (htask : ∀ sock, task ≠ .accept sock) :
    sh'.s.queued = sh.s.queued ∧ sh'.s.sendPkts = sh.s.sendPkts ∧ sh'.s.sock = sh.s.sock ∧
      sh'.enqueued = sh.enqueued ∧ sh'.handed = sh.handed ∧ sh'.refused = sh.refused ∧
      weight loaded new = 0 ∧ .drain ∉ new := by
  cases task <;>
    grind [begins, Shared.exchangeCloseFlag, loaded, Session.queued, weight_nil, weight_cons]

theorem exec_usable (h : exec idx t accepted sh i = some (sh', new)) (hi : isInit i = false)
    (hsock : sh'.s.sock.isSome = true) (hrefused : sh'.refused = false) :
    sh.s.sock.isSome = true ∧ sh.refused = false := by
  have hframe := takeQueue_frame (·.sock) (fun _ _ _ => rfl)
  cases i <;> grind [exec, Shared.exchangeCloseFlag, isInit, Session.enqueue]

/-- Packets are handed on only by an accepted `WSASend`. -/
theorem exec_handed (h : exec idx t accepted sh i = some (sh', new)) (hi : isInit i = false) :
    (sh'.handed = sh.handed ∧ sh.enqueued <+: sh'.enqueued) ∨
      (posts i = true ∧ accepted = true ∧ sh.s.sock.isSome = true ∧
        sh'.handed = sh.handed ++ sh.s.sendPkts ∧ sh'.enqueued = sh.enqueued) := by
  cases i <;>
    grind [exec, Shared.exchangeCloseFlag, isInit, posts, List.prefix_append,
      List.prefix_refl]

theorem exec_sendPkts (h : exec idx t accepted sh i = some (sh', new)) (hi : isInit i = false) :
    sh'.s.sendPkts = sh.s.sendPkts ∨ unloaded i = 1 ∨ i = .releaseBatch := by
  cases i <;>
    grind [exec, Shared.exchangeCloseFlag, isInit, unloaded, takeQueue_sendPkts,
      Session.enqueue]

end Local

section Runs

variable {idx : Nat} {st st' : SlotState n} {l : SlotLabel n}

theorem total_gate (threads : Fin n → List Instr) :
    total gate threads = total loaded threads + total unloaded threads := by
  rw [← total_add]
  exact congrArg (total · threads) (funext gate_eq)

theorem loaded_eq_zero (h : Gated st) {t : Fin n} {i : Instr} (hi : i ∈ st.threads t)
    (hunloaded : unloaded i = 1) : total loaded st.threads = 0 := by
  have hle := le_total unloaded hi
  have hgate := h.gate_le
  rw [total_gate] at hgate
  omega

theorem start_ordered (h : Ordered st) {t : Fin n} {task : Task} {new : List Instr}
    {sh' : Shared n} (hidle : st.threads t = []) (htask : ∀ sock, task ≠ .accept sock)
    (hbegins : begins idx st.shared task = some (sh', new)) :
    Ordered ⟨sh', Function.update st.threads t (new ++ [])⟩ := by
  obtain ⟨hqueued, hpkts, hsock, henqueued, hhanded, hrefused, hloaded, hdrain⟩ :=
    begins_quiet hbegins htask
  have hold : st.threads t = [] ++ [] := hidle
  have htotal := total_update loaded hold new
  simp only [weight_nil, Nat.add_zero, hloaded] at htotal
  refine ⟨start_gated h.gated hidle htask hbegins, ?_, ?_, ?_⟩
  · simp only [hsock]
    refine forall_update hold ?_ h.drains
    rintro j hj rfl
    exact absurd hj hdrain
  · simpa only [InOrder, batch, hqueued, hpkts, hsock, henqueued, hhanded, hrefused, htotal]
      using h.order
  · simpa only [henqueued, hhanded] using h.handed

/-- No send is accepted on a socket that has refused one. -/
def AcceptsInOrder (st : SlotState n) : SlotLabel n → Prop
  | .start _ _ => True
  | .run t accepted => (st.threads t).head?.any posts = true → accepted = true →
      st.shared.refused = false

instance (st : SlotState n) (l : SlotLabel n) : Decidable (AcceptsInOrder st l) :=
  match l with
  | .start _ _ => isTrue trivial
  | .run t accepted => inferInstanceAs (Decidable ((st.threads t).head?.any posts = true →
      accepted = true → st.shared.refused = false))

section RunStep

variable {t : Fin n} {accepted : Bool} {i : Instr} {rest new : List Instr} {sh' : Shared n}

theorem enterQueue_inOrder (hgated : Gated st) (h : InOrder st) {sid : SessionID}
    {p : PacketRef} (hthread : st.threads t = .enterQueue sid p :: rest)
    (hexec : exec idx t accepted st.shared (.enterQueue sid p) = some (sh', new)) :
    InOrder ⟨sh', Function.update st.threads t (new ++ rest)⟩ := by
  have hold : st.threads t = [.enterQueue sid p] ++ rest := hthread
  have htotal := total_update loaded hold new
  simp only [InOrder, batch] at h ⊢
  simp only [exec] at hexec
  split at hexec
  · simp at hexec
  split at hexec
  · simp only [Option.some.injEq, Prod.mk.injEq] at hexec
    obtain ⟨rfl, rfl⟩ := hexec
    simp only [loaded, weight_cons, weight_nil, Nat.add_zero] at htotal
    rwa [htotal]
  · rename_i hroom
    simp only [Option.some.injEq, Prod.mk.injEq] at hexec
    obtain ⟨rfl, rfl⟩ := hexec
    simp only [loaded, weight_cons, weight_nil, Nat.add_zero] at htotal
    rw [htotal, queued_enqueue hgated.ring.tail_eq (not_le.mp hroom) p, h]
    simp [Session.enqueue]

theorem dequeue_inOrder (hgated : Gated st) (h : InOrder st) {caller : Caller}
    (hthread : st.threads t = .dequeue caller :: rest)
    (hexec : exec idx t accepted st.shared (.dequeue caller) = some (sh', new)) :
    InOrder ⟨sh', Function.update st.threads t (new ++ rest)⟩ := by
  have hold : st.threads t = [.dequeue caller] ++ rest := hthread
  have hnone : total loaded st.threads = 0 :=
    loaded_eq_zero hgated (t := t) (i := .dequeue caller) (by simp [hthread]) rfl
  obtain ⟨hfst, hsnd⟩ := takeQueue_all qsize hgated.ring.head_lt hgated.ring.count_le
  simp only [exec, Option.ite_none_right_eq_some, Option.some.injEq, Prod.mk.injEq] at hexec
  obtain ⟨-, rfl, rfl⟩ := hexec
  have htotal := total_update loaded hold [.addRefSend caller]
  simp only [loaded, weight_cons, weight_nil, hnone] at htotal
  have hsome : 0 < total loaded (Function.update st.threads t ([.addRefSend caller] ++ rest)) := by
    omega
  simp only [InOrder, batch, hnone] at h
  simp only [InOrder, batch, if_pos hsome, hfst, hsnd, Session.queued, window_zero] at h ⊢
  simpa using h

theorem wsaSend_inOrder (hgated : Gated st) (h : InOrder st) {caller : Caller}
    (hthread : st.threads t = .wsaSend caller :: rest) (hsock : st.shared.s.sock.isSome = true)
    (hexec : exec idx t true st.shared (.wsaSend caller) = some (sh', new)) :
    InOrder ⟨sh', Function.update st.threads t (new ++ rest)⟩ := by
  have hold : st.threads t = [.wsaSend caller] ++ rest := hthread
  have hmem : .wsaSend caller ∈ st.threads t := by simp [hthread]
  simp only [exec, hsock, and_self, if_true, Option.some.injEq, Prod.mk.injEq] at hexec
  obtain ⟨rfl, rfl⟩ := hexec
  have htotal := total_update loaded hold []
  have hle := le_total loaded hmem
  have hgate := hgated.gate_le
  rw [total_gate] at hgate
  simp only [loaded, weight_cons, weight_nil] at htotal hle
  have hsome : 0 < total loaded st.threads := by omega
  have hzero : total loaded (Function.update st.threads t ([] ++ rest)) = 0 := by omega
  simp only [InOrder, batch, if_pos hsome] at h
  simp only [InOrder, batch, hzero, h]
  simp [Session.queued]

theorem run_order (h : Ordered st) (hthread : st.threads t = i :: rest)
    (hexec : exec idx t accepted st.shared i = some (sh', new))
    (hsock : sh'.s.sock.isSome = true) (hrefused : sh'.refused = false) :
    InOrder ⟨sh', Function.update st.threads t (new ++ rest)⟩ := by
  have hmem : i ∈ st.threads t := by simp [hthread]
  have hold : st.threads t = [i] ++ rest := hthread
  have hi := h.gated.settled t i hmem
  have htotal := total_update loaded hold new
  simp only [weight_cons, weight_nil, Nat.add_zero] at htotal
  -- an open socket was open before the step, and an unrefused one unrefused
  obtain ⟨hsock', hrefused'⟩ := exec_usable hexec hi hsock hrefused
  have horder := h.order hsock' hrefused'
  cases i with
  | enterQueue sid p => exact enterQueue_inOrder h.gated horder hthread hexec
  | dequeue caller => exact dequeue_inOrder h.gated horder hthread hexec
  | wsaSend caller =>
      cases accepted with
      | true => exact wsaSend_inOrder h.gated horder hthread hsock' hexec
      | false =>
          simp only [exec, Bool.false_eq_true, false_and, if_false, Option.some.injEq,
            Prod.mk.injEq] at hexec
          simp [← hexec.1, hsock'] at hrefused
  | releaseBatch =>
      have hnone := loaded_eq_zero h.gated (h.gated.clearPending_mem hthread) rfl
      simp only [exec, Option.some.injEq, Prod.mk.injEq] at hexec
      obtain ⟨rfl, rfl⟩ := hexec
      simp only [loaded, weight_nil, hnone] at htotal
      simp only [InOrder, batch, hnone] at horder
      simpa [InOrder, batch, htotal, Session.queued] using horder
  | closeSocket =>
      simp only [exec, Option.some.injEq, Prod.mk.injEq] at hexec
      simp [← hexec.1] at hsock
  | drain => simp [h.drains t _ hmem rfl] at hsock'
  | _ =>
      obtain ⟨hqueued, hpkts, -, henqueued, hhanded, -, hloaded⟩ := exec_quiet hexec hi rfl
      have hkept : total loaded (Function.update st.threads t (new ++ rest)) =
          total loaded st.threads := by omega
      simpa only [InOrder, batch, hqueued, hpkts, henqueued, hhanded, hkept] using horder

theorem run_handed (h : Ordered st) (hthread : st.threads t = i :: rest)
    (hexec : exec idx t accepted st.shared i = some (sh', new))
    (hguard : AcceptsInOrder st (.run t accepted)) : sh'.handed <+: sh'.enqueued := by
  have hi := h.gated.settled t i (by simp [hthread])
  obtain ⟨hhanded, hgrown⟩ | ⟨hposts, haccepted, hsock, hhanded, hsame⟩ := exec_handed hexec hi
  · rw [hhanded]
    exact h.handed.trans hgrown
  · have horder := h.order hsock (hguard (by simp [hthread, hposts]) haccepted)
    have hmem : i ∈ st.threads t := by simp [hthread]
    have hle := le_total loaded hmem
    have hloaded : loaded i = 1 := by
      cases i <;> simp_all [posts, loaded]
    simp only [InOrder, batch, if_pos (show 0 < total loaded st.threads by omega)] at horder
    rw [hhanded, hsame, horder]
    exact List.prefix_append _ _

theorem run_ordered (h : Ordered st) (hthread : st.threads t = i :: rest)
    (hexec : exec idx t accepted st.shared i = some (sh', new))
    (hguard : AcceptsInOrder st (.run t accepted)) :
    Ordered ⟨sh', Function.update st.threads t (new ++ rest)⟩ := by
  have hold : st.threads t = [i] ++ rest := hthread
  have hi := h.gated.settled t i (by simp [hthread])
  obtain ⟨hclosed, hdrain⟩ := exec_sock hexec hi
  refine ⟨run_gated h.gated hthread hexec, ?_, ?_, run_handed h hthread hexec hguard⟩
  · refine forall_update hold ?_ ?_
    · rintro j hj rfl
      exact hdrain hj
    · intro u j hj hjdrain
      exact hclosed (h.drains u j hj hjdrain)
  · intro hsock hrefused
    exact run_order h hthread hexec hsock hrefused

end RunStep

theorem lifetimeStep_ordered (h : Ordered st) (hguard : AcceptsInOrder st l)
    (hstep : lifetimeStep idx st l = some st') : Ordered st' := by
  obtain ⟨shared, threads⟩ := st'
  obtain ⟨t, task, new, rfl, htask, hidle, hbegins, hthreads⟩ |
    ⟨t, accepted, i, rest, new, rfl, hthread, hexec, hthreads⟩ := lifetimeStep_cases hstep
  · subst hthreads
    exact start_ordered h hidle htask hbegins
  · subst hthreads
    exact run_ordered h hthread hexec hguard

theorem fresh_ordered (idx sock : Nat) {s : Session} (hsends : s.sendsOut = 0)
    (known : List SessionID) (t : Fin n) : Ordered (fresh idx sock s known t) := by
  refine ⟨fresh_gated idx sock hsends known t, ?_, ?_, ?_⟩
  · rintro u i hi rfl
    simpa using eq_register_of_mem_fresh hi
  · intro _ _
    simp [InOrder, fresh, pooled, batch, total_single, loaded, Session.init, Session.queued]
  · simp [fresh, pooled]

/-- At most one send is outstanding, what was handed to `WSASend` are the first
packets that were enqueued, and the circular queue is in order. -/
def SendsInOrder (st : SlotState n) : Prop :=
  st.shared.s.sendsOut ≤ 1 ∧ st.shared.handed <+: st.shared.enqueued ∧
    st.shared.s.sqCount ≤ qsize ∧
    st.shared.s.sqTail = (st.shared.s.sqHead + st.shared.s.sqCount) % qsize

/-- An outstanding send keeps its batch. -/
def KeepsBatch (idx : Nat) (st : SlotState n) (l : SlotLabel n) : Prop :=
  ∀ st', lifetimeStep idx st l = some st' → 0 < st.shared.s.sendsOut →
    st'.shared.s.sendPkts = st.shared.s.sendPkts

theorem keepsBatch_of_gated (h : Gated st) (l : SlotLabel n) : KeepsBatch idx st l := by
  intro st' hstep hout
  have hgate := h.gate_le
  obtain ⟨t, task, new, rfl, htask, hidle, hbegins, hthreads⟩ |
    ⟨t, accepted, i, rest, new, rfl, hthread, hexec, hthreads⟩ := lifetimeStep_cases hstep
  · exact (begins_queue hbegins).2.2.2.2
  · have hmem : i ∈ st.threads t := by simp [hthread]
    obtain hsame | hunloaded | rfl := exec_sendPkts hexec (h.settled t i hmem)
    · exact hsame
    · have hle := le_total gate hmem
      rw [gate_eq] at hle
      omega
    · have hle := le_total gate (h.clearPending_mem hthread)
      simp only [gate] at hle
      omega

/-- In every run of a lifetime in which no send is accepted on the socket after
one was refused, packets leave in the order they were enqueued. -/
theorem packets_leave_in_order (idx sock : Nat) {s : Session} (hsends : s.sendsOut = 0)
    (known : List SessionID) (t : Fin n) {ls : List (SlotLabel n)}
    (hls : Meets (lifetimeStep idx) AcceptsInOrder (fresh idx sock s known t) ls) :
    Always (lifetimeStep idx) SendsInOrder (fresh idx sock s known t) ls ∧
      Meets (lifetimeStep idx) (KeepsBatch idx) (fresh idx sock s known t) ls := by
  have hfresh := fresh_ordered idx sock hsends known t
  have hstep : ∀ (st : SlotState n) l st', Ordered st → AcceptsInOrder st l →
      lifetimeStep idx st l = some st' → Ordered st' := by
    intro st l st' h hguard hstep
    exact lifetimeStep_ordered h hguard hstep
  constructor
  · intro done hdone st hrun
    have h := always_of_meets (lifetimeStep idx) hstep hfresh hls done hdone st hrun
    have hgate := h.gated.gate_le
    exact ⟨by omega, h.handed, h.gated.ring.count_le, h.gated.ring.tail_eq⟩
  · exact meets_of_meets (lifetimeStep idx) hstep
      (fun _ l _ h _ _ => keepsBatch_of_gated h.gated l) hfresh hls

end Runs

/-- A worker completes the first send and flushes the packet queued behind it. -/
def completedSends : List (SlotLabel 3) :=
  joined 0 ++ sends 1 (sessionId 3 1) 0 true ++ sends 1 (sessionId 3 1) 1 false ++
    [.start 2 .sendDone] ++ List.replicate 8 (.run 2 true)

theorem packets_leave_in_order_completedSends :
    (run (lifetimeStep 3) (fresh 3 7 Session.new [] 0) completedSends).map
        (fun st => (st.shared.handed, st.shared.s.sendsOut)) = some ([0, 1], 1) ∧
      Always (lifetimeStep 3) SendsInOrder (fresh 3 7 Session.new [] 0) completedSends ∧
      Meets (lifetimeStep 3) (KeepsBatch 3) (fresh 3 7 Session.new [] 0) completedSends :=
  ⟨by decide +kernel, packets_leave_in_order 3 7 rfl [] 0 (by decide +kernel)⟩

/-- The worker's send of the second packet is refused; before it closes the
session, the third packet is sent through the reopened gate. -/
def overtakingSend : List (SlotLabel 3) :=
  joined 0 ++ sends 1 (sessionId 3 1) 0 true ++ sends 1 (sessionId 3 1) 1 false ++
    [.start 2 .sendDone] ++ List.replicate 6 (.run 2 true) ++ [.run 2 false] ++
    List.replicate 2 (.run 2 true) ++ sends 1 (sessionId 3 1) 2 true

theorem packet_lost_after_overtakingSend :
    (run (lifetimeStep 3) (fresh 3 7 Session.new [] 0) overtakingSend).map
        (fun st => (st.shared.handed, st.shared.enqueued)) = some ([0, 2], [0, 1, 2]) ∧
      ¬ Always (lifetimeStep 3) SendsInOrder (fresh 3 7 Session.new [] 0) overtakingSend := by
  have hlists : (run (lifetimeStep 3) (fresh 3 7 Session.new [] 0) overtakingSend).map
      (fun st => (st.shared.handed, st.shared.enqueued)) = some ([0, 2], [0, 1, 2]) := by
    decide +kernel
  refine ⟨hlists, ?_⟩
  intro halways
  obtain ⟨st, hrun, hst⟩ := Option.map_eq_some_iff.mp hlists
  obtain ⟨hhanded, henqueued⟩ := Prod.mk.inj hst
  have hinit := (halways overtakingSend List.prefix_rfl st hrun).2.1
  rw [hhanded, henqueued] at hinit
  exact absurd hinit (by decide)

end IocpChat.SendOrder
