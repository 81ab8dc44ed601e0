import IocpChat.SlotRelease

/-!
The gate in front of `WSASend`.  Whoever turns `sendPending` from 0 to 1 may
take the queue for its batch; the gate is opened again by the completion of the
send, or by the thread whose send was refused.  Here the slot is followed from
the end of one `InitSession` to the next.
-/

namespace IocpChat.SendGate

open IocpChat.Protocol
open IocpChat.RingWindow
open IocpChat.LanServer
open IocpChat.SendQueue
open IocpChat.LabelledRun
open IocpChat.ThreadPool
open IocpChat.SlotInterleaving
open IocpChat.SlotRelease

variable {n : Nat}

/-- The steps within one lifetime: the slot is not taken from the pool again. -/
def lifetimeStep (idx : Nat) (st : SlotState n) : SlotLabel n → Option (SlotState n)
  | .start _ (.accept _) => none
  | l => slotStep idx st l

/-- The step belongs to `InitSession`. -/
def isInit : Instr → Bool
  | .initSock _ | .initGeneration | .initSid | .initQueue | .initPending | .initRef
  | .initOpen => true
  | _ => false

/-- The step changes the send queue. -/
def movesQueue : Instr → Bool
  | .enterQueue _ _ | .dequeue _ | .drain => true
  | _ => false

/-- A thread at this step holds the gate. -/
def gate : Instr → Nat
  | .dequeue _ | .addRefSend _ | .wsaSend _ | .clearPending => 1
  | _ => 0

/-- A thread at this step is yet to try the gate, to look at the queue, or to
close the session. -/
def watches : Instr → Bool
  | .exchangePending _ => true
  | .readCount => true
  | .exchangeClose (.refusal _ _) => true
  | _ => false

/-- The gate is closed once for the thread or the send that has it. -/
structure Gated (st : SlotState n) : Prop where
  shape : ∀ t, Shape (st.threads t)
  settled : ∀ t, ∀ i ∈ st.threads t, isInit i = false
  gated : (if st.shared.s.sendPending then 1 else 0) =
    total gate st.threads + st.shared.s.sendsOut + st.shared.failed
  ring : RingOk st.shared.s
  closed : st.shared.failed ≠ 0 → st.shared.s.closeFlag = true

@[simp] theorem takeQueue_sendPending (limit : Nat) (s : Session) :
    (s.takeQueue limit).2.sendPending = s.sendPending :=
  takeQueue_frame (·.sendPending) (fun _ _ _ => rfl) limit s

@[simp] theorem takeQueue_sendsOut (limit : Nat) (s : Session) :
    (s.takeQueue limit).2.sendsOut = s.sendsOut :=
  takeQueue_frame (·.sendsOut) (fun _ _ _ => rfl) limit s

@[simp] theorem takeQueue_sendPkts (limit : Nat) (s : Session) :
    (s.takeQueue limit).2.sendPkts = s.sendPkts :=
  takeQueue_frame (·.sendPkts) (fun _ _ _ => rfl) limit s

theorem ringOk_congr {s s' : Session} (h : RingOk s) (hhead : s'.sqHead = s.sqHead)
    (htail : s'.sqTail = s.sqTail) (hcount : s'.sqCount = s.sqCount) : RingOk s' :=
  ⟨by rw [hhead]; exact h.head_lt, by rw [hhead, htail, hcount]; exact h.tail_eq,
    by rw [hcount]; exact h.count_le⟩

section Local

variable {idx : Nat} {t : Fin n} {accepted : Bool} {sh sh' : Shared n} {i j : Instr}
  {new : List Instr} {task : Task}

theorem exec_isInit (h : exec idx t accepted sh i = some (sh', new)) (hi : isInit i = false)
    (hj : j ∈ new) : isInit j = false := by
  cases i <;> grind [exec, Shared.exchangeCloseFlag, isInit]

theorem exec_gate (h : exec idx t accepted sh i = some (sh', new)) (hi : isInit i = false)
    (hclear : i = .clearPending → sh.s.sendPending = true) :
    (if sh'.s.sendPending then 1 else 0) + gate i + sh.s.sendsOut + sh.failed =
      (if sh.s.sendPending then 1 else 0) + weight gate new + sh'.s.sendsOut + sh'.failed := by
  cases i <;>
    grind [exec, Shared.exchangeCloseFlag, isInit, gate, weight_nil, weight_cons,
      takeQueue_sendPending, takeQueue_sendsOut, Session.enqueue]

theorem exec_queue (h : exec idx t accepted sh i = some (sh', new)) (hi : isInit i = false)
    (hqueue : movesQueue i = false) :
    sh'.s.sqHead = sh.s.sqHead ∧ sh'.s.sqTail = sh.s.sqTail ∧ sh'.s.sqCount = sh.s.sqCount ∧
      sh'.s.sendQ = sh.s.sendQ := by
  cases i <;> grind [exec, Shared.exchangeCloseFlag, isInit, movesQueue]

theorem exec_ring (h : exec idx t accepted sh i = some (sh', new)) (hi : isInit i = false)
    (hring : RingOk sh.s) : RingOk sh'.s := by
  have hcount := hring.count_le
  cases i with
  | enterQueue sid p =>
      simp only [exec] at h
      split at h
      · simp at h
      · split at h
        · grind
        · simp only [Option.some.injEq, Prod.mk.injEq] at h
          rw [← h.1]
          exact hring.enqueue (by omega) p
  | dequeue caller =>
      simp only [exec, Option.ite_none_right_eq_some, Option.some.injEq, Prod.mk.injEq] at h
      rw [← h.2.1]
      exact ringOk_congr (hring.takeAll hcount) rfl rfl rfl
  | drain =>
      simp only [exec, Option.ite_none_right_eq_some, Option.some.injEq, Prod.mk.injEq] at h
      rw [← h.2.1]
      exact hring.takeAll (le_refl _)
  | _ =>
      obtain ⟨hhead, htail, hsame, -⟩ := exec_queue h hi rfl
      exact ringOk_congr hring hhead htail hsame

theorem exec_closed (h : exec idx t accepted sh i = some (sh', new)) (hi : isInit i = false) :
    sh'.failed = sh.failed ∧ (sh.s.closeFlag = true → sh'.s.closeFlag = true) := by
  cases i <;>
    grind [exec, Shared.exchangeCloseFlag, isInit, takeQueue_closeFlag, Session.enqueue]

/-- A step that leaves packets behind in the queue of an open session leaves
the gate closed, leaves a thread that will look after them, or has neither
touched the gate nor been the one to look after them. -/
theorem exec_watched (h : exec idx t accepted sh i = some (sh', new)) {rest : List Instr}
    (hi : isInit i = false) (hfits : Fits rest i) (hopen : sh'.s.closeFlag = false)
    (hcount : 0 < sh'.s.sqCount) :
    sh'.s.sendPending = true ∨ (new ++ rest).any watches = true ∨
      (sh.s.closeFlag = false ∧ 0 < sh.s.sqCount ∧ watches i = false ∧
        sh'.s.sendPending = sh.s.sendPending) := by
  have hle := takeQueue_sqCount_le qsize sh.s
  have hle' := takeQueue_sqCount_le sh.s.sqCount sh.s
  cases i <;>
    grind [exec, Shared.exchangeCloseFlag, isInit, watches, Fits, takeQueue_sendPending,
      takeQueue_closeFlag, Session.enqueue]

theorem begins_gate (h : begins idx sh task = some (sh', new))
    (htask : ∀ sock, task ≠ .accept sock) :
    sh'.s.sendPending = sh.s.sendPending ∧
      sh.s.sendsOut + sh.failed = weight gate new + sh'.s.sendsOut + sh'.failed ∧
      (sh'.failed ≠ 0 → sh.failed ≠ 0 ∨ sh'.s.closeFlag = true) ∧
      (sh.s.closeFlag = true → sh'.s.closeFlag = true) ∧
      ∀ j ∈ new, isInit j = false := by
  cases task <;>
    grind [begins, Shared.exchangeCloseFlag, isInit, gate, weight_nil, weight_cons]

theorem begins_queue (h : begins idx sh task = some (sh', new)) :
    sh'.s.sqHead = sh.s.sqHead ∧ sh'.s.sqTail = sh.s.sqTail ∧ sh'.s.sqCount = sh.s.sqCount ∧
      sh'.s.sendQ = sh.s.sendQ ∧ sh'.s.sendPkts = sh.s.sendPkts := by
  cases task <;> grind [begins, Shared.exchangeCloseFlag]

end Local

section Runs

variable {idx : Nat} {st st' : SlotState n} {l : SlotLabel n}

theorem lifetimeStep_cases (h : lifetimeStep idx st l = some st') :
    (∃ t task new, l = .start t task ∧ (∀ sock, task ≠ .accept sock) ∧ st.threads t = [] ∧
      begins idx st.shared task = some (st'.shared, new) ∧
      st'.threads = Function.update st.threads t (new ++ [])) ∨
    (∃ t accepted i rest new, l = .run t accepted ∧ st.threads t = i :: rest ∧
      exec idx t accepted st.shared i = some (st'.shared, new) ∧
      st'.threads = Function.update st.threads t (new ++ rest)) := by
  have hslot : slotStep idx st l = some st' ∧ ∀ t sock, l ≠ .start t (.accept sock) := by
    simp only [lifetimeStep] at h
    split at h
    · simp at h
    · exact ⟨h, by assumption⟩
  obtain ⟨t, task, new, rfl, hrest⟩ | hrun := step_cases hslot.1
  · refine .inl ⟨t, task, new, rfl, ?_, hrest⟩
    rintro sock rfl
    exact hslot.2 t sock rfl
  · exact .inr hrun

namespace Gated

theorem gate_le (h : Gated st) :
    total gate st.threads + st.shared.s.sendsOut + st.shared.failed ≤ 1 := by
  rw [← h.gated]
  split <;> omega

theorem pending_of_gate (h : Gated st) {t : Fin n} {i : Instr} (hi : i ∈ st.threads t)
    (hgate : gate i = 1) : st.shared.s.sendPending = true := by
  have hle := le_total gate hi
  have hgated := h.gated
  split at hgated
  · assumption
  · omega

theorem clearPending_mem (h : Gated st) {t : Fin n} {rest : List Instr}
    (hthread : st.threads t = .releaseBatch :: rest) : .clearPending ∈ st.threads t := by
  have hshape := h.shape t
  rw [hthread] at hshape
  obtain ⟨tail, rfl⟩ := hshape.1
  simp [hthread]

end Gated

theorem start_gated (h : Gated st) {t : Fin n} {task : Task} {new : List Instr}
    {sh' : Shared n} (hidle : st.threads t = []) (htask : ∀ sock, task ≠ .accept sock)
    (hbegins : begins idx st.shared task = some (sh', new)) :
    Gated ⟨sh', Function.update st.threads t (new ++ [])⟩ := by
  have hold : st.threads t = [] ++ [] := hidle
  have htotal := total_update gate hold new
  simp only [weight_nil, Nat.add_zero] at htotal
  obtain ⟨hpending, hcount, hfailed, hflag, hinit⟩ := begins_gate hbegins htask
  obtain ⟨hhead, htail, hsame, -⟩ := begins_queue hbegins
  have hgated := h.gated
  refine ⟨?_, ?_, ?_, ?_, ?_⟩
  · exact shape_update (by simpa using begins_shape hbegins) h.shape
  · exact forall_update hold hinit h.settled
  · simp only [hpending]
    omega
  · exact ringOk_congr h.ring hhead htail hsame
  · intro hne
    obtain hbefore | hclosed := hfailed hne
    · exact hflag (h.closed hbefore)
    · exact hclosed

theorem run_gated (h : Gated st) {t : Fin n} {accepted : Bool} {i : Instr}
    {rest new : List Instr} {sh' : Shared n} (hthread : st.threads t = i :: rest)
    (hexec : exec idx t accepted st.shared i = some (sh', new)) :
    Gated ⟨sh', Function.update st.threads t (new ++ rest)⟩ := by
  have hmem : i ∈ st.threads t := by simp [hthread]
  have hold : st.threads t = [i] ++ rest := hthread
  have hshape := h.shape t
  rw [hthread] at hshape
  have hi := h.settled t i hmem
  have htotal := total_update gate hold new
  simp only [weight_cons, weight_nil, Nat.add_zero] at htotal
  have hclear : i = .clearPending → st.shared.s.sendPending = true := by
    rintro rfl
    exact h.pending_of_gate hmem rfl
  have hexecGate := exec_gate hexec hi hclear
  obtain ⟨hfailed, hflag⟩ := exec_closed hexec hi
  have hgated := h.gated
  refine ⟨?_, ?_, ?_, ?_, ?_⟩
  · exact shape_update (exec_shape hexec hshape.1 hshape.2) h.shape
  · exact forall_update hold (fun j hj => exec_isInit hexec hi hj) h.settled
  · simp only
    omega
  · exact exec_ring hexec hi h.ring
  · intro hne
    exact hflag (h.closed (by simpa only [hfailed] using hne))

theorem lifetimeStep_gated (h : Gated st) (hstep : lifetimeStep idx st l = some st') :
    Gated st' := by
  obtain ⟨shared, threads⟩ := st'
  obtain ⟨t, task, new, rfl, htask, hidle, hbegins, hthreads⟩ |
    ⟨t, accepted, i, rest, new, rfl, hthread, hexec, hthreads⟩ := lifetimeStep_cases hstep
  · subst hthreads
    exact start_gated h hidle htask hbegins
  · subst hthreads
    exact run_gated h hthread hexec

theorem fresh_gated (idx sock : Nat) {s : Session} (hsends : s.sendsOut = 0)
    (known : List SessionID) (t : Fin n) : Gated (fresh idx sock s known t) := by
  refine ⟨?_, ?_, ?_, ?_, ?_⟩
  · exact shape_update (by simp [Shape, Fits]) fun _ => trivial
  · intro u i hi
    rw [eq_register_of_mem_fresh hi]
    rfl
  · simp [fresh, pooled, total_single, gate, Session.init, hsends]
  · exact ⟨show 0 < qsize by decide, rfl, Nat.zero_le _⟩
  · simp [fresh, pooled]

/-- Packets in the queue of an open session are waiting for the gate to open,
or some thread is about to look after them. -/
def Watched (st : SlotState n) : Prop :=
  st.shared.s.closeFlag = false → 0 < st.shared.s.sqCount →
    st.shared.s.sendPending = true ∨ ∃ t, (st.threads t).any watches = true

theorem any_watches_update {threads : Fin n → List Instr} {t u : Fin n} {i : Instr}
    {rest : List Instr} (new : List Instr) (hold : threads t = i :: rest)
    (hi : watches i = false) (hu : (threads u).any watches = true) :
    (Function.update threads t (new ++ rest) u).any watches = true := by
  obtain rfl | hne := eq_or_ne u t
  · simp only [hold, List.any_cons, hi, Bool.false_or] at hu
    simp [Function.update_self, hu]
  · rwa [Function.update_of_ne hne]

theorem start_watched (h : Watched st) {t : Fin n} {task : Task} {new : List Instr}
    {sh' : Shared n} (hidle : st.threads t = []) (htask : ∀ sock, task ≠ .accept sock)
    (hbegins : begins idx st.shared task = some (sh', new)) :
    Watched ⟨sh', Function.update st.threads t (new ++ [])⟩ := by
  obtain ⟨hpending, -, -, hflag, -⟩ := begins_gate hbegins htask
  obtain ⟨-, -, hsame, -⟩ := begins_queue hbegins
  intro hopen hcount
  have hopen' : st.shared.s.closeFlag = false := by
    cases hclosed : st.shared.s.closeFlag with
    | false => rfl
    | true => simp [hflag hclosed] at hopen
  obtain hgate | ⟨u, hu⟩ := h hopen' (by simpa only [hsame] using hcount)
  · exact .inl (hpending.trans hgate)
  · have hne : u ≠ t := by
      rintro rfl
      simp [hidle] at hu
    exact .inr ⟨u, by simpa only [Function.update_of_ne hne] using hu⟩

theorem run_watched (hgated : Gated st) (h : Watched st) {t : Fin n} {accepted : Bool}
    {i : Instr} {rest new : List Instr} {sh' : Shared n} (hthread : st.threads t = i :: rest)
    (hexec : exec idx t accepted st.shared i = some (sh', new)) :
    Watched ⟨sh', Function.update st.threads t (new ++ rest)⟩ := by
  have hi := hgated.settled t i (by simp [hthread])
  have hshape := hgated.shape t
  rw [hthread] at hshape
  intro hopen hcount
  obtain hgate | hnew | ⟨hopen', hcount', hidle, hsame⟩ :=
    exec_watched hexec hi hshape.1 hopen hcount
  · exact .inl hgate
  · exact .inr ⟨t, by simpa only [Function.update_self] using hnew⟩
  · obtain hgate | ⟨u, hu⟩ := h hopen' hcount'
    · exact .inl (hsame.trans hgate)
    · exact .inr ⟨u, any_watches_update new hthread hidle hu⟩

theorem lifetimeStep_watched (h : Gated st ∧ Watched st)
    (hstep : lifetimeStep idx st l = some st') : Gated st' ∧ Watched st' := by
  refine ⟨lifetimeStep_gated h.1 hstep, ?_⟩
  obtain ⟨shared, threads⟩ := st'
  obtain ⟨t, task, new, rfl, htask, hidle, hbegins, hthreads⟩ |
    ⟨t, accepted, i, rest, new, rfl, hthread, hexec, hthreads⟩ := lifetimeStep_cases hstep
  · subst hthreads
    exact start_watched h.2 hidle htask hbegins
  · subst hthreads
    exact run_watched h.1 h.2 hthread hexec

/-- A thread at this step is inside `SendPacket`, `FlushSend` or
`OnSendComplete`. -/
def inSendPath : Instr → Bool
  | .readGeneration _ _ | .readCloseFlag _ _ | .enterQueue _ _ | .leaveLock
  | .exchangePending _ | .dequeue _ | .addRefSend _ | .wsaSend _ | .releaseBatch
  | .clearPending | .readCount => true
  | .exchangeClose cause => cause ≠ .other
  | _ => false

/-- In an open session on whose send path no thread is, queued packets wait for
the one send that is outstanding. -/
theorem queued_awaits_send (idx sock : Nat) {s : Session} (hsends : s.sendsOut = 0)
    (known : List SessionID) (t : Fin n) {ls : List (SlotLabel n)} {st : SlotState n}
    (hrun : run (lifetimeStep idx) (fresh idx sock s known t) ls = some st)
    (hopen : st.shared.s.closeFlag = false)
    (hidle : ∀ u, ∀ i ∈ st.threads u, inSendPath i = false)
    (hcount : 0 < st.shared.s.sqCount) :
    st.shared.s.sendPending = true ∧ st.shared.s.sendsOut = 1 := by
  have hfresh : Gated (fresh idx sock s known t) ∧ Watched (fresh idx sock s known t) := by
    refine ⟨fresh_gated idx sock hsends known t, ?_⟩
    intro _ hcount
    simp [fresh, Session.init] at hcount
  obtain ⟨hgated, hwatched⟩ := invariant_of_run (lifetimeStep idx)
    (fun _ _ _ h hstep => lifetimeStep_watched h hstep) hfresh hrun
  have hpending : st.shared.s.sendPending = true := by
    obtain hpending | ⟨u, hu⟩ := hwatched hopen hcount
    · exact hpending
    · obtain ⟨i, hi, hwatches⟩ := List.any_eq_true.mp hu
      have houtside := hidle u i hi
      cases i <;> simp_all [watches, inSendPath]
  have hgate : total gate st.threads = 0 := by
    apply total_eq_zero
    intro u i hi
    have houtside := hidle u i hi
    cases i <;> simp_all [gate, inSendPath]
  have hfailed : st.shared.failed = 0 := by
    by_contra hne
    simp [hgated.closed hne] at hopen
  have heq := hgated.gated
  rw [hpending] at heq
  refine ⟨hpending, ?_⟩
  simp only [if_true] at heq
  omega

end Runs

/-- A whole `SendPacket` that finds the gate open, and one that finds it
closed. -/
def sends (t : Fin n) (sid : SessionID) (p : PacketRef) (flushes : Bool) : List (SlotLabel n) :=
  .start t (.sendPacket sid p) :: List.replicate (if flushes then 8 else 5) (.run t true)

/-- One packet is with Windows, the next one is queued behind it. -/
def twoSends : List (SlotLabel 2) :=
  joined 0 ++ sends 1 (sessionId 3 1) 0 true ++ sends 1 (sessionId 3 1) 1 false

theorem twoSends_runs :
    (run (lifetimeStep 3) (fresh 3 7 Session.new [] 0) twoSends).isSome = true := by
  decide +kernel

theorem queued_awaits_send_twoSends :
    0 < (Option.get _ twoSends_runs).shared.s.sqCount ∧
      (Option.get _ twoSends_runs).shared.s.sendPending = true ∧
      (Option.get _ twoSends_runs).shared.s.sendsOut = 1 :=
  ⟨by decide +kernel, queued_awaits_send 3 7 rfl [] 0 (Option.some_get _).symm
    (by decide +kernel) (by decide +kernel) (by decide +kernel)⟩

end IocpChat.SendGate
