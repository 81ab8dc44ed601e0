import IocpChat.SendOrder

/-!
Whether `FlushSend` posts a send without packets.  A sender enqueues and flushes
under `sendLock`, so it finds at least its own packet.  A completion looks at
`sqCount` before it has the gate and without the lock: in between, a sender may
flush the queue and another worker complete that send.
-/

namespace IocpChat.EmptySends

open IocpChat.Protocol
open IocpChat.RingWindow
open IocpChat.LanServer
open IocpChat.SendQueue
open IocpChat.LabelledRun
open IocpChat.ThreadPool
open IocpChat.SlotInterleaving
open IocpChat.SlotRelease
open IocpChat.SendGate
open IocpChat.SendOrder

variable {n : Nat}

/-- The steps that wait behind others in a thread. -/
def trails : Instr → Bool
  | .leaveLock | .clearPending | .readCount | .exchangeClose _ | .decRef => true
  | _ => false

/-- What a thread at this step relies on. -/
def Stocked (sh : Shared n) : Instr → Prop
  | .exchangePending caller => caller.sid.isSome = true → 0 < sh.s.sqCount
  | .dequeue _ => 0 < sh.s.sqCount ∨ sh.s.closeFlag = true
  | .addRefSend _ => 0 < sh.s.sentCount ∨ sh.s.closeFlag = true
  | .wsaSend _ => 0 < sh.s.sentCount ∨ sh.s.closeFlag = true
  | .closeSocket => sh.s.closeFlag = true
  | .drain => sh.s.closeFlag = true
  | _ => True

/-- What keeps every sender from finding the queue empty. -/
structure Supplied (st : SlotState n) : Prop where
  gated : Gated st
  tails : ∀ t, ∀ i ∈ (st.threads t).tail, trails i = true
  locks : ∀ t, .leaveLock ∈ st.threads t → st.shared.lock = some t
  stocked : ∀ t, ∀ i ∈ st.threads t, Stocked st.shared i

section Local

variable {idx : Nat} {t : Fin n} {accepted : Bool} {sh sh' : Shared n} {i j : Instr}
  {new : List Instr} {task : Task}

theorem stocked_of_trails (sh : Shared n) (h : trails i = true) : Stocked sh i := by
  cases i <;> simp_all [trails, Stocked]

theorem exec_tail (h : exec idx t accepted sh i = some (sh', new)) (hj : j ∈ new.tail) :
    trails j = true := by
  cases i <;> grind [exec, Shared.exchangeCloseFlag, trails]

theorem exec_lock (h : exec idx t accepted sh i = some (sh', new)) (hi : i ≠ .leaveLock) :
    (sh'.lock = sh.lock ∧ .leaveLock ∉ new) ∨ (sh.lock = none ∧ sh'.lock = some t) := by
  cases i <;> grind [exec, Shared.exchangeCloseFlag]

theorem exec_sqCount (h : exec idx t accepted sh i = some (sh', new)) (hi : isInit i = false) :
    sh.s.sqCount ≤ sh'.s.sqCount ∨
      ((gate i = 1 ∨ i = .drain) ∧ sh.MayEnter t) := by
  cases i <;>
    grind [exec, Shared.exchangeCloseFlag, isInit, gate, Session.enqueue]

theorem exec_stocked (h : exec idx t accepted sh i = some (sh', new)) (hring : RingOk sh.s)
    (hi : Stocked sh i)
    (hguard : i = .exchangePending .onSendComplete → sh.s.sendPending = false →
      sh.s.closeFlag = false →
      0 < sh.s.sqCount) (hj : j ∈ new) : Stocked sh' j := by
  have hbatch : (sh.s.takeQueue qsize).1.length = sh.s.sqCount := by
    rw [(takeQueue_all qsize hring.head_lt hring.count_le).1]
    exact window_length _ _ _ _
  cases i with
  | exchangePending caller =>
      cases caller <;> grind [exec, Shared.exchangeCloseFlag, Stocked]
  | _ =>
      grind [exec, Shared.exchangeCloseFlag, Stocked, Session.enqueue, Session.sentCount,
        takeQueue_closeFlag]

theorem begins_stocked (h : begins idx sh task = some (sh', new)) :
    sh'.lock = sh.lock ∧ .leaveLock ∉ new ∧ (∀ j ∈ new.tail, trails j = true) ∧
      ∀ j ∈ new, Stocked sh' j := by
  cases task <;> grind [begins, Shared.exchangeCloseFlag, trails, Stocked]

end Local

section Runs

variable {idx : Nat} {st st' : SlotState n} {l : SlotLabel n}

theorem Supplied.locked (h : Supplied st) {t : Fin n} {sid : SessionID}
    (hi : .exchangePending (.sendPacket sid) ∈ st.threads t) : st.shared.lock = some t := by
  have hshape := h.gated.shape t
  have htails := h.tails t
  apply h.locks t
  cases hthread : st.threads t with
  | nil => simp [hthread] at hi
  | cons i rest =>
      rw [hthread] at hi hshape htails
      obtain rfl | hrest := List.mem_cons.mp hi
      · have hreturn : rest = [.leaveLock] := hshape.1
        simp [hreturn]
      · simpa [trails] using htails _ hrest

/-- `OnSendComplete` tries the gate of an open session only while packets are
queued, or while the gate is closed. -/
def FindsQueue (st : SlotState n) : SlotLabel n → Prop
  | .start _ _ => True
  | .run t _ => (st.threads t).head? = some (.exchangePending .onSendComplete) →
      st.shared.s.sendPending = false → st.shared.s.closeFlag = false →
      0 < st.shared.s.sqCount

instance (st : SlotState n) (l : SlotLabel n) : Decidable (FindsQueue st l) :=
  match l with
  | .start _ _ => isTrue trivial
  | .run t _ => inferInstanceAs (Decidable ((st.threads t).head? =
      some (.exchangePending .onSendComplete) → st.shared.s.sendPending = false →
      st.shared.s.closeFlag = false → 0 < st.shared.s.sqCount))

section RunStep

variable {t : Fin n} {accepted : Bool} {i : Instr} {rest new : List Instr} {sh' : Shared n}

/-- What another thread relies on survives the step. -/
theorem exec_stocked_other (h : Supplied st) (hthread : st.threads t = i :: rest)
    (hexec : exec idx t accepted st.shared i = some (sh', new)) {u : Fin n} (hu : t ≠ u)
    {j : Instr} (hj : j ∈ st.threads u) : Stocked sh' j := by
  have hmem : i ∈ st.threads t := by simp [hthread]
  have hi := h.gated.settled t i hmem
  have hflag := (exec_closed hexec hi).2
  have hstocked := h.stocked u j hj
  have hgate := h.gated.gate_le
  have hpair := add_le_total gate hu hmem hj
  have hcount : gate j = 1 → st.shared.s.sqCount ≤ sh'.s.sqCount ∨ sh'.s.closeFlag = true := by
    intro hholds
    obtain hle | ⟨hother | rfl, -⟩ := exec_sqCount hexec hi
    · exact .inl hle
    · omega
    · exact .inr (hflag (h.stocked t _ hmem))
  have hbatch : gate j = 1 → sh'.s.sendPkts = st.shared.s.sendPkts := by
    intro hholds
    obtain hsame | hunloaded | rfl := exec_sendPkts hexec hi
    · exact hsame
    · rw [gate_eq i] at hpair
      omega
    · have hclear := add_le_total gate hu (h.gated.clearPending_mem hthread) hj
      have hone : gate .clearPending = 1 := rfl
      omega
  cases j with
  | exchangePending caller =>
      cases caller with
      | onSendComplete => simp [Stocked]
      | sendPacket sid =>
          intro _
          have hlock := h.locked hj
          have hbefore := hstocked rfl
          obtain hle | ⟨-, hfree | hown⟩ := exec_sqCount hexec hi
          · omega
          · simp [hlock] at hfree
          · simp [hlock, hu.symm] at hown
  | dequeue caller =>
      obtain hbefore | hclosed := hstocked
      · obtain hle | hclosed := hcount rfl
        · exact .inl (by omega)
        · exact .inr hclosed
      · exact .inr (hflag hclosed)
  | addRefSend caller =>
      simp only [Stocked, Session.sentCount, hbatch rfl] at hstocked ⊢
      exact hstocked.imp id hflag
  | wsaSend caller =>
      simp only [Stocked, Session.sentCount, hbatch rfl] at hstocked ⊢
      exact hstocked.imp id hflag
  | closeSocket => exact hflag hstocked
  | drain => exact hflag hstocked
  | _ => trivial

theorem run_locks (h : Supplied st) (hthread : st.threads t = i :: rest)
    (hexec : exec idx t accepted st.shared i = some (sh', new)) {u : Fin n}
    (hu : .leaveLock ∈ Function.update st.threads t (new ++ rest) u) : sh'.lock = some u := by
  have hold : st.threads t = [i] ++ rest := hthread
  have hshape := h.gated.shape t
  rw [hthread] at hshape
  obtain rfl | hi := eq_or_ne i .leaveLock
  · -- the lock had one owner, whose last step this is
    have hrest : rest = [] := hshape.1
    have hown := h.locks t (by simp [hthread])
    simp only [exec, Option.some.injEq, Prod.mk.injEq] at hexec
    obtain ⟨rfl, rfl⟩ := hexec
    obtain rfl | hne := eq_or_ne u t
    · simp [hrest] at hu
    · rw [Function.update_of_ne hne] at hu
      have hother := h.locks u hu
      simp [hown, Ne.symm hne] at hother
  · obtain ⟨hsame, hnone⟩ | ⟨hfree, htaken⟩ := exec_lock hexec hi
    · obtain ⟨-, hnew⟩ | hbefore := mem_update hold hu
      · exact absurd hnew hnone
      · rw [hsame]
        exact h.locks u hbefore
    · obtain ⟨rfl, -⟩ | hbefore := mem_update hold hu
      · exact htaken
      · have hheld := h.locks u hbefore
        simp [hfree] at hheld

theorem run_supplied (h : Supplied st) (hthread : st.threads t = i :: rest)
    (hexec : exec idx t accepted st.shared i = some (sh', new))
    (hguard : FindsQueue st (.run t accepted)) :
    Supplied ⟨sh', Function.update st.threads t (new ++ rest)⟩ := by
  have hmem : i ∈ st.threads t := by simp [hthread]
  have hrest : ∀ j ∈ rest, trails j = true := by
    intro j hj
    exact h.tails t j (by simpa [hthread] using hj)
  refine ⟨run_gated h.gated hthread hexec, ?_, ?_, ?_⟩
  · exact forall_tail_update (fun j hj => exec_tail hexec hj) hrest h.tails
  · intro u hu
    exact run_locks h hthread hexec hu
  · refine forall_update_split ?_ ?_ ?_
    · intro j hj
      refine exec_stocked hexec h.gated.ring (h.stocked t i hmem) ?_ hj
      rintro rfl
      exact hguard (by simp [hthread])
    · intro j hj
      exact stocked_of_trails sh' (hrest j hj)
    · intro u hu j hj
      exact exec_stocked_other h hthread hexec hu hj

end RunStep

theorem start_supplied (h : Supplied st) {t : Fin n} {task : Task} {new : List Instr}
    {sh' : Shared n} (hidle : st.threads t = []) (htask : ∀ sock, task ≠ .accept sock)
    (hbegins : begins idx st.shared task = some (sh', new)) :
    Supplied ⟨sh', Function.update st.threads t (new ++ [])⟩ := by
  have hold : st.threads t = [] ++ [] := hidle
  obtain ⟨hlock, hnone, htail, hstocked⟩ := begins_stocked hbegins
  obtain ⟨-, -, hcount, -, hpkts⟩ := begins_queue hbegins
  have hflag := (begins_gate hbegins htask).2.2.2.1
  refine ⟨start_gated h.gated hidle htask hbegins, ?_, ?_, ?_⟩
  · exact forall_tail_update htail (by simp) h.tails
  · intro u hu
    obtain ⟨-, hnew⟩ | hbefore := mem_update hold hu
    · exact absurd hnew hnone
    · rw [hlock]
      exact h.locks u hbefore
  · refine forall_update hold hstocked ?_
    intro u j hj
    have hbefore := h.stocked u j hj
    cases j <;> simp_all [Stocked, Session.sentCount] <;> tauto

theorem lifetimeStep_supplied (h : Supplied st) (hguard : FindsQueue st l)
    (hstep : lifetimeStep idx st l = some st') : Supplied st' := by
  obtain ⟨shared, threads⟩ := st'
  obtain ⟨t, task, new, rfl, htask, hidle, hbegins, hthreads⟩ |
    ⟨t, accepted, i, rest, new, rfl, hthread, hexec, hthreads⟩ := lifetimeStep_cases hstep
  · subst hthreads
    exact start_supplied h hidle htask hbegins
  · subst hthreads
    exact run_supplied h hthread hexec hguard

theorem fresh_supplied (idx sock : Nat) {s : Session} (hsends : s.sendsOut = 0)
    (known : List SessionID) (t : Fin n) : Supplied (fresh idx sock s known t) := by
  refine ⟨fresh_gated idx sock hsends known t, ?_, ?_, ?_⟩
  · intro u i hi
    obtain rfl | hne := eq_or_ne u t
    · simp [fresh] at hi
    · simp [fresh, Function.update_of_ne hne] at hi
  · intro u hu
    simpa using eq_register_of_mem_fresh hu
  · intro u i hi
    rw [eq_register_of_mem_fresh hi]
    trivial

/-- `WSASend` is called on an open session only with packets. -/
def PostsPackets (st : SlotState n) : SlotLabel n → Prop
  | .start _ _ => True
  | .run t _ => (st.threads t).head?.any posts = true → st.shared.s.closeFlag = false →
      1 ≤ st.shared.s.sentCount

theorem Supplied.postsPackets (h : Supplied st) (l : SlotLabel n) : PostsPackets st l := by
  cases l with
  | start t task => trivial
  | run t accepted =>
      intro hposts hopen
      obtain ⟨i, hi, hposts⟩ := (Option.any_eq_true _ _).mp hposts
      have hstocked := h.stocked t i (List.mem_of_mem_head? hi)
      cases i with
      | wsaSend caller => exact hstocked.resolve_right (by simp [hopen])
      | _ => simp [posts] at hposts

/-- No empty send is posted, in every run of a lifetime in which a completion
wins the gate of the open session only while packets are queued. -/
theorem sends_have_packets (idx sock : Nat) {s : Session} (hsends : s.sendsOut = 0)
    (known : List SessionID) (t : Fin n) {ls : List (SlotLabel n)}
    (hls : Meets (lifetimeStep idx) FindsQueue (fresh idx sock s known t) ls) :
    Meets (lifetimeStep idx) PostsPackets (fresh idx sock s known t) ls := by
  refine meets_of_meets (lifetimeStep idx) ?_ ?_ (fresh_supplied idx sock hsends known t) hls
  · intro st l st' h hguard hstep
    exact lifetimeStep_supplied h hguard hstep
  · intro st l st' h _ _
    exact h.postsPackets l

end Runs

instance (st : SlotState n) (l : SlotLabel n) : Decidable (PostsPackets st l) :=
  match l with
  | .start _ _ => isTrue trivial
  | .run t _ => inferInstanceAs (Decidable ((st.threads t).head?.any posts = true →
      st.shared.s.closeFlag = false → 1 ≤ st.shared.s.sentCount))

theorem sends_have_packets_completedSends :
    (run (lifetimeStep 3) (fresh 3 7 Session.new [] 0) completedSends).map
        (fun st => st.shared.handed) = some [0, 1] ∧
      Meets (lifetimeStep 3) PostsPackets (fresh 3 7 Session.new [] 0) completedSends :=
  ⟨by decide +kernel, sends_have_packets 3 7 rfl [] 0 (by decide +kernel)⟩

/-- A worker has seen a packet in the queue when a sender flushes it and a second
worker completes that send; then the first one wins the gate. -/
def overtakenCompletion : List (SlotLabel 4) :=
  joined 0 ++ sends 1 (sessionId 3 1) 0 true ++ sends 1 (sessionId 3 1) 1 false ++
    [.start 2 .sendDone] ++ List.replicate 3 (.run 2 true) ++ sends 1 (sessionId 3 1) 2 true ++
    [.start 3 .sendDone] ++ List.replicate 4 (.run 3 true) ++ List.replicate 4 (.run 2 true)

theorem empty_send_after_overtakenCompletion :
    (run (lifetimeStep 3) (fresh 3 7 Session.new [] 0) overtakenCompletion).map
        (fun st => (st.shared.s.closeFlag, st.shared.s.sendsOut, st.shared.s.sentCount)) =
          some (false, 1, 0) ∧
      ¬ Meets (lifetimeStep 3) PostsPackets (fresh 3 7 Session.new [] 0) overtakenCompletion :=
  ⟨by decide +kernel, by decide +kernel⟩

end IocpChat.EmptySends
