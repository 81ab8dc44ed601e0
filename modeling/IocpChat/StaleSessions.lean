import IocpChat.SlotRelease

/-!
Whether a packet can reach the session after the one it was sent to.
`SendPacket` compares the generation once and then works on the slot.  As long
as `InitSession` does not count the generation up under a `SendPacket` that has
made the comparison, and the slot is not released under one that uses it, the
identifier the caller gave is that of the session at every step.
-/

namespace IocpChat.StaleSessions

open IocpChat.Protocol
open IocpChat.LanServer
open IocpChat.SendQueue
open IocpChat.LabelledRun
open IocpChat.ThreadPool
open IocpChat.SlotInterleaving
open IocpChat.SlotRelease

variable {n : Nat}

/-- The identifiers on behalf of which `CloseSession` is called. -/
def Cause.sids : Cause → List SessionID
  | .full sid => [sid]
  | .refusal caller batch => caller.sid.toList ++ batch
  | .other => []

/-- The caller's identifier, from the comparison of the generation on. -/
def senderOf : Instr → Option SessionID
  | .readCloseFlag sid _ => some sid
  | .enterQueue sid _ => some sid
  | .exchangePending caller => caller.sid
  | .dequeue caller => caller.sid
  | .addRefSend caller => caller.sid
  | .wsaSend caller => caller.sid
  | .exchangeClose (.full sid) => some sid
  | .exchangeClose (.refusal caller _) => caller.sid
  | _ => none

/-- The identifiers a step past the test of `closeFlag` acts for. -/
def committed : Instr → List SessionID
  | .enterQueue sid _ => [sid]
  | .exchangePending caller => caller.sid.toList
  | .dequeue caller => caller.sid.toList
  | .addRefSend caller => caller.sid.toList
  | .wsaSend caller => caller.sid.toList
  | .exchangeClose cause => Cause.sids cause
  | _ => []

/-- The identifiers a step past the comparison of the generation acts for. -/
def compared : Instr → List SessionID
  | .readCloseFlag sid _ => [sid]
  | i => committed i

/-- The identifier that is about to be compared. -/
def asked : Instr → List SessionID
  | .readGeneration sid _ => [sid]
  | _ => []

/-- `InitSession` between its increment of the generation and its store to
`sID`. -/
def unnamed : Instr → Nat
  | .initSid => 1
  | _ => 0

/-- `InitSession` between its increment of the generation and the emptied
queue. -/
def early : Instr → Nat
  | .initSid => 1
  | .initQueue => 1
  | _ => 0

/-- Whoever has made the comparison works for the session in the slot. -/
structure Addressed (idx : Nat) (st : SlotState n) : Prop where
  accounted : Accounted st
  known : ∀ sid ∈ st.shared.sids, ∃ g, sid = sessionId idx g
  asks : ∀ t, ∀ i ∈ st.threads t, ∀ sid ∈ asked i, ∃ g, sid = sessionId idx g
  compares : ∀ t, ∀ i ∈ st.threads t, ∀ sid ∈ compared i,
    sid = sessionId idx st.shared.s.generation
  commits : ∀ t, ∀ i ∈ st.threads t, committed i ≠ [] → total early st.threads = 0
  named : total unnamed st.threads = 0 →
    st.shared.s.sID = sessionId idx st.shared.s.generation
  packets : total early st.threads = 0 → ∀ sid ∈ st.shared.queuedFor ++ st.shared.batchFor,
    sid = sessionId idx st.shared.s.generation

@[simp] theorem takeQueue_generation (limit : Nat) (s : Session) :
    (s.takeQueue limit).2.generation = s.generation :=
  takeQueue_frame (·.generation) (fun _ _ _ => rfl) limit s

@[simp] theorem takeQueue_sID (limit : Nat) (s : Session) :
    (s.takeQueue limit).2.sID = s.sID :=
  takeQueue_frame (·.sID) (fun _ _ _ => rfl) limit s

section Local

variable {idx : Nat} {t : Fin n} {accepted : Bool} {sh sh' : Shared n} {i j : Instr}
  {new : List Instr} {task : Task} {sid : SessionID}

theorem exec_generation (h : exec idx t accepted sh i = some (sh', new))
    (hi : i ≠ .initGeneration) : sh'.s.generation = sh.s.generation := by
  cases i <;>
    grind [exec, Shared.exchangeCloseFlag, takeQueue_generation, Session.enqueue]

theorem exec_sID (h : exec idx t accepted sh i = some (sh', new)) :
    sh'.s.sID = if i = .initSid then sessionId idx sh.s.generation else sh.s.sID := by
  cases i <;> grind [exec, Shared.exchangeCloseFlag, takeQueue_sID, Session.enqueue]

theorem exec_sids (h : exec idx t accepted sh i = some (sh', new)) (hsid : sid ∈ sh'.sids) :
    sid ∈ sh.sids ∨ (i = .register ∧ sid = sh.s.sID) := by
  cases i <;> grind [exec, Shared.exchangeCloseFlag]

theorem exec_asked (h : exec idx t accepted sh i = some (sh', new)) (hj : j ∈ new) :
    asked j = [] := by
  cases i <;> grind [exec, Shared.exchangeCloseFlag, asked]

theorem exec_compared (h : exec idx t accepted sh i = some (sh', new)) (hj : j ∈ new)
    (hsid : sid ∈ compared j) :
    sid ∈ compared i ∨ (sid ∈ asked i ∧ sh.s.generation = sidGeneration sid) ∨
      (owed i = 1 ∧ sid ∈ sh.batchFor) := by
  cases i <;>
    grind [exec, Shared.exchangeCloseFlag, compared, committed, asked, owed, Cause.sids]

theorem exec_committed (h : exec idx t accepted sh i = some (sh', new)) (hj : j ∈ new)
    (hcommitted : committed j ≠ []) :
    committed i ≠ [] ∨ sh.s.closeFlag = false ∨ owed i = 1 := by
  cases i <;> grind [exec, Shared.exchangeCloseFlag, committed, owed, Cause.sids]

theorem exec_early (h : exec idx t accepted sh i = some (sh', new)) (hi : i ≠ .initGeneration) :
    weight early new ≤ early i ∧ (i ≠ .initQueue → weight early new = early i) := by
  cases i <;> grind [exec, Shared.exchangeCloseFlag, early, weight_nil, weight_cons]

theorem exec_unnamed (h : exec idx t accepted sh i = some (sh', new))
    (hi : i ≠ .initGeneration) (hsid : i ≠ .initSid) : weight unnamed new = unnamed i := by
  cases i <;> grind [exec, Shared.exchangeCloseFlag, unnamed, weight_nil, weight_cons]

theorem exec_packets (h : exec idx t accepted sh i = some (sh', new))
    (hsid : sid ∈ sh'.queuedFor ++ sh'.batchFor) :
    i ≠ .initQueue ∧ (sid ∈ sh.queuedFor ++ sh.batchFor ∨ sid ∈ committed i) := by
  cases i <;>
    grind [exec, Shared.exchangeCloseFlag, committed, List.mem_of_mem_take, List.mem_of_mem_drop]

theorem begins_keeps (h : begins idx sh task = some (sh', new)) :
    sh'.s.generation = sh.s.generation ∧ sh'.s.sID = sh.s.sID ∧ sh'.sids = sh.sids ∧
      sh'.queuedFor = sh.queuedFor ∧ sh'.batchFor = sh.batchFor ∧
      weight early new = 0 ∧ weight unnamed new = 0 := by
  cases task <;>
    grind [begins, Shared.exchangeCloseFlag, early, unnamed, weight_nil, weight_cons]

theorem begins_new (h : begins idx sh task = some (sh', new)) (hj : j ∈ new) :
    compared j = [] ∧ committed j = [] ∧ ∀ sid ∈ asked j, sid ∈ sh.sids := by
  cases task <;>
    grind [begins, Shared.exchangeCloseFlag, compared, committed, asked, Cause.sids]

end Local

theorem decRef_mem_of_refusal {steps : List Instr} (h : Shape steps)
    {caller : Caller} {batch : List SessionID}
    (hmem : .exchangeClose (.refusal caller batch) ∈ steps) : .decRef ∈ steps := by
  induction steps with
  | nil => simp at hmem
  | cons i rest ih =>
      obtain rfl | hrest := List.mem_cons.mp hmem
      · obtain ⟨tail, rfl⟩ := h.1 trivial
        simp
      · exact List.mem_cons_of_mem i (ih h.2 hrest)

/-- The generation is not counted up under a `SendPacket` that has compared
it. -/
def KeepsGeneration (st : SlotState n) : SlotLabel n → Prop
  | .start _ _ => True
  | .run t _ => (st.threads t).head? = some .initGeneration →
      ∀ u, ∀ i ∈ st.threads u, senderOf i = none

instance (st : SlotState n) (l : SlotLabel n) : Decidable (KeepsGeneration st l) :=
  match l with
  | .start _ _ => isTrue trivial
  | .run t _ => inferInstanceAs (Decidable ((st.threads t).head? = some .initGeneration →
      ∀ u, ∀ i ∈ st.threads u, senderOf i = none))

/-- The step takes no session away from a `SendPacket` that has found it. -/
def KeepsSession (st : SlotState n) (l : SlotLabel n) : Prop :=
  KeepsReference st l ∧ KeepsGeneration st l

instance (st : SlotState n) (l : SlotLabel n) : Decidable (KeepsSession st l) :=
  inferInstanceAs (Decidable (_ ∧ _))

section Runs

variable {idx : Nat} {st st' : SlotState n} {l : SlotLabel n}

theorem unnamed_le_early (i : Instr) : unnamed i ≤ early i := by
  cases i <;> simp [unnamed, early]

theorem early_le_initing (i : Instr) : early i ≤ initing i := by
  cases i <;> simp [early, initing]

namespace Addressed

theorem early_eq_zero (h : Addressed idx st) (hlive : 0 < st.shared.s.ioRefCount) :
    total early st.threads = 0 := by
  have htoken := h.accounted.token
  have hle := total_mono early_le_initing st.threads
  simp only [live, if_pos hlive] at htoken
  omega

theorem unnamed_eq_zero (hearly : total early st.threads = 0) :
    total unnamed st.threads = 0 := by
  have hle := total_mono unnamed_le_early st.threads
  omega

theorem compared_eq_nil (h : Addressed idx st) {t : Fin n} {accepted : Bool}
    {rest : List Instr} (hthread : st.threads t = .initGeneration :: rest)
    (hguard : KeepsGeneration st (.run t accepted)) {u : Fin n} {i : Instr}
    (hi : i ∈ st.threads u) : compared i = [] := by
  have hmem : .initGeneration ∈ st.threads t := by simp [hthread]
  have hzero := h.accounted.initing_le hmem rfl
  have hsender := hguard (by simp [hthread]) u i hi
  cases i with
  | exchangeClose cause =>
      cases cause with
      | full sid => simp [senderOf] at hsender
      | refusal caller batch =>
          have hdecRef := decRef_mem_of_refusal (h.accounted.shape u) hi
          have hlive := h.accounted.alive_of_owed hdecRef (by decide)
          omega
      | other => rfl
  | _ => simp_all [senderOf, compared, committed]

theorem committed_eq_nil {i : Instr} (h : compared i = []) : committed i = [] := by
  cases i <;> simp_all [compared, committed]

end Addressed

theorem mem_compared {i : Instr} {sid : SessionID} (h : sid ∈ committed i) :
    sid ∈ compared i := by
  cases i <;> simp_all [compared, committed]

theorem start_addressed (h : Addressed idx st) {t : Fin n} {task : Task} {new : List Instr}
    {sh' : Shared n} (hidle : st.threads t = [])
    (hbegins : begins idx st.shared task = some (sh', new)) :
    Addressed idx ⟨sh', Function.update st.threads t (new ++ [])⟩ := by
  have hold : st.threads t = [] ++ [] := hidle
  obtain ⟨hgeneration, hsID, hsids, hqueued, hbatch, hearly, hunnamed⟩ := begins_keeps hbegins
  have htotalEarly := total_update early hold new
  have htotalUnnamed := total_update unnamed hold new
  simp only [weight_nil, Nat.add_zero, hearly, hunnamed] at htotalEarly htotalUnnamed
  refine ⟨start_accounted h.accounted hidle hbegins, ?_, ?_, ?_, ?_, ?_, ?_⟩
  · simpa only [hsids] using h.known
  · refine forall_update hold ?_ h.asks
    intro j hj sid hsid
    exact h.known sid ((begins_new hbegins hj).2.2 sid hsid)
  · simp only [hgeneration]
    refine forall_update hold ?_ h.compares
    intro j hj sid hsid
    simp [(begins_new hbegins hj).1] at hsid
  · simp only [htotalEarly]
    refine forall_update hold ?_ h.commits
    intro j hj hcommitted
    exact absurd (begins_new hbegins hj).2.1 hcommitted
  · simpa only [htotalUnnamed, hsID, hgeneration] using h.named
  · simpa only [htotalEarly, hqueued, hbatch, hgeneration] using h.packets

theorem initGeneration_addressed (h : Addressed idx st) {t : Fin n} {accepted : Bool}
    {rest new : List Instr} {sh' : Shared n} (hthread : st.threads t = .initGeneration :: rest)
    (hexec : exec idx t accepted st.shared .initGeneration = some (sh', new))
    (hguard : KeepsSession st (.run t accepted)) :
    Addressed idx ⟨sh', Function.update st.threads t (new ++ rest)⟩ := by
  have haccounted := run_accounted h.accounted hthread hexec hguard.1
  have hold : st.threads t = [.initGeneration] ++ rest := hthread
  have hnone : ∀ u, ∀ i ∈ st.threads u, compared i = [] := by
    intro u i hi
    exact h.compared_eq_nil hthread hguard.2 hi
  simp only [exec, Option.some.injEq, Prod.mk.injEq] at hexec
  obtain ⟨rfl, rfl⟩ := hexec
  have hearly := total_update early hold [.initSid]
  have hunnamed := total_update unnamed hold [.initSid]
  simp only [weight_cons, weight_nil, early, unnamed] at hearly hunnamed
  refine ⟨haccounted, h.known, ?_, ?_, ?_, ?_, ?_⟩
  · exact forall_update hold (by simp [asked]) h.asks
  · refine forall_update hold (by simp [compared, committed]) ?_
    intro u i hi sid hsid
    simp [hnone u i hi] at hsid
  · refine forall_update hold (by simp [committed]) ?_
    intro u i hi hcommitted
    exact absurd (Addressed.committed_eq_nil (hnone u i hi)) hcommitted
  · intro hzero
    dsimp only at hzero
    omega
  · intro hzero
    dsimp only at hzero
    omega

theorem run_addressed (h : Addressed idx st) {t : Fin n} {accepted : Bool} {i : Instr}
    {rest new : List Instr} {sh' : Shared n} (hthread : st.threads t = i :: rest)
    (hexec : exec idx t accepted st.shared i = some (sh', new))
    (hguard : KeepsSession st (.run t accepted)) :
    Addressed idx ⟨sh', Function.update st.threads t (new ++ rest)⟩ := by
  obtain rfl | hi := eq_or_ne i .initGeneration
  · exact initGeneration_addressed h hthread hexec hguard
  have hmem : i ∈ st.threads t := by simp [hthread]
  have hold : st.threads t = [i] ++ rest := hthread
  have hgeneration := exec_generation hexec hi
  have hearly := total_update early hold new
  have hunnamed := total_update unnamed hold new
  simp only [weight_cons, weight_nil, Nat.add_zero] at hearly hunnamed
  have hexecEarly := exec_early hexec hi
  have howed : owed i = 1 → total early st.threads = 0 := by
    intro howed
    exact h.early_eq_zero (h.accounted.alive_of_owed hmem (by omega))
  refine ⟨run_accounted h.accounted hthread hexec hguard.1, ?_, ?_, ?_, ?_, ?_, ?_⟩
  · intro sid hsid
    obtain hsid | ⟨rfl, rfl⟩ := exec_sids hexec hsid
    · exact h.known sid hsid
    · have hzero := h.early_eq_zero (h.accounted.exposed t _ hmem rfl)
      exact ⟨_, h.named (Addressed.unnamed_eq_zero hzero)⟩
  · refine forall_update hold ?_ h.asks
    intro j hj sid hsid
    simp [exec_asked hexec hj] at hsid
  · simp only [hgeneration]
    refine forall_update hold ?_ h.compares
    intro j hj sid hsid
    obtain hsid | ⟨hasked, hsame⟩ | ⟨hone, hbatch⟩ := exec_compared hexec hj hsid
    · exact h.compares t i hmem sid hsid
    · obtain ⟨g, rfl⟩ := h.asks t i hmem sid hasked
      rw [hsame, sidGeneration_sessionId]
    · exact h.packets (howed hone) sid (List.mem_append_right _ hbatch)
  · have hkept : total early st.threads = 0 →
        total early (Function.update st.threads t (new ++ rest)) = 0 := by
      intro hzero
      omega
    refine forall_update hold ?_ ?_
    · intro j hj hcommitted
      apply hkept
      obtain hbefore | hopen | hone := exec_committed hexec hj hcommitted
      · exact h.commits t i hmem hbefore
      · exact h.early_eq_zero (h.accounted.alive_of_open hopen)
      · exact howed hone
    · intro u j hj hcommitted
      exact hkept (h.commits u j hj hcommitted)
  · intro hzero
    dsimp only at hzero
    simp only [hgeneration, exec_sID hexec]
    split
    · rfl
    · rename_i hsid
      have hkept := exec_unnamed hexec hi hsid
      exact h.named (by omega)
  · intro hzero sid hsid
    dsimp only at hzero
    simp only [hgeneration]
    obtain ⟨hqueue, hpackets | hcommitted⟩ := exec_packets hexec hsid
    · have hkept := hexecEarly.2 hqueue
      exact h.packets (by omega) sid hpackets
    · exact h.compares t i hmem sid (mem_compared hcommitted)

theorem slotStep_addressed (h : Addressed idx st) (hguard : KeepsSession st l)
    (hstep : slotStep idx st l = some st') : Addressed idx st' := by
  obtain ⟨shared, threads⟩ := st'
  obtain ⟨t, task, new, rfl, hidle, hbegins, hthreads⟩ |
    ⟨t, accepted, i, rest, new, rfl, hthread, hexec, hthreads⟩ := step_cases hstep
  · subst hthreads
    exact start_addressed h hidle hbegins
  · subst hthreads
    exact run_addressed h hthread hexec hguard

theorem fresh_addressed (idx sock : Nat) (t : Fin n) :
    Addressed idx (fresh idx sock Session.new [] t) := by
  refine ⟨fresh_accounted idx sock rfl rfl [] t, ?_, ?_, ?_, ?_, ?_, ?_⟩
  · simp [fresh, pooled]
  · intro u i hi sid hsid
    simp [eq_register_of_mem_fresh hi, asked] at hsid
  · intro u i hi sid hsid
    simp [eq_register_of_mem_fresh hi, compared, committed] at hsid
  · intro u i hi hcommitted
    simp [eq_register_of_mem_fresh hi, committed] at hcommitted
  · intro _
    rfl
  · simp [fresh, pooled]

/-- At this step the session is the one the packets were sent to: where a
packet is put into `sendQ`, where a batch is handed to `WSASend`, and where
`CloseSession` is called because of a packet. -/
def Meant (sh : Shared n) : Instr → Prop
  | .enterQueue sid _ => sh.s.sqCount < qsize → sh.s.sID = sid
  | .wsaSend _ => ∀ sid ∈ sh.batchFor, sh.s.sID = sid
  | .exchangeClose cause => ∀ sid ∈ Cause.sids cause, sh.s.sID = sid
  | _ => True

/-- The step acts for the session that was meant. -/
def ReachesOwn (st : SlotState n) : SlotLabel n → Prop
  | .start _ _ => True
  | .run t _ => ∀ i ∈ (st.threads t).head?, Meant st.shared i

theorem Addressed.meant (h : Addressed idx st) {t : Fin n} {i : Instr}
    (hi : i ∈ st.threads t) : Meant st.shared i := by
  have hsID : total early st.threads = 0 → ∀ sid, sid = sessionId idx st.shared.s.generation →
      st.shared.s.sID = sid := by
    rintro hzero sid rfl
    exact h.named (Addressed.unnamed_eq_zero hzero)
  have hcommitted : ∀ sid ∈ committed i, st.shared.s.sID = sid := by
    intro sid hsid
    exact hsID (h.commits t i hi (List.ne_nil_of_mem hsid)) sid
      (h.compares t i hi sid (mem_compared hsid))
  cases i with
  | enterQueue sid p =>
      intro _
      exact hcommitted sid (by simp [committed])
  | wsaSend caller =>
      intro sid hsid
      have hzero := h.early_eq_zero (h.accounted.alive_of_owed hi (by simp [owed]))
      exact hsID hzero sid (h.packets hzero sid (List.mem_append_right _ hsid))
  | exchangeClose cause => exact hcommitted
  | _ => trivial

/-- A packet reaches only the session it was sent to, in every run in which
neither the slot is released nor its generation counted up under a
`SendPacket`. -/
theorem packets_reach_own_session (idx sock : Nat) (t : Fin n) {ls : List (SlotLabel n)}
    (hls : Meets (slotStep idx) KeepsSession (fresh idx sock Session.new [] t) ls) :
    Meets (slotStep idx) ReachesOwn (fresh idx sock Session.new [] t) ls := by
  refine meets_of_meets (slotStep idx) ?_ ?_ (fresh_addressed idx sock t) hls
  · intro st l st' h hguard hstep
    exact slotStep_addressed h hguard hstep
  · intro st l st' h _ _
    cases l with
    | start u task => trivial
    | run u accepted =>
        intro i hi
        exact h.meant (List.mem_of_mem_head? hi)

end Runs

instance (sh : Shared n) (i : Instr) : Decidable (Meant sh i) :=
  match i with
  | .enterQueue sid _ => inferInstanceAs (Decidable (sh.s.sqCount < qsize → sh.s.sID = sid))
  | .wsaSend _ => inferInstanceAs (Decidable (∀ sid ∈ sh.batchFor, sh.s.sID = sid))
  | .exchangeClose cause =>
      inferInstanceAs (Decidable (∀ sid ∈ Cause.sids cause, sh.s.sID = sid))
  | .readGeneration .. | .readCloseFlag .. | .leaveLock | .exchangePending _ | .dequeue _
  | .addRefSend _ | .releaseBatch | .clearPending | .readCount | .checkGeneration _
  | .closeSocket | .drain | .decRef | .pushIndex | .addRefRecv _ | .wsaRecv | .initSock _
  | .initGeneration | .initSid | .initQueue | .initPending | .initRef | .initOpen
  | .register => isTrue trivial

instance (st : SlotState n) (l : SlotLabel n) : Decidable (ReachesOwn st l) :=
  match l with
  | .start _ _ => isTrue trivial
  | .run t _ => inferInstanceAs (Decidable (∀ i ∈ (st.threads t).head?, Meant st.shared i))

/-- A packet is sent and completed, then the client resets the connection and
the slot is taken for the next one. -/
def sentThenReused : List (SlotLabel 3) :=
  joined 0 ++ [.start 1 (.sendPacket (sessionId 3 1) 0)] ++ List.replicate 8 (.run 1 true) ++
    [.start 2 .sendDone] ++ List.replicate 4 (.run 2 true) ++ reset 2 ++
    [.start 0 (.accept 8)] ++ List.replicate 7 (.run 0 true)

theorem packets_reach_own_session_sentThenReused :
    (run (slotStep 3) (fresh 3 7 Session.new [] 0) sentThenReused).map
        (fun st => (st.shared.s.sID, st.shared.s.sock)) = some (sessionId 3 2, some 8) ∧
      Meets (slotStep 3) ReachesOwn (fresh 3 7 Session.new [] 0) sentThenReused :=
  ⟨by decide +kernel, packets_reach_own_session 3 7 0 (by decide +kernel)⟩

/-- `SendPacket` passes its tests; the slot is released and taken for the next
client before the packet is enqueued. -/
def crossedSend : List (SlotLabel 3) :=
  joined 0 ++ [.start 1 (.sendPacket (sessionId 3 1) 0)] ++ List.replicate 2 (.run 1 true) ++
    reset 2 ++ [.start 0 (.accept 8)] ++ List.replicate 7 (.run 0 true) ++
    List.replicate 5 (.run 1 true)

theorem packet_reaches_next_session_crossedSend :
    (run (slotStep 3) (fresh 3 7 Session.new [] 0) crossedSend).map
        (fun st => (st.shared.s.sID, st.shared.s.sock, st.shared.handed)) =
          some (sessionId 3 2, some 8, [0]) ∧
      ¬ Meets (slotStep 3) ReachesOwn (fresh 3 7 Session.new [] 0) crossedSend :=
  ⟨by decide +kernel, by decide +kernel⟩

end IocpChat.StaleSessions
