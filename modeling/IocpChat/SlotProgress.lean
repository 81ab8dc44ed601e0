import IocpChat.SlotRelease

/-!
Nobody gets stuck on a slot.  The critical section of `SendPacket` is the only one that a
thread stays in while it makes further steps, and whoever is in it can go on; and every
call comes to its end, since no step puts more in its place than it takes away.
-/

namespace IocpChat.SlotProgress

open IocpChat.Protocol
open IocpChat.LanServer
open IocpChat.LabelledRun
open IocpChat.ThreadPool
open IocpChat.SlotInterleaving
open IocpChat.SlotRelease

variable {n : Nat}

/-- The most steps that a thread makes from here to the end of the innermost call. -/
def cost : Instr → Nat
  | .leaveLock | .releaseBatch | .clearPending | .pushIndex => 1
  | .decRef => 2
  | .drain => 3
  | .closeSocket => 4
  | .exchangeClose _ => 5
  | .checkGeneration _ => 6
  | .wsaRecv => 8
  | .addRefRecv _ => 9
  | .wsaSend _ => 10
  | .addRefSend _ => 11
  | .dequeue _ => 12
  | .exchangePending _ => 13
  | .readCount => 14
  | .enterQueue _ _ => 15
  | .readCloseFlag _ _ => 16
  | .readGeneration _ _ => 17
  | .register => 10
  | .initOpen => 11
  | .initRef => 12
  | .initPending => 13
  | .initQueue => 14
  | .initSid => 15
  | .initGeneration => 16
  | .initSock _ => 17

/-- The longest call: a completion that sends the next batch, which Winsock refuses. -/
def longestCall : Nat := 18

/-- The step has to wait for another thread. -/
def Waits (sh : Shared n) (t : Fin n) : Instr → Prop
  | .enterQueue _ _ => sh.lock ≠ none
  | .dequeue _ => ¬ sh.MayEnter t
  | .drain => ¬ sh.MayEnter t
  | _ => False

/-- The thread inside the critical section of `SendPacket` is the one that is still to
leave it. -/
def Locked (st : SlotState n) : Prop := ∀ t, .leaveLock ∈ st.threads t ↔ st.shared.lock = some t

section Local

variable {idx : Nat} {t : Fin n} {accepted : Bool} {sh sh' : Shared n} {i : Instr}
  {new : List Instr} {task : Task}

theorem exec_cost (h : exec idx t accepted sh i = some (sh', new)) : weight cost new < cost i := by
  cases i <;> grind [exec, Shared.exchangeCloseFlag, cost, weight_nil, weight_cons]

theorem begins_cost (h : begins idx sh task = some (sh', new)) :
    weight cost new ≤ longestCall := by
  cases task <;>
    grind [begins, Shared.exchangeCloseFlag, cost, longestCall, weight_nil, weight_cons]

/-- Only the entry to a critical section can have to wait, whatever Winsock answers. -/
theorem exec_isSome (h : ¬ Waits sh t i) : (exec idx t accepted sh i).isSome = true := by
  cases i <;> grind [exec, Waits]

theorem exec_lock (h : exec idx t accepted sh i = some (sh', new)) :
    (i = .leaveLock ∧ sh'.lock = none ∧ new = []) ∨
    (sh.lock = none ∧ sh'.lock = some t ∧ .leaveLock ∈ new) ∨
    (i ≠ .leaveLock ∧ sh'.lock = sh.lock ∧ .leaveLock ∉ new) := by
  cases i <;> grind [exec, Shared.exchangeCloseFlag]

theorem begins_lock (h : begins idx sh task = some (sh', new)) :
    sh'.lock = sh.lock ∧ .leaveLock ∉ new := by
  cases task <;> grind [begins, Shared.exchangeCloseFlag]

end Local

section Steps

variable {idx : Nat} {st st' : SlotState n} {l : SlotLabel n}

/-- Between two steps. -/
structure Ready (st : SlotState n) : Prop where
  shape : ∀ t, Shape (st.threads t)
  locked : Locked st
  short : ∀ t, weight cost (st.threads t) ≤ longestCall

theorem pooled_ready (s : Session) (known : List SessionID) :
    Ready (pooled (n := n) s known) := by
  refine ⟨fun _ => trivial, ?_, fun _ => Nat.zero_le _⟩
  intro t
  simp [pooled]

theorem slotStep_shape (h : ∀ t, Shape (st.threads t)) (hstep : slotStep idx st l = some st')
    (t : Fin n) : Shape (st'.threads t) := by
  obtain ⟨u, task, new, -, -, hnew, hthreads⟩ |
    ⟨u, accepted, i, rest, new, -, hold, hnew, hthreads⟩ := step_cases hstep
  · rw [hthreads]
    exact shape_update (by simpa using begins_shape hnew) h t
  · have hshape := h u
    rw [hold] at hshape
    rw [hthreads]
    exact shape_update (exec_shape hnew hshape.1 hshape.2) h t

theorem slotStep_locked (hshape : ∀ t, Shape (st.threads t)) (h : Locked st)
    (hstep : slotStep idx st l = some st') : Locked st' := by
  obtain ⟨u, task, new, -, hidle, hnew, hthreads⟩ |
    ⟨u, accepted, i, rest, new, -, hold, hnew, hthreads⟩ := step_cases hstep
  · obtain ⟨hlock, hnone⟩ := begins_lock hnew
    intro t
    rw [hthreads, hlock, ← h t]
    obtain rfl | hne := eq_or_ne t u
    · simp [hidle, hnone]
    · rw [Function.update_of_ne hne]
  · have hfits := hshape u
    rw [hold] at hfits
    have howner := h u
    rw [hold] at howner
    intro t
    rw [hthreads]
    obtain ⟨rfl, hlock, rfl⟩ | ⟨hfree, hlock, hmem⟩ | ⟨hne, hlock, hnone⟩ := exec_lock hnew
    · -- the owner leaves, and has nothing else to do
      have hrest : rest = [] := hfits.1
      have hheld : st.shared.lock = some u := howner.mp List.mem_cons_self
      rw [hlock]
      obtain rfl | hother := eq_or_ne t u
      · simp [hrest]
      · rw [Function.update_of_ne hother, h t, hheld]
        simp [hother.symm]
    · rw [hlock]
      obtain rfl | hother := eq_or_ne t u
      · simp [hmem]
      · rw [Function.update_of_ne hother, h t, hfree]
        simp [hother.symm]
    · rw [hlock, ← h t]
      obtain rfl | hother := eq_or_ne t u
      · simp [hold, hnone, hne.symm]
      · rw [Function.update_of_ne hother]

theorem slotStep_ready (h : Ready st) (hstep : slotStep idx st l = some st') : Ready st' :=
  ⟨slotStep_shape h.shape hstep, slotStep_locked h.shape h.locked hstep,
    weight_le_of_step (fun _ _ _ _ hbegins => begins_cost hbegins)
      (fun _ _ _ _ _ _ hexec => exec_cost hexec) h.short hstep⟩

/-- The owner of the critical section is not about to enter one that it has to wait for. -/
theorem owner_goes_on (h : Ready st) {t : Fin n} (howner : st.shared.lock = some t) :
    ∃ i rest, st.threads t = i :: rest ∧ ¬ Waits st.shared t i := by
  have hmem := (h.locked t).mpr howner
  have hshape := h.shape t
  rcases hthread : st.threads t with _ | ⟨i, rest⟩
  · rw [hthread] at hmem
    cases hmem
  · refine ⟨i, rest, rfl, ?_⟩
    rw [hthread] at hmem hshape
    have hmay : st.shared.MayEnter t := .inr howner
    cases i with
    | enterQueue sid p =>
        have hrest : rest = [] := hshape.1
        simp [hrest] at hmem
    | dequeue caller => exact fun hwaits => hwaits hmay
    | drain => exact fun hwaits => hwaits hmay
    | _ => exact id

theorem free_goes_on (hfree : st.shared.lock = none) (t : Fin n) (i : Instr) :
    ¬ Waits st.shared t i := by
  have hmay : st.shared.MayEnter t := .inl hfree
  cases i with
  | enterQueue sid p => exact fun hwaits => hwaits hfree
  | dequeue caller => exact fun hwaits => hwaits hmay
  | drain => exact fun hwaits => hwaits hmay
  | _ => exact id

theorem someone_goes_on (h : Ready st) (hbusy : ∃ t, st.threads t ≠ []) :
    ∃ t, ∀ accepted, (slotStep idx st (.run t accepted)).isSome = true := by
  obtain ⟨t, i, rest, hthread, hgoes⟩ : ∃ t i rest, st.threads t = i :: rest ∧
      ¬ Waits st.shared t i := by
    rcases hlock : st.shared.lock with _ | u
    · obtain ⟨t, ht⟩ := hbusy
      obtain ⟨i, rest, hthread⟩ := List.exists_cons_of_ne_nil ht
      exact ⟨t, i, rest, hthread, free_goes_on hlock t i⟩
    · obtain ⟨i, rest, hthread, hgoes⟩ := owner_goes_on h hlock
      exact ⟨u, i, rest, hthread, hgoes⟩
  refine ⟨t, fun accepted => ?_⟩
  simp only [slotStep, step, hthread, Option.isSome_map]
  exact exec_isSome hgoes

end Steps

/-- In every state that any interleaving reaches, one of the threads at work on the slot can
go on, whatever Winsock answers; left alone they make at most 18 steps each; and when none
can go on all calls have returned and the critical section is free. -/
theorem calls_return (idx : Nat) (s : Session) (known : List SessionID)
    {ls : List (SlotLabel n)} {st : SlotState n}
    (hrun : run (slotStep idx) (pooled s known) ls = some st) :
    ((∃ t, st.threads t ≠ []) →
      ∃ t, ∀ accepted, (slotStep idx st (.run t accepted)).isSome = true) ∧
    ∀ more st', run (slotStep idx) st more = some st' → GoesOn more →
      (∀ t, stepsOf t more ≤ longestCall) ∧
      ((∀ t accepted, slotStep idx st' (.run t accepted) = none) →
        (∀ t, st'.threads t = []) ∧ st'.shared.lock = none) := by
  have hready : Ready st := invariant_of_run _
    (fun _ _ _ hs hstep => slotStep_ready hs hstep) (pooled_ready s known) hrun
  refine ⟨someone_goes_on hready, ?_⟩
  intro more st' hmore hgoes
  have hready' : Ready st' := invariant_of_run _
    (fun _ _ _ hs hstep => slotStep_ready hs hstep) hready hmore
  constructor
  · intro t
    have hsteps := stepsOf_add_weight_le (fun _ _ _ _ _ _ hexec => exec_cost hexec) hmore hgoes t
    have hshort := hready.short t
    omega
  · intro hstuck
    have hidle : ∀ t, st'.threads t = [] := by
      by_contra hbusy
      obtain ⟨t, ht⟩ := not_forall.mp hbusy
      have hsomeone : ∃ u, ∀ accepted, (slotStep idx st' (.run u accepted)).isSome = true :=
        someone_goes_on hready' ⟨t, ht⟩
      obtain ⟨u, hu⟩ := hsomeone
      have hnone := hstuck u true
      have hsome := hu true
      rw [hnone] at hsome
      cases hsome
    refine ⟨hidle, ?_⟩
    rcases hlock : st'.shared.lock with _ | t
    · rfl
    · have hmem := (hready'.locked t).mpr hlock
      rw [hidle t] at hmem
      cases hmem

/-- A session is opened, and a second `SendPacket` has to wait for the first. -/
def waitingSend : List (SlotLabel 5) :=
  .start 0 (.accept 7) :: List.replicate 10 (.run 0 true) ++
    .start 0 (.sendPacket (sessionId 3 1) 0) :: List.replicate 3 (.run 0 true) ++
    .start 1 (.sendPacket (sessionId 3 1) 1) :: List.replicate 2 (.run 1 true)

theorem waitingSend_runs :
    (run (slotStep 3) (pooled Session.new []) waitingSend).isSome = true := by
  decide +kernel

/-- The first `SendPacket` runs to its end, and then the second. -/
def bothSent : List (SlotLabel 5) :=
  List.replicate 5 (.run 0 true) ++ List.replicate 3 (.run 1 true)

theorem bothSent_runs :
    (run (slotStep 3) (Option.get _ waitingSend_runs) bothSent).isSome = true := by
  decide +kernel

theorem calls_return_waitingSend :
    (slotStep 3 (Option.get _ waitingSend_runs) (.run 1 true)).isNone = true ∧
      (∃ t, ∀ accepted,
        (slotStep 3 (Option.get _ waitingSend_runs) (.run t accepted)).isSome = true) ∧
      stepsOf 0 bothSent = 5 ∧ stepsOf 0 bothSent ≤ longestCall ∧
      (∀ t, (Option.get _ bothSent_runs).threads t = []) ∧
      (Option.get _ bothSent_runs).shared.lock = none := by
  obtain ⟨hsomeone, hreturn⟩ :=
    calls_return 3 Session.new [] (Option.some_get waitingSend_runs).symm
  have hgoes : GoesOn bothSent := by
    intro l hl
    rcases List.mem_append.mp hl with hfirst | hsecond
    · exact ⟨0, true, List.eq_of_mem_replicate hfirst⟩
    · exact ⟨1, true, List.eq_of_mem_replicate hsecond⟩
  obtain ⟨hsteps, hend⟩ := hreturn bothSent _ (Option.some_get bothSent_runs).symm hgoes
  have hstuck : ∀ t accepted,
      (slotStep 3 (Option.get _ bothSent_runs) (.run t accepted)).isNone = true := by
    decide +kernel
  obtain ⟨hidle, hfree⟩ := hend fun t accepted => Option.isNone_iff_eq_none.mp (hstuck t accepted)
  exact ⟨by decide +kernel, hsomeone ⟨0, by decide +kernel⟩, by decide, hsteps 0, hidle, hfree⟩

end IocpChat.SlotProgress
