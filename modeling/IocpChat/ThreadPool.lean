import Mathlib.Algebra.BigOperators.Fin
import Mathlib.Algebra.Order.BigOperators.Group.Finset
import Mathlib.Algebra.Order.BigOperators.Group.List
import IocpChat.LabelledRun

/-!
Threads that share a state and interleave atomic steps.  A thread is the list
of steps it still has to make; a step changes the shared state and puts further
steps in its own place, and it may have to wait.  An idle thread may begin a
call.  What the threads owe together is a sum of weights over all their steps.
-/

namespace IocpChat.ThreadPool

open IocpChat.LabelledRun

/-- What the threads share, and what each has still to do. -/
structure State (ι Instr Shared : Type*) where
  shared : Shared
  threads : ι → List Instr

/-- A thread begins a call, or goes on with what it is about. -/
inductive Label (ι Call : Type*) where
  | start (t : ι) (call : Call)
  | run (t : ι) (choice : Bool)

section Steps

variable {ι Instr Shared Call : Type*} [DecidableEq ι]

/-- One step of the thread the label names.  `start` begins a call on an idle
thread, `run` makes the next step of a busy one; the choice stands for the
answer of the environment, where the step asks for one. -/
def step (begins : Shared → Call → Option (Shared × List Instr))
    (exec : ι → Bool → Shared → Instr → Option (Shared × List Instr))
    (st : State ι Instr Shared) : Label ι Call → Option (State ι Instr Shared)
  | .start t call =>
      match st.threads t with
      | [] => (begins st.shared call).map fun r => ⟨r.1, Function.update st.threads t r.2⟩
      | _ :: _ => none
  | .run t choice =>
      match st.threads t with
      | [] => none
      | i :: rest => (exec t choice st.shared i).map fun r =>
          ⟨r.1, Function.update st.threads t (r.2 ++ rest)⟩

variable {begins : Shared → Call → Option (Shared × List Instr)}
  {exec : ι → Bool → Shared → Instr → Option (Shared × List Instr)}
  {st st' : State ι Instr Shared} {l : Label ι Call}

theorem step_cases (h : step begins exec st l = some st') :
    (∃ t call new, l = .start t call ∧ st.threads t = [] ∧
      begins st.shared call = some (st'.shared, new) ∧
      st'.threads = Function.update st.threads t (new ++ [])) ∨
    (∃ t choice i rest new, l = .run t choice ∧ st.threads t = i :: rest ∧
      exec t choice st.shared i = some (st'.shared, new) ∧
      st'.threads = Function.update st.threads t (new ++ rest)) := by
  cases l with
  | start t call =>
      left
      cases hidle : st.threads t with
      | cons i rest => simp [step, hidle] at h
      | nil =>
          simp only [step, hidle, Option.map_eq_some_iff] at h
          obtain ⟨r, hr, rfl⟩ := h
          exact ⟨t, call, r.2, rfl, hidle, hr, by simp⟩
  | run t choice =>
      right
      cases hbusy : st.threads t with
      | nil => simp [step, hbusy] at h
      | cons i rest =>
          simp only [step, hbusy, Option.map_eq_some_iff] at h
          obtain ⟨r, hr, rfl⟩ := h
          exact ⟨t, choice, i, rest, r.2, rfl, hbusy, hr, rfl⟩

end Steps

section Members

variable {ι α : Type*} [DecidableEq ι] {threads : ι → List α} {t : ι}
  {old new rest : List α}

theorem mem_update (hold : threads t = old ++ rest) {u : ι} {j : α}
    (hj : j ∈ Function.update threads t (new ++ rest) u) :
    (u = t ∧ j ∈ new) ∨ j ∈ threads u := by
  obtain rfl | hu := eq_or_ne u t
  · rw [Function.update_self, List.mem_append] at hj
    obtain hj | hj := hj
    · exact .inl ⟨rfl, hj⟩
    · exact .inr (by rw [hold]; exact List.mem_append_right _ hj)
  · rw [Function.update_of_ne hu] at hj
    exact .inr hj

theorem forall_update {Q : α → Prop} (hold : threads t = old ++ rest)
    (hnew : ∀ j ∈ new, Q j) (h : ∀ u, ∀ j ∈ threads u, Q j) :
    ∀ u, ∀ j ∈ Function.update threads t (new ++ rest) u, Q j := by
  intro u j hj
  obtain ⟨-, hj⟩ | hj := mem_update hold hj
  · exact hnew j hj
  · exact h u j hj

theorem forall_tail_update {Q : α → Prop} (hnew : ∀ j ∈ new.tail, Q j)
    (hrest : ∀ j ∈ rest, Q j) (h : ∀ u, ∀ j ∈ (threads u).tail, Q j) :
    ∀ u, ∀ j ∈ (Function.update threads t (new ++ rest) u).tail, Q j := by
  intro u j hj
  obtain rfl | hu := eq_or_ne u t
  · rw [Function.update_self] at hj
    cases new with
    | nil => exact hrest j (List.mem_of_mem_tail hj)
    | cons i new =>
        obtain hj | hj := List.mem_append.mp hj
        · exact hnew j hj
        · exact hrest j hj
  · rw [Function.update_of_ne hu] at hj
    exact h u j hj

theorem forall_update_split {Q : α → Prop} (hnew : ∀ j ∈ new, Q j)
    (hrest : ∀ j ∈ rest, Q j) (h : ∀ u, t ≠ u → ∀ j ∈ threads u, Q j) :
    ∀ u, ∀ j ∈ Function.update threads t (new ++ rest) u, Q j := by
  intro u j hj
  obtain rfl | hu := eq_or_ne t u
  · rw [Function.update_self] at hj
    obtain hj | hj := List.mem_append.mp hj
    · exact hnew j hj
    · exact hrest j hj
  · rw [Function.update_of_ne hu.symm] at hj
    exact h u hu j hj

end Members

section Weights

variable {ι α : Type*} [Fintype ι]

/-- What a list of steps weighs. -/
def weight (w : α → Nat) (steps : List α) : Nat := (steps.map w).sum

/-- The weight of all steps of all threads. -/
def total (w : α → Nat) (threads : ι → List α) : Nat := ∑ t, weight w (threads t)

@[simp] theorem weight_nil (w : α → Nat) : weight w [] = 0 := rfl

@[simp] theorem weight_cons (w : α → Nat) (i : α) (steps : List α) :
    weight w (i :: steps) = w i + weight w steps := by
  simp [weight]

@[simp] theorem weight_append (w : α → Nat) (steps more : List α) :
    weight w (steps ++ more) = weight w steps + weight w more := by
  simp [weight]

theorem weight_le_of_mem (w : α → Nat) {i : α} {steps : List α} (h : i ∈ steps) :
    w i ≤ weight w steps :=
  List.le_sum_of_mem (List.mem_map_of_mem h)

theorem thread_le_total (w : α → Nat) (threads : ι → List α) (t : ι) :
    weight w (threads t) ≤ total w threads :=
  Finset.single_le_sum (f := fun u => weight w (threads u)) (fun _ _ => Nat.zero_le _)
    (Finset.mem_univ t)

theorem le_total (w : α → Nat) {threads : ι → List α} {t : ι} {i : α}
    (h : i ∈ threads t) : w i ≤ total w threads :=
  (weight_le_of_mem w h).trans (thread_le_total w threads t)

theorem add_le_total [DecidableEq ι] (w : α → Nat) {threads : ι → List α} {t u : ι}
    (htu : t ≠ u) {i j : α} (hi : i ∈ threads t) (hj : j ∈ threads u) :
    w i + w j ≤ total w threads := by
  have hpair : ∑ v ∈ {t, u}, weight w (threads v) ≤ total w threads :=
    Finset.sum_le_sum_of_subset (Finset.subset_univ _)
  rw [Finset.sum_pair htu] at hpair
  have hwi := weight_le_of_mem w hi
  have hwj := weight_le_of_mem w hj
  omega

theorem total_eq_zero {w : α → Nat} {threads : ι → List α}
    (h : ∀ t, ∀ i ∈ threads t, w i = 0) : total w threads = 0 := by
  apply Finset.sum_eq_zero
  intro t _
  apply List.sum_eq_zero
  intro k hk
  obtain ⟨i, hi, rfl⟩ := List.mem_map.mp hk
  exact h t i hi

theorem total_mono {w v : α → Nat} (h : ∀ i, w i ≤ v i) (threads : ι → List α) :
    total w threads ≤ total v threads := by
  apply Finset.sum_le_sum
  intro t _
  exact List.sum_le_sum fun i _ => h i

theorem total_add (w v : α → Nat) (threads : ι → List α) :
    total (fun i => w i + v i) threads = total w threads + total v threads := by
  simp only [total, weight, List.sum_map_add]
  exact Finset.sum_add_distrib

theorem total_update [DecidableEq ι] (w : α → Nat) {threads : ι → List α} {t : ι}
    {old rest : List α} (hold : threads t = old ++ rest) (new : List α) :
    total w (Function.update threads t (new ++ rest)) + weight w old =
      total w threads + weight w new := by
  have htrade := sum_update_trade Finset.univ (weight w) threads (Finset.mem_univ t)
    (new ++ rest)
  simp only [hold, weight_append] at htrade
  simp only [total]
  omega

theorem total_single [DecidableEq ι] (w : α → Nat) (t : ι) (steps : List α) :
    total w (Function.update (fun _ => []) t steps) = weight w steps := by
  have htotal := @total_update ι α _ _ w (fun _ => []) t [] [] rfl steps
  have hzero : total w (fun _ => [] : ι → List α) = 0 := total_eq_zero (by simp)
  simpa [hzero] using htotal

end Weights

section Progress

variable {ι Instr Shared Call : Type*} [DecidableEq ι]
  {begins : Shared → Call → Option (Shared × List Instr)}
  {exec : ι → Bool → Shared → Instr → Option (Shared × List Instr)}
  {st st' : State ι Instr Shared} {w : Instr → Nat} {bound : Nat}

/-- The threads go on with what they have begun. -/
def GoesOn (ls : List (Label ι Call)) : Prop := ∀ l, l ∈ ls → ∃ t choice, l = .run t choice

theorem weight_le_of_step
    (hbegins : ∀ sh call sh' new, begins sh call = some (sh', new) → weight w new ≤ bound)
    (hless : ∀ t choice sh i sh' new, exec t choice sh i = some (sh', new) → weight w new < w i)
    (h : ∀ t, weight w (st.threads t) ≤ bound) {l : Label ι Call}
    (hstep : step begins exec st l = some st') (t : ι) : weight w (st'.threads t) ≤ bound := by
  obtain ⟨u, call, new, -, -, hnew, hthreads⟩ |
    ⟨u, choice, i, rest, new, -, hold, hnew, hthreads⟩ := step_cases hstep
  · rw [hthreads]
    obtain rfl | hne := eq_or_ne t u
    · rw [Function.update_self, List.append_nil]
      exact hbegins _ _ _ _ hnew
    · rw [Function.update_of_ne hne]
      exact h t
  · rw [hthreads]
    obtain rfl | hne := eq_or_ne t u
    · have hlighter := hless _ _ _ _ _ _ hnew
      have hbefore := h t
      rw [hold, weight_cons] at hbefore
      rw [Function.update_self, weight_append]
      omega
    · rw [Function.update_of_ne hne]
      exact h t

/-- The label is a step of `t` within a call. -/
def Label.isStepOf (t : ι) : Label ι Call → Bool
  | .start _ _ => false
  | .run u _ => u = t

/-- The steps that one thread makes. -/
def stepsOf (t : ι) (ls : List (Label ι Call)) : Nat := ls.countP (Label.isStepOf t)

/-- Where every step weighs more than what it puts in its place, a thread that begins nothing
new makes no more steps than its weight, whatever the others do. -/
theorem stepsOf_add_weight_le
    (hless : ∀ t choice sh i sh' new, exec t choice sh i = some (sh', new) → weight w new < w i)
    {ls : List (Label ι Call)} (hrun : run (step begins exec) st ls = some st')
    (hgoes : GoesOn ls) (t : ι) :
    stepsOf t ls + weight w (st'.threads t) ≤ weight w (st.threads t) := by
  induction ls generalizing st with
  | nil =>
      obtain rfl : st = st' := by simpa using hrun
      simp [stepsOf]
  | cons l ls ih =>
      simp only [run] at hrun
      cases hstep : step begins exec st l with
      | none => simp [hstep] at hrun
      | some next =>
          simp only [hstep] at hrun
          have hrest := ih hrun fun l' hl' => hgoes l' (List.mem_cons_of_mem _ hl')
          obtain ⟨u, choice, rfl⟩ := hgoes l List.mem_cons_self
          obtain ⟨_, call, new, hl, -⟩ | ⟨_, _, i, rest, new, hl, hold, hnew, hthreads⟩ :=
            step_cases hstep
          · cases hl
          · cases hl
            simp only [stepsOf] at hrest ⊢
            rw [List.countP_cons]
            rw [hthreads] at hrest
            by_cases htu : t = u
            · subst htu
              have hlighter := hless _ _ _ _ _ _ hnew
              rw [Function.update_self, weight_append] at hrest
              rw [hold, weight_cons]
              simp only [Label.isStepOf, decide_true, if_true]
              omega
            · rw [Function.update_of_ne htu] at hrest
              simp only [Label.isStepOf, decide_eq_true_eq, if_neg (Ne.symm htu)]
              exact hrest

end Progress

end IocpChat.ThreadPool
