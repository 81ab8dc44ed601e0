import IocpChat.SendQueue
import IocpChat.SlotInterleaving

/-!
When a slot goes back to the pool.  The reference count of a slot is what its
open session, its outstanding operations and the threads that still have to
release a reference account for; but `SendPacket` works on the slot without a
reference from its test of `closeFlag` to the `IOAddRef` of its `FlushSend`, and
`AcceptThread` from the end of `InitSession` to the `IOAddRef` of `PostRecv`.
As long as the last reference is never dropped in such a window, the slot goes
back to the pool once for every time it is taken.
-/

namespace IocpChat.SlotRelease

open IocpChat.Protocol
open IocpChat.LanServer
open IocpChat.SendQueue
open IocpChat.LabelledRun
open IocpChat.ThreadPool
open IocpChat.SlotInterleaving

variable {n : Nat}

/-- The references a thread at this step still has to release. -/
def owed : Instr → Nat
  | .decRef | .closeSocket | .drain | .wsaSend _ | .wsaRecv | .initOpen => 1
  | _ => 0

/-- 1 for the step that pushes the index. -/
def pushing : Instr → Nat
  | .pushIndex => 1
  | _ => 0

/-- `InitSession` before its store to `ioRefCount`. -/
def initing : Instr → Nat
  | .initSock _ | .initGeneration | .initSid | .initQueue | .initPending | .initRef => 1
  | _ => 0

/-- 1 for the step that clears `closeFlag` in `InitSession`. -/
def opening : Instr → Nat
  | .initOpen => 1
  | _ => 0

/-- A thread at this step goes on to use the slot without a reference. -/
def Exposed : Instr → Bool
  | .enterQueue _ _ => true
  | .exchangePending caller => caller.sid.isSome
  | .dequeue caller => caller.sid.isSome
  | .addRefSend caller => caller.sid.isSome
  | .register => true
  | .addRefRecv first => first
  | _ => false

/-- `IOAddRef` -/
def raises : Instr → Bool
  | .addRefSend _ | .addRefRecv _ => true
  | _ => false

/-- What is left to do after `FlushSend`. -/
def flushReturn : Caller → List Instr
  | .sendPacket _ => [.leaveLock]
  | .onSendComplete => [.decRef]

/-- The call of Winsock was refused. -/
def Cause.Refusal : Cause → Prop
  | .refusal _ _ => True
  | _ => False

/-- What a thread has left to do after a step. -/
def Fits (rest : List Instr) : Instr → Prop
  | .readGeneration _ _ => rest = []
  | .readCloseFlag _ _ => rest = []
  | .enterQueue _ _ => rest = []
  | .leaveLock => rest = []
  | .exchangePending caller => rest = flushReturn caller
  | .dequeue caller => rest = flushReturn caller
  | .addRefSend caller => rest = flushReturn caller
  | .readCount => rest = [.decRef]
  | .addRefRecv first => first = false → rest = [.decRef]
  | .releaseBatch => ∃ tail, rest = .clearPending :: tail
  | .clearPending => (∃ tail, rest = .readCount :: tail) ∨
      ∃ caller batch tail, rest = .exchangeClose (.refusal caller batch) :: tail
  | .exchangeClose cause => Cause.Refusal cause → ∃ tail, rest = .decRef :: tail
  | _ => True

/-- Behind every step there stands what belongs there. -/
def Shape : List Instr → Prop
  | [] => True
  | i :: rest => Fits rest i ∧ Shape rest

/-- The references of the open session and of its outstanding operations. -/
def held (s : Session) : Nat := (if s.closeFlag then 0 else 1) + s.recvsOut + s.sendsOut

/-- 1 while the count is positive. -/
def live (s : Session) : Nat := if 0 < s.ioRefCount then 1 else 0

/-- Every reference is accounted for, and the index is in one place. -/
structure Accounted (st : SlotState n) : Prop where
  shape : ∀ t, Shape (st.threads t)
  refs : st.shared.s.ioRefCount = (held st.shared.s + total owed st.threads : Nat)
  single : (if st.shared.s.closeFlag then 0 else 1) + total opening st.threads ≤ 1
  token : st.shared.inPool + total pushing st.threads + total initing st.threads +
    live st.shared.s = 1
  pushes : st.shared.pushes = st.shared.inPool
  exposed : ∀ t, ∀ i ∈ st.threads t, Exposed i = true → 0 < st.shared.s.ioRefCount

@[simp] theorem takeQueue_ioRefCount (limit : Nat) (s : Session) :
    (s.takeQueue limit).2.ioRefCount = s.ioRefCount :=
  takeQueue_frame (·.ioRefCount) (fun _ _ _ => rfl) limit s

@[simp] theorem takeQueue_closeFlag (limit : Nat) (s : Session) :
    (s.takeQueue limit).2.closeFlag = s.closeFlag :=
  takeQueue_frame (·.closeFlag) (fun _ _ _ => rfl) limit s

@[simp] theorem takeQueue_held (limit : Nat) (s : Session) :
    held (s.takeQueue limit).2 = held s :=
  takeQueue_frame held (fun _ _ _ => rfl) limit s

section Local

variable {idx : Nat} {t : Fin n} {accepted : Bool} {sh sh' : Shared n} {i : Instr}
  {new : List Instr} {task : Task}

theorem exec_shape (h : exec idx t accepted sh i = some (sh', new)) {rest : List Instr}
    (hfits : Fits rest i) (hrest : Shape rest) : Shape (new ++ rest) := by
  cases i <;>
    grind [exec, Shared.exchangeCloseFlag, Fits, Shape, flushReturn, Cause.Refusal]

theorem begins_shape (h : begins idx sh task = some (sh', new)) : Shape new := by
  cases task <;>
    grind [begins, Shared.exchangeCloseFlag, Fits, Shape, flushReturn, Cause.Refusal]

/-- Every step moves references between the count, the session with its
operations, and the thread. -/
theorem exec_refs (h : exec idx t accepted sh i = some (sh', new))
    (href : i = .initRef → sh.s.ioRefCount = 0) (hopen : i = .initOpen → sh.s.closeFlag = true) :
    sh'.s.ioRefCount + (held sh.s + owed i : Nat) =
      sh.s.ioRefCount + (held sh'.s + weight owed new : Nat) := by
  cases i <;>
    grind [exec, Shared.exchangeCloseFlag, held, owed, weight_nil, weight_cons,
      takeQueue_ioRefCount, takeQueue_held, Session.enqueue]

theorem begins_refs (h : begins idx sh task = some (sh', new)) :
    sh'.s.ioRefCount = sh.s.ioRefCount ∧ held sh.s = held sh'.s + weight owed new := by
  cases task <;>
    grind [begins, Shared.exchangeCloseFlag, held, owed, weight_nil, weight_cons]

theorem exec_single (h : exec idx t accepted sh i = some (sh', new)) (hi : i ≠ .initRef) :
    (if sh'.s.closeFlag then 0 else 1) + weight opening new ≤
      (if sh.s.closeFlag then 0 else 1) + opening i := by
  cases i <;>
    grind [exec, Shared.exchangeCloseFlag, opening, weight_nil, weight_cons,
      takeQueue_closeFlag, Session.enqueue]

theorem begins_single (h : begins idx sh task = some (sh', new)) :
    (if sh'.s.closeFlag then 0 else 1) + weight opening new ≤
      if sh.s.closeFlag then 0 else 1 := by
  cases task <;>
    grind [begins, Shared.exchangeCloseFlag, opening, weight_nil, weight_cons]

theorem exec_token (h : exec idx t accepted sh i = some (sh', new))
    (href : i = .initRef → sh.s.ioRefCount = 0)
    (hadd : raises i = true → 0 < sh.s.ioRefCount) :
    sh'.inPool + weight pushing new + weight initing new + live sh'.s =
      sh.inPool + pushing i + initing i + live sh.s := by
  cases i <;>
    grind [exec, Shared.exchangeCloseFlag, pushing, initing, raises, live, weight_nil,
      weight_cons, takeQueue_ioRefCount, Session.enqueue]

theorem begins_token (h : begins idx sh task = some (sh', new)) :
    sh'.inPool + weight pushing new + weight initing new = sh.inPool := by
  cases task <;>
    grind [begins, Shared.exchangeCloseFlag, pushing, initing, weight_nil, weight_cons]

theorem exec_pushes (h : exec idx t accepted sh i = some (sh', new))
    (hpushes : sh.pushes = sh.inPool) : sh'.pushes = sh'.inPool := by
  cases i <;> grind [exec, Shared.exchangeCloseFlag]

theorem begins_pushes (h : begins idx sh task = some (sh', new))
    (hpushes : sh.pushes = sh.inPool) (hone : sh.inPool ≤ 1) : sh'.pushes = sh'.inPool := by
  cases task <;> grind [begins, Shared.exchangeCloseFlag]

theorem exec_alive (h : exec idx t accepted sh i = some (sh', new))
    (hlive : 0 < sh.s.ioRefCount) (hkept : i = .decRef → sh.s.ioRefCount ≠ 1) :
    0 < sh'.s.ioRefCount := by
  cases i <;>
    grind [exec, Shared.exchangeCloseFlag, takeQueue_ioRefCount, Session.enqueue]

theorem exec_exposed (h : exec idx t accepted sh i = some (sh', new)) {j : Instr}
    (hj : j ∈ new) (hexposed : Exposed j = true) :
    i ≠ .decRef ∧ (Exposed i = true ∨ sh.s.closeFlag = false ∨ i = .initOpen) := by
  cases i <;> grind [exec, Shared.exchangeCloseFlag, Exposed]

theorem begins_exposed (h : begins idx sh task = some (sh', new)) {j : Instr}
    (hj : j ∈ new) : Exposed j = false := by
  cases task <;> grind [begins, Shared.exchangeCloseFlag, Exposed]

theorem exec_count (h : exec idx t accepted sh i = some (sh', new)) :
    sh'.s.ioRefCount ≤ sh.s.ioRefCount ∨ raises i = true ∨ i = .initRef := by
  cases i <;>
    grind [exec, Shared.exchangeCloseFlag, raises, takeQueue_ioRefCount, Session.enqueue]

end Local

theorem Shape.tail {i : Instr} {rest : List Instr} (h : Shape (i :: rest)) : Shape rest := h.2

section Runs

variable {idx : Nat} {st st' : SlotState n} {l : SlotLabel n}

theorem opening_le_owed (i : Instr) : opening i ≤ owed i := by
  cases i <;> simp [opening, owed]

namespace Accounted

theorem count_nonneg (h : Accounted st) : 0 ≤ st.shared.s.ioRefCount := by
  have hrefs := h.refs
  omega

theorem alive_of_owed (h : Accounted st) {t : Fin n} {i : Instr} (hi : i ∈ st.threads t)
    (howed : 0 < owed i) : 0 < st.shared.s.ioRefCount := by
  have hrefs := h.refs
  have hle := le_total owed hi
  omega

theorem alive_of_open (h : Accounted st) (hopen : st.shared.s.closeFlag = false) :
    0 < st.shared.s.ioRefCount := by
  have hrefs := h.refs
  simp only [held, hopen] at hrefs
  simp at hrefs
  omega

theorem initing_le (h : Accounted st) {t : Fin n} {i : Instr} (hi : i ∈ st.threads t)
    (hinit : initing i = 1) : st.shared.s.ioRefCount = 0 := by
  have hnonneg := h.count_nonneg
  have hle := le_total initing hi
  have htoken := h.token
  simp only [live] at htoken
  split at htoken <;> omega

theorem alive_of_raises (h : Accounted st) {t : Fin n} {i : Instr} {rest : List Instr}
    (hthread : st.threads t = i :: rest) (hraises : raises i = true) :
    0 < st.shared.s.ioRefCount := by
  have hmem : i ∈ st.threads t := by simp [hthread]
  have hshape := h.shape t
  rw [hthread] at hshape
  have hdecRef : rest = [.decRef] → 0 < st.shared.s.ioRefCount := by
    intro hrest
    exact h.alive_of_owed (t := t) (i := .decRef) (by simp [hthread, hrest]) (by decide)
  cases i with
  | addRefSend caller =>
      cases caller with
      | sendPacket sid => exact h.exposed t _ hmem rfl
      | onSendComplete => exact hdecRef hshape.1
  | addRefRecv first =>
      cases first with
      | true => exact h.exposed t _ hmem rfl
      | false => exact hdecRef (hshape.1 rfl)
  | _ => simp [raises] at hraises

theorem closed_of_opening (h : Accounted st) {t : Fin n} (hi : .initOpen ∈ st.threads t) :
    st.shared.s.closeFlag = true := by
  have hle := le_total opening hi
  have hsingle := h.single
  simp only [opening] at hle
  split at hsingle
  · assumption
  · omega

end Accounted

/-- No last reference is dropped while a thread uses the slot without one. -/
def KeepsReference (st : SlotState n) : SlotLabel n → Prop
  | .start _ _ => True
  | .run t _ => (st.threads t).head? = some .decRef → st.shared.s.ioRefCount = 1 →
      ∀ u, ∀ i ∈ st.threads u, Exposed i = false

instance (st : SlotState n) (l : SlotLabel n) : Decidable (KeepsReference st l) :=
  match l with
  | .start _ _ => isTrue trivial
  | .run t _ => inferInstanceAs (Decidable ((st.threads t).head? = some .decRef →
      st.shared.s.ioRefCount = 1 → ∀ u, ∀ i ∈ st.threads u, Exposed i = false))

theorem shape_update {threads : Fin n → List Instr} {t : Fin n} {steps : List Instr}
    (hsteps : Shape steps) (h : ∀ u, Shape (threads u)) :
    ∀ u, Shape (Function.update threads t steps u) := by
  intro u
  obtain rfl | hu := eq_or_ne u t
  · rwa [Function.update_self]
  · rw [Function.update_of_ne hu]
    exact h u

theorem start_accounted (h : Accounted st) {t : Fin n} {task : Task} {new : List Instr}
    {sh' : Shared n} (hidle : st.threads t = [])
    (hbegins : begins idx st.shared task = some (sh', new)) :
    Accounted ⟨sh', Function.update st.threads t (new ++ [])⟩ := by
  have hidle : st.threads t = [] ++ [] := hidle
  obtain ⟨hcount, hheld⟩ := begins_refs hbegins
  have hrefs := h.refs
  have hsingle := h.single
  have htoken := h.token
  have htotal := fun w => total_update w hidle new
  simp only [weight_nil, Nat.add_zero] at htotal
  have hbs := begins_single hbegins
  have hbt := begins_token hbegins
  refine ⟨?_, ?_, ?_, ?_, ?_, ?_⟩
  · exact shape_update (by simpa using begins_shape hbegins) h.shape
  · simp only [htotal]
    omega
  · simp only [htotal]
    omega
  · simp only [htotal, live, hcount] at htoken ⊢
    omega
  · exact begins_pushes hbegins h.pushes (by omega)
  · simp only [hcount]
    refine forall_update hidle ?_ h.exposed
    intro j hj hexposed
    simp [begins_exposed hbegins hj] at hexposed

theorem run_accounted (h : Accounted st) {t : Fin n} {accepted : Bool} {i : Instr}
    {rest new : List Instr} {sh' : Shared n} (hthread : st.threads t = i :: rest)
    (hexec : exec idx t accepted st.shared i = some (sh', new))
    (hguard : KeepsReference st (.run t accepted)) :
    Accounted ⟨sh', Function.update st.threads t (new ++ rest)⟩ := by
  have hmem : i ∈ st.threads t := by simp [hthread]
  have hshape := h.shape t
  rw [hthread] at hshape
  have hinit : i = .initRef → st.shared.s.ioRefCount = 0 := by
    rintro rfl
    exact h.initing_le hmem rfl
  have hopen : i = .initOpen → st.shared.s.closeFlag = true := by
    rintro rfl
    exact h.closed_of_opening hmem
  have hold : st.threads t = [i] ++ rest := hthread
  have hrefs := h.refs
  have hsingle := h.single
  have htoken := h.token
  have htotal := fun w => total_update w hold new
  simp only [weight_cons, weight_nil, Nat.add_zero] at htotal
  have hexecRefs := exec_refs hexec hinit hopen
  have hexecToken := exec_token hexec hinit (h.alive_of_raises hthread)
  refine ⟨?_, ?_, ?_, ?_, ?_, ?_⟩
  · exact shape_update (exec_shape hexec hshape.1 hshape.2) h.shape
  · have howed := htotal owed
    simp only
    omega
  · have hopening := htotal opening
    simp only
    by_cases hi : i = .initRef
    · subst hi
      have hnone := total_mono opening_le_owed st.threads
      have hzero := hinit rfl
      simp only [held] at hrefs
      simp only [exec, Option.some.injEq, Prod.mk.injEq] at hexec
      obtain ⟨rfl, rfl⟩ := hexec
      simp [opening] at hopening hsingle ⊢
      omega
    · have hexecSingle := exec_single hexec hi
      omega
  · have hpushing := htotal pushing
    have hiniting := htotal initing
    simp only
    omega
  · exact exec_pushes hexec h.pushes
  · intro u j hj hexposed
    obtain ⟨-, hj⟩ | hj := mem_update hold hj
    · obtain ⟨hnot, hcases⟩ := exec_exposed hexec hj hexposed
      refine exec_alive hexec ?_ (fun hi => absurd hi hnot)
      obtain hi | hflag | hi := hcases
      · exact h.exposed t i hmem hi
      · exact h.alive_of_open hflag
      · exact h.alive_of_owed hmem (by simp [hi, owed])
    · refine exec_alive hexec (h.exposed u j hj hexposed) ?_
      rintro rfl hlast
      have hsafe := hguard (by simp [hthread]) hlast u j hj
      simp [hexposed] at hsafe

theorem slotStep_accounted (h : Accounted st) (hguard : KeepsReference st l)
    (hstep : slotStep idx st l = some st') : Accounted st' := by
  obtain ⟨shared, threads⟩ := st'
  obtain ⟨t, task, new, rfl, hidle, hbegins, hthreads⟩ |
    ⟨t, accepted, i, rest, new, rfl, hthread, hexec, hthreads⟩ := step_cases hstep
  · subst hthreads
    exact start_accounted h hidle hbegins
  · subst hthreads
    exact run_accounted h hthread hexec hguard

theorem fresh_accounted (idx sock : Nat) {s : Session} (hrecvs : s.recvsOut = 0)
    (hsends : s.sendsOut = 0) (known : List SessionID) (t : Fin n) :
    Accounted (fresh idx sock s known t) := by
  refine ⟨?_, ?_, ?_, ?_, rfl, ?_⟩
  · exact shape_update (by simp [Shape, Fits]) fun _ => trivial
  · simp [fresh, total_single, owed, held, Session.init, hrecvs, hsends]
  · simp [fresh, total_single, opening, Session.init]
  · simp [fresh, total_single, pushing, initing, live, Session.init, pooled]
  · simp [fresh, Session.init]

/-- The index is in the pool at most once, and only while the slot serves no
session; it serves at most one, which may still be in its `InitSession`; and
since the last `InitSession` it was pushed at most once. -/
def Exclusive (st : SlotState n) : Prop :=
  st.shared.pushes ≤ 1 ∧
    st.shared.inPool + (total initing st.threads + live st.shared.s) ≤ 1

/-- The count is not raised from zero except by `InitSession`. -/
def NoRevival (idx : Nat) (st : SlotState n) (l : SlotLabel n) : Prop :=
  ∀ st', slotStep idx st l = some st' → st.shared.s.ioRefCount ≤ 0 →
    st.shared.s.ioRefCount < st'.shared.s.ioRefCount →
    ∃ t accepted rest, l = .run t accepted ∧ st.threads t = .initRef :: rest

theorem Accounted.exclusive (h : Accounted st) : Exclusive st := by
  have htoken := h.token
  have hpushes := h.pushes
  constructor <;> omega

theorem Accounted.noRevival (h : Accounted st) (l : SlotLabel n) : NoRevival idx st l := by
  intro st' hstep hzero hraised
  obtain ⟨t, task, new, rfl, hidle, hbegins, hthreads⟩ |
    ⟨t, accepted, i, rest, new, rfl, hthread, hexec, hthreads⟩ := step_cases hstep
  · have hcount := (begins_refs hbegins).1
    omega
  · obtain hle | hraises | rfl := exec_count hexec
    · omega
    · have hlive := h.alive_of_raises hthread hraises
      omega
    · exact ⟨t, accepted, rest, rfl, hthread⟩

/-- A slot goes back to the pool once in a lifetime, in every run in which the
last reference is never dropped while a thread uses the slot without one. -/
theorem slot_released_once (idx sock : Nat) (t : Fin n) {ls : List (SlotLabel n)}
    (hls : Meets (slotStep idx) KeepsReference (fresh idx sock Session.new [] t) ls) :
    Always (slotStep idx) Exclusive (fresh idx sock Session.new [] t) ls ∧
      Meets (slotStep idx) (NoRevival idx) (fresh idx sock Session.new [] t) ls := by
  have hfresh : Accounted (fresh idx sock Session.new [] t) :=
    fresh_accounted idx sock rfl rfl [] t
  have hstep : ∀ (st : SlotState n) l st', Accounted st → KeepsReference st l →
      slotStep idx st l = some st' → Accounted st' := by
    intro st l st' h hguard hstep
    exact slotStep_accounted h hguard hstep
  constructor
  · intro done hdone st hrun
    exact (always_of_meets (slotStep idx) hstep hfresh hls done hdone st hrun).exclusive
  · exact meets_of_meets (slotStep idx) hstep (fun _ l _ h _ _ => h.noRevival l) hfresh hls

end Runs

/-- `AcceptThread` joins the client and posts its first receive. -/
def joined (t : Fin n) : List (SlotLabel n) := List.replicate 3 (.run t true)

/-- The client resets the connection: a worker closes the session and drops
both of its references. -/
def reset (t : Fin n) : List (SlotLabel n) :=
  .start t .recvFailed :: List.replicate 5 (.run t true)

theorem slot_released_after_reset :
    (run (slotStep 3) (fresh 3 7 Session.new [] (0 : Fin 2)) (joined 0 ++ reset 1)).map
        (fun st => (st.shared.pushes, st.shared.inPool)) = some (1, 1) ∧
      Always (slotStep 3) Exclusive (fresh 3 7 Session.new [] (0 : Fin 2))
        (joined 0 ++ reset 1) ∧
      Meets (slotStep 3) (NoRevival 3) (fresh 3 7 Session.new [] (0 : Fin 2))
        (joined 0 ++ reset 1) :=
  ⟨by decide +kernel, slot_released_once 3 7 0 (by decide +kernel)⟩

/-- Runs with three threads call them 0, 1 and 2. -/
instance neZeroThree : NeZero 3 := ⟨by decide⟩

/-- `SendPacket` passes its tests, the slot is released, and `FlushSend` takes
a new reference and drops it again. -/
def lateSend : List (SlotLabel 3) :=
  joined 0 ++ [.start 1 (.sendPacket (sessionId 3 1) 0)] ++ List.replicate 2 (.run 1 true) ++
    reset 2 ++ List.replicate 10 (.run 1 true)

theorem slot_released_twice_after_lateSend :
    (run (slotStep 3) (fresh 3 7 Session.new [] 0) lateSend).map
        (fun st => (st.shared.pushes, st.shared.inPool)) = some (2, 2) ∧
      ¬ (Always (slotStep 3) Exclusive (fresh 3 7 Session.new [] 0) lateSend ∧
        Meets (slotStep 3) (NoRevival 3) (fresh 3 7 Session.new [] 0) lateSend) := by
  have hpushes : (run (slotStep 3) (fresh 3 7 Session.new [] 0) lateSend).map
      (fun st => (st.shared.pushes, st.shared.inPool)) = some (2, 2) := by decide +kernel
  refine ⟨hpushes, ?_⟩
  rintro ⟨halways, -⟩
  obtain ⟨st, hrun, htwice⟩ := Option.map_eq_some_iff.mp hpushes
  have hexclusive := halways lateSend List.prefix_rfl st hrun
  have hone := hexclusive.1
  have htwo : st.shared.pushes = 2 := (Prod.mk.inj htwice).1
  omega

end IocpChat.SlotRelease
