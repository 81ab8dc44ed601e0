import Mathlib.Data.BitVec
import Mathlib.Data.List.Perm.Basic
import IocpChat.LabelledRun

/-!
`CLockFreeStack`: a linked list whose top word packs a 47-bit pointer under a
17-bit stamp.  Any number of threads interleave the reads, writes and
compare-and-swaps of `Push` and `Pop` on one stack.  A node that has been deleted
may be handed out again at once, and reading one yields anything.
-/

namespace IocpChat.LockFreeStack

open IocpChat.LabelledRun

/-- The top word: a stamp above a pointer. -/
abbrev Word := BitVec 64

/-- `Node`. -/
structure Node (T : Type*) where
  data : T
  next : Word

/-- `GetPtr`. -/
def getPtr (combined : Word) : Word := combined &&& 0x00007FFFFFFFFFFF#64

/-- `GetStamp`. -/
def getStamp (combined : Word) : Word := combined >>> 47

/-- `Combine`. -/
def combine (stamp ptr : Word) : Word := (stamp <<< 47) ||| ptr

theorem getPtr_toNat (combined : Word) : (getPtr combined).toNat = combined.toNat % 2 ^ 47 := by
  have hmask : (0x00007FFFFFFFFFFF#64).toNat = 2 ^ 47 - 1 := by decide
  rw [getPtr, BitVec.toNat_and, hmask, Nat.and_two_pow_sub_one_eq_mod]

theorem getStamp_toNat (combined : Word) : (getStamp combined).toNat = combined.toNat / 2 ^ 47 := by
  rw [getStamp, BitVec.toNat_ushiftRight, Nat.shiftRight_eq_div_pow]

theorem combine_toNat (stamp : Word) {ptr : Word} (hptr : ptr.toNat < 2 ^ 47) :
    (combine stamp ptr).toNat = stamp.toNat % 2 ^ 17 * 2 ^ 47 + ptr.toNat := by
  have hshift : (stamp <<< 47).toNat = (stamp.toNat % 2 ^ 17) <<< 47 := by
    rw [BitVec.toNat_shiftLeft, Nat.shiftLeft_eq, Nat.shiftLeft_eq]
    omega
  rw [combine, BitVec.toNat_or, hshift, ← Nat.shiftLeft_add_eq_or_of_lt hptr, Nat.shiftLeft_eq]

theorem getPtr_combine (stamp : Word) {ptr : Word} (hptr : ptr.toNat < 2 ^ 47) :
    getPtr (combine stamp ptr) = ptr := by
  apply BitVec.eq_of_toNat_eq
  rw [getPtr_toNat, combine_toNat stamp hptr]
  omega

theorem getStamp_combine (stamp : Word) {ptr : Word} (hptr : ptr.toNat < 2 ^ 47) :
    (getStamp (combine stamp ptr)).toNat = stamp.toNat % 2 ^ 17 := by
  rw [getStamp_toNat, combine_toNat stamp hptr]
  omega

theorem getStamp_next {old ptr : Word} {n : Nat} (hptr : ptr.toNat < 2 ^ 47)
    (hold : (getStamp old).toNat = n % 2 ^ 17) :
    (getStamp (combine (getStamp old + 1) ptr)).toNat = (n + 1) % 2 ^ 17 := by
  have hone : (1 : Word).toNat = 1 := rfl
  rw [getStamp_combine _ hptr, BitVec.toNat_add, hold, hone]
  omega

/-- A successful compare-and-swap: the value pushed, or the value of the node
unlinked, if there was a node. -/
inductive Entry (ι T : Type*) where
  | push (t : ι) (data : T)
  | pop (t : ι) (data : Option T)

/-- Where a thread stands, with its locals.  With each value read from `m_pTop`
goes the number of successful compare-and-swaps before the read. -/
inductive ThreadAt (T : Type*) where
  | idle
  | allocating (data : T)
  | pushRead (newNode : Word) (data : T)
  | pushLink (newNode : Word) (data : T) (old : Word) (readAt : Nat)
  | pushSwap (newNode : Word) (data : T) (old : Word) (readAt : Nat)
  | popRead
  | popNext (old : Word) (readAt : Nat)
  | popSwap (old next : Word) (readAt : Nat)
  | popData (temp : Word)
  | popDelete (temp : Word) (out : T)

/-- The two functions. -/
inductive Op (T : Type*) where
  | push (data : T)
  | pop

/-- A call that is over: what `Pop` has given out, and the numbers of successful
compare-and-swaps when the call was made and when it returned. -/
structure Call (T : Type*) where
  op : Op T
  out : Option T
  calledAt : Nat
  returnedAt : Nat

/-- The stack with the threads that use it.  `heap` holds the live nodes; `history`
records the successful compare-and-swaps, `returned` the values `Pop` has returned
to each thread, `emptyReads` the reads on which `Pop` has returned false.  The last
three fields record each thread's calls: all of them, the one it is in with the
number of compare-and-swaps at its start, and those that are over. -/
structure Stack (ι T : Type*) where
  top : Word
  heap : Word → Option (Node T)
  threads : ι → ThreadAt T
  history : List (Entry ι T)
  returned : ι → List T
  emptyReads : ι → List Nat
  called : ι → List (Op T)
  underWay : ι → Option (Op T × Nat)
  finished : ι → List (Call T)

/-- An empty stack with no call under way. -/
def Stack.new (ι T : Type*) : Stack ι T where
  top := 0
  heap := fun _ => none
  threads := fun _ => .idle
  history := []
  returned := fun _ => []
  emptyReads := fun _ => []
  called := fun _ => []
  underWay := fun _ => none
  finished := fun _ => []

/-- A call, an allocation with the address and the raw memory it yields, the next
step of a thread, or the next step where it reads a deleted node. -/
inductive Label (ι T : Type*) where
  | callPush (t : ι) (data : T)
  | callPop (t : ι)
  | alloc (t : ι) (address raw : Word)
  | run (t : ι)
  | runFreed (t : ι) (next : Word) (data : T)

section Steps

variable {ι T : Type*} [DecidableEq ι]

/-- Thread `t` gets to the line `pc`. -/
def Stack.goto (st : Stack ι T) (t : ι) (pc : ThreadAt T) : Stack ι T :=
  { st with threads := Function.update st.threads t pc }

/-- `InterlockedCompareExchange64` of `Push`: on success the call is over. -/
def pushSwap (st : Stack ι T) (t : ι) (newNode : Word) (data : T) (old : Word) : Stack ι T :=
  if st.top = old then
    { st.goto t .idle with
      top := combine (getStamp old + 1) newNode
      history := st.history ++ [.push t data] }
  else st.goto t (.pushRead newNode data)

/-- The compare-and-swap of `Pop`, which fails on another top word. -/
def popSwap (st : Stack ι T) (t : ι) (old next : Word) : Stack ι T :=
  if st.top = old then
    { st.goto t (.popData (getPtr old)) with
      top := combine (getStamp old + 1) next
      history := st.history ++ [.pop t ((st.heap (getPtr old)).map Node.data)] }
  else st.goto t .popRead

/-- One step of a thread on nodes that are allocated. -/
def runThread (st : Stack ι T) (t : ι) : Option (Stack ι T) :=
  match st.threads t with
  | .idle => none
  | .allocating _ => none
  | .pushRead newNode data => some (st.goto t (.pushLink newNode data st.top st.history.length))
  | .pushLink newNode data old readAt =>
      some { st.goto t (.pushSwap newNode data old readAt) with
        heap := Function.update st.heap newNode
          ((st.heap newNode).map fun node => { node with next := getPtr old }) }
  | .pushSwap newNode data old _ => some (pushSwap st t newNode data old)
  | .popRead =>
      if getPtr st.top = 0 then
        some { st.goto t .idle with
          emptyReads := Function.update st.emptyReads t
            (st.emptyReads t ++ [st.history.length]) }
      else some (st.goto t (.popNext st.top st.history.length))
  | .popNext old readAt =>
      match st.heap (getPtr old) with
      | some node => some (st.goto t (.popSwap old node.next readAt))
      | none => none
  | .popSwap old next _ => some (popSwap st t old next)
  | .popData temp =>
      match st.heap temp with
      | some node => some (st.goto t (.popDelete temp node.data))
      | none => none
  | .popDelete temp out =>
      some { st.goto t .idle with
        heap := Function.update st.heap temp none
        returned := Function.update st.returned t (st.returned t ++ [out]) }

/-- A read of a node that has been deleted yields what the label says. -/
def runThreadFreed (st : Stack ι T) (t : ι) (next : Word) (data : T) : Option (Stack ι T) :=
  match st.threads t with
  | .popNext old readAt =>
      match st.heap (getPtr old) with
      | some _ => none
      | none => some (st.goto t (.popSwap old next readAt))
  | .popData temp =>
      match st.heap temp with
      | some _ => none
      | none => some (st.goto t (.popDelete temp data))
  | _ => none

/-- A step of the code itself, without the notes about calls. -/
def move (st : Stack ι T) : Label ι T → Option (Stack ι T)
  | .callPush t data =>
      match st.threads t with
      | .idle => some (st.goto t (.allocating data))
      | _ => none
  | .callPop t =>
      match st.threads t with
      | .idle => some (st.goto t .popRead)
      | _ => none
  | .alloc t address raw =>
      match st.threads t, st.heap address with
      | .allocating data, none =>
          if address ≠ 0 ∧ address.toNat < 2 ^ 47 then
            some { st.goto t (.pushRead address data) with
              heap := Function.update st.heap address (some ⟨data, raw⟩) }
          else none
      | _, _ => none
  | .run t => runThread st t
  | .runFreed t next data => runThreadFreed st t next data

/-- What the thread would hand out if its call ended here. -/
def ThreadAt.out : ThreadAt T → Option T
  | .popDelete _ out => some out
  | _ => none

/-- A call is noted with the number of entries before it. -/
def Stack.begin (st : Stack ι T) (t : ι) (op : Op T) : Stack ι T :=
  { st with
    called := Function.update st.called t (st.called t ++ [op])
    underWay := Function.update st.underWay t (some (op, st.history.length)) }

/-- A thread that is idle after its step has returned from its call. -/
def Stack.settle (st st' : Stack ι T) (t : ι) : Stack ι T :=
  match st'.threads t, st'.underWay t with
  | .idle, some (op, calledAt) =>
      { st' with
        underWay := Function.update st'.underWay t none
        finished := Function.update st'.finished t
          (st'.finished t ++ [⟨op, (st.threads t).out, calledAt, st'.history.length⟩]) }
  | _, _ => st'

/-- A move of the stack, with the calls and returns it makes noted down. -/
def step (st : Stack ι T) (l : Label ι T) : Option (Stack ι T) :=
  (move st l).map fun st' =>
    match l with
    | .callPush t data => st'.begin t (.push data)
    | .callPop t => st'.begin t .pop
    | .alloc t _ _ => st.settle st' t
    | .run t => st.settle st' t
    | .runFreed t _ _ => st.settle st' t

/-- At a compare-and-swap fewer than 2^17 others have succeeded since the value
it compares with was read. -/
def FewSwaps (st : Stack ι T) : Label ι T → Prop
  | .run t =>
      match st.threads t with
      | .pushSwap _ _ _ readAt => st.history.length < readAt + 2 ^ 17
      | .popSwap _ _ readAt => st.history.length < readAt + 2 ^ 17
      | _ => True
  | _ => True

end Steps

section Specification

variable {ι T : Type*}

/-- The histories of a sequential stack, with what the stack then holds. -/
inductive Lifo : List (Entry ι T) → List T → Prop
  | nil : Lifo [] []
  | push {h : List (Entry ι T)} {s : List T} (t : ι) (v : T) :
      Lifo h s → Lifo (h ++ [.push t v]) (v :: s)
  | pop {h : List (Entry ι T)} {s : List T} (t : ι) (v : T) :
      Lifo h (v :: s) → Lifo (h ++ [.pop t (some v)]) s

/-- The value that an entry puts on the stack. -/
def Entry.pushed : Entry ι T → Option T
  | .push _ data => some data
  | .pop _ _ => none

/-- The value that an entry takes off the stack. -/
def Entry.popped : Entry ι T → Option T
  | .push _ _ => none
  | .pop _ data => data

/-- The values a thread's compare-and-swaps have popped, in order. -/
def poppedBy [DecidableEq ι] (t : ι) (h : List (Entry ι T)) : List T :=
  h.filterMap fun
    | .push _ _ => none
    | .pop u data => if u = t then data else none

/-- Whose entry it is. -/
def Entry.thread : Entry ι T → ι
  | .push t _ => t
  | .pop t _ => t

/-- The compare-and-swaps of one thread, in order. -/
def entriesBy [DecidableEq ι] (t : ι) (h : List (Entry ι T)) : List (Entry ι T) :=
  h.filter fun entry => entry.thread = t

/-- What a call must have put into the history, from what came out of it. -/
def entriesOf (t : ι) : Op T → Option T → List (Entry ι T)
  | .push data, _ => [.push t data]
  | .pop, some data => [.pop t (some data)]
  | .pop, none => []

/-- A call that is over has made its entry, and no other, between its start and its
return; a `Pop` that returned false has made none, and there was a moment between
the two at which the stack was empty. -/
structure Call.TakesEffect [DecidableEq ι] (h : List (Entry ι T)) (t : ι) (c : Call T) :
    Prop where
  le : c.calledAt ≤ c.returnedAt
  bound : c.returnedAt ≤ h.length
  entries : entriesBy t ((h.take c.returnedAt).drop c.calledAt) = entriesOf t c.op c.out
  empty : c.op = .pop → c.out = none →
    ∃ n, c.calledAt ≤ n ∧ n ≤ c.returnedAt ∧ Lifo (h.take n) []

theorem Lifo.conserves {h : List (Entry ι T)} {s : List T} (hs : Lifo h s) :
    (h.filterMap Entry.pushed).Perm (h.filterMap Entry.popped ++ s) := by
  induction hs with
  | nil => exact List.Perm.refl _
  | push t v hs ih =>
      simp only [List.filterMap_append, List.filterMap_cons, List.filterMap_nil, Entry.pushed,
        Entry.popped, List.append_nil]
      exact (ih.append_right [v]).trans (by
        rw [List.append_assoc]
        exact (List.perm_append_singleton v _).append_left _)
  | pop t v hs ih =>
      simp only [List.filterMap_append, List.filterMap_cons, List.filterMap_nil, Entry.pushed,
        Entry.popped, List.append_nil, List.append_assoc, List.singleton_append]
      exact ih

/-- The nodes from a pointer on, with the values they hold. -/
def Linked (heap : Word → Option (Node T)) : Word → List (Word × T) → Prop
  | ptr, [] => ptr = 0
  | ptr, (address, data) :: chain =>
      ptr = address ∧ address ≠ 0 ∧
        ∃ next, heap address = some ⟨data, next⟩ ∧ Linked heap next chain

end Specification

section Invariant

variable {ι T : Type*}

/-- The node a thread alone may write or delete. -/
def ThreadAt.owns : ThreadAt T → Option Word
  | .idle => none
  | .allocating _ => none
  | .pushRead newNode _ => some newNode
  | .pushLink newNode _ _ _ => some newNode
  | .pushSwap newNode _ _ _ => some newNode
  | .popRead => none
  | .popNext _ _ => none
  | .popSwap _ _ _ => none
  | .popData temp => some temp
  | .popDelete temp _ => some temp

/-- What a value read from `m_pTop` still tells: its stamp is the number of swaps
at the read, and where there has been none since, it is the top word. -/
structure Seen (top : Word) (swaps : Nat) (old : Word) (readAt : Nat) : Prop where
  le : readAt ≤ swaps
  stamp : (getStamp old).toNat = readAt % 2 ^ 17
  current : readAt = swaps → old = top

/-- What each thread may rely on. -/
def Fits (top : Word) (heap : Word → Option (Node T)) (swaps : Nat) : ThreadAt T → Prop
  | .idle => True
  | .allocating _ => True
  | .pushRead newNode data => ∃ next, heap newNode = some ⟨data, next⟩
  | .pushLink newNode data old readAt =>
      (∃ next, heap newNode = some ⟨data, next⟩) ∧ Seen top swaps old readAt
  | .pushSwap newNode data old readAt =>
      heap newNode = some ⟨data, getPtr old⟩ ∧ Seen top swaps old readAt
  | .popRead => True
  | .popNext old readAt => getPtr old ≠ 0 ∧ Seen top swaps old readAt
  | .popSwap old next readAt =>
      getPtr old ≠ 0 ∧ Seen top swaps old readAt ∧
        (readAt = swaps → ∃ data, heap (getPtr old) = some ⟨data, next⟩)
  | .popData temp => ∃ node, heap temp = some node
  | .popDelete _ _ => True

/-- The value a thread has popped and not yet returned. -/
def inHand (heap : Word → Option (Node T)) : ThreadAt T → List T
  | .popData temp => ((heap temp).map Node.data).toList
  | .popDelete _ out => [out]
  | _ => []

/-- The nodes on the stack, those in the hands of a thread and the free addresses
are apart, and the history so far is that of a sequential stack. -/
structure Linear [DecidableEq ι] (st : Stack ι T) (chain : List (Word × T)) : Prop where
  lifo : Lifo st.history (chain.map Prod.snd)
  linked : Linked st.heap (getPtr st.top) chain
  stamp : (getStamp st.top).toNat = st.history.length % 2 ^ 17
  address : ∀ a node, st.heap a = some node → a ≠ 0 ∧ a.toNat < 2 ^ 47
  nodup : (chain.map Prod.fst).Nodup
  live : ∀ t a, (st.threads t).owns = some a → st.heap a ≠ none ∧ a ∉ chain.map Prod.fst
  apart : ∀ t u a, (st.threads t).owns = some a → (st.threads u).owns = some a → t = u
  fits : ∀ t, Fits st.top st.heap st.history.length (st.threads t)
  returned : ∀ t, poppedBy t st.history = st.returned t ++ inHand st.heap (st.threads t)
  empties : ∀ t, ∀ n ∈ st.emptyReads t, Lifo (st.history.take n) [] ∧ n ≤ st.history.length

theorem linked_congr {heap heap' : Word → Option (Node T)} {chain : List (Word × T)}
    (h : ∀ a ∈ chain.map Prod.fst, heap' a = heap a) {ptr : Word}
    (hlinked : Linked heap ptr chain) :
    Linked heap' ptr chain := by
  induction chain generalizing ptr with
  | nil => exact hlinked
  | cons entry chain ih =>
      obtain ⟨address, data⟩ := entry
      obtain ⟨hptr, hne, next, hnode, hrest⟩ := hlinked
      simp only [List.map_cons, List.forall_mem_cons] at h
      exact ⟨hptr, hne, next, h.1 ▸ hnode, ih h.2 hrest⟩

theorem linked_cases {heap : Word → Option (Node T)} {chain : List (Word × T)} {ptr : Word}
    (hlinked : Linked heap ptr chain) (hptr : ptr ≠ 0) :
    ∃ data next rest, chain = (ptr, data) :: rest ∧ heap ptr = some ⟨data, next⟩ ∧
      Linked heap next rest := by
  rcases chain with _ | ⟨⟨address, data⟩, rest⟩
  · exact absurd hlinked hptr
  · obtain ⟨rfl, -, next, hnode, hrest⟩ := hlinked
    exact ⟨data, next, rest, rfl, hnode, hrest⟩

theorem linked_live {heap : Word → Option (Node T)} {chain : List (Word × T)} {ptr a : Word}
    (hlinked : Linked heap ptr chain) (ha : a ∈ chain.map Prod.fst) : heap a ≠ none := by
  induction chain generalizing ptr with
  | nil => cases ha
  | cons entry chain ih =>
      obtain ⟨address, data⟩ := entry
      obtain ⟨-, -, next, hnode, hrest⟩ := hlinked
      rcases List.mem_cons.mp ha with rfl | htail
      · rw [hnode]
        simp
      · exact ih hrest htail

/-- Where fewer than 2^17 swaps lie between, an equal word means that there was
none. -/
theorem readAt_eq {top old : Word} {swaps readAt : Nat} (hseen : Seen top swaps old readAt)
    (hstamp : (getStamp top).toNat = swaps % 2 ^ 17) (hfew : swaps < readAt + 2 ^ 17)
    (hequal : top = old) : readAt = swaps := by
  have hle := hseen.le
  have hold := hseen.stamp
  rw [← hequal, hstamp] at hold
  omega

theorem Seen.later {top top' old : Word} {swaps readAt : Nat}
    (h : Seen top swaps old readAt) : Seen top' (swaps + 1) old readAt where
  le := h.le.trans (Nat.le_succ _)
  stamp := h.stamp
  current := fun heq => absurd h.le (by omega)

/-- Whatever a thread relies on survives the swap of another. -/
theorem fits_later {top top' : Word} {heap : Word → Option (Node T)} {swaps : Nat}
    {pc : ThreadAt T} (h : Fits top heap swaps pc) : Fits top' heap (swaps + 1) pc := by
  cases pc with
  | idle => trivial
  | allocating data => trivial
  | pushRead newNode data => exact h
  | pushLink newNode data old readAt => exact ⟨h.1, h.2.later⟩
  | pushSwap newNode data old readAt => exact ⟨h.1, h.2.later⟩
  | popRead => trivial
  | popNext old readAt => exact ⟨h.1, h.2.later⟩
  | popSwap old next readAt =>
      refine ⟨h.1, h.2.1.later, ?_⟩
      intro heq
      have hle := h.2.1.le
      omega
  | popData temp => exact h
  | popDelete temp out => trivial

theorem fits_write {top : Word} {heap : Word → Option (Node T)} {swaps : Nat}
    {pc : ThreadAt T} {a : Word} {cell : Option (Node T)} (h : Fits top heap swaps pc)
    (howns : pc.owns ≠ some a) (htop : getPtr top ≠ 0 → getPtr top ≠ a) :
    Fits top (Function.update heap a cell) swaps pc := by
  have hkeep : ∀ {b : Word}, pc.owns = some b → Function.update heap a cell b = heap b := by
    intro b hb
    apply Function.update_of_ne
    rintro rfl
    exact howns hb
  cases pc with
  | idle => trivial
  | allocating data => trivial
  | pushRead newNode data =>
      simp only [Fits, hkeep rfl]
      exact h
  | pushLink newNode data old readAt =>
      simp only [Fits, hkeep rfl]
      exact h
  | pushSwap newNode data old readAt =>
      simp only [Fits, hkeep rfl]
      exact h
  | popRead => trivial
  | popNext old readAt => exact h
  | popSwap old next readAt =>
      refine ⟨h.1, h.2.1, ?_⟩
      intro hcurrent
      have hold : old = top := h.2.1.current hcurrent
      have hne : getPtr old ≠ a := by
        rw [hold]
        exact htop (hold ▸ h.1)
      rw [Function.update_of_ne hne]
      exact h.2.2 hcurrent
  | popData temp =>
      simp only [Fits, hkeep rfl]
      exact h
  | popDelete temp out => trivial

theorem inHand_write {heap : Word → Option (Node T)} {pc : ThreadAt T} {a : Word}
    {cell : Option (Node T)} (howns : pc.owns ≠ some a) :
    inHand (Function.update heap a cell) pc = inHand heap pc := by
  cases pc with
  | popData temp =>
      have hne : temp ≠ a := by
        rintro rfl
        exact howns rfl
      simp [inHand, Function.update_of_ne hne]
  | _ => rfl

theorem empties_append {h more : List (Entry ι T)} {n : Nat}
    (hn : Lifo (h.take n) [] ∧ n ≤ h.length) :
    Lifo ((h ++ more).take n) [] ∧ n ≤ (h ++ more).length := by
  rw [List.take_append_of_le_length hn.2, List.length_append]
  exact ⟨hn.1, by omega⟩

variable [DecidableEq ι] {st : Stack ι T} {chain : List (Word × T)} {t : ι} {pc : ThreadAt T}

theorem Linear.top_mem (h : Linear st chain) (hptr : getPtr st.top ≠ 0) :
    getPtr st.top ∈ chain.map Prod.fst := by
  obtain ⟨data, next, rest, rfl, -, -⟩ := linked_cases h.linked hptr
  simp

theorem Linear.goto (h : Linear st chain)
    (howns : ∀ a, pc.owns = some a → (st.threads t).owns = some a)
    (hfits : Fits st.top st.heap st.history.length pc)
    (hhand : inHand st.heap pc = inHand st.heap (st.threads t)) :
    Linear (st.goto t pc) chain := by
  have hmine : ∀ u a, (Function.update st.threads t pc u).owns = some a →
      (st.threads u).owns = some a := by
    intro u a hu
    by_cases hut : u = t
    · subst hut
      rw [Function.update_self] at hu
      exact howns a hu
    · rwa [Function.update_of_ne hut] at hu
  refine ⟨h.lifo, h.linked, h.stamp, h.address, h.nodup, ?_, ?_, ?_, ?_, h.empties⟩
  · intro u a hu
    exact h.live u a (hmine u a hu)
  · intro u v a hu hv
    exact h.apart u v a (hmine u a hu) (hmine v a hv)
  · intro u
    change Fits _ _ _ (Function.update st.threads t pc u)
    by_cases hut : u = t
    · subst hut
      rw [Function.update_self]
      exact hfits
    · rw [Function.update_of_ne hut]
      exact h.fits u
  · intro u
    change poppedBy u st.history = st.returned u ++
      inHand st.heap (Function.update st.threads t pc u)
    by_cases hut : u = t
    · subst hut
      rw [Function.update_self, hhand]
      exact h.returned u
    · rw [Function.update_of_ne hut]
      exact h.returned u

theorem Linear.write (h : Linear st chain) {a : Word} {cell : Option (Node T)}
    {values : List T} (hother : ∀ u, u ≠ t → (st.threads u).owns ≠ some a)
    (hchain : a ∉ chain.map Prod.fst)
    (haddress : ∀ node, cell = some node → a ≠ 0 ∧ a.toNat < 2 ^ 47)
    (howns : ∀ b, pc.owns = some b → b = a ∧ cell ≠ none)
    (hfits : Fits st.top (Function.update st.heap a cell) st.history.length pc)
    (hvalues : values ++ inHand (Function.update st.heap a cell) pc =
      st.returned t ++ inHand st.heap (st.threads t)) :
    Linear { st.goto t pc with
      heap := Function.update st.heap a cell
      returned := Function.update st.returned t values } chain := by
  have hthreads : ∀ u, u ≠ t → Function.update st.threads t pc u = st.threads u :=
    fun u hu => Function.update_of_ne hu _ _
  refine ⟨h.lifo, ?_, h.stamp, ?_, h.nodup, ?_, ?_, ?_, ?_, h.empties⟩
  · apply linked_congr _ h.linked
    intro b hb
    apply Function.update_of_ne
    rintro rfl
    exact hchain hb
  · intro b node hnode
    by_cases hb : b = a
    · subst hb
      exact haddress node (by simpa using hnode)
    · exact h.address b node (by simpa [Function.update_of_ne hb] using hnode)
  · intro u b hu
    change (Function.update st.threads t pc u).owns = some b at hu
    change Function.update st.heap a cell b ≠ none ∧ _
    by_cases hut : u = t
    · subst hut
      rw [Function.update_self] at hu
      obtain ⟨rfl, hcell⟩ := howns b hu
      rw [Function.update_self]
      exact ⟨hcell, hchain⟩
    · rw [hthreads u hut] at hu
      have hba : b ≠ a := by
        rintro rfl
        exact hother u hut hu
      rw [Function.update_of_ne hba]
      exact h.live u b hu
  · intro u v b hu hv
    change (Function.update st.threads t pc u).owns = some b at hu
    change (Function.update st.threads t pc v).owns = some b at hv
    by_cases hut : u = t <;> by_cases hvt : v = t
    · rw [hut, hvt]
    · rw [hut, Function.update_self] at hu
      rw [hthreads v hvt] at hv
      exact absurd ((howns b hu).1 ▸ hv) (hother v hvt)
    · rw [hvt, Function.update_self] at hv
      rw [hthreads u hut] at hu
      exact absurd ((howns b hv).1 ▸ hu) (hother u hut)
    · rw [hthreads u hut] at hu
      rw [hthreads v hvt] at hv
      exact h.apart u v b hu hv
  · intro u
    change Fits _ _ _ (Function.update st.threads t pc u)
    by_cases hut : u = t
    · subst hut
      rw [Function.update_self]
      exact hfits
    · rw [hthreads u hut]
      refine fits_write (h.fits u) (hother u hut) ?_
      intro hptr heq
      exact hchain (heq ▸ h.top_mem hptr)
  · intro u
    change _ = Function.update st.returned t values u ++
      inHand _ (Function.update st.threads t pc u)
    by_cases hut : u = t
    · subst hut
      rw [Function.update_self, Function.update_self, hvalues]
      exact h.returned u
    · rw [Function.update_of_ne hut, hthreads u hut, inHand_write (hother u hut)]
      exact h.returned u

theorem Linear.store (h : Linear st chain) {a : Word} {cell : Option (Node T)}
    (hother : ∀ u, u ≠ t → (st.threads u).owns ≠ some a)
    (hchain : a ∉ chain.map Prod.fst)
    (haddress : ∀ node, cell = some node → a ≠ 0 ∧ a.toNat < 2 ^ 47)
    (howns : ∀ b, pc.owns = some b → b = a ∧ cell ≠ none)
    (hfits : Fits st.top (Function.update st.heap a cell) st.history.length pc)
    (hhand : inHand (Function.update st.heap a cell) pc = inHand st.heap (st.threads t)) :
    Linear { st.goto t pc with heap := Function.update st.heap a cell } chain := by
  have hwrite := h.write hother hchain haddress howns hfits (congrArg (st.returned t ++ ·) hhand)
  rwa [Function.update_eq_self] at hwrite

theorem Linear.noteEmpty (h : Linear st chain) (hempty : getPtr st.top = 0)
    (hat : st.threads t = .popRead) :
    Linear { st.goto t .idle with
      emptyReads := Function.update st.emptyReads t
        (st.emptyReads t ++ [st.history.length]) } chain := by
  have hchain : chain = [] := by
    have hlinked := h.linked
    rw [hempty] at hlinked
    rcases chain with _ | ⟨⟨address, data⟩, rest⟩
    · rfl
    · exact absurd hlinked.1.symm hlinked.2.1
  have hgoto : Linear (st.goto t .idle) chain := h.goto nofun trivial (by rw [hat]; rfl)
  refine ⟨hgoto.lifo, hgoto.linked, hgoto.stamp, hgoto.address, hgoto.nodup, hgoto.live,
    hgoto.apart, hgoto.fits, hgoto.returned, ?_⟩
  intro u n hn
  change n ∈ Function.update st.emptyReads t (st.emptyReads t ++ [st.history.length]) u at hn
  by_cases hut : u = t
  · subst hut
    rw [Function.update_self, List.mem_append, List.mem_singleton] at hn
    rcases hn with hold | rfl
    · exact h.empties u n hold
    · refine ⟨?_, le_refl _⟩
      change Lifo (st.history.take st.history.length) []
      rw [List.take_length]
      have hlifo := h.lifo
      rwa [hchain] at hlifo
  · rw [Function.update_of_ne hut] at hn
    exact h.empties u n hn

theorem poppedBy_append_push (t u : ι) (data : T) (h : List (Entry ι T)) :
    poppedBy u (h ++ [.push t data]) = poppedBy u h := by
  simp [poppedBy]

theorem poppedBy_append_pop (t u : ι) (data : T) (h : List (Entry ι T)) :
    poppedBy u (h ++ [.pop t (some data)]) =
      if t = u then poppedBy u h ++ [data] else poppedBy u h := by
  by_cases htu : t = u <;> simp [poppedBy, htu]

theorem Linear.pushed (h : Linear st chain) {newNode old : Word} {data : T} {readAt : Nat}
    (hat : st.threads t = .pushSwap newNode data old readAt) (hequal : st.top = old) :
    Linear { st.goto t .idle with
      top := combine (getStamp old + 1) newNode
      history := st.history ++ [.push t data] } ((newNode, data) :: chain) := by
  have hfits := h.fits t
  rw [hat] at hfits
  obtain ⟨hnode, hseen⟩ := hfits
  obtain ⟨hne, hbound⟩ := h.address newNode _ hnode
  have howner : (st.threads t).owns = some newNode := by rw [hat]; rfl
  have hthreads : ∀ u, u ≠ t → Function.update st.threads t .idle u = st.threads u :=
    fun u hu => Function.update_of_ne hu _ _
  have howns : ∀ u a, (Function.update st.threads t .idle u).owns = some a →
      u ≠ t ∧ (st.threads u).owns = some a := by
    intro u a hu
    by_cases hut : u = t
    · subst hut
      rw [Function.update_self] at hu
      cases hu
    · rw [hthreads u hut] at hu
      exact ⟨hut, hu⟩
  refine ⟨.push t data h.lifo, ?_, ?_, h.address, ?_, ?_, ?_, ?_, ?_, ?_⟩
  · refine ⟨getPtr_combine _ hbound, hne, getPtr old, hnode, ?_⟩
    rw [← hequal]
    exact h.linked
  · rw [List.length_append, List.length_singleton]
    exact getStamp_next hbound (hequal ▸ h.stamp)
  · exact List.nodup_cons.mpr ⟨(h.live t newNode howner).2, h.nodup⟩
  · intro u a hu
    obtain ⟨hut, hold⟩ := howns u a hu
    refine ⟨(h.live u a hold).1, ?_⟩
    simp only [List.map_cons, List.mem_cons, not_or]
    refine ⟨?_, (h.live u a hold).2⟩
    rintro rfl
    exact hut (h.apart u t a hold howner)
  · intro u v a hu hv
    exact h.apart u v a (howns u a hu).2 (howns v a hv).2
  · intro u
    rw [List.length_append, List.length_singleton]
    change Fits _ _ _ (Function.update st.threads t .idle u)
    by_cases hut : u = t
    · subst hut
      rw [Function.update_self]
      trivial
    · rw [hthreads u hut]
      exact fits_later (h.fits u)
  · intro u
    change poppedBy u (st.history ++ [.push t data]) = st.returned u ++
      inHand st.heap (Function.update st.threads t .idle u)
    rw [poppedBy_append_push, h.returned u]
    by_cases hut : u = t
    · subst hut
      rw [Function.update_self, hat]
      rfl
    · rw [hthreads u hut]
  · intro u n hn
    exact empties_append (h.empties u n hn)

theorem Linear.popped (h : Linear st chain) {old next : Word} {readAt : Nat}
    (hat : st.threads t = .popSwap old next readAt) (hequal : st.top = old)
    (hfew : st.history.length < readAt + 2 ^ 17) :
    ∃ rest, Linear { st.goto t (.popData (getPtr old)) with
      top := combine (getStamp old + 1) next
      history := st.history ++ [.pop t ((st.heap (getPtr old)).map Node.data)] } rest := by
  have hfits := h.fits t
  rw [hat] at hfits
  obtain ⟨hptr, hseen, hnext⟩ := hfits
  have hcurrent := readAt_eq hseen h.stamp hfew hequal
  obtain ⟨data', hnode'⟩ := hnext hcurrent
  obtain ⟨data, next', rest, rfl, hnode, hrest⟩ := linked_cases h.linked (hequal ▸ hptr)
  rw [hequal] at hnode
  obtain ⟨rfl, rfl⟩ : data = data' ∧ next' = next := by
    have hsame := Option.some.inj (hnode.symm.trans hnode')
    exact ⟨congrArg Node.data hsame, congrArg Node.next hsame⟩
  have hbound : next'.toNat < 2 ^ 47 := by
    by_cases hzero : next' = 0
    · rw [hzero]
      decide
    · obtain ⟨data'', next'', rest', -, hnode'', -⟩ := linked_cases hrest hzero
      exact (h.address next' _ hnode'').2
  obtain ⟨hfirst, hnodup⟩ := List.nodup_cons.mp h.nodup
  have hthreads : ∀ u, u ≠ t →
      Function.update st.threads t (.popData (getPtr old)) u = st.threads u :=
    fun u hu => Function.update_of_ne hu _ _
  have hfree : ∀ u, (st.threads u).owns ≠ some (getPtr st.top) := by
    intro u hu
    exact (h.live u _ hu).2 (by simp)
  refine ⟨rest, ?_, ?_, ?_, h.address, hnodup, ?_, ?_, ?_, ?_, ?_⟩
  · rw [hnode]
    exact .pop t data h.lifo
  · change Linked st.heap (getPtr (combine (getStamp old + 1) next')) rest
    rw [getPtr_combine _ hbound]
    exact hrest
  · rw [List.length_append, List.length_singleton]
    exact getStamp_next hbound (hequal ▸ h.stamp)
  · intro u a hu
    change (Function.update st.threads t (.popData (getPtr old)) u).owns = some a at hu
    by_cases hut : u = t
    · subst hut
      rw [Function.update_self] at hu
      have ha : getPtr old = a := Option.some.inj hu
      subst ha
      change st.heap (getPtr old) ≠ none ∧ _
      refine ⟨by rw [hnode]; simp, ?_⟩
      rw [← hequal]
      exact hfirst
    · rw [hthreads u hut] at hu
      obtain ⟨hlive, hout⟩ := h.live u a hu
      simp only [List.map_cons, List.mem_cons, not_or] at hout
      exact ⟨hlive, hout.2⟩
  · intro u v a hu hv
    change (Function.update st.threads t (.popData (getPtr old)) u).owns = some a at hu
    change (Function.update st.threads t (.popData (getPtr old)) v).owns = some a at hv
    by_cases hut : u = t <;> by_cases hvt : v = t
    · rw [hut, hvt]
    · rw [hut, Function.update_self] at hu
      rw [hthreads v hvt] at hv
      exact absurd (hv.trans (hu.symm.trans (by rw [hequal]; rfl))) (hfree v)
    · rw [hvt, Function.update_self] at hv
      rw [hthreads u hut] at hu
      exact absurd (hu.trans (hv.symm.trans (by rw [hequal]; rfl))) (hfree u)
    · rw [hthreads u hut] at hu
      rw [hthreads v hvt] at hv
      exact h.apart u v a hu hv
  · intro u
    rw [List.length_append, List.length_singleton]
    change Fits _ _ _ (Function.update st.threads t (.popData (getPtr old)) u)
    by_cases hut : u = t
    · subst hut
      rw [Function.update_self]
      exact ⟨_, hnode⟩
    · rw [hthreads u hut]
      exact fits_later (h.fits u)
  · intro u
    change poppedBy u (st.history ++ [.pop t ((st.heap (getPtr old)).map Node.data)]) =
      st.returned u ++ inHand st.heap (Function.update st.threads t (.popData (getPtr old)) u)
    rw [hnode, Option.map_some, poppedBy_append_pop, h.returned u]
    by_cases hut : u = t
    · subst hut
      rw [if_pos rfl, Function.update_self, hat]
      simp [inHand, hnode]
    · rw [if_neg (Ne.symm hut), hthreads u hut]
  · intro u n hn
    exact empties_append (h.empties u n hn)

theorem runThread_linear (h : Linear st chain) (hfew : FewSwaps st (.run t)) {st' : Stack ι T}
    (hstep : runThread st t = some st') : ∃ chain', Linear st' chain' := by
  have hfits := h.fits t
  simp only [FewSwaps] at hfew
  unfold runThread at hstep
  split at hstep <;> rename_i hat <;> rw [hat] at hfits <;> simp only [hat] at hfew
  · cases hstep
  · cases hstep
  · -- Push reads the top word
    cases hstep
    refine ⟨chain, h.goto ?_ ⟨hfits, le_refl _, h.stamp, fun _ => rfl⟩ (by rw [hat]; rfl)⟩
    rw [hat]
    exact fun _ => id
  · -- Push links its own node to the node it has read
    rename_i newNode data old readAt
    cases hstep
    obtain ⟨⟨next, hnode⟩, hseen⟩ := hfits
    have howner : (st.threads t).owns = some newNode := by rw [hat]; rfl
    refine ⟨chain, h.store ?_ (h.live t newNode howner).2 ?_ ?_ ⟨?_, hseen⟩ (by rw [hat]; rfl)⟩
    · intro u hut hu
      exact hut (h.apart u t newNode hu howner)
    · intro _ _
      exact h.address newNode _ hnode
    · intro b hb
      exact ⟨(Option.some.inj hb).symm, by simp [hnode]⟩
    · simp [hnode]
  · rename_i newNode data old readAt
    cases hstep
    unfold pushSwap
    split
    · rename_i hequal
      exact ⟨_, h.pushed hat hequal⟩
    · refine ⟨chain, h.goto ?_ ⟨_, hfits.1⟩ (by rw [hat]; rfl)⟩
      rw [hat]
      exact fun _ => id
  · -- Pop reads the top word
    split at hstep
    · rename_i hempty
      cases hstep
      exact ⟨chain, h.noteEmpty hempty hat⟩
    · rename_i hptr
      cases hstep
      exact ⟨chain, h.goto nofun ⟨hptr, le_refl _, h.stamp, fun _ => rfl⟩ (by rw [hat]; rfl)⟩
  · -- Pop reads the next pointer of a live node, whose node it may be by now
    rename_i old readAt
    split at hstep
    · rename_i node hnode
      cases hstep
      refine ⟨chain, h.goto nofun ⟨hfits.1, hfits.2, ?_⟩ (by rw [hat]; rfl)⟩
      intro _
      exact ⟨node.data, hnode⟩
    · cases hstep
  · rename_i old next readAt
    cases hstep
    unfold popSwap
    split
    · rename_i hequal
      exact h.popped hat hequal hfew
    · exact ⟨chain, h.goto nofun trivial (by rw [hat]; rfl)⟩
  · rename_i temp
    split at hstep
    · rename_i node hnode
      cases hstep
      refine ⟨chain, h.goto ?_ trivial (by rw [hat]; simp [inHand, hnode])⟩
      rw [hat]
      exact fun _ => id
    · cases hstep
  · -- Pop deletes the node it has taken and returns
    rename_i temp out
    cases hstep
    have howner : (st.threads t).owns = some temp := by rw [hat]; rfl
    refine ⟨chain, h.write ?_ (h.live t temp howner).2 nofun nofun trivial ?_⟩
    · intro u hut hu
      exact hut (h.apart u t temp hu howner)
    · rw [hat]
      simp [inHand]

theorem runThreadFreed_linear (h : Linear st chain) {next : Word} {data : T} {st' : Stack ι T}
    (hstep : runThreadFreed st t next data = some st') : Linear st' chain := by
  have hfits := h.fits t
  unfold runThreadFreed at hstep
  split at hstep
  · -- the node is gone, so the top word has changed since it was read
    rename_i old readAt hat
    rw [hat] at hfits
    obtain ⟨hptr, hseen⟩ := hfits
    split at hstep
    · cases hstep
    · rename_i hfreed
      cases hstep
      refine h.goto nofun ⟨hptr, hseen, ?_⟩ (by rw [hat]; rfl)
      intro hcurrent
      have hold := hseen.current hcurrent
      obtain ⟨data', next', rest, -, hnode, -⟩ := linked_cases h.linked (hold ▸ hptr)
      rw [hold, hnode] at hfreed
      cases hfreed
  · rename_i temp hat
    rw [hat] at hfits
    obtain ⟨node, hnode⟩ := hfits
    simp only [hnode] at hstep
    cases hstep
  · cases hstep

theorem move_linear (h : Linear st chain) {l : Label ι T} (hfew : FewSwaps st l)
    {st' : Stack ι T} (hstep : move st l = some st') : ∃ chain', Linear st' chain' := by
  cases l with
  | callPush t data =>
      simp only [move] at hstep
      split at hstep
      · rename_i hat
        cases hstep
        exact ⟨chain, h.goto nofun trivial (by rw [hat]; rfl)⟩
      · cases hstep
  | callPop t =>
      simp only [move] at hstep
      split at hstep
      · rename_i hat
        cases hstep
        exact ⟨chain, h.goto nofun trivial (by rw [hat]; rfl)⟩
      · cases hstep
  | alloc t address raw =>
      simp only [move] at hstep
      split at hstep
      · rename_i data hat hfree
        split at hstep
        · rename_i haddress
          cases hstep
          refine ⟨chain, h.store ?_ ?_ ?_ ?_ ⟨raw, Function.update_self _ _ _⟩ (by rw [hat]; rfl)⟩
          · intro u _ hu
            exact (h.live u address hu).1 hfree
          · intro hmem
            exact linked_live h.linked hmem hfree
          · intro _ _
            exact haddress
          · intro b hb
            exact ⟨(Option.some.inj hb).symm, by simp⟩
        · cases hstep
      · cases hstep
  | run t => exact runThread_linear h hfew hstep
  | runFreed t next data => exact ⟨chain, runThreadFreed_linear h hstep⟩

theorem linear_new : Linear (Stack.new ι T) [] where
  lifo := .nil
  linked := show getPtr 0 = 0 by decide
  stamp := show (getStamp 0).toNat = 0 % 2 ^ 17 by decide
  address := nofun
  nodup := List.nodup_nil
  live := nofun
  apart := nofun
  fits := fun _ => trivial
  returned := fun _ => rfl
  empties := nofun

end Invariant

section Calls

variable {ι T : Type*} [DecidableEq ι] {st st' : Stack ι T} {chain chain' : List (Word × T)}
  {t : ι} {more : List (Entry ι T)}

/-- The call a thread is in. -/
def ThreadAt.op : ThreadAt T → Option (Op T)
  | .idle => none
  | .allocating data => some (.push data)
  | .pushRead _ data => some (.push data)
  | .pushLink _ data _ _ => some (.push data)
  | .pushSwap _ data _ _ => some (.push data)
  | .popRead => some .pop
  | .popNext _ _ => some .pop
  | .popSwap _ _ _ => some .pop
  | .popData _ => some .pop
  | .popDelete _ _ => some .pop

/-- The entry of a `Pop` that has not returned yet. -/
def Stack.hand (st : Stack ι T) (t : ι) : List (Entry ι T) :=
  (inHand st.heap (st.threads t)).map fun data => .pop t (some data)

/-- One thread's calls against the history. -/
structure Booked (st : Stack ι T) (t : ι) : Prop where
  op : (st.underWay t).map Prod.fst = (st.threads t).op
  called : st.called t = (st.finished t).map Call.op ++ (st.threads t).op.toList
  started : ∀ op n, st.underWay t = some (op, n) →
    n ≤ st.history.length ∧ entriesBy t (st.history.drop n) = st.hand t
  entries : entriesBy t st.history =
    (st.finished t).flatMap (fun c => entriesOf t c.op c.out) ++ st.hand t
  finished : ∀ c ∈ st.finished t, c.TakesEffect st.history t
  returned : st.returned t = (st.finished t).filterMap Call.out

/-- A move of one thread touches no other thread and no record of a call. -/
structure Alone (st st' : Stack ι T) (t : ι) (more : List (Entry ι T)) : Prop where
  history : st'.history = st.history ++ more
  mine : ∀ entry ∈ more, entry.thread = t
  threads : ∀ u, u ≠ t → st'.threads u = st.threads u
  returned : ∀ u, u ≠ t → st'.returned u = st.returned u
  called : st'.called = st.called
  underWay : st'.underWay = st.underWay
  finished : st'.finished = st.finished

/-- The move leaves its thread in the call it is in. -/
structure Goes (st st' : Stack ι T) (t : ι) (more : List (Entry ι T)) : Prop where
  op : (st'.threads t).op = (st.threads t).op
  busy : (st.threads t).op ≠ none
  hand : st.hand t ++ more = st'.hand t
  returned : st'.returned t = st.returned t

/-- The move ends its thread's call. -/
structure Returns (st st' : Stack ι T) (t : ι) (op : Op T) (more : List (Entry ι T)) : Prop where
  calling : (st.threads t).op = some op
  idle : st'.threads t = .idle
  entries : st.hand t ++ more = entriesOf t op (st.threads t).out
  returned : st'.returned t = st.returned t ++ (st.threads t).out.toList
  empty : op = .pop → (st.threads t).out = none → Lifo st'.history []

theorem entriesBy_append (t : ι) (h more : List (Entry ι T)) :
    entriesBy t (h ++ more) = entriesBy t h ++ entriesBy t more := List.filter_append ..

theorem entriesBy_of_mine (hmine : ∀ entry ∈ more, entry.thread = t) : entriesBy t more = more := by
  apply List.filter_eq_self.mpr
  intro entry hentry
  simp [hmine entry hentry]

theorem entriesBy_of_other {u : ι} (hu : u ≠ t) (hmine : ∀ entry ∈ more, entry.thread = t) :
    entriesBy u more = [] := by
  apply List.filter_eq_nil_iff.mpr
  intro entry hentry
  simp [hmine entry hentry, Ne.symm hu]

theorem poppedBy_append_other {u : ι} (hu : u ≠ t) (hmine : ∀ entry ∈ more, entry.thread = t)
    (h : List (Entry ι T)) : poppedBy u (h ++ more) = poppedBy u h := by
  have hnone : poppedBy u more = [] := by
    apply List.filterMap_eq_nil_iff.mpr
    intro entry hentry
    cases entry with
    | push v data => rfl
    | pop v data =>
        have hv : v = t := hmine _ hentry
        exact if_neg (hv ▸ Ne.symm hu)
  rw [poppedBy, List.filterMap_append]
  change poppedBy u h ++ poppedBy u more = poppedBy u h
  rw [hnone, List.append_nil]

theorem Call.TakesEffect.append {h : List (Entry ι T)} {c : Call T} (hc : c.TakesEffect h t)
    (more : List (Entry ι T)) : c.TakesEffect (h ++ more) t := by
  refine ⟨hc.le, ?_, ?_, ?_⟩
  · rw [List.length_append]
    exact hc.bound.trans (Nat.le_add_right _ _)
  · rw [List.take_append_of_le_length hc.bound]
    exact hc.entries
  · intro hop hout
    obtain ⟨n, hstart, hend, hlifo⟩ := hc.empty hop hout
    refine ⟨n, hstart, hend, ?_⟩
    rwa [List.take_append_of_le_length (hend.trans hc.bound)]

theorem Booked.goes {u : ι} (h : Booked st u) (halone : Alone st st' t more)
    (hop : (st'.threads u).op = (st.threads u).op)
    (hhand : st.hand u ++ entriesBy u more = st'.hand u)
    (hreturned : st'.returned u = st.returned u) : Booked st' u := by
  refine ⟨?_, ?_, ?_, ?_, ?_, ?_⟩
  · rw [halone.underWay, hop]
    exact h.op
  · rw [halone.called, halone.finished, hop]
    exact h.called
  · intro op n hn
    rw [halone.underWay] at hn
    obtain ⟨hle, hentries⟩ := h.started op n hn
    rw [halone.history, List.length_append, List.drop_append_of_le_length hle, entriesBy_append,
      hentries, hhand]
    exact ⟨hle.trans (Nat.le_add_right _ _), rfl⟩
  · rw [halone.history, halone.finished, entriesBy_append, h.entries, List.append_assoc, hhand]
  · intro c hc
    rw [halone.finished] at hc
    rw [halone.history]
    exact (h.finished c hc).append more
  · rw [hreturned, halone.finished]
    exact h.returned

theorem Alone.hand_eq (halone : Alone st st' t more) (h : Linear st chain)
    (h' : Linear st' chain') {u : ι} (hu : u ≠ t) : st'.hand u = st.hand u := by
  have hpopped : poppedBy u st'.history = poppedBy u st.history := by
    rw [halone.history]
    exact poppedBy_append_other hu halone.mine _
  rw [h'.returned u, h.returned u, halone.returned u hu] at hpopped
  rw [Stack.hand, Stack.hand, List.append_cancel_left hpopped]

theorem Booked.other (hbooked : ∀ u, Booked st u) (halone : Alone st st' t more)
    (h : Linear st chain) (h' : Linear st' chain') {u : ι} (hu : u ≠ t) : Booked st' u := by
  refine (hbooked u).goes halone (by rw [halone.threads u hu]) ?_ (halone.returned u hu)
  rw [halone.hand_eq h h' hu, entriesBy_of_other hu halone.mine, List.append_nil]

theorem Booked.begin {op : Op T} (h : Booked st t) (hidle : st.threads t = .idle)
    {pc : ThreadAt T} (hpc : pc.op = some op) (hhand : inHand st.heap pc = []) :
    Booked ((st.goto t pc).begin t op) t := by
  have hthread : ((st.goto t pc).begin t op).threads t = pc := Function.update_self ..
  have hnothing : st.hand t = [] := by rw [Stack.hand, hidle]; rfl
  have hhand' : ((st.goto t pc).begin t op).hand t = [] := by
    rw [Stack.hand, hthread]
    change List.map _ (inHand st.heap pc) = []
    rw [hhand]
    rfl
  refine ⟨?_, ?_, ?_, ?_, h.finished, h.returned⟩
  · rw [hthread, hpc]
    change Option.map Prod.fst (Function.update st.underWay t _ t) = _
    rw [Function.update_self]
    rfl
  · rw [hthread, hpc]
    change Function.update st.called t _ t = (st.finished t).map Call.op ++ _
    have hcalled := h.called
    rw [hidle] at hcalled
    rw [Function.update_self]
    exact congrArg (· ++ [op]) (hcalled.trans (List.append_nil _))
  · intro op' n hn
    change Function.update st.underWay t _ t = _ at hn
    rw [Function.update_self] at hn
    cases hn
    rw [hhand']
    refine ⟨le_refl _, ?_⟩
    change entriesBy t (st.history.drop st.history.length) = []
    rw [List.drop_length]
    rfl
  · rw [hhand', ← hnothing]
    exact h.entries

theorem Booked.congr {u : ι} (h : Booked st u) (hhistory : st'.history = st.history)
    (hheap : st'.heap = st.heap) (hthread : st'.threads u = st.threads u)
    (hcalled : st'.called u = st.called u) (hunderWay : st'.underWay u = st.underWay u)
    (hfinished : st'.finished u = st.finished u) (hreturned : st'.returned u = st.returned u) :
    Booked st' u := by
  have hhand : st'.hand u = st.hand u := by rw [Stack.hand, Stack.hand, hheap, hthread]
  refine ⟨?_, ?_, ?_, ?_, ?_, ?_⟩
  · rw [hunderWay, hthread]
    exact h.op
  · rw [hcalled, hfinished, hthread]
    exact h.called
  · rw [hunderWay, hhistory, hhand]
    exact h.started
  · rw [hhistory, hfinished, hhand]
    exact h.entries
  · rw [hfinished, hhistory]
    exact h.finished
  · rw [hreturned, hfinished]
    exact h.returned

theorem Booked.settle {op : Op T} (h : Booked st t) (halone : Alone st st' t more)
    (hreturns : Returns st st' t op more) : Booked (st.settle st' t) t := by
  obtain ⟨calledAt, hunderWay⟩ : ∃ calledAt, st.underWay t = some (op, calledAt) := by
    have hop := h.op
    rw [hreturns.calling, Option.map_eq_some_iff] at hop
    obtain ⟨⟨_, calledAt⟩, hsome, rfl⟩ := hop
    exact ⟨calledAt, hsome⟩
  obtain ⟨hle, hstarted⟩ := h.started op calledAt hunderWay
  have hsettle : st.settle st' t =
      { st' with
        underWay := Function.update st'.underWay t none
        finished := Function.update st'.finished t
          (st'.finished t ++ [⟨op, (st.threads t).out, calledAt, st'.history.length⟩]) } := by
    simp only [Stack.settle, hreturns.idle, halone.underWay, hunderWay]
  have hhand : st'.hand t = [] := by rw [Stack.hand, hreturns.idle]; rfl
  have hlength : calledAt ≤ st'.history.length := by
    rw [halone.history, List.length_append]
    exact hle.trans (Nat.le_add_right _ _)
  have hmore : entriesBy t more = more := entriesBy_of_mine halone.mine
  rw [hsettle]
  refine ⟨?_, ?_, ?_, ?_, ?_, ?_⟩
  · change Option.map Prod.fst (Function.update st'.underWay t none t) = (st'.threads t).op
    rw [Function.update_self, hreturns.idle]
    rfl
  · change st'.called t =
      (Function.update st'.finished t _ t).map Call.op ++ (st'.threads t).op.toList
    rw [Function.update_self, hreturns.idle, halone.called, halone.finished, h.called,
      hreturns.calling, List.map_append]
    exact (List.append_nil _).symm
  · intro op' n hn
    change Function.update st'.underWay t none t = _ at hn
    rw [Function.update_self] at hn
    cases hn
  · change entriesBy t st'.history =
      (Function.update st'.finished t _ t).flatMap (fun c => entriesOf t c.op c.out) ++ st'.hand t
    rw [Function.update_self, hhand, List.append_nil, List.flatMap_append, halone.history,
      entriesBy_append, h.entries, hmore, List.append_assoc, hreturns.entries, halone.finished]
    simp
  · change ∀ c ∈ Function.update st'.finished t _ t, c.TakesEffect st'.history t
    rw [Function.update_self, halone.finished]
    intro c hc
    rcases List.mem_append.mp hc with hold | hnew
    · rw [halone.history]
      exact (h.finished c hold).append more
    · rw [List.mem_singleton] at hnew
      subst hnew
      refine ⟨hlength, le_refl _, ?_, ?_⟩
      · change entriesBy t ((st'.history.take st'.history.length).drop calledAt) = _
        rw [List.take_length, halone.history, List.drop_append_of_le_length hle, entriesBy_append,
          hstarted, hmore]
        exact hreturns.entries
      · intro hop hout
        refine ⟨st'.history.length, hlength, le_refl _, ?_⟩
        rw [List.take_length]
        exact hreturns.empty hop hout
  · change st'.returned t = (Function.update st'.finished t _ t).filterMap Call.out
    rw [Function.update_self, halone.finished, List.filterMap_append, hreturns.returned, h.returned]
    cases (st.threads t).out <;> rfl

/-- What a thread's move does: its call goes on, or it returns. -/
def Turn (st st' : Stack ι T) (t : ι) : Prop :=
  ∃ more, Alone st st' t more ∧ (Goes st st' t more ∨ ∃ op, Returns st st' t op more)

theorem alone_goto (st : Stack ι T) (t : ι) (pc : ThreadAt T) : Alone st (st.goto t pc) t [] where
  history := (List.append_nil _).symm
  mine := by simp
  threads := fun _ hu => Function.update_of_ne hu _ _
  returned := fun _ _ => rfl
  called := rfl
  underWay := rfl
  finished := rfl

omit [DecidableEq ι] in
theorem Alone.withHeap (h : Alone st st' t more) (heap : Word → Option (Node T)) :
    Alone st { st' with heap := heap } t more :=
  ⟨h.history, h.mine, h.threads, h.returned, h.called, h.underWay, h.finished⟩

theorem alone_swap (st : Stack ι T) {pc : ThreadAt T} (top : Word) {entry : Entry ι T}
    (hentry : entry.thread = t) :
    Alone st { st.goto t pc with top := top, history := st.history ++ [entry] } t [entry] where
  history := rfl
  mine := by simpa using hentry
  threads := fun _ hu => Function.update_of_ne hu _ _
  returned := fun _ _ => rfl
  called := rfl
  underWay := rfl
  finished := rfl

theorem turn_store {here pc : ThreadAt T} {heap : Word → Option (Node T)}
    (hat : st.threads t = here) (hop : pc.op = here.op) (hbusy : here.op ≠ none)
    (hhand : inHand heap pc = inHand st.heap here) :
    Turn st { st.goto t pc with heap := heap } t := by
  refine ⟨[], (alone_goto st t pc).withHeap heap, Or.inl ⟨?_, ?_, ?_, rfl⟩⟩
  · change (Function.update st.threads t pc t).op = _
    rw [Function.update_self, hop, hat]
  · rwa [hat]
  · rw [List.append_nil, Stack.hand, Stack.hand, hat]
    change _ = (inHand heap (Function.update st.threads t pc t)).map _
    rw [Function.update_self, hhand]

theorem turn_goto {here pc : ThreadAt T} (hat : st.threads t = here) (hop : pc.op = here.op)
    (hbusy : here.op ≠ none) (hhand : inHand st.heap pc = inHand st.heap here) :
    Turn st (st.goto t pc) t := turn_store hat hop hbusy hhand

theorem pushSwap_turn {newNode old : Word} {data : T} {readAt : Nat}
    (hat : st.threads t = .pushSwap newNode data old readAt) :
    Turn st (pushSwap st t newNode data old) t := by
  unfold pushSwap
  split
  · refine ⟨[.push t data], alone_swap st _ rfl, Or.inr ⟨.push data, ?_, ?_, ?_, ?_, ?_⟩⟩
    · rw [hat]
      rfl
    · exact Function.update_self ..
    · rw [Stack.hand, hat]
      rfl
    · rw [hat]
      exact (List.append_nil _).symm
    · intro hpop
      cases hpop
  · exact turn_goto hat rfl (Option.some_ne_none _) rfl

theorem popSwap_turn {old next : Word} {readAt : Nat}
    (hat : st.threads t = .popSwap old next readAt)
    (h' : Linear (popSwap st t old next) chain') : Turn st (popSwap st t old next) t := by
  unfold popSwap at h' ⊢
  split at h'
  · rename_i hequal
    rw [if_pos hequal]
    refine ⟨[.pop t ((st.heap (getPtr old)).map Node.data)], alone_swap st _ rfl,
      Or.inl ⟨?_, by simp [hat, ThreadAt.op], ?_, rfl⟩⟩
    · change (Function.update st.threads t _ t).op = _
      rw [Function.update_self, hat]
      rfl
    · obtain ⟨node, hnode⟩ : ∃ node, st.heap (getPtr old) = some node := by
        have hfits := h'.fits t
        change Fits _ _ _ (Function.update st.threads t _ t) at hfits
        rwa [Function.update_self] at hfits
      rw [Stack.hand, Stack.hand, hat]
      change _ = (inHand st.heap (Function.update st.threads t _ t)).map _
      rw [Function.update_self]
      simp [inHand, hnode]
  · rename_i hequal
    rw [if_neg hequal]
    exact turn_goto hat rfl (Option.some_ne_none _) rfl

theorem returns_false (hat : st.threads t = .popRead) (hempty : Lifo st.history []) :
    Turn st { st.goto t .idle with
      emptyReads := Function.update st.emptyReads t
        (st.emptyReads t ++ [st.history.length]) } t := by
  have halone := alone_goto st t .idle
  refine ⟨[], ⟨halone.history, halone.mine, halone.threads, halone.returned, rfl, rfl, rfl⟩,
    Or.inr ⟨.pop, ?_, ?_, ?_, ?_, ?_⟩⟩
  · rw [hat]
    rfl
  · exact Function.update_self ..
  · rw [Stack.hand, hat]
    rfl
  · rw [hat]
    exact (List.append_nil _).symm
  · intro _ _
    exact hempty

theorem returns_value {temp : Word} {out : T} (hat : st.threads t = .popDelete temp out) :
    Turn st { st.goto t .idle with
      heap := Function.update st.heap temp none
      returned := Function.update st.returned t (st.returned t ++ [out]) } t := by
  have halone := alone_goto st t .idle
  refine ⟨[], ⟨halone.history, halone.mine, halone.threads,
    fun _ hu => Function.update_of_ne hu _ _, rfl, rfl, rfl⟩, Or.inr ⟨.pop, ?_, ?_, ?_, ?_, ?_⟩⟩
  · rw [hat]
    rfl
  · exact Function.update_self ..
  · rw [Stack.hand, hat]
    rfl
  · rw [hat]
    exact Function.update_self ..
  · intro _ hout
    rw [hat] at hout
    cases hout

theorem runThread_turn (h' : Linear st' chain') (hstep : runThread st t = some st') :
    Turn st st' t := by
  unfold runThread at hstep
  split at hstep <;> rename_i hat
  · cases hstep
  · cases hstep
  · cases hstep
    exact turn_goto hat rfl (Option.some_ne_none _) rfl
  · cases hstep
    exact turn_store hat rfl (Option.some_ne_none _) rfl
  · -- the compare-and-swap of Push ends the call, or starts the loop again
    cases hstep
    exact pushSwap_turn hat
  · -- Pop returns false, or goes on with the word it has read
    split at hstep
    · cases hstep
      have hempty := (h'.empties t st.history.length (by simp)).1
      change Lifo (st.history.take st.history.length) [] at hempty
      rw [List.take_length] at hempty
      exact returns_false hat hempty
    · cases hstep
      exact turn_goto hat rfl (Option.some_ne_none _) rfl
  · split at hstep
    · cases hstep
      exact turn_goto hat rfl (Option.some_ne_none _) rfl
    · cases hstep
  · -- the compare-and-swap of Pop puts the node into the thread's hands
    cases hstep
    exact popSwap_turn hat h'
  · split at hstep
    · rename_i node hnode
      cases hstep
      exact turn_goto hat rfl (Option.some_ne_none _) (by simp [inHand, hnode])
    · cases hstep
  · -- Pop deletes its node and returns the value
    cases hstep
    exact returns_value hat

theorem runThreadFreed_turn {next : Word} {data : T} (h : Linear st chain)
    (hstep : runThreadFreed st t next data = some st') : Turn st st' t := by
  have hfits := h.fits t
  unfold runThreadFreed at hstep
  split at hstep
  · rename_i old readAt hat
    split at hstep
    · cases hstep
    · cases hstep
      exact turn_goto hat rfl (Option.some_ne_none _) rfl
  · rename_i temp hat
    rw [hat] at hfits
    obtain ⟨node, hnode⟩ := hfits
    simp only [hnode] at hstep
    cases hstep
  · cases hstep

theorem settle_other (st st' : Stack ι T) {u : ι} (hu : u ≠ t) (h : Booked st' u) :
    Booked (st.settle st' t) u := by
  unfold Stack.settle
  split
  · refine h.congr rfl rfl rfl rfl ?_ ?_ rfl
    · exact Function.update_of_ne hu _ _
    · exact Function.update_of_ne hu _ _
  · exact h

theorem booked_settle (hbooked : ∀ u, Booked st u) (h : Linear st chain)
    (h' : Linear st' chain') (hturn : Turn st st' t) (u : ι) : Booked (st.settle st' t) u := by
  obtain ⟨more, halone, hturn⟩ := hturn
  by_cases hu : u = t
  · subst hu
    rcases hturn with hgoes | ⟨op, hreturns⟩
    · have hsettle : st.settle st' u = st' := by
        unfold Stack.settle
        split
        · rename_i hidle _
          have hop := hgoes.op
          rw [hidle] at hop
          exact absurd hop.symm hgoes.busy
        · rfl
      rw [hsettle]
      refine (hbooked u).goes halone hgoes.op ?_ hgoes.returned
      rw [entriesBy_of_mine halone.mine]
      exact hgoes.hand
    · exact (hbooked u).settle halone hreturns
  · exact settle_other st st' hu (Booked.other hbooked halone h h' hu)

theorem booked_begin {pc : ThreadAt T} {op : Op T} (hbooked : ∀ u, Booked st u)
    (hidle : st.threads t = .idle) (hpc : pc.op = some op) (hhand : inHand st.heap pc = [])
    (u : ι) : Booked ((st.goto t pc).begin t op) u := by
  by_cases hu : u = t
  · subst hu
    exact (hbooked u).begin hidle hpc hhand
  · refine (hbooked u).congr rfl rfl ?_ ?_ ?_ rfl rfl
    · exact Function.update_of_ne hu _ _
    · exact Function.update_of_ne hu _ _
    · exact Function.update_of_ne hu _ _

theorem Linear.begin (h : Linear st chain) (op : Op T) : Linear (st.begin t op) chain :=
  ⟨h.lifo, h.linked, h.stamp, h.address, h.nodup, h.live, h.apart, h.fits, h.returned, h.empties⟩

theorem Linear.settle (h : Linear st' chain) : Linear (st.settle st' t) chain := by
  unfold Stack.settle
  split
  · exact ⟨h.lifo, h.linked, h.stamp, h.address, h.nodup, h.live, h.apart, h.fits, h.returned,
      h.empties⟩
  · exact h

/-- What the whole proof is an induction over. -/
def Sound (st : Stack ι T) : Prop := (∃ chain, Linear st chain) ∧ ∀ t, Booked st t

theorem step_sound (h : Sound st) {l : Label ι T} (hfew : FewSwaps st l)
    (hstep : step st l = some st') : Sound st' := by
  obtain ⟨⟨chain, hlinear⟩, hbooked⟩ := h
  obtain ⟨moved, hmove, rfl⟩ := Option.map_eq_some_iff.mp hstep
  obtain ⟨chain', hmoved⟩ := move_linear hlinear hfew hmove
  cases l with
  | callPush t data =>
      refine ⟨⟨chain', hmoved.begin _⟩, ?_⟩
      simp only [move] at hmove
      split at hmove
      · rename_i hidle
        cases hmove
        exact booked_begin hbooked hidle rfl rfl
      · cases hmove
  | callPop t =>
      refine ⟨⟨chain', hmoved.begin _⟩, ?_⟩
      simp only [move] at hmove
      split at hmove
      · rename_i hidle
        cases hmove
        exact booked_begin hbooked hidle rfl rfl
      · cases hmove
  | alloc t address raw =>
      refine ⟨⟨chain', hmoved.settle⟩, booked_settle hbooked hlinear hmoved ?_⟩
      simp only [move] at hmove
      split at hmove
      · rename_i data hat _
        split at hmove
        · cases hmove
          exact turn_store hat rfl (Option.some_ne_none _) rfl
        · cases hmove
      · cases hmove
  | run t =>
      exact ⟨⟨chain', hmoved.settle⟩, booked_settle hbooked hlinear hmoved
        (runThread_turn hmoved hmove)⟩
  | runFreed t next data =>
      exact ⟨⟨chain', hmoved.settle⟩, booked_settle hbooked hlinear hmoved
        (runThreadFreed_turn hlinear hmove)⟩

end Calls

section Linearizability

variable {ι T : Type*} [DecidableEq ι]

theorem sound_new : Sound (Stack.new ι T) := by
  refine ⟨⟨[], linear_new⟩, ?_⟩
  intro t
  refine ⟨rfl, rfl, ?_, rfl, ?_, rfl⟩
  · intro op n hn
    cases hn
  · intro c hc
    cases hc

/-- The successful compare-and-swaps are the history of a sequential stack that
holds what hangs on the top word; so every value pushed has been popped once or is
still there, each thread's calls of `Pop` have returned the values its
compare-and-swaps popped, save one still in its hands, and where `Pop` has returned
false the stack was empty at its read.  Every call made has returned or is under
way; a thread's entries in the history are those of its calls that are over, each
once and in order, and each between the call and its return. -/
theorem stack_linearizable {labels : List (Label ι T)} {st : Stack ι T}
    (hfew : Meets step FewSwaps (Stack.new ι T) labels)
    (hrun : run step (Stack.new ι T) labels = some st) :
    ∃ chain : List (Word × T),
      Lifo st.history (chain.map Prod.snd) ∧ Linked st.heap (getPtr st.top) chain ∧
      (st.history.filterMap Entry.pushed).Perm
        (st.history.filterMap Entry.popped ++ chain.map Prod.snd) ∧
      (∀ t, poppedBy t st.history = st.returned t ++ inHand st.heap (st.threads t)) ∧
      (∀ t, ∀ n ∈ st.emptyReads t, Lifo (st.history.take n) []) ∧
      (∀ t, st.called t = (st.finished t).map Call.op ++ (st.threads t).op.toList) ∧
      (∀ t, entriesBy t st.history =
        (st.finished t).flatMap (fun c => entriesOf t c.op c.out) ++ st.hand t) ∧
      (∀ t, ∀ c ∈ st.finished t, c.TakesEffect st.history t) ∧
      ∀ t, st.returned t = (st.finished t).filterMap Call.out := by
  have hsound : Sound st :=
    invariant_of_meets step (fun _ _ _ hs hguard hstep => step_sound hs hguard hstep) sound_new
      hfew hrun
  obtain ⟨⟨chain, h⟩, hbooked⟩ := hsound
  exact ⟨chain, h.lifo, h.linked, h.lifo.conserves, h.returned,
    fun t n hn => (h.empties t n hn).1, fun t => (hbooked t).called, fun t => (hbooked t).entries,
    fun t => (hbooked t).finished, fun t => (hbooked t).returned⟩

instance decidableFewSwaps (st : Stack ι T) : ∀ l, Decidable (FewSwaps st l)
  | .run t =>
      match h : st.threads t with
      | .pushSwap _ _ _ readAt =>
          decidable_of_iff (st.history.length < readAt + 2 ^ 17) (by simp [FewSwaps, h])
      | .popSwap _ _ readAt =>
          decidable_of_iff (st.history.length < readAt + 2 ^ 17) (by simp [FewSwaps, h])
      | .idle => isTrue (by simp [FewSwaps, h])
      | .allocating _ => isTrue (by simp [FewSwaps, h])
      | .pushRead _ _ => isTrue (by simp [FewSwaps, h])
      | .pushLink _ _ _ _ => isTrue (by simp [FewSwaps, h])
      | .popRead => isTrue (by simp [FewSwaps, h])
      | .popNext _ _ => isTrue (by simp [FewSwaps, h])
      | .popData _ => isTrue (by simp [FewSwaps, h])
      | .popDelete _ _ => isTrue (by simp [FewSwaps, h])
  | .callPush _ _ => isTrue trivial
  | .callPop _ => isTrue trivial
  | .alloc _ _ _ => isTrue trivial
  | .runFreed _ _ _ => isTrue trivial

/-- One thread has read the top node and its next pointer; meanwhile the other
pops both nodes and pushes a new one, for which it gets the first address again. -/
def reusedAddress : List (Label Bool Nat) :=
  [.callPush true 10, .alloc true 16 0, .run true, .run true, .run true,
    .callPush true 20, .alloc true 32 0, .run true, .run true, .run true,
    .callPop false, .run false, .run false,
    .callPop true, .run true, .run true, .run true, .run true, .run true,
    .callPop true, .run true, .run true, .run true, .run true, .run true,
    .callPush true 30, .alloc true 32 0, .run true, .run true, .run true,
    .run false, .run false, .run false, .run false, .run false, .run false,
    .callPop false, .run false]

theorem stack_linearizable_reusedAddress :
    ∃ st, run step (Stack.new Bool Nat) reusedAddress = some st ∧
      st.returned true = [20, 10] ∧ st.returned false = [30] ∧ st.emptyReads false = [6] ∧
      poppedBy false st.history = [30] ∧ Lifo (st.history.take 6) [] ∧
      entriesBy true st.history = [.push true 10, .push true 20, .pop true (some 20),
        .pop true (some 10), .push true 30] ∧
      (st.finished false).map Call.out = [some 30, none] ∧
      ∀ c ∈ st.finished false, c.TakesEffect st.history false := by
  have hfew : Meets step FewSwaps (Stack.new Bool Nat) reusedAddress := by decide +kernel
  obtain ⟨st, hrun⟩ : ∃ st, run step (Stack.new Bool Nat) reusedAddress = some st := ⟨_, rfl⟩
  obtain ⟨chain, -, -, -, hreturned, hempties, -, hentries, heffects, -⟩ :=
    stack_linearizable hfew hrun
  have hst : st.returned true = [20, 10] ∧ st.returned false = [30] ∧ st.emptyReads false = [6] ∧
      inHand st.heap (st.threads false) = [] ∧
      (st.finished false).map Call.out = [some 30, none] := by
    cases hrun
    decide +kernel
  obtain ⟨htrue, hfalse, hreads, hhand, houts⟩ := hst
  refine ⟨st, hrun, htrue, hfalse, hreads, ?_, hempties false 6 (by simp [hreads]), ?_, houts,
    heffects false⟩
  · rw [hreturned false, hfalse, hhand]
    rfl
  · rw [hentries true]
    cases hrun
    rfl

end Linearizability

end IocpChat.LockFreeStack
