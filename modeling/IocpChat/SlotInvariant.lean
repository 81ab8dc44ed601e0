import Mathlib.Data.List.Count
import IocpChat.LanServer

/-!
The lifecycle of a session slot.  Each slot is seen through its session, the
number of times its index lies in the pool, and the calls made about it; while
a handler runs it may hold references of its own on the slot it works on.
-/

namespace IocpChat.SlotInvariant

open IocpChat.Protocol
open IocpChat.PacketBuffer
open IocpChat.LanServer

/-- A call as one slot sees it. -/
inductive SlotCall where
  | init (sid : SessionID)
  | leave (sid : SessionID)
  | release
  deriving DecidableEq, Repr

/-- The part of a call that is about slot `idx`. -/
def slotCall (idx : Nat) : Call → Option SlotCall
  | .initSession i sid => if i = idx then some (.init sid) else none
  | .onClientLeave i sid => if i = idx then some (.leave sid) else none
  | .releaseSession i => if i = idx then some .release else none
  | .onClientJoin _ _ => none

/-- What the server knows about one slot. -/
structure SlotView where
  session : Session
  inPool : Nat
  calls : List SlotCall

/-- All that the invariant of a slot speaks of. -/
def view (sv : Server) (idx : Nat) : SlotView where
  session := sv.sessions idx
  inPool := sv.indexPool.count idx
  calls := sv.calls.filterMap (slotCall idx)

/-- The call of the server that a call of a slot stands for. -/
def SlotCall.call (idx : Nat) : SlotCall → Call
  | .init sid => .initSession idx sid
  | .leave sid => .onClientLeave idx sid
  | .release => .releaseSession idx

theorem slotCall_eq_some_iff (idx : Nat) (c : Call) (x : SlotCall) :
    slotCall idx c = some x ↔ c = x.call idx := by
  cases c <;> cases x <;> simp [slotCall, SlotCall.call]

theorem mem_view_calls (sv : Server) (idx : Nat) (x : SlotCall) :
    x ∈ (view sv idx).calls ↔ x.call idx ∈ sv.calls := by
  simp [view, slotCall_eq_some_iff]

/-- The identifier of the `k`-th session in a slot. -/
def sidOf (idx k : Nat) : SessionID := sessionId idx (BitVec.ofNat 32 k)

theorem sidIndex_sidOf {idx k : Nat} (hidx : idx < 65536) (hk : k < 2 ^ 31) :
    sidIndex (sidOf idx k) = idx := by
  refine sidIndex_sessionId hidx ?_
  rw [BitVec.toNat_ofNat, Nat.mod_eq_of_lt (by omega)]
  exact hk

theorem sidOf_inj {i j k l : Nat} (hi : i < 65536) (hj : j < 65536) (hk : k < 2 ^ 31)
    (hl : l < 2 ^ 31) (h : sidOf i k = sidOf j l) : i = j ∧ k = l := by
  refine ⟨?_, ?_⟩
  · rw [← sidIndex_sidOf hi hk, h, sidIndex_sidOf hj hl]
  · have hgen := congrArg (fun sid => (sidGeneration sid).toNat) h
    simp only [sidOf, sidGeneration_sessionId, BitVec.toNat_ofNat] at hgen
    omega

/-- The calls of the first `n` lifetimes of a slot: each is opened once, left
once and then returned to the pool. -/
def completed (idx n : Nat) : List SlotCall :=
  (List.range n).flatMap fun k =>
    [.init (sidOf idx (k + 1)), .leave (sidOf idx (k + 1)), .release]

/-- The calls of a lifetime that has not ended. -/
def ongoing (sid : SessionID) (closed : Bool) : List SlotCall :=
  if closed then [.init sid, .leave sid] else [.init sid]

/-- The reference of an open session on itself. -/
def base (s : Session) : Int := if s.closeFlag then 0 else 1

/-- A slot between two steps of a handler that holds `busy` references on it. -/
inductive SlotOk (idx : Nat) (v : SlotView) (busy : Nat) : Prop where
  | free (n : Nat) (hcalls : v.calls = completed idx n) (hpool : v.inPool = 1)
      (hgen : v.session.generation = BitVec.ofNat 32 n)
      (hclosed : v.session.closeFlag = true ∨ n = 0)
      (href : v.session.ioRefCount = 0) (hrecv : v.session.recvsOut = 0)
      (hsend : v.session.sendsOut = 0) (hbusy : busy = 0)
  | used (n : Nat)
      (hcalls : v.calls = completed idx n ++
        ongoing (sidOf idx (n + 1)) v.session.closeFlag)
      (hpool : v.inPool = 0)
      (hgen : v.session.generation = BitVec.ofNat 32 (n + 1))
      (hsid : v.session.sID = sidOf idx (n + 1))
      (href : v.session.ioRefCount = base v.session + v.session.recvsOut +
        v.session.sendsOut + busy)
      (hpos : 0 < v.session.ioRefCount) (hrecv : v.session.recvsOut ≤ 1)
      (hsend : v.session.sendsOut ≤ 1)
      (hpending : v.session.sendsOut = 1 → v.session.sendPending = true)

theorem completed_succ (idx n : Nat) :
    completed idx (n + 1) = completed idx n ++
      [.init (sidOf idx (n + 1)), .leave (sidOf idx (n + 1)), .release] := by
  simp [completed, List.range_succ]

namespace SlotOk

variable {idx busy : Nat} {v : SlotView}

theorem pos_of_busy (h : SlotOk idx v (busy + 1)) : 0 < v.session.ioRefCount := by
  cases h with
  | free _ _ _ _ _ _ _ _ hbusy => omega
  | used _ _ _ _ _ _ hpos => exact hpos

theorem addRef (h : SlotOk idx v busy) (hlive : 0 < v.session.ioRefCount) :
    SlotOk idx
      { v with session := { v.session with ioRefCount := v.session.ioRefCount + 1 } }
      (busy + 1) := by
  cases h with
  | free n _ _ _ _ href => omega
  | used n hcalls hpool hgen hsid href hpos hrecv hsend hpending =>
      refine .used n hcalls hpool hgen hsid ?_ ?_ hrecv hsend hpending
      · dsimp only [base] at href ⊢
        omega
      · dsimp only
        omega

theorem dropRef (h : SlotOk idx v (busy + 1)) (hne : v.session.ioRefCount - 1 ≠ 0) :
    SlotOk idx
      { v with session := { v.session with ioRefCount := v.session.ioRefCount - 1 } }
      busy := by
  cases h with
  | free n _ _ _ _ _ _ _ hbusy => omega
  | used n hcalls hpool hgen hsid href hpos hrecv hsend hpending =>
      refine .used n hcalls hpool hgen hsid ?_ ?_ hrecv hsend hpending
      · dsimp only [base] at href ⊢
        omega
      · dsimp only
        omega

theorem dropLastRef (h : SlotOk idx v (busy + 1)) (hzero : v.session.ioRefCount - 1 = 0) :
    SlotOk idx
      { session := { v.session with ioRefCount := v.session.ioRefCount - 1 }
        inPool := v.inPool + 1
        calls := v.calls ++ [.release] } busy := by
  cases h with
  | free n _ _ _ _ _ _ _ hbusy => omega
  | used n hcalls hpool hgen hsid href hpos hrecv hsend hpending =>
      have hclosed : v.session.closeFlag = true := by
        by_contra hopen
        simp only [base, hopen, if_false] at href
        omega
      simp only [base, hclosed, if_true] at href
      refine .free (n + 1) ?_ ?_ hgen (Or.inl hclosed) hzero ?_ ?_ ?_
      · rw [hcalls, completed_succ]
        simp [ongoing, hclosed]
      · simp [hpool]
      · dsimp only
        omega
      · dsimp only
        omega
      · omega

theorem close (h : SlotOk idx v busy) (hopen : v.session.closeFlag = false)
    (hlive : 0 < v.session.ioRefCount) (head count : Nat) :
    SlotOk idx
      { v with
        session :=
          { v.session with
            closeFlag := true, sock := none, sqHead := head, sqCount := count }
        calls := v.calls ++ [.leave v.session.sID] } (busy + 1) := by
  cases h with
  | free n _ _ _ _ href => omega
  | used n hcalls hpool hgen hsid href hpos hrecv hsend hpending =>
      refine .used n ?_ hpool hgen hsid ?_ hpos hrecv hsend hpending
      · rw [hcalls, hsid]
        simp [ongoing, hopen]
      · simp only [base, hopen] at href ⊢
        simp only [Bool.false_eq_true, if_false, if_true] at href ⊢
        omega

theorem congr_session (h : SlotOk idx v busy) {s : Session}
    (hsid : s.sID = v.session.sID) (hgen : s.generation = v.session.generation)
    (hclose : s.closeFlag = v.session.closeFlag)
    (href : s.ioRefCount = v.session.ioRefCount)
    (hrecv : s.recvsOut = v.session.recvsOut) (hsend : s.sendsOut = v.session.sendsOut)
    (hpending : s.sendsOut = 1 → s.sendPending = true) :
    SlotOk idx { v with session := s } busy := by
  cases h with
  | free n hcalls hpool hgen' hclosed href' hrecv' hsend' hbusy =>
      exact .free n hcalls hpool (hgen.trans hgen') (hclose ▸ hclosed) (href.trans href')
        (hrecv.trans hrecv') (hsend.trans hsend') hbusy
  | used n hcalls hpool hgen' hsid' href' hpos hrecv' hsend' =>
      refine .used n (hclose ▸ hcalls) hpool (hgen.trans hgen') (hsid.trans hsid') ?_
        (href ▸ hpos) (hrecv ▸ hrecv') (hsend ▸ hsend') hpending
      simp only [base] at href' ⊢
      rw [href, hclose, hrecv, hsend]
      exact href'

theorem pending_of_sent (h : SlotOk idx v busy) (hsend : v.session.sendsOut = 1) :
    v.session.sendPending = true := by
  cases h with
  | free _ _ _ _ _ _ _ hsend' => omega
  | used _ _ _ _ _ _ _ _ _ hpending => exact hpending hsend

theorem recvsOut_le (h : SlotOk idx v busy) : v.session.recvsOut ≤ 1 := by
  cases h with
  | free _ _ _ _ _ _ hrecv => omega
  | used _ _ _ _ _ _ _ hrecv => exact hrecv

theorem sendsOut_le (h : SlotOk idx v busy) : v.session.sendsOut ≤ 1 := by
  cases h with
  | free _ _ _ _ _ _ _ hsend => omega
  | used _ _ _ _ _ _ _ _ hsend => exact hsend

theorem recvPosted (h : SlotOk idx v (busy + 1)) (hnone : v.session.recvsOut = 0) :
    SlotOk idx { v with session := { v.session with recvsOut := v.session.recvsOut + 1 } }
      busy := by
  cases h with
  | free n _ _ _ _ _ _ _ hbusy => omega
  | used n hcalls hpool hgen hsid href hpos hrecv hsend hpending =>
      refine .used n hcalls hpool hgen hsid ?_ hpos ?_ hsend hpending
      · dsimp only [base] at href ⊢
        omega
      · dsimp only
        omega

theorem sendPosted (h : SlotOk idx v (busy + 1)) (hnone : v.session.sendsOut = 0)
    (hgate : v.session.sendPending = true) :
    SlotOk idx { v with session := { v.session with sendsOut := v.session.sendsOut + 1 } }
      busy := by
  cases h with
  | free n _ _ _ _ _ _ _ hbusy => omega
  | used n hcalls hpool hgen hsid href hpos hrecv hsend hpending =>
      refine .used n hcalls hpool hgen hsid ?_ hpos hrecv ?_ (fun _ => hgate)
      · dsimp only [base] at href ⊢
        omega
      · dsimp only
        omega

theorem recvTaken (h : SlotOk idx v busy) (hout : 0 < v.session.recvsOut) :
    SlotOk idx { v with session := { v.session with recvsOut := v.session.recvsOut - 1 } }
      (busy + 1) := by
  cases h with
  | free n _ _ _ _ _ hrecv => omega
  | used n hcalls hpool hgen hsid href hpos hrecv hsend hpending =>
      refine .used n hcalls hpool hgen hsid ?_ hpos ?_ hsend hpending
      · dsimp only [base] at href ⊢
        omega
      · dsimp only
        omega

theorem sendTaken (h : SlotOk idx v busy) (hout : 0 < v.session.sendsOut) :
    SlotOk idx { v with session := { v.session with sendsOut := v.session.sendsOut - 1 } }
      (busy + 1) := by
  cases h with
  | free n _ _ _ _ _ _ hsend => omega
  | used n hcalls hpool hgen hsid href hpos hrecv hsend hpending =>
      refine .used n hcalls hpool hgen hsid ?_ hpos hrecv ?_ ?_
      · dsimp only [base] at href ⊢
        omega
      · dsimp only
        omega
      · intro hone
        dsimp only at hone
        omega

theorem init (h : SlotOk idx v 0) (hpool : v.inPool = 1) (sock : Nat) :
    SlotOk idx
      { session := v.session.init idx sock
        inPool := 0
        calls := v.calls ++ [.init (v.session.init idx sock).sID] } 0 := by
  cases h with
  | free n hcalls _ hgen hclosed href hrecv hsend _ =>
      have hgen' : v.session.generation + 1 = BitVec.ofNat 32 (n + 1) := by
        rw [hgen, BitVec.ofNat_add]
        rfl
      have hsid : (v.session.init idx sock).sID = sidOf idx (n + 1) := by
        simp only [Session.init, sidOf, hgen']
      refine .used n ?_ rfl hgen' hsid ?_ ?_ ?_ ?_ ?_
      · rw [hcalls, hsid]
        rfl
      · simp [Session.init, base, hrecv, hsend]
      · simp [Session.init]
      · simp [Session.init, hrecv]
      · simp [Session.init, hsend]
      · intro hone
        simp [Session.init, hsend] at hone
  | used n _ hpool' => omega

end SlotOk

/-- Every slot of the table is in order, the running handler holding `busy`
references on the slot `idx`; beyond the table there is nothing. -/
structure SlotsOk (sv : Server) (max idx busy : Nat) : Prop where
  size : sv.maxSession = max
  slot : ∀ j, j < max → SlotOk j (view sv j) (if j = idx then busy else 0)
  beyond : ∀ j, max ≤ j → (view sv j).inPool = 0 ∧ (view sv j).calls = []

theorem SlotsOk.of_zero {sv : Server} {max idx : Nat} (h : SlotsOk sv max idx 0) (j : Nat) :
    SlotsOk sv max j 0 := by
  refine ⟨h.size, ?_, h.beyond⟩
  intro i hi
  simpa using h.slot i hi

theorem SlotsOk.here {sv : Server} {max idx busy : Nat} (h : SlotsOk sv max idx busy)
    (hidx : idx < max) : SlotOk idx (view sv idx) busy := by
  simpa using h.slot idx hidx

theorem SlotsOk.step {sv sv' : Server} {max idx m n : Nat} (h : SlotsOk sv max idx m)
    (hidx : idx < max) (hmax : sv'.maxSession = sv.maxSession)
    (hother : ∀ j, j ≠ idx → view sv' j = view sv j)
    (hhere : SlotOk idx (view sv' idx) n) : SlotsOk sv' max idx n := by
  refine ⟨hmax.trans h.size, ?_, ?_⟩
  · intro j hj
    rcases eq_or_ne j idx with rfl | hne
    · simpa using hhere
    · rw [hother j hne]
      simpa [hne] using h.slot j hj
  · intro j hj
    rw [hother j (by omega)]
    exact h.beyond j hj

theorem SlotsOk.congr {sv sv' : Server} {max idx busy : Nat} (h : SlotsOk sv max idx busy)
    (hmax : sv'.maxSession = sv.maxSession) (hview : ∀ j, view sv' j = view sv j) :
    SlotsOk sv' max idx busy := by
  refine ⟨hmax.trans h.size, ?_, ?_⟩
  · intro j hj
    rw [hview j]
    exact h.slot j hj
  · intro j hj
    rw [hview j]
    exact h.beyond j hj

section Views

variable (sv : Server) (idx : Nat)

theorem view_setSession_self (s : Session) :
    view (sv.setSession idx s) idx = { view sv idx with session := s } := by
  simp [view, Server.setSession]

theorem view_setSession_ne (s : Session) {j : Nat} (h : j ≠ idx) :
    view (sv.setSession idx s) j = view sv j := by
  simp [view, Server.setSession, Function.update_of_ne h]

@[simp] theorem view_setPacket (p : PacketRef) (pkt : CPacket) (j : Nat) :
    view (sv.setPacket p pkt) j = view sv j := rfl

@[simp] theorem view_alloc (j : Nat) : view sv.alloc.2 j = view sv j := by
  simp only [Server.alloc]
  split <;> rfl

@[simp] theorem view_addRef (p : PacketRef) (j : Nat) :
    view (sv.addRef p) j = view sv j := rfl

@[simp] theorem view_release (p : PacketRef) (j : Nat) :
    view (sv.release p) j = view sv j := by
  simp only [Server.release]
  split <;> rfl

@[simp] theorem view_releaseAll (ps : List PacketRef) (j : Nat) :
    view (sv.releaseAll ps) j = view sv j := by
  induction ps generalizing sv with
  | nil => rfl
  | cons p ps ih => exact (ih (sv.release p)).trans (view_release sv p j)

@[simp] theorem alloc_maxSession : sv.alloc.2.maxSession = sv.maxSession := by
  simp only [Server.alloc]
  split <;> rfl

@[simp] theorem release_maxSession (p : PacketRef) :
    (sv.release p).maxSession = sv.maxSession := by
  simp only [Server.release]
  split <;> rfl

@[simp] theorem releaseAll_maxSession (ps : List PacketRef) :
    (sv.releaseAll ps).maxSession = sv.maxSession := by
  induction ps generalizing sv with
  | nil => rfl
  | cons p ps ih => exact (ih (sv.release p)).trans (release_maxSession sv p)

theorem view_onClientLeave_self (sid : SessionID) :
    view (sv.onClientLeave idx sid) idx =
      { view sv idx with calls := (view sv idx).calls ++ [.leave sid] } := by
  simp [view, Server.onClientLeave, slotCall]

theorem view_onClientLeave_ne (sid : SessionID) {j : Nat} (h : j ≠ idx) :
    view (sv.onClientLeave idx sid) j = view sv j := by
  simp [view, Server.onClientLeave, slotCall, Ne.symm h]

@[simp] theorem view_onClientJoin (sid : SessionID) (j : Nat) :
    view (sv.onClientJoin idx sid) j = view sv j := by
  simp [view, Server.onClientJoin, slotCall]

theorem view_releaseSession_self :
    view (sv.releaseSession idx) idx =
      { view sv idx with
        inPool := (view sv idx).inPool + 1
        calls := (view sv idx).calls ++ [.release] } := by
  simp [view, Server.releaseSession, slotCall]

theorem view_releaseSession_ne {j : Nat} (h : j ≠ idx) :
    view (sv.releaseSession idx) j = view sv j := by
  simp [view, Server.releaseSession, slotCall, Ne.symm h]

end Views

section Handlers

variable {sv : Server} {max idx busy : Nat}

theorem SlotsOk.pos_of_busy (h : SlotsOk sv max idx (busy + 1)) (hidx : idx < max) :
    0 < (sv.sessions idx).ioRefCount :=
  (h.here hidx).pos_of_busy

theorem SlotsOk.setSession {n : Nat} (h : SlotsOk sv max idx busy) (hidx : idx < max)
    {s : Session} (hs : SlotOk idx { view sv idx with session := s } n) :
    SlotsOk (sv.setSession idx s) max idx n := by
  refine h.step hidx rfl ?_ ?_
  · intro j hj
    exact view_setSession_ne sv idx s hj
  · rw [view_setSession_self]
    exact hs

end Handlers

end IocpChat.SlotInvariant
