import IocpChat.LabelledRun
import IocpChat.SlotSteps

namespace IocpChat.SlotLifecycle

open IocpChat.Protocol
open IocpChat.PacketBuffer
open IocpChat.LanServer
open IocpChat.ReceivePath
open IocpChat.SlotInvariant
open IocpChat.SlotSteps
open IocpChat.LabelledRun

/-- One handler of the network layer, with the outcomes of its Windows calls. -/
inductive NetEvent where
  | accept (sock : Nat) (registered accepted : Bool)
  | recvDone (idx : Nat) (bytes : List UInt8) (accepted : Bool)
  | recvFailed (idx : Nat)
  | sendDone (idx : Nat) (accepted : Bool)
  | sendFailed (idx : Nat)
  | sendPacket (sid : SessionID) (p : PacketRef) (accepted : Bool)
  | disconnect (sid : SessionID)

/-- Completions come for operations that were accepted, a receive within the
room that was posted for it; identifiers are those that were handed out. -/
def netStep (C : Crypto) (sv : Server) : NetEvent → Option Server
  | .accept sock registered accepted => some (sv.acceptOne sock registered accepted)
  | .recvDone idx bytes accepted =>
      if idx < sv.maxSession ∧ 0 < (sv.sessions idx).recvsOut ∧ 0 < bytes.length ∧
          bytes.length ≤ (sv.sessions idx).recvBuffer.directEnqueueSize then
        some (recvDone C sv idx bytes accepted)
      else none
  | .recvFailed idx =>
      if idx < sv.maxSession ∧ 0 < (sv.sessions idx).recvsOut then
        some (recvFailed sv idx)
      else none
  | .sendDone idx accepted =>
      if idx < sv.maxSession ∧ 0 < (sv.sessions idx).sendsOut then
        some (sendDone sv idx accepted)
      else none
  | .sendFailed idx =>
      if idx < sv.maxSession ∧ 0 < (sv.sessions idx).sendsOut then
        some (sendFailed sv idx)
      else none
  | .sendPacket sid p accepted =>
      if Issued sv sid then some (sv.sendPacket sid p accepted).2 else none
  | .disconnect sid => if Issued sv sid then some (sv.disconnect sid).2 else none

/-- How often the slot has been initialised. -/
def timesUsed (sv : Server) (idx : Nat) : Nat :=
  (view sv idx).calls.countP fun c => match c with
    | .init _ => true
    | _ => false

/-- The slot is in the pool, without references or outstanding operations. -/
def Free (sv : Server) (idx : Nat) : Prop :=
  sv.indexPool.count idx = 1 ∧ (sv.sessions idx).ioRefCount = 0 ∧
    (sv.sessions idx).recvsOut = 0 ∧ (sv.sessions idx).sendsOut = 0

/-- The slot is out of the pool, and its references are those of the open
session and of its outstanding operations. -/
def InUse (sv : Server) (idx : Nat) : Prop :=
  idx ∉ sv.indexPool ∧
    (sv.sessions idx).ioRefCount = (if (sv.sessions idx).closeFlag = false then 1 else 0) +
      (sv.sessions idx).recvsOut + (sv.sessions idx).sendsOut ∧
    0 < (sv.sessions idx).ioRefCount ∧ (sv.sessions idx).recvsOut ≤ 1 ∧
    (sv.sessions idx).sendsOut ≤ 1

theorem start_slotsOk (max : Nat) : SlotsOk (Server.start max) max 0 0 := by
  refine ⟨rfl, ?_, ?_⟩
  · intro j hj
    have hcount : (view (Server.start max) j).inPool = 1 := by
      have hnodup : (List.range max).reverse.Nodup := by simp [List.nodup_range]
      exact List.count_eq_one_of_mem hnodup (by simpa [Server.start] using hj)
    simp only [ite_self]
    exact .free 0 rfl hcount rfl (Or.inr rfl) rfl rfl rfl rfl
  · intro j hj
    refine ⟨?_, rfl⟩
    exact List.count_eq_zero.mpr (by simpa [Server.start] using hj)

theorem mem_completed {idx n : Nat} {sid : SessionID} (h : .init sid ∈ completed idx n) :
    ∃ k, 0 < k ∧ k ≤ n ∧ sid = sidOf idx k := by
  simp only [completed, List.mem_flatMap, List.mem_range, List.mem_cons,
    SlotCall.init.injEq, reduceCtorEq, List.not_mem_nil, or_false] at h
  obtain ⟨k, hk, hsid⟩ := h
  exact ⟨k + 1, by omega, by omega, hsid⟩

theorem countP_completed (idx n : Nat) :
    ((completed idx n).countP fun c => match c with
      | .init _ => true
      | _ => false) = n := by
  induction n with
  | zero => rfl
  | succ n ih =>
      rw [completed_succ, List.countP_append, ih]
      rfl

theorem sidOf_of_init {sv : Server} {max idx : Nat} (h : SlotsOk sv max idx 0)
    {sid : SessionID} (hinit : .init sid ∈ (view sv idx).calls) :
    idx < max ∧ ∃ k, 0 < k ∧ k ≤ timesUsed sv idx ∧ sid = sidOf idx k := by
  have hidx : idx < max := by
    by_contra hge
    rw [(h.beyond idx (by omega)).2] at hinit
    simp at hinit
  refine ⟨hidx, ?_⟩
  cases h.here hidx with
  | free n hcalls =>
      rw [hcalls] at hinit
      rw [timesUsed, hcalls, countP_completed]
      exact mem_completed hinit
  | used n hcalls =>
      rw [hcalls, List.mem_append] at hinit
      have htimes : n + 1 ≤ timesUsed sv idx := by
        rw [timesUsed, hcalls, List.countP_append, countP_completed, ongoing]
        split <;> simp
      rcases hinit with hold | hnow
      · obtain ⟨k, hpos, hle, hsid⟩ := mem_completed hold
        exact ⟨k, hpos, by omega, hsid⟩
      · refine ⟨n + 1, by omega, htimes, ?_⟩
        rw [ongoing] at hnow
        split at hnow
        · simpa using hnow
        · simpa using hnow

theorem init_of_issued {sv : Server} {sid : SessionID} (h : Issued sv sid) :
    ∃ idx, .init sid ∈ (view sv idx).calls := by
  obtain ⟨c, hc, hsid⟩ := h
  cases c with
  | initSession idx issued =>
      have heq : issued = sid := by simpa [Call.issues] using hsid
      subst heq
      exact ⟨idx, List.mem_filterMap.mpr ⟨_, hc, by simp [slotCall]⟩⟩
  | onClientJoin _ _ => simp [Call.issues] at hsid
  | onClientLeave _ _ => simp [Call.issues] at hsid
  | releaseSession _ => simp [Call.issues] at hsid

theorem live_of_issued {sv : Server} {max idx : Nat} (h : SlotsOk sv max idx 0)
    (hwrap : max ≤ 65536 ∨ ∀ i, timesUsed sv i < 2 ^ 31) {sid : SessionID}
    (hissued : Issued sv sid) (hidx : sidIndex sid < max)
    (hgen : (sv.sessions (sidIndex sid)).generation = sidGeneration sid)
    (hopen : (sv.sessions (sidIndex sid)).closeFlag = false) :
    0 < (sv.sessions (sidIndex sid)).ioRefCount := by
  obtain ⟨i, hinit⟩ := init_of_issued hissued
  obtain ⟨hi, k, hpos, hle, hsid⟩ := sidOf_of_init (h.of_zero i) hinit
  cases (h.of_zero (sidIndex sid)).here hidx with
  | used _ _ _ _ _ _ hpos' => exact hpos'
  | free n hcalls _ hgen' hclosed =>
      have hn : n = 0 := by
        rcases hclosed with hclosed | hn
        · have hclosed' : (sv.sessions (sidIndex sid)).closeFlag = true := hclosed
          simp [hopen] at hclosed'
        · exact hn
      subst hn
      have hzero : BitVec.ofNat 32 k = 0#32 := by
        have hk : sidGeneration sid = BitVec.ofNat 32 k := by
          rw [hsid, sidOf, sidGeneration_sessionId]
        rw [← hk, ← hgen]
        exact hgen'
      rcases hwrap with hmax | hworn
      · have hback : sidIndex sid = i := by
          rw [hsid, sidOf, hzero, sidIndex_sessionId_zero (by omega)]
        rw [hback] at hcalls
        rw [hcalls] at hinit
        simp [completed] at hinit
      · have hk : k < 2 ^ 31 := lt_of_le_of_lt hle (hworn i)
        have hmod := congrArg BitVec.toNat hzero
        rw [BitVec.toNat_ofNat, Nat.mod_eq_of_lt (by omega)] at hmod
        simp at hmod
        omega

theorem netStep_slotsOk (C : Crypto) {sv sv' : Server} {max : Nat}
    (h : SlotsOk sv max 0 0) (hwrap : max ≤ 65536 ∨ ∀ i, timesUsed sv i < 2 ^ 31)
    {e : NetEvent} (hstep : netStep C sv e = some sv') : SlotsOk sv' max 0 0 := by
  have hsize := h.size
  cases e with
  | accept sock registered accepted =>
      exact Option.some.inj hstep ▸ acceptOne_slotsOk h sock registered accepted
  | recvDone idx bytes accepted =>
      simp only [netStep, Option.ite_none_right_eq_some] at hstep
      obtain ⟨⟨hidx, hout, -⟩, hsv⟩ := hstep
      exact Option.some.inj hsv ▸
        (recvDone_slotsOk C (h.of_zero idx) (hsize ▸ hidx) hout bytes accepted).of_zero 0
  | recvFailed idx =>
      simp only [netStep, Option.ite_none_right_eq_some] at hstep
      obtain ⟨⟨hidx, hout⟩, hsv⟩ := hstep
      exact Option.some.inj hsv ▸
        (recvFailed_slotsOk (h.of_zero idx) (hsize ▸ hidx) hout).of_zero 0
  | sendDone idx accepted =>
      simp only [netStep, Option.ite_none_right_eq_some] at hstep
      obtain ⟨⟨hidx, hout⟩, hsv⟩ := hstep
      exact Option.some.inj hsv ▸
        (sendDone_slotsOk (h.of_zero idx) (hsize ▸ hidx) hout accepted).of_zero 0
  | sendFailed idx =>
      simp only [netStep, Option.ite_none_right_eq_some] at hstep
      obtain ⟨⟨hidx, hout⟩, hsv⟩ := hstep
      exact Option.some.inj hsv ▸
        (sendFailed_slotsOk (h.of_zero idx) (hsize ▸ hidx) hout).of_zero 0
  | sendPacket sid p accepted =>
      simp only [netStep, Option.ite_none_right_eq_some] at hstep
      obtain ⟨hissued, hsv⟩ := hstep
      exact Option.some.inj hsv ▸
        sendPacket_slotsOk h (live_of_issued h hwrap hissued) p accepted
  | disconnect sid =>
      simp only [netStep, Option.ite_none_right_eq_some] at hstep
      obtain ⟨hissued, hsv⟩ := hstep
      exact Option.some.inj hsv ▸
        disconnect_slotsOk h (live_of_issued h hwrap hissued)

/-- Between the handlers of any run in which no slot is reused `2 ^ 31` times,
every slot is either free, all its lifetimes complete, or in use; and each
lifetime consists of one `InitSession`, one `OnClientLeave` for the same
identifier, and one return to the pool, in this order. -/
theorem slot_free_or_inUse (C : Crypto) {maxSession : Nat} {events : List NetEvent}
    {sv : Server}
    (hworn : Meets (netStep C) (fun sv _ => ∀ idx, timesUsed sv idx < 2 ^ 31)
      (Server.start maxSession) events)
    (hrun : run (netStep C) (Server.start maxSession) events = some sv)
    (idx : Nat) (hidx : idx < maxSession) :
    (Free sv idx ∧ ∃ n, (view sv idx).calls = completed idx n) ∨
    (InUse sv idx ∧ ∃ n, (view sv idx).calls = completed idx n ++
      ongoing (sidOf idx (n + 1)) (sv.sessions idx).closeFlag) := by
  have hslots : SlotsOk sv maxSession 0 0 := by
    refine invariant_of_meets (netStep C) (J := fun s => SlotsOk s maxSession 0 0) ?_
      (start_slotsOk maxSession) hworn hrun
    intro s e t hs hguard hstep
    exact netStep_slotsOk C hs (Or.inr hguard) hstep
  cases (hslots.of_zero idx).here hidx with
  | free n hcalls hpool _ _ href hrecv hsend =>
      exact Or.inl ⟨⟨hpool, href, hrecv, hsend⟩, n, hcalls⟩
  | used n hcalls hpool _ _ href hpos hrecv hsend =>
      refine Or.inr ⟨⟨List.count_eq_zero.mp hpool, ?_, hpos, hrecv, hsend⟩, n, hcalls⟩
      have href' : (sv.sessions idx).ioRefCount = base (sv.sessions idx) +
        (sv.sessions idx).recvsOut + (sv.sessions idx).sendsOut + (0 : Nat) := href
      rw [href', base]
      cases (sv.sessions idx).closeFlag <;> simp

theorem timesUsed_le (sv : Server) (idx : Nat) : timesUsed sv idx ≤ sv.calls.length :=
  le_trans List.countP_le_length (List.length_filterMap_le _ _)

/-- A client connects and disconnects: its slot is back in the pool. -/
theorem slot_free_after_disconnect :
    ∃ sv, run (netStep Crypto.none) (Server.start 2)
      [.accept 7 true true, .recvFailed 1] = some sv ∧ Free sv 1 := by
  refine ⟨_, rfl, ?_⟩
  have hworn : Meets (netStep Crypto.none) (fun sv _ => ∀ idx, timesUsed sv idx < 2 ^ 31)
      (Server.start 2) [.accept 7 true true, .recvFailed 1] := by
    refine ⟨fun idx => ?_, fun idx => ?_, trivial⟩
    · exact lt_of_le_of_lt (timesUsed_le _ idx) (by decide)
    · exact lt_of_le_of_lt (timesUsed_le _ idx) (by decide)
  rcases slot_free_or_inUse Crypto.none hworn rfl 1 (by decide) with hfree | hused
  · exact hfree.1
  · exact absurd (by decide) hused.1.1

end IocpChat.SlotLifecycle
