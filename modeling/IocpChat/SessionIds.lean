import IocpChat.SlotLifecycle

namespace IocpChat.SessionIds

open IocpChat.Protocol
open IocpChat.PacketBuffer
open IocpChat.LanServer
open IocpChat.ReceivePath
open IocpChat.SlotInvariant
open IocpChat.SlotLifecycle
open IocpChat.LabelledRun

theorem le_sidIndex_of_negative (idx : Nat) {generation : BitVec 32}
    (hneg : 2 ^ 31 ≤ generation.toNat) : 65535 ≤ sidIndex (sessionId idx generation) := by
  have hmsb : generation.msb = true := by
    rw [BitVec.msb_eq_decide]
    simpa using hneg
  have hlt := generation.isLt
  have hhigh : (generation.signExtend 64 >>> 48).toNat = 65535 := by
    rw [BitVec.toNat_ushiftRight, BitVec.toNat_signExtend, hmsb, if_pos rfl,
      BitVec.toNat_setWidth, Nat.shiftRight_eq_div_pow]
    omega
  rw [sidIndex, sessionId, BitVec.ushiftRight_or_distrib, BitVec.toNat_or, hhigh]
  exact Nat.right_le_or

/-- The index comes back exactly as long as the counter, taken modulo `2 ^ 32`, is
not negative. -/
theorem sidIndex_sidOf_iff {idx : Nat} (hidx : idx < 65535) (k : Nat) :
    sidIndex (sidOf idx k) = idx ↔ k % 2 ^ 32 < 2 ^ 31 := by
  have hk : (BitVec.ofNat 32 k).toNat = k % 2 ^ 32 := BitVec.toNat_ofNat k 32
  constructor
  · intro hindex
    by_contra hneg
    have hle : 65535 ≤ sidIndex (sessionId idx (BitVec.ofNat 32 k)) :=
      le_sidIndex_of_negative idx (by omega)
    rw [sidOf] at hindex
    omega
  · intro hpos
    exact sidIndex_sessionId (by omega) (by omega)

/-- The identifier that a call gives to its slot. -/
def initSid : SlotCall → Option SessionID
  | .init sid => some sid
  | _ => none

/-- The identifier that the `k`-th `InitSession` of a slot computed. -/
def nthSid (sv : Server) (idx : Nat) : Nat → Option SessionID
  | 0 => none
  | k + 1 => ((view sv idx).calls.filterMap initSid)[k]?

/-- The checks with which `SendPacket` and `Disconnect` begin. -/
def PassesChecks (sv : Server) (sid : SessionID) : Prop :=
  sidIndex sid < sv.maxSession ∧
    (sv.sessions (sidIndex sid)).generation = sidGeneration sid

theorem disconnect_fst (sv : Server) (sid : SessionID) :
    (sv.disconnect sid).1 = true ↔ PassesChecks sv sid := by
  simp only [Server.disconnect, PassesChecks]
  split
  · rename_i hmax
    simp [Nat.not_lt.mpr hmax]
  · rename_i hmax
    split
    · rename_i hgen
      simp [hgen]
    · rename_i hgen
      simp [Nat.not_le.mp hmax, not_not.mp hgen]

theorem sendPacket_of_not_passes {sv : Server} {sid : SessionID} (h : ¬ PassesChecks sv sid)
    (p : PacketRef) (accepted : Bool) : sv.sendPacket sid p accepted = (false, sv) := by
  rcases Nat.lt_or_ge (sidIndex sid) sv.maxSession with hmax | hmax
  · have hgen : (sv.sessions (sidIndex sid)).generation ≠ sidGeneration sid :=
      fun heq => h ⟨hmax, heq⟩
    rw [Server.sendPacket, if_neg (Nat.not_le.mpr hmax), if_pos hgen]
  · rw [Server.sendPacket, if_pos hmax]

section Slots

variable {sv : Server} {max idx : Nat}

theorem filterMap_completed (idx n : Nat) :
    (completed idx n).filterMap initSid = (List.range n).map fun k => sidOf idx (k + 1) := by
  induction n with
  | zero => rfl
  | succ n ih =>
      rw [completed_succ, List.filterMap_append, ih, List.range_succ, List.map_append]
      rfl

theorem timesUsed_eq_length (sv : Server) (idx : Nat) :
    timesUsed sv idx = ((view sv idx).calls.filterMap initSid).length := by
  rw [List.length_filterMap_eq_countP, timesUsed]
  congr 1
  funext c
  cases c <;> rfl

theorem slot_ids (h : SlotsOk sv max idx 0) (hidx : idx < max) :
    (view sv idx).calls.filterMap initSid =
        (List.range (timesUsed sv idx)).map (fun k => sidOf idx (k + 1)) ∧
      (sv.sessions idx).generation = BitVec.ofNat 32 (timesUsed sv idx) := by
  cases h.here hidx with
  | free n hcalls _ hgen =>
      have hids : (view sv idx).calls.filterMap initSid =
          (List.range n).map fun k => sidOf idx (k + 1) := by
        rw [hcalls, filterMap_completed]
      have hn : timesUsed sv idx = n := by
        rw [timesUsed_eq_length, hids, List.length_map, List.length_range]
      rw [hn]
      exact ⟨hids, hgen⟩
  | used n hcalls _ hgen =>
      have hids : (view sv idx).calls.filterMap initSid =
          (List.range (n + 1)).map fun k => sidOf idx (k + 1) := by
        rw [hcalls, List.filterMap_append, filterMap_completed, List.range_succ,
          List.map_append, ongoing]
        split <;> rfl
      have hn : timesUsed sv idx = n + 1 := by
        rw [timesUsed_eq_length, hids, List.length_map, List.length_range]
      rw [hn]
      exact ⟨hids, hgen⟩

theorem nthSid_eq_some_iff (h : SlotsOk sv max 0 0) {k : Nat} {sid : SessionID} :
    nthSid sv idx k = some sid ↔
      idx < max ∧ 0 < k ∧ k ≤ timesUsed sv idx ∧ sid = sidOf idx k := by
  rcases Nat.lt_or_ge idx max with hidx | hidx
  · obtain ⟨hids, -⟩ := slot_ids (h.of_zero idx) hidx
    cases k with
    | zero => simp [nthSid]
    | succ k =>
        simp only [nthSid, hids, List.getElem?_map, Option.map_eq_some_iff,
          List.getElem?_eq_some_iff, List.length_range, List.getElem_range]
        constructor
        · rintro ⟨j, ⟨hj, rfl⟩, rfl⟩
          exact ⟨hidx, Nat.succ_pos _, hj, rfl⟩
        · rintro ⟨-, -, hk, rfl⟩
          exact ⟨k, ⟨hk, rfl⟩, rfl⟩
  · have hcalls := (h.beyond idx hidx).2
    have hnone : nthSid sv idx k = none := by
      cases k with
      | zero => rfl
      | succ k => simp [nthSid, hcalls]
    rw [hnone]
    simp [Nat.not_lt.mpr hidx]

end Slots

/-- Every identifier ever computed gives back its slot and the generation the slot
had then, and no other `InitSession` computed it; the current one of a slot passes
the checks, and an earlier one is refused. -/
structure SidsSound (sv : Server) : Prop where
  index : ∀ idx k sid, nthSid sv idx k = some sid → sidIndex sid = idx
  generation : ∀ idx k sid, nthSid sv idx k = some sid →
    sidGeneration sid = BitVec.ofNat 32 k
  current : ∀ idx sid, nthSid sv idx (timesUsed sv idx) = some sid →
    sidGeneration sid = (sv.sessions idx).generation ∧ PassesChecks sv sid ∧
      (sv.disconnect sid).1 = true
  distinct : ∀ idx k idx' k' sid, nthSid sv idx k = some sid →
    nthSid sv idx' k' = some sid → idx = idx' ∧ k = k'
  stale : ∀ idx k sid, nthSid sv idx k = some sid → k < timesUsed sv idx →
    sidGeneration sid ≠ (sv.sessions idx).generation ∧ (sv.disconnect sid).1 = false ∧
      ∀ p accepted, sv.sendPacket sid p accepted = (false, sv)

theorem sidsSound_of_lt {sv : Server} {max : Nat} (hmax : max ≤ 10000)
    (h : SlotsOk sv max 0 0) (hused : ∀ idx, idx < max → timesUsed sv idx < 2 ^ 31) :
    SidsSound sv := by
  have hsize := h.size
  have hindex : ∀ idx k, idx < max → k ≤ timesUsed sv idx → sidIndex (sidOf idx k) = idx := by
    intro idx k hidx hk
    have hlt := hused idx hidx
    exact sidIndex_sidOf (by omega) (by omega)
  have hgen : ∀ idx k, sidGeneration (sidOf idx k) = BitVec.ofNat 32 k :=
    fun idx k => sidGeneration_sessionId idx _
  constructor
  · intro idx k sid hsid
    obtain ⟨hidx, -, hk, rfl⟩ := (nthSid_eq_some_iff h).mp hsid
    exact hindex idx k hidx hk
  · intro idx k sid hsid
    obtain ⟨-, -, -, rfl⟩ := (nthSid_eq_some_iff h).mp hsid
    exact hgen idx k
  · intro idx sid hsid
    obtain ⟨hidx, -, hk, rfl⟩ := (nthSid_eq_some_iff h).mp hsid
    have hcurrent := (slot_ids (h.of_zero idx) hidx).2
    have hpasses : PassesChecks sv (sidOf idx (timesUsed sv idx)) := by
      rw [PassesChecks, hindex idx _ hidx hk, hgen]
      exact ⟨by omega, hcurrent⟩
    exact ⟨(hgen idx _).trans hcurrent.symm, hpasses, (disconnect_fst sv _).mpr hpasses⟩
  · intro idx k idx' k' sid hsid hsid'
    obtain ⟨hidx, -, hk, rfl⟩ := (nthSid_eq_some_iff h).mp hsid
    obtain ⟨hidx', -, hk', heq⟩ := (nthSid_eq_some_iff h).mp hsid'
    have hlt := hused idx hidx
    have hlt' := hused idx' hidx'
    exact sidOf_inj (by omega) (by omega) (by omega) (by omega) heq
  · intro idx k sid hsid hearlier
    obtain ⟨hidx, -, hk, rfl⟩ := (nthSid_eq_some_iff h).mp hsid
    have hcurrent := (slot_ids (h.of_zero idx) hidx).2
    have hlt := hused idx hidx
    have hne : BitVec.ofNat 32 k ≠ (sv.sessions idx).generation := by
      rw [hcurrent]
      intro heq
      have hnat := congrArg BitVec.toNat heq
      simp only [BitVec.toNat_ofNat] at hnat
      omega
    have hfails : ¬ PassesChecks sv (sidOf idx k) := by
      rw [PassesChecks, hindex idx k hidx hk, hgen]
      rintro ⟨-, heq⟩
      exact hne heq.symm
    refine ⟨?_, ?_, sendPacket_of_not_passes hfails⟩
    · rw [hgen]
      exact hne
    · rw [← Bool.not_eq_true, disconnect_fst]
      exact hfails

theorem run_slotsOk (C : Crypto) {maxSession : Nat} (hmax : maxSession ≤ 65536)
    {events : List NetEvent} {sv : Server}
    (hrun : run (netStep C) (Server.start maxSession) events = some sv) :
    SlotsOk sv maxSession 0 0 := by
  refine invariant_of_run (netStep C) (J := fun t => SlotsOk t maxSession 0 0) ?_
    (start_slotsOk maxSession) hrun
  intro s e t hs hstep
  exact netStep_slotsOk C hs (.inl hmax) hstep

/-- In every run with up to 10000 slots, the identifiers are sound exactly as long as
no slot has been initialised `2 ^ 31` times. -/
theorem sids_sound_iff (C : Crypto) {maxSession : Nat} (hmax : maxSession ≤ 10000)
    {events : List NetEvent} {sv : Server}
    (hrun : run (netStep C) (Server.start maxSession) events = some sv) :
    SidsSound sv ↔ ∀ idx, idx < maxSession → timesUsed sv idx < 2 ^ 31 := by
  have hslots := run_slotsOk C (by omega) hrun
  constructor
  · intro hsound idx hidx
    by_contra hworn
    -- the identifier of the use at which the counter turned negative
    have hnth : nthSid sv idx (2 ^ 31) = some (sidOf idx (2 ^ 31)) :=
      (nthSid_eq_some_iff hslots).mpr ⟨hidx, by decide, by omega, rfl⟩
    have hindex := hsound.index idx (2 ^ 31) _ hnth
    exact absurd ((sidIndex_sidOf_iff (by omega) _).mp hindex) (by decide)
  · exact sidsSound_of_lt hmax hslots

/-- The one slot of a server is used, freed and used again. -/
theorem sids_sound_after_reuse :
    ∃ sv, run (netStep Crypto.none) (Server.start 1)
      [.accept 7 true true, .recvFailed 0, .accept 8 true true] = some sv ∧
      timesUsed sv 0 = 2 ∧ SidsSound sv := by
  have htwice : (run (netStep Crypto.none) (Server.start 1)
      [.accept 7 true true, .recvFailed 0, .accept 8 true true]).map (timesUsed · 0) =
        some 2 := by
    decide +kernel
  obtain ⟨sv, hrun, hused⟩ := Option.map_eq_some_iff.mp htwice
  refine ⟨sv, hrun, hused, (sids_sound_iff Crypto.none (by decide) hrun).mpr ?_⟩
  intro idx hidx
  rw [Nat.lt_one_iff.mp hidx, hused]
  decide

/-- A client that connects to a server with one slot and drops the connection, `n`
times. -/
def reconnects : Nat → List NetEvent
  | 0 => []
  | n + 1 => reconnects n ++ [.accept 7 true true, .recvFailed 0]

theorem run_reconnect (C : Crypto) {sv : Server} (hmax : 0 < sv.maxSession)
    (hpool : sv.indexPool = [0]) :
    ∃ sv', run (netStep C) sv [.accept 7 true true, .recvFailed 0] = some sv' ∧
      0 < sv'.maxSession ∧ sv'.indexPool = [0] ∧ timesUsed sv' 0 = timesUsed sv 0 + 1 := by
  set opened := sv.acceptOne 7 true true with hopened
  have hsession : opened.maxSession = sv.maxSession ∧ 0 < (opened.sessions 0).recvsOut := by
    simp [hopened, Server.acceptOne, Server.allocSession, hpool, Server.initSession,
      Server.setSession, Server.onClientJoin, Server.postRecv, Server.ioAddRef]
  have hrun : run (netStep C) sv [.accept 7 true true, .recvFailed 0] =
      some (recvFailed opened 0) := by
    simp [run, netStep, ← hopened, hsession, hmax]
  have hclosed : (recvFailed opened 0).maxSession = sv.maxSession ∧
      (recvFailed opened 0).indexPool = [0] ∧ (recvFailed opened 0).calls =
        sv.calls ++ [.initSession 0 (sessionId 0 ((sv.sessions 0).generation + 1)),
          .onClientJoin 0 (sessionId 0 ((sv.sessions 0).generation + 1)),
          .onClientLeave 0 (sessionId 0 ((sv.sessions 0).generation + 1)),
          .releaseSession 0] := by
    simp [hopened, Server.acceptOne, Server.allocSession, hpool, Server.initSession,
      Server.setSession, Server.onClientJoin, Server.postRecv, Server.ioAddRef, recvFailed,
      takeRecv, Server.closeSession, Session.init, Session.takeQueue, Server.releaseAll,
      Server.onClientLeave, Server.ioRelease, Server.releaseSession]
  obtain ⟨hsize, hfree, hcalls⟩ := hclosed
  refine ⟨_, hrun, by rwa [hsize], hfree, ?_⟩
  set sid := sessionId 0 ((sv.sessions 0).generation + 1)
  have hview : (view (recvFailed opened 0) 0).calls =
      (view sv 0).calls ++ [.init sid, .leave sid, .release] := by
    simp only [view, hcalls, List.filterMap_append]
    rfl
  rw [timesUsed_eq_length, timesUsed_eq_length, hview, List.filterMap_append,
    List.length_append]
  rfl

theorem run_reconnects (C : Crypto) (n : Nat) :
    ∃ sv, run (netStep C) (Server.start 1) (reconnects n) = some sv ∧
      0 < sv.maxSession ∧ sv.indexPool = [0] ∧ timesUsed sv 0 = n := by
  induction n with
  | zero => exact ⟨_, rfl, Nat.one_pos, rfl, rfl⟩
  | succ n ih =>
      obtain ⟨sv, hrun, hmax, hpool, hused⟩ := ih
      obtain ⟨sv', hstep, hmax', hpool', hused'⟩ := run_reconnect C hmax hpool
      refine ⟨sv', ?_, hmax', hpool', by rw [hused', hused]⟩
      rw [reconnects, run_append, hrun]
      exact hstep

/-- The connection with which the counter turns negative gets an identifier that
names slot 65535, which `Disconnect` refuses. -/
theorem sid_lost_after_reconnects :
    ∃ sv, run (netStep Crypto.none) (Server.start 1) (reconnects (2 ^ 31)) = some sv ∧
      ∃ sid, nthSid sv 0 (2 ^ 31) = some sid ∧ 65535 ≤ sidIndex sid ∧
        (sv.disconnect sid).1 = false ∧ ¬ SidsSound sv := by
  obtain ⟨sv, hrun, -, -, hused⟩ := run_reconnects Crypto.none (2 ^ 31)
  have hslots := run_slotsOk Crypto.none (by decide) hrun
  have hnth : nthSid sv 0 (2 ^ 31) = some (sidOf 0 (2 ^ 31)) :=
    (nthSid_eq_some_iff hslots).mpr ⟨by decide, by decide, by omega, rfl⟩
  have hindex : 65535 ≤ sidIndex (sidOf 0 (2 ^ 31)) :=
    le_sidIndex_of_negative 0 (by decide)
  refine ⟨sv, hrun, _, hnth, hindex, ?_, ?_⟩
  · rw [← Bool.not_eq_true, disconnect_fst]
    rintro ⟨hmax, -⟩
    have hsize := hslots.size
    omega
  · intro hsound
    have hzero := hsound.index 0 _ _ hnth
    omega

end IocpChat.SessionIds
