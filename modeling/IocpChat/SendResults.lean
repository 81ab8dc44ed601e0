import IocpChat.PacketLifetimes

namespace IocpChat.SendResults

open IocpChat.Protocol
open IocpChat.PacketBuffer
open IocpChat.LanServer
open IocpChat.SlotInvariant
open IocpChat.SlotSteps
open IocpChat.SlotLifecycle
open IocpChat.MessageOrigin
open IocpChat.ContentHandlers
open IocpChat.ChatRuns
open IocpChat.PacketLifetimes
open IocpChat.LabelledRun

/-- The session was closed: `OnClientLeave` has been called for it. -/
def Left (sv : Server) (sid : SessionID) : Prop :=
  ∃ idx, Call.onClientLeave idx sid ∈ sv.calls

/-- No slot was reused too often. -/
def Fresh (sv : Server) : Prop := ∀ idx, timesUsed sv idx < 2 ^ 31

section Closed

variable {sv sv' : Server} {max : Nat} {sid : SessionID}

theorem Left.mono (h : Left sv sid) (hcalls : sv.calls <+: sv'.calls) : Left sv' sid := by
  obtain ⟨idx, hidx⟩ := h
  exact ⟨idx, hcalls.subset hidx⟩

theorem Fresh.anti (h : Fresh sv') (hcalls : sv.calls <+: sv'.calls) : Fresh sv := by
  intro idx
  have hview : (view sv idx).calls <+: (view sv' idx).calls := hcalls.filterMap _
  exact lt_of_le_of_lt hview.sublist.countP_le (h idx)

theorem leave_mem_iff (idx : Nat) :
    .leave sid ∈ (view sv idx).calls ↔ Call.onClientLeave idx sid ∈ sv.calls :=
  mem_view_calls sv idx (.leave sid)

theorem leave_mem_completed {idx n k : Nat} (hpos : 0 < k) (hk : k ≤ n) :
    .leave (sidOf idx k) ∈ completed idx n := by
  simp only [completed, List.mem_flatMap, List.mem_range]
  exact ⟨k - 1, by omega, by simp [show k - 1 + 1 = k by omega]⟩

theorem mem_completed_leave {idx n : Nat} (h : .leave sid ∈ completed idx n) :
    ∃ k, 0 < k ∧ k ≤ n ∧ sid = sidOf idx k := by
  simp only [completed, List.mem_flatMap, List.mem_range, List.mem_cons,
    SlotCall.leave.injEq, reduceCtorEq, List.not_mem_nil, or_false, false_or] at h
  obtain ⟨k, hk, hsid⟩ := h
  exact ⟨k + 1, by omega, by omega, hsid⟩

theorem issued_eq_sidOf (h : SlotsOk sv max 0 0) (hsid : Issued sv sid) :
    ∃ idx k, idx < max ∧ 0 < k ∧ k ≤ timesUsed sv idx ∧ sid = sidOf idx k := by
  obtain ⟨idx, hinit⟩ := init_of_issued hsid
  obtain ⟨hidx, k, hpos, hle, heq⟩ := sidOf_of_init (h.of_zero idx) hinit
  exact ⟨idx, k, hidx, hpos, hle, heq⟩

theorem sidIndex_lt (hmax : max ≤ 65536) (h : SlotsOk sv max 0 0) (hfresh : Fresh sv)
    (hsid : Issued sv sid) : sidIndex sid < max := by
  obtain ⟨idx, k, hidx, -, hle, rfl⟩ := issued_eq_sidOf h hsid
  rwa [sidIndex_sidOf (by omega) (lt_of_le_of_lt hle (hfresh idx))]

theorem leave_iff {idx k : Nat} (h : SlotsOk sv max 0 0) (hfresh : Fresh sv)
    (hmax : max ≤ 65536) (hidx : idx < max) (hpos : 0 < k) (hle : k ≤ timesUsed sv idx) :
    .leave (sidOf idx k) ∈ (view sv idx).calls ↔
      (sv.sessions idx).generation ≠ BitVec.ofNat 32 k ∨ (sv.sessions idx).closeFlag = true := by
  have hbound := hfresh idx
  cases (h.of_zero idx).here hidx with
  | free n hcalls _ _ hclosed =>
      have htimes : timesUsed sv idx = n := by rw [timesUsed, hcalls, countP_completed]
      have hflag : (sv.sessions idx).closeFlag = true := by
        rcases hclosed with hclosed | hn
        · exact hclosed
        · omega
      rw [hcalls]
      exact iff_of_true (leave_mem_completed hpos (by omega)) (Or.inr hflag)
  | used n hcalls _ hgen _ =>
      have htimes : timesUsed sv idx = n + 1 := by
        rw [timesUsed, hcalls, List.countP_append, countP_completed, ongoing]
        split <;> simp
      have hgen : (sv.sessions idx).generation = BitVec.ofNat 32 (n + 1) := hgen
      have hflag : (view sv idx).session.closeFlag = (sv.sessions idx).closeFlag := rfl
      rw [hcalls, hgen, hflag, List.mem_append]
      rcases Nat.lt_or_ge n k with hnow | hold
      · have hk : k = n + 1 := by omega
        subst hk
        have hpast : .leave (sidOf idx (n + 1)) ∉ completed idx n := by
          intro hmem
          obtain ⟨l, -, hl, heq⟩ := mem_completed_leave hmem
          have hsame := sidOf_inj (by omega) (by omega) (by omega) (by omega) heq
          omega
        simp only [hpast, false_or, ne_eq, not_true_eq_false, ongoing]
        split <;> simp_all
      · refine iff_of_true (Or.inl (leave_mem_completed hpos hold)) (Or.inl ?_)
        intro heq
        have hmod := congrArg BitVec.toNat heq
        simp only [BitVec.toNat_ofNat] at hmod
        omega

theorem init_of_leave {idx : Nat} (h : SlotsOk sv max 0 0)
    (hleave : .leave sid ∈ (view sv idx).calls) : .init sid ∈ (view sv idx).calls := by
  rcases Nat.lt_or_ge idx max with hidx | hge
  · cases (h.of_zero idx).here hidx with
    | free n hcalls =>
        rw [hcalls] at hleave ⊢
        simpa [completed] using hleave
    | used n hcalls =>
        rw [hcalls, List.mem_append] at hleave ⊢
        rcases hleave with hold | hnow
        · refine Or.inl ?_
          simpa [completed] using hold
        · refine Or.inr ?_
          rw [ongoing] at hnow ⊢
          split at hnow <;> simp_all
  · rw [(h.beyond idx hge).2] at hleave
    simp at hleave

theorem left_iff (hmax : max ≤ 65536) (h : SlotsOk sv max 0 0) (hfresh : Fresh sv)
    (hsid : Issued sv sid) :
    Left sv sid ↔ (sv.sessions (sidIndex sid)).generation ≠ sidGeneration sid ∨
      (sv.sessions (sidIndex sid)).closeFlag = true := by
  obtain ⟨idx, k, hidx, hpos, hle, rfl⟩ := issued_eq_sidOf h hsid
  have hk : k < 2 ^ 31 := lt_of_le_of_lt hle (hfresh idx)
  have hgen : sidGeneration (sidOf idx k) = BitVec.ofNat 32 k := sidGeneration_sessionId _ _
  rw [sidIndex_sidOf (by omega) hk, hgen, ← leave_iff h hfresh hmax hidx hpos hle]
  constructor
  · rintro ⟨i, hleave⟩
    have hmem := (leave_mem_iff _).mpr hleave
    obtain ⟨hi, l, -, hl, heq⟩ := sidOf_of_init (h.of_zero i) (init_of_leave h hmem)
    have hl' : l < 2 ^ 31 := lt_of_le_of_lt hl (hfresh i)
    have hslot : idx = i := (sidOf_inj (by omega) (by omega) hk hl' heq).1
    rwa [hslot] at hmem ⊢
  · intro hleave
    exact ⟨idx, (leave_mem_iff idx).mp hleave⟩

theorem sendPacket_false_of_left (hmax : max ≤ 65536) (h : SlotsOk sv max 0 0)
    (hfresh : Fresh sv) (hsid : Issued sv sid) (hleft : Left sv sid) (p : PacketRef)
    (accepted : Bool) : (sv.sendPacket sid p accepted).1 = false := by
  have hsize := h.size
  have hidx := sidIndex_lt hmax h hfresh hsid
  simp only [Server.sendPacket]
  rw [if_neg (by omega)]
  rcases (left_iff hmax h hfresh hsid).mp hleft with hgen | hclosed
  · rw [if_pos hgen]
  · rw [if_pos hclosed]
    split
    · rfl
    · rfl

/-- What `SendPacket` answers with false: the identifier of an earlier session of
the slot, a closed session, and a full queue, which closes the session. -/
theorem left_of_sendPacket_false (hmax : max ≤ 65536) {held : Multiset PacketRef}
    (h : ServerOk sv max held) (hsid : Issued sv sid) {p : PacketRef} (hp : p ∈ held)
    {accepted : Bool} (hfresh : Fresh (sv.sendPacket sid p accepted).2)
    (hfalse : (sv.sendPacket sid p accepted).1 = false) :
    Left (sv.sendPacket sid p accepted).2 sid := by
  obtain ⟨hok, hcalls⟩ := sendPacket_serverOk hmax h hsid hp accepted
  have hidx := sidIndex_lt hmax h.slots (hfresh.anti hcalls) hsid
  rw [left_iff hmax hok.slots hfresh (Issued.mono hsid hcalls)]
  have hsize := h.slots.size
  simp only [Server.sendPacket] at hfalse ⊢
  rw [if_neg (by omega)] at hfalse ⊢
  split at hfalse
  · rename_i hgen
    rw [if_pos hgen]
    exact Or.inl hgen
  · rename_i hgen
    rw [if_neg hgen]
    split at hfalse
    · rename_i hclosed
      rw [if_pos hclosed]
      exact Or.inr hclosed
    · rename_i hopen
      rw [if_neg hopen]
      split at hfalse
      · rename_i hfull
        rw [if_pos hfull]
        exact Or.inr (closeSession_closed sv (sidIndex sid))
      · simp at hfalse

end Closed

/-- A call of `SendPacket` by a handler, with what the packet says. -/
structure SendCall where
  sid : SessionID
  packet : PacketRef
  fields : List (List UInt8)
  ok : Bool
  deriving DecidableEq, Repr

/-- The calls that `sendAll` makes. -/
def sendAllLog (p : PacketRef) (fields : List (List UInt8)) (accepted : SessionID → Bool) :
    List SessionID → Server → List SendCall
  | [], _ => []
  | sid :: targets, sv =>
      let (ok, sv) := sv.sendPacket sid p (accepted sid)
      { sid := sid, packet := p, fields := fields, ok := ok } ::
        sendAllLog p fields accepted targets sv

/-- The calls of `SendPacket` for one effect, with their results. -/
def performLog (C : Crypto) (io : SendEnv) (sv : Server) : Effect → List SendCall
  | .pushJob _ => []
  | .send fields targets =>
      let (p, sv) := buildPacket C io.nonce fields sv
      sendAllLog p fields io.accepted targets sv

/-- The calls of `SendPacket` for all effects of a handler. -/
def performAllLog (C : Crypto) : (Nat → SendEnv) → List Effect → Server → List DBJob →
    List SendCall
  | _, [], _, _ => []
  | io, e :: es, sv, jobs =>
      let (next, jobs') := perform C (io 0) sv jobs e
      performLog C (io 0) sv e ++ performAllLog C (fun k => io (k + 1)) es next jobs'

/-- The calls that a step of the server makes. -/
def stepLog (C : Crypto) (toAcp : List UInt16 → List UInt8) (w : World) (e : ChatEvent) :
    List SendCall :=
  match startHandler toAcp w e, e with
  | some hd, .update _ io => performAllLog C io hd.effects hd.server hd.jobs
  | some hd, .dbResult _ _ _ io => performAllLog C io hd.effects hd.server hd.jobs
  | _, _ => []

/-- The calls that the server makes in a run. -/
def runLog (C : Crypto) (toAcp : List UInt16 → List UInt8) : World → List ChatEvent →
    List SendCall
  | _, [] => []
  | w, e :: es =>
      match chatStep C toAcp w e with
      | none => []
      | some next => stepLog C toAcp w e ++ runLog C toAcp next es

/-- The calls made while the server goes from `sv` to `sv'`: one for a session that
was closed before fails, and the session of one that fails is closed in the end. -/
structure LogOk (sv : Server) (log : List SendCall) (sv' : Server) : Prop where
  calls : sv.calls <+: sv'.calls
  issued : ∀ x, x ∈ log → Issued sv' x.sid
  refused : ∀ x, x ∈ log → Left sv x.sid → x.ok = false
  closed : ∀ x, x ∈ log → x.ok = false → Left sv' x.sid
  lasting : log.Pairwise fun x y => x.sid = y.sid → x.ok = false → y.ok = false

section Logs

variable {sv sv' sv'' : Server} {max : Nat} {held : Multiset PacketRef}

theorem LogOk.none (h : sv.calls <+: sv'.calls) : LogOk sv [] sv' :=
  ⟨h, by simp, by simp, by simp, .nil⟩

theorem LogOk.trans {xs ys : List SendCall} (h : LogOk sv xs sv') (k : LogOk sv' ys sv'') :
    LogOk sv (xs ++ ys) sv'' := by
  refine ⟨h.calls.trans k.calls, ?_, ?_, ?_,
    List.pairwise_append.mpr ⟨h.lasting, k.lasting, ?_⟩⟩
  · intro x hx
    rcases List.mem_append.mp hx with hx | hx
    · exact Issued.mono (h.issued x hx) k.calls
    · exact k.issued x hx
  · intro x hx hleft
    rcases List.mem_append.mp hx with hx | hx
    · exact h.refused x hx hleft
    · exact k.refused x hx (hleft.mono h.calls)
  · intro x hx hfalse
    rcases List.mem_append.mp hx with hx | hx
    · exact (h.closed x hx hfalse).mono k.calls
    · exact k.closed x hx hfalse
  · intro x hx y hy hsid hfalse
    have hleft := h.closed x hx hfalse
    rw [hsid] at hleft
    exact k.refused y hy hleft

theorem sendAll_logOk (hmax : max ≤ 65536) {p : PacketRef} (hp : p ∈ held)
    (fields : List (List UInt8)) (accepted : SessionID → Bool) (h : ServerOk sv max held)
    {targets : List SessionID} (htargets : ∀ sid, sid ∈ targets → Issued sv sid)
    (hfresh : Fresh (sendAll p accepted targets sv)) :
    LogOk sv (sendAllLog p fields accepted targets sv) (sendAll p accepted targets sv) := by
  induction targets generalizing sv with
  | nil => exact .none (List.prefix_refl _)
  | cons sid targets ih =>
      have hsid := htargets sid (by simp)
      obtain ⟨hsent, hcalls⟩ := sendPacket_serverOk hmax h hsid hp (accepted sid)
      have htargets' : ∀ other, other ∈ targets →
          Issued (sv.sendPacket sid p (accepted sid)).2 other := fun other hother =>
        Issued.mono (htargets other (by simp [hother])) hcalls
      have hfresh' : Fresh (sv.sendPacket sid p (accepted sid)).2 :=
        hfresh.anti (sendAll_serverOk hmax hp accepted hsent htargets').2
      have hone : LogOk sv [⟨sid, p, fields, (sv.sendPacket sid p (accepted sid)).1⟩]
          (sv.sendPacket sid p (accepted sid)).2 := by
        refine ⟨hcalls, ?_, ?_, ?_, List.pairwise_singleton _ _⟩
        · intro x hx
          rw [List.mem_singleton.mp hx]
          exact Issued.mono hsid hcalls
        · intro x hx hleft
          rw [List.mem_singleton.mp hx] at hleft ⊢
          exact sendPacket_false_of_left hmax h.slots (hfresh'.anti hcalls) hsid hleft p _
        · intro x hx hfalse
          rw [List.mem_singleton.mp hx] at hfalse ⊢
          exact left_of_sendPacket_false hmax h hsid hp hfresh' hfalse
      exact hone.trans (ih hsent htargets' hfresh)

theorem perform_logOk (hmax : max ≤ 65536) (h : ServerOk sv max held) (C : Crypto)
    (io : SendEnv) {e : Effect} (he : EffectWithin (Issued sv) e) (jobs : List DBJob)
    (hfresh : Fresh (perform C io sv jobs e).1) :
    LogOk sv (performLog C io sv e) (perform C io sv jobs e).1 := by
  cases e with
  | pushJob job => exact .none (List.prefix_refl _)
  | send fields targets =>
      have hbuilt := buildPacket_calls C io.nonce fields sv
      have hbuild := buildPacket_serverOk h C io.nonce fields
      have hkeep : sv.calls <+: (buildPacket C io.nonce fields sv).2.calls :=
        hbuilt ▸ List.prefix_refl _
      set p := (buildPacket C io.nonce fields sv).1
      set sv₁ := (buildPacket C io.nonce fields sv).2
      have hdone : (sendAll p io.accepted targets sv₁).calls <+:
          ((sendAll p io.accepted targets sv₁).release p).calls := by
        rw [release_calls]
      have hsent := sendAll_logOk hmax (Multiset.mem_cons_self _ _) fields io.accepted hbuild
        (fun sid hsid => Issued.mono (he sid hsid) hkeep) (hfresh.anti hdone)
      have hall := ((LogOk.none hkeep).trans hsent).trans (.none hdone)
      rwa [List.nil_append, List.append_nil] at hall

theorem performAll_logOk (hmax : max ≤ 65536) (C : Crypto) (io : Nat → SendEnv)
    {es : List Effect} {jobs : List DBJob} (h : ServerOk sv max held)
    (hes : ∀ e, e ∈ es → EffectWithin (Issued sv) e) (hjobs : JobsIssued sv jobs)
    (hfresh : Fresh (performAll C io es sv jobs).1) :
    LogOk sv (performAllLog C io es sv jobs) (performAll C io es sv jobs).1 := by
  induction es generalizing sv jobs io with
  | nil => exact .none (List.prefix_refl _)
  | cons e es ih =>
      have he := hes e (by simp)
      obtain ⟨hone, hcalls, hjobs'⟩ := perform_serverOk hmax h C (io 0) he hjobs
      have hes' : ∀ other, other ∈ es →
          EffectWithin (Issued (perform C (io 0) sv jobs e).1) other := fun other hother =>
        EffectWithin.mono (hes other (by simp [hother])) hcalls
      have hrest := performAll_serverOk hmax C (fun k => io (k + 1)) hone hes' hjobs'
      exact (perform_logOk hmax h C (io 0) he jobs (hfresh.anti hrest.2.1)).trans
        (ih (fun k => io (k + 1)) hone hes' hjobs' hfresh)

end Logs

section Runs

variable {w w' : World} {max : Nat} {lost : Multiset PacketRef}

theorem finishHandler_logOk (hmax : max ≤ 65536) (C : Crypto) (io : Nat → SendEnv)
    {hd : Handler} (hserver : ServerOk hd.server max (heldMsg hd.msg + lost))
    (heffects : ∀ e, e ∈ hd.effects → EffectWithin (Issued hd.server) e)
    (hjobs : JobsIssued hd.server hd.jobs) (hfresh : Fresh (finishHandler C io hd).server) :
    LogOk hd.server (performAllLog C io hd.effects hd.server hd.jobs)
      (finishHandler C io hd).server := by
  have hdone : (performAll C io hd.effects hd.server hd.jobs).1.calls <+:
      (finishHandler C io hd).server.calls := by
    obtain ⟨sv, content, jobs, effects, msg⟩ := hd
    rcases msg with _ | pkt
    · exact List.prefix_refl _
    · simp only [finishHandler, release_calls]
      exact List.prefix_refl _
  have hlog := (performAll_logOk hmax C io hserver heffects hjobs (hfresh.anti hdone)).trans
    (.none hdone)
  rwa [List.append_nil] at hlog

theorem chatStep_logOk (C : Crypto) (toAcp : List UInt16 → List UInt8) (hmax : max ≤ 65536)
    (h : WorldOk w max lost) {e : ChatEvent} (hstep : chatStep C toAcp w e = some w')
    (hfresh : Fresh w'.server) : LogOk w.server (stepLog C toAcp w e) w'.server := by
  have hhandler {io : Nat → SendEnv} {e : ChatEvent} {hd : Handler}
      (hstart : startHandler toAcp w e = some hd) (hw : finishHandler C io hd = w') :
      LogOk w.server (performAllLog C io hd.effects hd.server hd.jobs) w'.server := by
    subst hw
    obtain ⟨hserver, -, heffects, hjobs⟩ := startHandler_ok toAcp h hstart
    have hlog := finishHandler_logOk hmax C io hserver heffects hjobs hfresh
    obtain ⟨queue, hqueue⟩ := startHandler_server hstart
    have hcalls : hd.server.calls = w.server.calls := by rw [hqueue]
    exact (LogOk.none (hcalls ▸ List.prefix_refl _)).trans hlog
  cases e with
  | net e =>
      obtain ⟨-, sv', hnet, hw⟩ := chatStep_net hstep
      rw [← hw]
      exact .none (netStep_keepsIssued C h.server.slots (Or.inl hmax) h.server.messages hnet).1
  | update env io =>
      obtain ⟨hd, hstart, hw⟩ := Option.map_eq_some_iff.mp hstep
      simp only [stepLog, hstart]
      exact hhandler hstart hw
  | dbResult result userNo nickname io =>
      obtain ⟨hd, hstart, hw⟩ := Option.map_eq_some_iff.mp hstep
      simp only [stepLog, hstart]
      exact hhandler hstart hw

/-- Along a run, a session for which `SendPacket` has failed is closed, and it fails
for it ever after. -/
theorem run_logOk (C : Crypto) (toAcp : List UInt16 → List UInt8) (hmax : max ≤ 65536)
    (h : WorldOk w max lost) {events : List ChatEvent}
    (hrun : run (chatStep C toAcp) w events = some w') (hfresh : Fresh w'.server) :
    LogOk w.server (runLog C toAcp w events) w'.server := by
  induction events generalizing w lost with
  | nil =>
      have hw : w = w' := by simpa using hrun
      exact .none (hw ▸ List.prefix_refl _)
  | cons e events ih =>
      simp only [run] at hrun
      cases hstep : chatStep C toAcp w e with
      | none => simp [hstep] at hrun
      | some next =>
          simp only [hstep] at hrun
          have hnext := chatStep_worldOk C toAcp hmax h hstep
          have hrest := ih hnext hrun
          have hfirst := chatStep_logOk C toAcp hmax h hstep (hfresh.anti hrest.calls)
          simp only [runLog, hstep]
          exact hfirst.trans hrest

end Runs

end IocpChat.SendResults
