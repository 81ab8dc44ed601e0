import Mathlib.Data.Multiset.OrderedMonoid
import IocpChat.ChatRuns

namespace IocpChat.PacketLifetimes

open IocpChat.Protocol
open IocpChat.PacketBuffer
open IocpChat.ContentHandlers
open IocpChat.LanServer
open IocpChat.RefCounting
open IocpChat.SlotInvariant
open IocpChat.SlotSteps
open IocpChat.SlotLifecycle
open IocpChat.MessageOrigin
open IocpChat.PacketOwnership
open IocpChat.ChatRuns
open IocpChat.LabelledRun

/-- The slots are in order, and the reference counts are those of the holders. -/
structure ServerOk (sv : Server) (max : Nat) (held : Multiset PacketRef) : Prop where
  slots : SlotsOk sv max 0 0
  owned : Owned sv max held
  messages : MessagesIssued sv

section Handlers

variable {sv sv' : Server} {max : Nat} {held : Multiset PacketRef} {jobs : List DBJob}

theorem ServerOk.congr (h : ServerOk sv max held) {held' : Multiset PacketRef}
    (howned : Owned sv' max held') (hview : ∀ j, view sv' j = view sv j)
    (hcalls : sv'.calls = sv.calls) (hcontent : sv'.contentQ = sv.contentQ) :
    ServerOk sv' max held' := by
  refine ⟨h.slots.congr (howned.size.trans h.slots.size.symm) hview, howned, ?_⟩
  intro m hm
  rw [hcontent] at hm
  exact Issued.mono (h.messages m hm) (hcalls ▸ List.prefix_refl _)

theorem release_calls (sv : Server) (p : PacketRef) : (sv.release p).calls = sv.calls := by
  simp only [Server.release]
  split <;> rfl

theorem release_serverOk {p : PacketRef} (h : ServerOk sv max (p ::ₘ held)) :
    ServerOk (sv.release p) max held :=
  h.congr (release_owned h.owned) (view_release sv p) (release_calls sv p)
    (release_contentQ sv p)

theorem writePackets_refCount (fields : List (List UInt8)) (pkt : CPacket) :
    (fields.foldl CPacket.writePacket pkt).refCount = pkt.refCount := by
  induction fields generalizing pkt with
  | nil => rfl
  | cons field fields ih =>
      rw [List.foldl_cons, ih]
      simp only [CPacket.writePacket]
      split <;> rfl

theorem buildPacket_calls (C : Crypto) (nonce : List UInt8) (fields : List (List UInt8))
    (sv : Server) : (buildPacket C nonce fields sv).2.calls = sv.calls := by
  simp only [buildPacket, Server.alloc]
  split <;> rfl

theorem buildPacket_serverOk (h : ServerOk sv max held) (C : Crypto) (nonce : List UInt8)
    (fields : List (List UInt8)) :
    ServerOk (buildPacket C nonce fields sv).2 max
      ((buildPacket C nonce fields sv).1 ::ₘ held) := by
  refine h.congr ?_ ?_ (buildPacket_calls C nonce fields sv) ?_
  · refine (alloc_owned h.owned).congr rfl rfl (refs_setPacket_same _ ?_) rfl
    exact writePackets_refCount fields _
  · intro j
    exact view_alloc sv j
  · simp only [buildPacket, Server.alloc]
    split <;> rfl

theorem sendPacket_serverOk (hmax : max ≤ 65536) (h : ServerOk sv max held)
    {sid : SessionID} (hsid : Issued sv sid) {p : PacketRef} (hp : p ∈ held)
    (accepted : Bool) :
    ServerOk (sv.sendPacket sid p accepted).2 max held ∧
      sv.calls <+: (sv.sendPacket sid p accepted).2.calls := by
  have hlive := live_of_issued h.slots (Or.inl hmax) hsid
  obtain ⟨hcalls, hmessages⟩ := sendPacket_keepsIssued h.slots hlive h.messages p accepted
  exact ⟨⟨sendPacket_slotsOk h.slots hlive p accepted,
    sendPacket_owned h.slots h.owned hlive hp accepted, hmessages⟩, hcalls⟩

theorem sendAll_serverOk (hmax : max ≤ 65536) {p : PacketRef} (hp : p ∈ held)
    (accepted : SessionID → Bool) (h : ServerOk sv max held) {targets : List SessionID}
    (htargets : ∀ sid, sid ∈ targets → Issued sv sid) :
    ServerOk (sendAll p accepted targets sv) max held ∧
      sv.calls <+: (sendAll p accepted targets sv).calls := by
  induction targets generalizing sv with
  | nil => exact ⟨h, List.prefix_refl _⟩
  | cons sid targets ih =>
      obtain ⟨hsent, hcalls⟩ :=
        sendPacket_serverOk hmax h (htargets sid (by simp)) hp (accepted sid)
      obtain ⟨hrest, hcalls'⟩ := ih hsent (by
        intro other hother
        exact Issued.mono (htargets other (by simp [hother])) hcalls)
      exact ⟨hrest, hcalls.trans hcalls'⟩

/-- The jobs are about sessions that there have been. -/
def JobsIssued (sv : Server) (jobs : List DBJob) : Prop :=
  ∀ job, job ∈ jobs → Issued sv job.sid

theorem JobsIssued.mono (h : JobsIssued sv jobs) (hcalls : sv.calls <+: sv'.calls) :
    JobsIssued sv' jobs :=
  fun job hjob => Issued.mono (h job hjob) hcalls

theorem EffectWithin.mono {e : Effect} (h : EffectWithin (Issued sv) e)
    (hcalls : sv.calls <+: sv'.calls) : EffectWithin (Issued sv') e := by
  cases e with
  | pushJob job => exact Issued.mono h hcalls
  | send fields targets => exact fun sid hsid => Issued.mono (h sid hsid) hcalls

theorem perform_serverOk (hmax : max ≤ 65536) (h : ServerOk sv max held) (C : Crypto)
    (io : SendEnv) {e : Effect} (he : EffectWithin (Issued sv) e) (hjobs : JobsIssued sv jobs) :
    ServerOk (perform C io sv jobs e).1 max held ∧
      sv.calls <+: (perform C io sv jobs e).1.calls ∧
      JobsIssued (perform C io sv jobs e).1 (perform C io sv jobs e).2 := by
  cases e with
  | pushJob job =>
      refine ⟨h, List.prefix_refl _, ?_⟩
      intro other hother
      rcases List.mem_append.mp hother with hold | hnew
      · exact hjobs other hold
      · rw [List.mem_singleton.mp hnew]
        exact he
  | send fields targets =>
      have hbuilt := buildPacket_calls C io.nonce fields sv
      have hbuild := buildPacket_serverOk h C io.nonce fields
      have htargets : ∀ sid, sid ∈ targets → Issued (buildPacket C io.nonce fields sv).2 sid := by
        intro sid hsid
        exact Issued.mono (he sid hsid) (hbuilt ▸ List.prefix_refl _)
      obtain ⟨hsent, hcalls⟩ := sendAll_serverOk hmax (Multiset.mem_cons_self _ _) io.accepted
        hbuild htargets
      rw [hbuilt] at hcalls
      have hcalls' : sv.calls <+: (perform C io sv jobs (.send fields targets)).1.calls := by
        simpa only [perform, release_calls] using hcalls
      exact ⟨release_serverOk hsent, hcalls', hjobs.mono hcalls'⟩

theorem performAll_serverOk (hmax : max ≤ 65536) (C : Crypto) (io : Nat → SendEnv)
    {es : List Effect} (h : ServerOk sv max held)
    (hes : ∀ e, e ∈ es → EffectWithin (Issued sv) e) (hjobs : JobsIssued sv jobs) :
    ServerOk (performAll C io es sv jobs).1 max held ∧
      sv.calls <+: (performAll C io es sv jobs).1.calls ∧
      JobsIssued (performAll C io es sv jobs).1 (performAll C io es sv jobs).2 := by
  induction es generalizing sv jobs io with
  | nil => exact ⟨h, List.prefix_refl _, hjobs⟩
  | cons e es ih =>
      obtain ⟨hone, hcalls, hjobs'⟩ := perform_serverOk hmax h C (io 0) (hes e (by simp)) hjobs
      obtain ⟨hall, hcalls', hjobs''⟩ := ih (fun k => io (k + 1)) hone (by
        intro other hother
        exact EffectWithin.mono (hes other (by simp [hother])) hcalls) hjobs'
      exact ⟨hall, hcalls.trans hcalls', hjobs''⟩

theorem ServerOk.pop (h : ServerOk sv max held) {m : Message} {rest : List Message}
    (hqueue : sv.contentQ = m :: rest) :
    ServerOk { sv with contentQ := rest } max (messageRefs m + held) := by
  refine ⟨h.slots.congr rfl fun _ => rfl, ⟨h.owned.size, h.owned.queues, ?_⟩, ?_⟩
  · have hsame : messageRefs m + held + holders { sv with contentQ := rest } =
        held + holders sv := by
      simp only [holders, hqueue, contentRefs, List.map_cons, List.sum_cons]
      ac_rfl
    rw [hsame]
    exact h.owned.balanced
  · intro other hother
    exact h.messages other (by simp [hqueue, hother])

end Handlers

/-- Everything is in order, and `lost` are the references nobody will give back. -/
structure WorldOk (w : World) (max : Nat) (lost : Multiset PacketRef) : Prop where
  server : ServerOk w.server max lost
  rooms : RoomsWithin (Issued w.server) w.content
  jobs : JobsIssued w.server w.jobs

/-- The reference to its message that a handler holds. -/
def heldMsg : Option PacketRef → Multiset PacketRef
  | some p => {p}
  | none => 0

section Steps

variable {w w' : World} {max : Nat} {lost : Multiset PacketRef}

theorem start_worldOk (maxSession : Nat) : WorldOk (World.start maxSession) maxSession 0 := by
  refine ⟨⟨start_slotsOk maxSession, ⟨rfl, fun _ _ => queueOk_new, ?_⟩, ?_⟩, ?_, ?_⟩
  · have hnone : holders (World.start maxSession).server = 0 := by
      simp [holders, World.start, Server.start, contentRefs, sessionRefs, Session.new,
        Session.queued]
    rw [hnone, add_zero]
    exact Balanced.empty _
  · intro m hm
    simp [World.start, Server.start] at hm
  · intro i sid hsid
    simp [World.start, Content.initial, CRoom.empty] at hsid
  · intro job hjob
    simp [World.start] at hjob

theorem startHandler_ok (toAcp : List UInt16 → List UInt8) (h : WorldOk w max lost)
    {e : ChatEvent} {hd : Handler} (hstart : startHandler toAcp w e = some hd) :
    ServerOk hd.server max (heldMsg hd.msg + lost) ∧
      RoomsWithin (Issued hd.server) hd.content ∧
      (∀ e, e ∈ hd.effects → EffectWithin (Issued hd.server) e) ∧
      JobsIssued hd.server hd.jobs := by
  cases e with
  | net e => simp [startHandler] at hstart
  | update env io =>
      simp only [startHandler] at hstart
      split at hstart
      · simp at hstart
      · rename_i sid rest hqueue
        have hhd := Option.some.inj hstart
        subst hhd
        exact ⟨h.server.pop hqueue, handleJoin_within env h.rooms, by simp, h.jobs⟩
      · rename_i sid rest hqueue
        have hhd := Option.some.inj hstart
        subst hhd
        exact ⟨h.server.pop hqueue, handleLeave_within h.rooms, by simp, h.jobs⟩
      · rename_i sid pkt rest hqueue
        have hhd := Option.some.inj hstart
        subst hhd
        have hsid : Issued w.server sid := h.server.messages (.recv sid pkt) (by simp [hqueue])
        obtain ⟨hrooms, heffects⟩ := handleRecv_within env h.rooms hsid (w.server.packets pkt)
        exact ⟨h.server.pop hqueue, hrooms, heffects, h.jobs⟩
  | dbResult result userNo nickname io =>
      simp only [startHandler] at hstart
      split at hstart
      · simp at hstart
      · rename_i job rest hjobs
        have hhd := Option.some.inj hstart
        subst hhd
        have hsid : Issued w.server job.sid := h.jobs job (by simp [hjobs])
        obtain ⟨hrooms, heffects⟩ := handleDbResult_within toAcp h.rooms
          (r := { type := job.type, sid := job.sid, result, userNo, nickname }) hsid
        refine ⟨?_, hrooms, heffects, fun other hother => h.jobs other (by simp [hjobs, hother])⟩
        simpa [heldMsg] using h.server

theorem finishHandler_ok (hmax : max ≤ 65536) (C : Crypto) (io : Nat → SendEnv)
    {hd : Handler} (hserver : ServerOk hd.server max (heldMsg hd.msg + lost))
    (hrooms : RoomsWithin (Issued hd.server) hd.content)
    (heffects : ∀ e, e ∈ hd.effects → EffectWithin (Issued hd.server) e)
    (hjobs : JobsIssued hd.server hd.jobs) : WorldOk (finishHandler C io hd) max lost := by
  obtain ⟨hdone, hcalls, hjobs'⟩ := performAll_serverOk hmax C io hserver heffects hjobs
  have hrooms' : RoomsWithin (Issued (performAll C io hd.effects hd.server hd.jobs).1)
      hd.content := fun i sid hsid => Issued.mono (hrooms i sid hsid) hcalls
  obtain ⟨sv, content, jobs, effects, msg⟩ := hd
  cases msg with
  | none =>
      simp only [heldMsg, zero_add] at hdone
      exact ⟨hdone, hrooms', hjobs'⟩
  | some pkt =>
      have hkeep : (performAll C io effects sv jobs).1.calls <+:
          ((performAll C io effects sv jobs).1.release pkt).calls := by
        rw [release_calls]
      refine ⟨release_serverOk (by simpa [heldMsg] using hdone), ?_, hjobs'.mono hkeep⟩
      exact fun i sid hsid => Issued.mono (hrooms' i sid hsid) hkeep

/-- The references a worker forgets. -/
def forgotten (w : World) : ChatEvent → Multiset PacketRef
  | .net (.sendFailed idx) => ↑(w.server.sessions idx).sendPkts
  | _ => 0

theorem netStep_owned (C : Crypto) (hslots : SlotsOk w.server max 0 0)
    (h : Owned w.server max lost) {e : NetEvent} {sv' : Server}
    (hstep : netStep C w.server e = some sv') (hsend : ∀ sid p a, e ≠ .sendPacket sid p a) :
    Owned sv' max (forgotten w (.net e) + lost) := by
  have hsize := hslots.size
  cases e with
  | accept sock registered accepted =>
      have hsv := Option.some.inj hstep
      subst hsv
      simpa [forgotten] using acceptOne_owned hslots h sock registered accepted
  | recvDone idx bytes accepted =>
      simp only [netStep, Option.ite_none_right_eq_some] at hstep
      obtain ⟨⟨hidx, hout, -⟩, hsv⟩ := hstep
      have hsv := Option.some.inj hsv
      subst hsv
      simpa [forgotten] using
        recvDone_owned C (hslots.of_zero idx) h (hsize ▸ hidx) hout bytes accepted
  | recvFailed idx =>
      simp only [netStep, Option.ite_none_right_eq_some] at hstep
      obtain ⟨⟨hidx, -⟩, hsv⟩ := hstep
      have hsv := Option.some.inj hsv
      subst hsv
      simpa [forgotten] using recvFailed_owned h (hsize ▸ hidx)
  | sendDone idx accepted =>
      simp only [netStep, Option.ite_none_right_eq_some] at hstep
      obtain ⟨⟨hidx, hout⟩, hsv⟩ := hstep
      have hsv := Option.some.inj hsv
      subst hsv
      simpa [forgotten] using
        sendDone_owned (hslots.of_zero idx) h (hsize ▸ hidx) hout accepted
  | sendFailed idx =>
      simp only [netStep, Option.ite_none_right_eq_some] at hstep
      obtain ⟨⟨hidx, hout⟩, hsv⟩ := hstep
      have hsv := Option.some.inj hsv
      subst hsv
      exact sendFailed_owned (hslots.of_zero idx) h (hsize ▸ hidx) hout
  | sendPacket sid p accepted => exact absurd rfl (hsend sid p accepted)
  | disconnect sid =>
      simp only [netStep, Option.ite_none_right_eq_some] at hstep
      have hsv := Option.some.inj hstep.2
      subst hsv
      simpa [forgotten] using disconnect_owned h sid

theorem netStep_worldOk (C : Crypto) (hmax : max ≤ 65536) (h : WorldOk w max lost)
    {e : NetEvent} {sv' : Server} (hstep : netStep C w.server e = some sv')
    (hsend : ∀ sid p a, e ≠ .sendPacket sid p a) :
    WorldOk { w with server := sv' } max (forgotten w (.net e) + lost) := by
  obtain ⟨hcalls, hmessages⟩ := netStep_keepsIssued C h.server.slots (Or.inl hmax)
    h.server.messages hstep
  refine ⟨⟨netStep_slotsOk C h.server.slots (Or.inl hmax) hstep,
    netStep_owned C h.server.slots h.server.owned hstep hsend, hmessages⟩, ?_, ?_⟩
  · exact fun i sid hsid => Issued.mono (h.rooms i sid hsid) hcalls
  · exact h.jobs.mono hcalls

theorem chatStep_worldOk (C : Crypto) (toAcp : List UInt16 → List UInt8) (hmax : max ≤ 65536)
    (h : WorldOk w max lost) {e : ChatEvent} (hstep : chatStep C toAcp w e = some w') :
    WorldOk w' max (forgotten w e + lost) := by
  have hhandler {io : Nat → SendEnv} {e : ChatEvent} (hnone : forgotten w e = 0)
      (hstep : (startHandler toAcp w e).map (finishHandler C io) = some w') :
      WorldOk w' max (forgotten w e + lost) := by
    obtain ⟨hd, hstart, hw⟩ := Option.map_eq_some_iff.mp hstep
    obtain ⟨hserver, hrooms, heffects, hjobs⟩ := startHandler_ok toAcp h hstart
    rw [hnone, zero_add, ← hw]
    exact finishHandler_ok hmax C io hserver hrooms heffects hjobs
  cases e with
  | net e =>
      obtain ⟨hsend, sv', hnet, hw⟩ := chatStep_net hstep
      rw [← hw]
      exact netStep_worldOk C hmax h hnet hsend
  | update env io => exact hhandler rfl hstep
  | dbResult result userNo nickname io => exact hhandler rfl hstep

end Steps

/-- Nobody holds a packet that is in the pool, and it is there once. -/
def PoolSafe (sv : Server) : Prop :=
  ∀ p, p ∈ sv.pool → (sv.packets p).refCount = 0 ∧ sv.pool.count p = 1 ∧
    (∀ sid, .recv sid p ∉ sv.contentQ) ∧
    ∀ idx, idx < sv.maxSession → p ∉ (sv.sessions idx).queued ∧
      (0 < (sv.sessions idx).sendsOut → p ∉ (sv.sessions idx).sendPkts)

/-- At each point of a handler's broadcasts, after any number of the calls of
`SendPacket`, neither the packet it sends nor the message it handles is in the
pool. -/
def HoldsThroughout (C : Crypto) (io : Nat → SendEnv) (hd : Handler) : Prop :=
  ∀ done fields sent unsent rest,
    hd.effects = done ++ .send fields (sent ++ unsent) :: rest →
    let before := (performAll C io done hd.server hd.jobs).1
    let built := buildPacket C (io done.length).nonce fields before
    let sv := sendAll built.1 (io done.length).accepted sent built.2
    built.1 ∉ sv.pool ∧ ∀ q, hd.msg = some q → q ∉ sv.pool

theorem mem_contentRefs {q : List Message} {sid : SessionID} {p : PacketRef}
    (h : .recv sid p ∈ q) : p ∈ contentRefs q := by
  induction q with
  | nil => simp at h
  | cons m q ih =>
      simp only [contentRefs, List.map_cons, List.sum_cons, Multiset.mem_add]
      rcases List.mem_cons.mp h with rfl | hrest
      · exact Or.inl (Multiset.mem_singleton_self p)
      · exact Or.inr (ih hrest)

theorem mem_holders_of_session {sv : Server} {idx : Nat} (hidx : idx < sv.maxSession)
    {p : PacketRef} (h : p ∈ sessionRefs (sv.sessions idx)) : p ∈ holders sv :=
  Multiset.mem_add.mpr (Or.inl (Multiset.mem_sum.mpr ⟨idx, Finset.mem_range.mpr hidx, h⟩))

theorem poolSafe_of_owned {sv : Server} {max : Nat} {held : Multiset PacketRef}
    (h : Owned sv max held) : PoolSafe sv := by
  intro p hp
  obtain ⟨hcount, honce, hfree⟩ := h.balanced.of_mem_pool hp
  rw [Multiset.mem_add, not_or] at hfree
  refine ⟨hcount, honce, ?_, ?_⟩
  · intro sid hmem
    exact hfree.2 (Multiset.mem_add.mpr (Or.inr (mem_contentRefs hmem)))
  · intro idx hidx
    refine ⟨?_, ?_⟩
    · intro hmem
      apply hfree.2 (mem_holders_of_session hidx _)
      exact Multiset.mem_add.mpr (Or.inl (Multiset.mem_coe.mpr hmem))
    · intro hout hmem
      apply hfree.2 (mem_holders_of_session hidx _)
      rw [sessionRefs, if_neg (by omega)]
      exact Multiset.mem_add.mpr (Or.inr (Multiset.mem_coe.mpr hmem))

theorem notMem_pool_of_held {sv : Server} {max : Nat} {held : Multiset PacketRef}
    (h : Owned sv max held) {p : PacketRef} (hp : p ∈ held) : p ∉ sv.pool :=
  h.balanced.notMem_pool (Multiset.mem_add.mpr (Or.inl hp))

theorem holdsThroughout_of_ok {max : Nat} (hmax : max ≤ 65536) (C : Crypto)
    (io : Nat → SendEnv) {hd : Handler} {lost : Multiset PacketRef}
    (hserver : ServerOk hd.server max (heldMsg hd.msg + lost))
    (heffects : ∀ e, e ∈ hd.effects → EffectWithin (Issued hd.server) e)
    (hjobs : JobsIssued hd.server hd.jobs) : HoldsThroughout C io hd := by
  intro done fields sent unsent rest hsplit before built sv
  have hdone : ∀ e, e ∈ done → EffectWithin (Issued hd.server) e := by
    intro e he
    exact heffects e (by simp [hsplit, he])
  obtain ⟨hbefore, hcalls, -⟩ := performAll_serverOk hmax C io hserver hdone hjobs
  have hbuilt := buildPacket_serverOk hbefore C (io done.length).nonce fields
  have htargets : ∀ sid, sid ∈ sent → Issued built.2 sid := by
    intro sid hsid
    have heffect := heffects (.send fields (sent ++ unsent)) (by simp [hsplit])
    have hsame : built.2.calls = before.calls := buildPacket_calls C _ fields before
    exact Issued.mono (heffect sid (by simp [hsid])) (hsame ▸ hcalls)
  have hsent := (sendAll_serverOk hmax (Multiset.mem_cons_self _ _) (io done.length).accepted
    hbuilt htargets).1
  refine ⟨notMem_pool_of_held hsent.owned (Multiset.mem_cons_self _ _), ?_⟩
  intro q hq
  apply notMem_pool_of_held hsent.owned
  simp [hq, heldMsg]

/-- The event is a send completion that failed, was cancelled or had no bytes. -/
def SendFails : ChatEvent → Prop
  | .net (.sendFailed _) => True
  | _ => False

theorem forgotten_eq_zero_iff {C : Crypto} {toAcp : List UInt16 → List UInt8} {w w' : World}
    {max : Nat} {lost : Multiset PacketRef} (h : WorldOk w max lost) {e : ChatEvent}
    (hstep : chatStep C toAcp w e = some w') : forgotten w e = 0 ↔ ¬ SendFails e := by
  cases e with
  | net e =>
      cases e with
      | sendFailed idx =>
          obtain ⟨-, sv', hnet, -⟩ := chatStep_net hstep
          simp only [netStep, Option.ite_none_right_eq_some] at hnet
          obtain ⟨⟨hidx, hout⟩, -⟩ := hnet
          rw [h.server.slots.size] at hidx
          have hne := (h.server.owned.queues idx hidx).sent (by omega)
          simpa [forgotten, SendFails] using hne
      | _ => simp [forgotten, SendFails]
  | _ => simp [forgotten, SendFails]

/-- Along a run, references are lost exactly by the send completions that fail. -/
theorem run_worldOk (C : Crypto) (toAcp : List UInt16 → List UInt8) {max : Nat}
    (hmax : max ≤ 65536) {events : List ChatEvent} {w w' : World} {lost : Multiset PacketRef}
    (h : WorldOk w max lost) (hrun : run (chatStep C toAcp) w events = some w') :
    ∃ lost', WorldOk w' max lost' ∧
      (lost' = 0 ↔ lost = 0 ∧ ∀ e, e ∈ events → ¬ SendFails e) := by
  induction events generalizing w lost with
  | nil =>
      have hw : w = w' := by simpa using hrun
      exact ⟨lost, hw ▸ h, by simp⟩
  | cons e events ih =>
      simp only [run] at hrun
      cases hstep : chatStep C toAcp w e with
      | none => simp [hstep] at hrun
      | some u =>
          simp only [hstep] at hrun
          obtain ⟨lost', hok, hiff⟩ := ih (chatStep_worldOk C toAcp hmax h hstep) hrun
          refine ⟨lost', hok, hiff.trans ?_⟩
          rw [add_eq_zero, forgotten_eq_zero_iff h hstep, List.forall_mem_cons]
          constructor
          · rintro ⟨⟨hhere, hnone⟩, hlater⟩
            exact ⟨hnone, hhere, hlater⟩
          · rintro ⟨hnone, hhere, hlater⟩
            exact ⟨⟨hhere, hnone⟩, hlater⟩

/-- Between the handlers of any run nobody holds a packet of the pool, and no
call of `SendPacket` by a handler recycles a packet the handler holds. -/
theorem held_packets_not_recycled (C : Crypto) (toAcp : List UInt16 → List UInt8)
    {maxSession : Nat} (hmax : maxSession ≤ 2 ^ 16) {events : List ChatEvent} {w : World}
    (hrun : run (chatStep C toAcp) (World.start maxSession) events = some w) :
    PoolSafe w.server ∧
      ∀ e hd io, startHandler toAcp w e = some hd → HoldsThroughout C io hd := by
  obtain ⟨lost, hok, -⟩ := run_worldOk C toAcp hmax (start_worldOk maxSession) hrun
  refine ⟨poolSafe_of_owned hok.server.owned, ?_⟩
  intro e hd io hstart
  obtain ⟨hserver, -, heffects, hjobs⟩ := startHandler_ok toAcp hok hstart
  exact holdsThroughout_of_ok hmax C io hserver heffects hjobs

/-- Two clients enter room 1, and one of them writes there; the other has read its
answer by then, whose packet is free again. -/
def wordsInRoom : List ChatEvent :=
  let io : Nat → SendEnv := fun _ => ⟨List.replicate 12 0, fun _ => true⟩
  let enter : List UInt8 := [4, 0] ++ List.replicate 28 0 ++ [2, 0, 1, 0]
  [.net (.accept 7 true true), .net (.accept 8 true true),
    .update zeroEnv io, .update zeroEnv io,
    .net (.recvDone 0 enter true), .net (.recvDone 1 enter true),
    .update zeroEnv io, .update zeroEnv io,
    .net (.recvDone 0 ([6, 0] ++ List.replicate 28 0 ++ [4, 0, 2, 0, 104, 105]) true),
    .net (.sendDone 1 true)]

/-- Packet 0 is free after `wordsInRoom`.  In the broadcast of the text the first
send fails at once, and still neither the packet that carries the text nor the
request, which is packet 1, goes back to the pool. -/
theorem held_packets_in_broadcast :
    ∃ w hd fields, run (chatStep Crypto.none fun _ => []) (World.start 2) wordsInRoom = some w ∧
      startHandler (fun _ => []) w (.update zeroEnv fun _ => ⟨[], fun _ => false⟩) = some hd ∧
      w.server.pool = [0] ∧ (w.server.packets 0).refCount = 0 ∧
      .recv (sidOf 0 1) 0 ∉ w.server.contentQ ∧
      0 ∉ (w.server.sessions 0).queued ∧ 0 ∉ (w.server.sessions 0).sendPkts ∧
      hd.msg = some 1 ∧ hd.effects = [.send fields [sidOf 1 1, sidOf 0 1]] ∧
      let built := buildPacket Crypto.none [] fields hd.server
      let sent := sendAll built.1 (fun _ => false) [sidOf 1 1] built.2
      built.1 ∉ sent.pool ∧ 1 ∉ sent.pool := by
  have hfacts : ((run (chatStep Crypto.none fun _ => []) (World.start 2) wordsInRoom).bind
      fun w => (startHandler (fun _ => []) w (.update zeroEnv fun _ => ⟨[], fun _ => false⟩)).map
        fun hd => decide (w.server.pool = [0] ∧ 0 < w.server.maxSession ∧
          0 < (w.server.sessions 0).sendsOut ∧ hd.msg = some 1 ∧
          hd.effects.map effectTargets = [[sidOf 1 1, sidOf 0 1]])) = some true := by
    decide +kernel
  obtain ⟨w, hrun, hstarted⟩ := Option.bind_eq_some_iff.mp hfacts
  obtain ⟨hd, hstart, hdecided⟩ := Option.map_eq_some_iff.mp hstarted
  obtain ⟨hpool, hslot, hout, hmsg, htargets⟩ := of_decide_eq_true hdecided
  obtain ⟨fields, heffects⟩ : ∃ fields, hd.effects = [.send fields [sidOf 1 1, sidOf 0 1]] := by
    obtain ⟨effect, hone, heffect⟩ := List.map_eq_singleton_iff.mp htargets
    cases effect with
    | pushJob job => cases heffect
    | send fields targets => exact ⟨fields, heffect ▸ hone⟩
  obtain ⟨hsafe, hholds⟩ := held_packets_not_recycled Crypto.none _ (by decide) hrun
  obtain ⟨hfree, -, hqueue, hsessions⟩ := hsafe 0 (by simp [hpool])
  obtain ⟨hqueued, hsent⟩ := hsessions 0 hslot
  obtain ⟨hpacket, hrequest⟩ := hholds _ hd (fun _ => ⟨[], fun _ => false⟩) hstart [] fields
    [sidOf 1 1] [sidOf 0 1] [] heffects
  exact ⟨w, hd, fields, hrun, hstart, hpool, hfree, hqueue _, hqueued, hsent hout, hmsg, heffects,
    hpacket, hrequest 1 hmsg⟩

/-- No message waits, all send queues are empty and no I/O is outstanding. -/
def Quiescent (sv : Server) : Prop :=
  (∀ m, m ∈ sv.contentQ → messageRefs m = 0) ∧
    ∀ idx, idx < sv.maxSession → (sv.sessions idx).sqCount = 0 ∧
      (sv.sessions idx).recvsOut = 0 ∧ (sv.sessions idx).sendsOut = 0

instance (sv : Server) : Decidable (Quiescent sv) := inferInstanceAs (Decidable (_ ∧ _))

theorem holders_of_quiescent {sv : Server} (h : Quiescent sv) : holders sv = 0 := by
  have hsessions : ∑ i ∈ Finset.range sv.maxSession, sessionRefs (sv.sessions i) = 0 := by
    apply Finset.sum_eq_zero
    intro i hi
    obtain ⟨hcount, -, hsend⟩ := h.2 i (Finset.mem_range.mp hi)
    simp [sessionRefs, Session.queued, hcount, hsend]
  have hcontent : contentRefs sv.contentQ = 0 := by
    apply List.sum_eq_zero
    intro r hr
    obtain ⟨m, hm, hmr⟩ := List.mem_map.mp hr
    rw [← hmr]
    exact h.1 m hm
  rw [holders, hsessions, hcontent, add_zero]

/-- In every quiescent state a run leads to, all packets ever allocated are free
exactly if no send completion of the run has failed. -/
theorem all_packets_free_iff (C : Crypto) (toAcp : List UInt16 → List UInt8)
    {maxSession : Nat} (hmax : maxSession ≤ 2 ^ 16) {events : List ChatEvent} {w : World}
    (hrun : run (chatStep C toAcp) (World.start maxSession) events = some w)
    (hquiet : Quiescent w.server) :
    (∀ p, p < w.server.allocated →
      (w.server.packets p).refCount = 0 ∧ p ∈ w.server.pool) ↔
    ∀ e, e ∈ events → ¬ SendFails e := by
  obtain ⟨lost, hok, hlost⟩ := run_worldOk C toAcp hmax (start_worldOk maxSession) hrun
  have hbalanced := hok.server.owned.balanced
  rw [holders_of_quiescent hquiet, add_zero] at hbalanced
  exact hbalanced.all_free_iff.trans (hlost.trans (by simp))

/-- A frame with a wrong MAC takes a packet and gives it back. -/
theorem all_packets_free_after_badMac :
    ∃ w, run (chatStep Crypto.none fun _ => []) (World.start 1)
      [.net (.accept 7 true true),
        .net (.recvDone 0 (List.replicate 14 0 ++ List.replicate 16 1) true)] = some w ∧
      w.server.allocated = 1 ∧ 0 ∈ w.server.pool := by
  have hquiet : ((run (chatStep Crypto.none fun _ => []) (World.start 1)
      [.net (.accept 7 true true),
        .net (.recvDone 0 (List.replicate 14 0 ++ List.replicate 16 1) true)]).map fun w =>
          decide (w.server.allocated = 1 ∧ Quiescent w.server)) = some true := by
    decide +kernel
  obtain ⟨w, hrun, hw⟩ := Option.map_eq_some_iff.mp hquiet
  obtain ⟨hone, hq⟩ := of_decide_eq_true hw
  have hfree := (all_packets_free_iff Crypto.none _ (by decide) hrun hq).mpr (by
    simp [SendFails])
  exact ⟨w, hrun, hone, (hfree 0 (by omega)).2⟩

/-- A client enters a room, and the answer it was sent cannot be delivered: both
outstanding operations fail, and the leave message is handled. -/
def lostAnswer : List ChatEvent :=
  let io : Nat → SendEnv := fun _ => ⟨List.replicate 12 0, fun _ => true⟩
  [.net (.accept 7 true true),
    .net (.recvDone 0 ([4, 0] ++ List.replicate 28 0 ++ [2, 0, 1, 0]) true),
    .update zeroEnv io,
    .update zeroEnv io,
    .net (.sendFailed 0),
    .net (.recvFailed 0),
    .update zeroEnv io]

/-- After `lostAnswer` nothing is going on, and packet 1 is neither held by
anybody nor free. -/
theorem packet_lost_after_lostAnswer :
    ∃ w, run (chatStep Crypto.none fun _ => []) (World.start 1) lostAnswer = some w ∧
      Quiescent w.server ∧
      1 < w.server.allocated ∧ (w.server.packets 1).refCount = 1 ∧ 1 ∉ w.server.pool := by
  have hlost : ((run (chatStep Crypto.none fun _ => []) (World.start 1) lostAnswer).map
      fun w => decide (Quiescent w.server ∧ 1 < w.server.allocated ∧
        (w.server.packets 1).refCount = 1 ∧ 1 ∉ w.server.pool)) = some true := by
    decide +kernel
  obtain ⟨w, hrun, hw⟩ := Option.map_eq_some_iff.mp hlost
  exact ⟨w, hrun, of_decide_eq_true hw⟩

end IocpChat.PacketLifetimes
