import Mathlib.Algebra.Order.BigOperators.Group.Multiset
import IocpChat.LabelledRun
import IocpChat.RefCounting
import IocpChat.SlotLifecycle

/-!
Who holds a reference to a packet: the content queue for each message, each
session for what is queued and for what a send that is outstanding carries, and
the handler that is running.  Every function of the network layer keeps the
reference counts balanced against these holders.
-/

namespace IocpChat.PacketOwnership

open IocpChat.Protocol
open IocpChat.RingWindow
open IocpChat.PacketBuffer
open IocpChat.RingBuffer
open IocpChat.LanServer
open IocpChat.SendQueue
open IocpChat.ReceivePath
open IocpChat.RefCounting
open IocpChat.SlotInvariant
open IocpChat.SlotSteps
open IocpChat.LabelledRun

/-- The counts and the pool of the server. -/
def refs (sv : Server) : Refs where
  count := fun p => (sv.packets p).refCount
  allocated := sv.allocated
  pool := sv.pool

/-- What a session holds: its queue, and the batch while its send is outstanding. -/
def sessionRefs (s : Session) : Multiset PacketRef :=
  ↑s.queued + if s.sendsOut = 0 then 0 else ↑s.sendPkts

/-- What a message holds. -/
def messageRefs : Message → Multiset PacketRef
  | .recv _ p => {p}
  | _ => 0

/-- What the content queue holds. -/
def contentRefs (q : List Message) : Multiset PacketRef := (q.map messageRefs).sum

/-- Whoever holds a packet between two handlers. -/
def holders (sv : Server) : Multiset PacketRef :=
  ∑ i ∈ Finset.range sv.maxSession, sessionRefs (sv.sessions i) + contentRefs sv.contentQ

section Counts

variable (sv : Server)

theorem refs_setPacket_of_refCount (p : PacketRef) (pkt : CPacket) :
    refs (sv.setPacket p pkt) =
      { refs sv with count := Function.update (refs sv).count p pkt.refCount } := by
  simp only [refs, Server.setPacket, Refs.mk.injEq, and_true]
  funext q
  rcases eq_or_ne q p with rfl | hne
  · simp
  · simp [hne]

theorem refs_setPacket_same {p : PacketRef} {pkt : CPacket}
    (h : pkt.refCount = (sv.packets p).refCount) : refs (sv.setPacket p pkt) = refs sv := by
  have hsame : Function.update (refs sv).count p pkt.refCount = (refs sv).count :=
    Function.update_eq_self_iff.mpr h
  rw [refs_setPacket_of_refCount, hsame]

theorem alloc_fst : sv.alloc.1 = (refs sv).alloc.1 := by
  have hpool : (refs sv).pool = sv.pool := rfl
  cases h : sv.pool with
  | nil =>
      rw [h] at hpool
      simp only [Server.alloc, Refs.alloc, h, hpool]
      rfl
  | cons p rest =>
      rw [h] at hpool
      simp only [Server.alloc, Refs.alloc, h, hpool]

theorem refs_alloc : refs sv.alloc.2 = (refs sv).alloc.2 := by
  have hpool : (refs sv).pool = sv.pool := rfl
  cases h : sv.pool with
  | nil =>
      have hset := refs_setPacket_of_refCount
        { sv with allocated := sv.allocated + 1, pool := [] } sv.allocated
        { CPacket.new with refCount := 1 }
      rw [h] at hpool
      simp only [Server.alloc, Refs.alloc, h, hpool]
      exact hset
  | cons p rest =>
      have hset := refs_setPacket_of_refCount { sv with pool := rest } p
        { (sv.packets p).clear with refCount := 1 }
      rw [h] at hpool
      simp only [Server.alloc, Refs.alloc, h, hpool]
      exact hset

theorem refs_addRef (p : PacketRef) : refs (sv.addRef p) = (refs sv).addRef p :=
  refs_setPacket_of_refCount sv p _

theorem refs_release (p : PacketRef) : refs (sv.release p) = (refs sv).release p := by
  have hset := refs_setPacket_of_refCount sv p
    { sv.packets p with refCount := (sv.packets p).refCount - 1 }
  rcases eq_or_ne ((sv.packets p).refCount - 1) 0 with hzero | hne
  · have hcount : (refs sv).count p - 1 = 0 := hzero
    simp only [Server.release, Refs.release, if_pos hzero, if_pos hcount]
    exact congrArg (fun r : Refs => { r with pool := p :: sv.pool }) hset
  · have hcount : ¬ (refs sv).count p - 1 = 0 := hne
    simp only [Server.release, Refs.release, if_neg hne, if_neg hcount]
    exact hset

end Counts

section Queue

/-- The circular send queue is in order, and empty where nobody would empty it. -/
structure QueueOk (s : Session) : Prop where
  head_lt : s.sqHead < qsize
  tail_eq : s.sqTail = (s.sqHead + s.sqCount) % qsize
  count_le : s.sqCount ≤ qsize
  closed : s.closeFlag = true → s.sqCount = 0
  idle : s.ioRefCount = 0 → s.sqCount = 0
  sent : s.sendsOut ≠ 0 → s.sendPkts ≠ []

/-- A session whose queue has become the batch to be sent. -/
def loaded (s : Session) : Session :=
  { s with
    sendPending := true
    sqHead := (s.sqHead + s.sqCount) % qsize
    sqCount := 0
    sendPkts := s.queued }

theorem flushSend_eq (sv : Server) {idx : Nat} (accepted : Bool)
    (hqueue : QueueOk (sv.sessions idx)) (hgate : ¬ (sv.sessions idx).sendPending = true) :
    sv.flushSend idx accepted =
      let sv' := (sv.setSession idx (loaded (sv.sessions idx))).ioAddRef idx
      if accepted then
        sv'.setSession idx
          { sv'.sessions idx with sendsOut := (sv'.sessions idx).sendsOut + 1 }
      else ((sv'.releaseBatch idx).closeSession idx).ioRelease idx := by
  obtain ⟨hfst, hsnd⟩ := takeQueue_all qsize
    (s := { sv.sessions idx with sendPending := true }) hqueue.head_lt hqueue.count_le
  simp only [Server.flushSend, if_neg hgate, hfst, hsnd]
  rfl

theorem queueOk_new : QueueOk Session.new := by
  refine ⟨by decide, rfl, by decide, ?_, ?_, ?_⟩
  · intro _
    rfl
  · intro _
    rfl
  · intro h
    exact absurd rfl h

theorem QueueOk.enqueue {s : Session} (h : QueueOk s) (hroom : s.sqCount < qsize)
    (hopen : s.closeFlag = false) (hlive : 0 < s.ioRefCount) (p : PacketRef) :
    QueueOk (s.enqueue p) := by
  refine ⟨h.head_lt, ?_, ?_, ?_, ?_, h.sent⟩
  · simp only [Session.enqueue, h.tail_eq, Nat.mod_add_mod, Nat.add_assoc]
  · simp only [Session.enqueue]
    omega
  · intro hclosed
    simp [Session.enqueue, hopen] at hclosed
  · intro hzero
    simp only [Session.enqueue] at hzero
    omega

theorem QueueOk.emptied {t : Session} (hhead : t.sqHead < qsize)
    (htail : t.sqTail = t.sqHead) (hcount : t.sqCount = 0)
    (hsent : t.sendsOut ≠ 0 → t.sendPkts ≠ []) : QueueOk t := by
  refine ⟨hhead, ?_, ?_, fun _ => hcount, fun _ => hcount, hsent⟩
  · rw [htail, hcount, Nat.add_zero, Nat.mod_eq_of_lt hhead]
  · omega

end Queue

/-- The queues are in order and the counts are balanced, the running handler
holding `held` on its own. -/
structure Owned (sv : Server) (max : Nat) (held : Multiset PacketRef) : Prop where
  size : sv.maxSession = max
  queues : ∀ i, i < max → QueueOk (sv.sessions i)
  balanced : Balanced (refs sv) (held + holders sv)

section Steps

variable {sv : Server} {max idx busy : Nat} {held : Multiset PacketRef}

theorem Owned.congr {sv' : Server} (h : Owned sv max held)
    (hmax : sv'.maxSession = sv.maxSession) (hsessions : sv'.sessions = sv.sessions)
    (hrefs : refs sv' = refs sv) (hcontent : contentRefs sv'.contentQ = contentRefs sv.contentQ) :
    Owned sv' max held := by
  refine ⟨hmax.trans h.size, ?_, ?_⟩
  · rw [hsessions]
    exact h.queues
  · rw [hrefs, holders, hmax, hsessions, hcontent]
    exact h.balanced

theorem Owned.setSession {held' : Multiset PacketRef} (h : Owned sv max held)
    (hidx : idx < max) {s : Session} (hqueue : QueueOk s)
    (htrade : held' + sessionRefs s = held + sessionRefs (sv.sessions idx)) :
    Owned (sv.setSession idx s) max held' := by
  refine ⟨h.size, ?_, ?_⟩
  · intro i hi
    rcases eq_or_ne i idx with rfl | hne
    · simpa [Server.setSession] using hqueue
    · simpa [Server.setSession, hne] using h.queues i hi
  · have hmem : idx ∈ Finset.range sv.maxSession := by
      rw [h.size]
      exact Finset.mem_range.mpr hidx
    have hsum := sum_update_trade (Finset.range sv.maxSession) sessionRefs sv.sessions hmem s
    have hsame : held' + holders (sv.setSession idx s) = held + holders sv := by
      apply add_right_cancel (b := sessionRefs (sv.sessions idx))
      calc held' + holders (sv.setSession idx s) + sessionRefs (sv.sessions idx)
          = held' + (∑ i ∈ Finset.range sv.maxSession,
              sessionRefs (Function.update sv.sessions idx s i) +
                sessionRefs (sv.sessions idx)) + contentRefs sv.contentQ := by
            simp only [holders, Server.setSession]
            ac_rfl
        _ = held' + sessionRefs s + holders sv := by
            rw [hsum]
            simp only [holders]
            ac_rfl
        _ = held + holders sv + sessionRefs (sv.sessions idx) := by
            rw [htrade, add_right_comm]
    rw [hsame]
    exact h.balanced

theorem holders_of_same {sv' : Server} (hmax : sv'.maxSession = sv.maxSession)
    (hsessions : sv'.sessions = sv.sessions) (hcontent : sv'.contentQ = sv.contentQ) :
    holders sv' = holders sv := by
  rw [holders, hmax, hsessions, hcontent, holders]

theorem alloc_owned (h : Owned sv max held) : Owned sv.alloc.2 max (sv.alloc.1 ::ₘ held) := by
  have hcontent : sv.alloc.2.contentQ = sv.contentQ := by
    simp only [Server.alloc]
    split <;> rfl
  refine ⟨(alloc_maxSession sv).trans h.size, ?_, ?_⟩
  · rw [Server.alloc_sessions]
    exact h.queues
  · rw [holders_of_same (alloc_maxSession sv) (Server.alloc_sessions sv) hcontent, refs_alloc,
      alloc_fst, Multiset.cons_add]
    exact h.balanced.alloc

theorem addRef_owned (h : Owned sv max held) {p : PacketRef} (hp : p ∈ held) :
    Owned (sv.addRef p) max (p ::ₘ held) := by
  refine ⟨h.size, h.queues, ?_⟩
  rw [holders_of_same rfl rfl rfl, refs_addRef, Multiset.cons_add]
  exact h.balanced.addRef (Multiset.mem_add.mpr (Or.inl hp))

theorem release_contentQ (sv : Server) (p : PacketRef) :
    (sv.release p).contentQ = sv.contentQ := by
  simp only [Server.release]
  split <;> rfl

theorem release_owned {p : PacketRef} (h : Owned sv max (p ::ₘ held)) :
    Owned (sv.release p) max held := by
  refine ⟨(release_maxSession sv p).trans h.size, ?_, ?_⟩
  · rw [Server.release_sessions]
    exact h.queues
  · rw [holders_of_same (release_maxSession sv p) (Server.release_sessions sv p)
      (release_contentQ sv p), refs_release]
    have hbalanced := h.balanced
    rw [Multiset.cons_add] at hbalanced
    exact hbalanced.release

theorem releaseAll_owned {ps : List PacketRef} (h : Owned sv max (↑ps + held)) :
    Owned (sv.releaseAll ps) max held := by
  induction ps generalizing sv with
  | nil =>
      rw [Multiset.coe_nil, zero_add] at h
      exact h
  | cons p ps ih =>
      change Owned ((sv.release p).releaseAll ps) max held
      apply ih
      apply release_owned
      rwa [← Multiset.cons_coe, Multiset.cons_add] at h

theorem ioAddRef_owned (h : Owned sv max held) (hidx : idx < max)
    (hlive : 0 < (sv.sessions idx).ioRefCount) : Owned (sv.ioAddRef idx) max held := by
  have hqueue := h.queues idx hidx
  refine h.setSession hidx ⟨hqueue.head_lt, hqueue.tail_eq, hqueue.count_le, hqueue.closed,
    ?_, hqueue.sent⟩ rfl
  intro hzero
  simp only at hzero
  omega

theorem ioRelease_owned (h : Owned sv max held) (hidx : idx < max)
    (hlast : (sv.sessions idx).ioRefCount - 1 = 0 → (sv.sessions idx).sqCount = 0) :
    Owned (sv.ioRelease idx) max held := by
  have hqueue := h.queues idx hidx
  have hset := h.setSession hidx (s := { sv.sessions idx with
      ioRefCount := (sv.sessions idx).ioRefCount - 1 }) ⟨hqueue.head_lt, hqueue.tail_eq,
    hqueue.count_le, hqueue.closed, hlast, hqueue.sent⟩ rfl
  simp only [Server.ioRelease]
  split
  · exact hset.congr rfl rfl rfl rfl
  · exact hset

theorem contentRefs_append (q : List Message) (m : Message) :
    contentRefs (q ++ [m]) = contentRefs q + messageRefs m := by
  simp [contentRefs]

/-- A message takes over the reference it carries. -/
theorem Owned.push {m : Message} (h : Owned sv max (messageRefs m + held)) :
    Owned { sv with contentQ := sv.contentQ ++ [m] } max held := by
  refine ⟨h.size, h.queues, ?_⟩
  have hsame : held + holders { sv with contentQ := sv.contentQ ++ [m] } =
      messageRefs m + held + holders sv := by
    simp only [holders, contentRefs_append]
    ac_rfl
  rw [hsame]
  exact h.balanced

theorem onClientLeave_owned (h : Owned sv max held) (i : Nat) (sid : SessionID) :
    Owned (sv.onClientLeave i sid) max held :=
  (Owned.push (m := .leave sid) (by simpa [messageRefs] using h)).congr rfl rfl rfl rfl

theorem onClientJoin_owned (h : Owned sv max held) (i : Nat) (sid : SessionID) :
    Owned (sv.onClientJoin i sid) max held :=
  (Owned.push (m := .join sid) (by simpa [messageRefs] using h)).congr rfl rfl rfl rfl

theorem closeSession_owned (h : Owned sv max held) (hidx : idx < max) :
    Owned (sv.closeSession idx) max held := by
  simp only [Server.closeSession]
  split
  · exact h
  · have hqueue := h.queues idx hidx
    obtain ⟨hfst, hsnd⟩ := takeQueue_all (sv.sessions idx).sqCount
      (s := { sv.sessions idx with closeFlag := true, sock := none }) hqueue.head_lt (le_refl _)
    rw [hfst, hsnd]
    have hset : Owned (sv.setSession idx { sv.sessions idx with
        closeFlag := true
        sock := none
        sqHead := ((sv.sessions idx).sqHead + (sv.sessions idx).sqCount) % qsize
        sqCount := 0 }) max (↑(sv.sessions idx).queued + held) := by
      refine h.setSession hidx
        (.emptied (Nat.mod_lt _ (by decide)) hqueue.tail_eq rfl hqueue.sent) ?_
      simp only [sessionRefs, Session.queued, window_zero, Multiset.coe_nil, zero_add]
      ac_rfl
    refine ioRelease_owned ((onClientLeave_owned (releaseAll_owned hset) idx _).congr
      rfl rfl rfl rfl) hidx ?_
    intro _
    simp [Server.onClientLeave, Server.setSession]

theorem closed_sqCount (h : Owned sv max held) (hidx : idx < max) :
    ((sv.closeSession idx).sessions idx).sqCount = 0 :=
  ((closeSession_owned h hidx).queues idx hidx).closed (closeSession_closed sv idx)

theorem postRecv_owned (h : Owned sv max held) (hidx : idx < max)
    (hlive : 0 < (sv.sessions idx).ioRefCount) (accepted : Bool) :
    Owned (sv.postRecv idx accepted) max held := by
  have hadd := ioAddRef_owned h hidx hlive
  have hqueue := hadd.queues idx hidx
  simp only [Server.postRecv]
  split
  · exact hadd.setSession hidx ⟨hqueue.head_lt, hqueue.tail_eq, hqueue.count_le, hqueue.closed,
      hqueue.idle, hqueue.sent⟩ rfl
  · exact ioRelease_owned (closeSession_owned hadd hidx) hidx fun _ => closed_sqCount hadd hidx

theorem releaseBatch_owned (h : Owned sv max (↑(sv.sessions idx).sendPkts + held))
    (hidx : idx < max) (hnone : (sv.sessions idx).sendsOut = 0) :
    Owned (sv.releaseBatch idx) max held := by
  have hrel := releaseAll_owned h
  have hqueue := h.queues idx hidx
  refine hrel.setSession hidx ?_ ?_
  · rw [Server.releaseAll_sessions]
    exact ⟨hqueue.head_lt, hqueue.tail_eq, hqueue.count_le, hqueue.closed, hqueue.idle,
      fun hout => absurd hnone hout⟩
  · simp only [Server.releaseAll_sessions, sessionRefs, Session.queued, hnone, if_true]

theorem flushSend_owned (hslots : SlotsOk sv max idx busy) (h : Owned sv max held)
    (hidx : idx < max) (hlive : 0 < (sv.sessions idx).ioRefCount)
    (hcount : 0 < (sv.sessions idx).sqCount) (accepted : Bool) :
    Owned (sv.flushSend idx accepted) max held := by
  rcases Bool.eq_false_or_eq_true (sv.sessions idx).sendPending with hgate | hgate
  · simpa only [Server.flushSend, hgate, if_true] using h
  · have hgate' : ¬ (sv.sessions idx).sendPending = true := by simp [hgate]
    have hnone := sendsOut_of_gate hslots hidx hgate'
    have hqueue := h.queues idx hidx
    have hbatch : (sv.sessions idx).queued ≠ [] := by
      apply List.ne_nil_of_length_pos
      simpa [Session.queued] using hcount
    have hset : Owned (sv.setSession idx (loaded (sv.sessions idx))) max
        (↑(sv.sessions idx).queued + held) := by
      refine h.setSession hidx (.emptied (Nat.mod_lt _ (by decide)) hqueue.tail_eq rfl
        fun hout => absurd hnone hout) ?_
      simp only [sessionRefs, loaded, Session.queued, window_zero, Multiset.coe_nil, hnone,
        if_true]
      ac_rfl
    have hadd := ioAddRef_owned hset hidx (by simpa [Server.setSession, loaded] using hlive)
    rw [flushSend_eq sv accepted hqueue hgate']
    generalize hsv : (sv.setSession idx (loaded (sv.sessions idx))).ioAddRef idx = sv' at hadd
    have hqueue' := hadd.queues idx hidx
    have hnone' : (sv'.sessions idx).sendsOut = 0 := by
      simpa [← hsv, Server.ioAddRef, Server.setSession, loaded] using hnone
    have hpkts : (sv'.sessions idx).sendPkts = (sv.sessions idx).queued := by
      simp [← hsv, Server.ioAddRef, Server.setSession, loaded]
    rw [← hpkts] at hadd
    cases accepted with
    | true =>
        refine hadd.setSession hidx ⟨hqueue'.head_lt, hqueue'.tail_eq, hqueue'.count_le,
          hqueue'.closed, hqueue'.idle, fun _ => ?_⟩ ?_
        · exact hpkts ▸ hbatch
        · simp only [sessionRefs, Session.queued, hnone']
          simp only [Nat.zero_add, Nat.one_ne_zero, if_true, if_false]
          ac_rfl
    | false =>
        have hclear := releaseBatch_owned hadd hidx hnone'
        exact ioRelease_owned (closeSession_owned hclear hidx) hidx fun _ =>
          closed_sqCount hclear hidx

theorem onSendComplete_owned (hslots : SlotsOk sv max idx (busy + 1))
    (h : Owned sv max (↑(sv.sessions idx).sendPkts + held)) (hidx : idx < max)
    (hnone : (sv.sessions idx).sendsOut = 0) (accepted : Bool) :
    Owned (sv.onSendComplete idx accepted) max held := by
  have hslots' := releaseBatch_slotsOk hslots hidx hnone
  have hclear := releaseBatch_owned h hidx hnone
  simp only [Server.onSendComplete]
  split
  · rename_i hcount
    exact flushSend_owned hslots' hclear hidx (hslots'.pos_of_busy hidx) hcount accepted
  · exact hclear

theorem sendPacket_owned (hslots : SlotsOk sv max idx 0) (h : Owned sv max held)
    {sid : SessionID}
    (hlive : sidIndex sid < max →
      (sv.sessions (sidIndex sid)).generation = sidGeneration sid →
      (sv.sessions (sidIndex sid)).closeFlag = false →
      0 < (sv.sessions (sidIndex sid)).ioRefCount)
    {p : PacketRef} (hp : p ∈ held) (accepted : Bool) :
    Owned (sv.sendPacket sid p accepted).2 max held := by
  simp only [Server.sendPacket]
  split
  · exact h
  · rename_i hmax
    have hidx : sidIndex sid < max := by
      have hsize := h.size
      omega
    split
    · exact h
    · rename_i hgen
      split
      · exact h
      · rename_i hopen
        have hopen : (sv.sessions (sidIndex sid)).closeFlag = false := by simpa using hopen
        have hpos := hlive hidx (not_not.mp hgen) hopen
        split
        · exact closeSession_owned h hidx
        · rename_i hroom
          have hroom : (sv.sessions (sidIndex sid)).sqCount < qsize := by omega
          have hslots' : SlotsOk (sv.addRef p) max (sidIndex sid) 0 :=
            (hslots.of_zero (sidIndex sid)).congr rfl (view_addRef sv p)
          have hqueue := h.queues (sidIndex sid) hidx
          have hset : Owned ((sv.addRef p).setSession (sidIndex sid)
              ((sv.sessions (sidIndex sid)).enqueue p)) max held := by
            refine (addRef_owned h hp).setSession hidx (hqueue.enqueue hroom hopen hpos p) ?_
            simp only [sessionRefs, queued_enqueue hqueue.tail_eq hroom, Server.addRef_sessions,
              ← Multiset.coe_add, Multiset.coe_singleton, ← Multiset.singleton_add]
            simp only [Session.enqueue]
            ac_rfl
          have hslots'' := hslots'.setSession hidx ((hslots'.here hidx).congr_session
            (s := (sv.sessions (sidIndex sid)).enqueue p)
            rfl rfl rfl rfl rfl rfl (hslots'.here hidx).pending_of_sent)
          refine flushSend_owned hslots'' hset hidx ?_ ?_ accepted
          · simpa [Server.setSession, Session.enqueue] using hpos
          · simp [Server.setSession, Session.enqueue]

theorem disconnect_owned (h : Owned sv max held) (sid : SessionID) :
    Owned (sv.disconnect sid).2 max held := by
  simp only [Server.disconnect]
  split
  · exact h
  · rename_i hmax
    split
    · exact h
    · apply closeSession_owned h
      have hsize := h.size
      omega

theorem allocSession_owned (hslots : SlotsOk sv max idx 0) (h : Owned sv max held)
    {sock i : Nat} {sv' : Server} (halloc : sv.allocSession sock = some (i, sv')) :
    Owned sv' max held := by
  obtain ⟨hi, -⟩ := allocSession_slotsOk hslots halloc
  simp only [Server.allocSession] at halloc
  split at halloc
  · simp at halloc
  · rename_i j rest hpool
    obtain ⟨hji, hsv⟩ := Prod.mk.inj (Option.some.inj halloc)
    subst hji hsv
    have hfree : (sv.sessions j).ioRefCount = 0 ∧ (sv.sessions j).sendsOut = 0 := by
      cases (hslots.of_zero j).here hi with
      | free _ _ _ _ _ href _ hsend => exact ⟨href, hsend⟩
      | used _ _ hnone => simp [view, hpool] at hnone
    -- a free slot holds nothing that `InitSession` could forget
    have hcount := (h.queues j hi).idle hfree.1
    have hqueue : QueueOk ((sv.sessions j).init j sock) :=
      .emptied (show 0 < qsize by decide) rfl rfl fun hout => absurd hfree.2 hout
    have hset : Owned (sv.setSession j ((sv.sessions j).init j sock)) max held := by
      refine h.setSession hi hqueue ?_
      simp [sessionRefs, Session.init, Session.queued, hfree.2, hcount]
    exact hset.congr rfl rfl rfl rfl

theorem acceptOne_owned (hslots : SlotsOk sv max idx 0) (h : Owned sv max held) (sock : Nat)
    (registered accepted : Bool) : Owned (sv.acceptOne sock registered accepted) max held := by
  simp only [Server.acceptOne]
  split
  · exact h
  · rename_i i sv' halloc
    obtain ⟨hi, -, hpos, -⟩ := allocSession_slotsOk hslots halloc
    have hopened := allocSession_owned hslots h halloc
    split
    · exact closeSession_owned hopened hi
    · have hcounted : Owned { sv' with totalAccept := sv'.totalAccept + 1 } max held :=
        hopened.congr rfl rfl rfl rfl
      exact postRecv_owned (onClientJoin_owned hcounted i (sv'.sessions i).sID) hi hpos accepted

theorem onRecv_owned (h : Owned sv max held) (hidx : idx < max) {p : PacketRef}
    (hp : p ∈ held) : Owned (sv.onRecv idx p) max held := by
  have hpush : Owned { sv.addRef p with
      contentQ := (sv.addRef p).contentQ ++ [.recv (sv.sessions idx).sID p] } max held := by
    apply Owned.push
    rw [messageRefs, Multiset.singleton_add]
    exact addRef_owned h hp
  have hqueue := h.queues idx hidx
  exact hpush.setSession hidx ⟨hqueue.head_lt, hqueue.tail_eq, hqueue.count_le, hqueue.closed,
    hqueue.idle, hqueue.sent⟩ rfl

theorem deliver_owned (h : Owned sv max held) (hidx : idx < max) (plain : List UInt8) :
    Owned (deliver sv idx plain) max held := by
  have hraw : Owned (sv.alloc.2.setPacket sv.alloc.1
      ((sv.alloc.2.packets sv.alloc.1).attachRaw plain)) max (sv.alloc.1 ::ₘ held) := by
    refine (alloc_owned h).congr rfl rfl (refs_setPacket_same _ ?_) rfl
    simp only [CPacket.attachRaw]
    split <;> rfl
  exact release_owned (onRecv_owned hraw hidx (Multiset.mem_cons_self _ _))

theorem discardFrame_owned (h : Owned sv max held) : Owned (discardFrame sv) max held := by
  apply release_owned (p := sv.alloc.1)
  exact (alloc_owned h).congr rfl rfl rfl rfl

theorem setRecvBuffer_owned (h : Owned sv max held) (hidx : idx < max) (rb : CRingBuffer) :
    Owned (setRecvBuffer sv idx rb) max held := by
  have hqueue := h.queues idx hidx
  exact h.setSession hidx ⟨hqueue.head_lt, hqueue.tail_eq, hqueue.count_le, hqueue.closed,
    hqueue.idle, hqueue.sent⟩ rfl

theorem recvLoop_owned (C : Crypto) (h : Owned sv max held) (hidx : idx < max) :
    Owned (recvLoop C idx sv).1 max held := by
  induction sv using recvLoop.induct C idx with
  | case1 sv hwait =>
      rw [recvLoop, hwait]
      exact h
  | case2 sv hlong =>
      rw [recvLoop, hlong]
      exact closeSession_owned h hidx
  | case3 sv hunder =>
      rw [recvLoop, hunder]
      exact h
  | case4 sv rb hbad =>
      rw [recvLoop, hbad]
      exact closeSession_owned (discardFrame_owned (setRecvBuffer_owned h hidx rb)) hidx
  | case5 sv rb plain hframe ih =>
      rw [recvLoop, hframe]
      exact ih (deliver_owned (setRecvBuffer_owned h hidx rb) hidx plain)

theorem sqCount_of_last (hslots : SlotsOk sv max idx 1) (h : Owned sv max held)
    (hidx : idx < max) (hlast : (sv.sessions idx).ioRefCount - 1 = 0) :
    (sv.sessions idx).sqCount = 0 := by
  apply (h.queues idx hidx).closed
  cases hslots.here hidx with
  | free _ _ _ _ _ _ _ _ hbusy => omega
  | used _ _ _ _ _ href =>
      by_contra hopen
      have href : (sv.sessions idx).ioRefCount = base (sv.sessions idx) +
        (sv.sessions idx).recvsOut + (sv.sessions idx).sendsOut + (1 : Nat) := href
      simp only [base, hopen, if_false] at href
      omega

theorem onRecvComplete_owned (C : Crypto) (hslots : SlotsOk sv max idx 1)
    (h : Owned sv max held) (hidx : idx < max) (hnone : (sv.sessions idx).recvsOut = 0)
    (bytes : Nat) (accepted : Bool) : Owned (onRecvComplete C sv idx bytes accepted) max held := by
  have hset := setRecvBuffer_slotsOk hslots hidx
    ((sv.sessions idx).recvBuffer.moveWritePos bytes)
  have hloop := (recvLoop_slotsOk C hset hidx
    (by simpa [setRecvBuffer, Server.setSession] using hnone)).1
  have howned := recvLoop_owned C (setRecvBuffer_owned h hidx
    ((sv.sessions idx).recvBuffer.moveWritePos bytes)) hidx
  simp only [onRecvComplete, resumeRecv]
  split
  · exact howned
  · split
    · exact closeSession_owned howned hidx
    · exact postRecv_owned howned hidx (hloop.pos_of_busy hidx) accepted

theorem takeRecv_owned (h : Owned sv max held) (hidx : idx < max) (bytes : List UInt8) :
    Owned (takeRecv sv idx bytes) max held := by
  have hqueue := h.queues idx hidx
  exact h.setSession hidx ⟨hqueue.head_lt, hqueue.tail_eq, hqueue.count_le, hqueue.closed,
    hqueue.idle, hqueue.sent⟩ rfl

theorem takeSend_owned (hslots : SlotsOk sv max idx 0) (h : Owned sv max held)
    (hidx : idx < max) (hout : 0 < (sv.sessions idx).sendsOut) :
    Owned (takeSend sv idx) max (↑(sv.sessions idx).sendPkts + held) := by
  have hqueue := h.queues idx hidx
  have hle : (sv.sessions idx).sendsOut ≤ 1 := ((hslots.of_zero idx).here hidx).sendsOut_le
  have hone : (sv.sessions idx).sendsOut = 1 := by omega
  refine h.setSession hidx ⟨hqueue.head_lt, hqueue.tail_eq, hqueue.count_le, hqueue.closed,
    hqueue.idle, fun hleft => absurd hleft (by simp [hone])⟩ ?_
  simp only [sessionRefs, Session.queued, hone, Nat.sub_self, Nat.one_ne_zero, if_true, if_false]
  rw [add_zero]
  ac_rfl

theorem recvDone_owned (C : Crypto) (hslots : SlotsOk sv max idx 0) (h : Owned sv max held)
    (hidx : idx < max) (hout : 0 < (sv.sessions idx).recvsOut) (bytes : List UInt8)
    (accepted : Bool) : Owned (recvDone C sv idx bytes accepted) max held := by
  obtain ⟨htaken, hnone⟩ := takeRecv_slotsOk hslots hidx hout bytes
  have hcomplete := onRecvComplete_owned C htaken (takeRecv_owned h hidx bytes) hidx hnone
    bytes.length accepted
  refine ioRelease_owned hcomplete hidx (sqCount_of_last ?_ hcomplete hidx)
  exact onRecvComplete_slotsOk C htaken hidx hnone bytes.length accepted

theorem recvFailed_owned (h : Owned sv max held) (hidx : idx < max) :
    Owned (recvFailed sv idx) max held := by
  have htaken := takeRecv_owned h hidx []
  exact ioRelease_owned (closeSession_owned htaken hidx) hidx fun _ =>
    closed_sqCount htaken hidx

theorem sendDone_owned (hslots : SlotsOk sv max idx 0) (h : Owned sv max held)
    (hidx : idx < max) (hout : 0 < (sv.sessions idx).sendsOut) (accepted : Bool) :
    Owned (sendDone sv idx accepted) max held := by
  obtain ⟨htaken, hnone⟩ := takeSend_slotsOk hslots hidx hout
  have hbatch : ((takeSend sv idx).sessions idx).sendPkts = (sv.sessions idx).sendPkts := by
    simp [takeSend, Server.setSession]
  have howned := takeSend_owned hslots h hidx hout
  rw [← hbatch] at howned
  have hcomplete := onSendComplete_owned htaken howned hidx hnone accepted
  refine ioRelease_owned hcomplete hidx (sqCount_of_last ?_ hcomplete hidx)
  exact onSendComplete_slotsOk htaken hidx hnone accepted

theorem sendFailed_owned (hslots : SlotsOk sv max idx 0) (h : Owned sv max held)
    (hidx : idx < max) (hout : 0 < (sv.sessions idx).sendsOut) :
    Owned (sendFailed sv idx) max (↑(sv.sessions idx).sendPkts + held) := by
  have htaken := takeSend_owned hslots h hidx hout
  exact ioRelease_owned (closeSession_owned htaken hidx) hidx fun _ =>
    closed_sqCount htaken hidx

end Steps

end IocpChat.PacketOwnership
