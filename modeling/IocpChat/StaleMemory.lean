import IocpChat.ChatOrder
import IocpChat.ClientRequests
import IocpChat.RoomChanges

/-!
The locals that `Handle_Recv`, `HandleRoomEnter` and `HandleChat` read into are not
initialised, and a read that finds too few bytes leaves them as they are.  This module
says for which payloads the outcome does not depend on them.
-/

namespace IocpChat.StaleMemory

open IocpChat.Protocol
open IocpChat.RingWindow
open IocpChat.PacketBuffer
open IocpChat.FrameCodec
open IocpChat.ContentHandlers
open IocpChat.RoomMembership
open IocpChat.ClientRequests
open IocpChat.ChatOrder

/-- What the uninitialised locals happen to hold. -/
structure Locals where
  type : UInt16
  no : UInt16
  chatLen : UInt16
  chat : Nat → UInt8

/-- The same event on other locals. -/
def withLocals (env : Env) (l : Locals) : Env :=
  { env with type := l.type, no := l.no, chatLen := l.chatLen, chat := l.chat }

/-- The plaintext of each packet with each of its recipients. -/
def deliveries (effects : List Effect) : List (List UInt8 × SessionID) :=
  effects.flatMap fun e => match e with
    | .pushJob _ => []
    | .send fields targets => targets.map fun sid => (fields.flatten, sid)

/-- The jobs that a handler pushes. -/
def jobs (effects : List Effect) : List DBJob :=
  effects.filterMap fun e => match e with
    | .pushJob job => some job
    | .send _ _ => none

/-- The same content, the same jobs and the same packets for the same recipients. -/
structure SameOutcome (x y : Content × List Effect) : Prop where
  content : x.1 = y.1
  jobs : jobs x.2 = jobs y.2
  deliveries : deliveries x.2 = deliveries y.2

/-- A chat broadcast passes on a length and a text that stand in the request. -/
def FromRequest (payload : List UInt8) : Effect → Prop
  | .pushJob _ => True
  | .send fields targets =>
      targets = [] ∨ fields.head? ≠ some (wordBytes PacketType.scChatRes.code) ∨
      ∃ nickname chatLen text,
        fields = [wordBytes PacketType.scChatRes.code, nickname, wordBytes chatLen, text] ∧
        wordBytes chatLen ++ text <+: payload.drop 2

/-- The outcome does not depend on what the locals hold, and a chat broadcast only
passes on what was in the request. -/
structure Unaffected (env : Env) (c : Content) (sid : SessionID) (pkt : CPacket) : Prop where
  same : ∀ l l', SameOutcome (handleRecv (withLocals env l) c sid pkt)
    (handleRecv (withLocals env l') c sid pkt)
  chat : ∀ l, ∀ e ∈ (handleRecv (withLocals env l) c sid pkt).2, FromRequest pkt.payload e

/-- The `WORD` at an offset of the payload. -/
def wordAt (payload : List UInt8) (i : Nat) : UInt16 :=
  leWord (payload.getD i 0) (payload.getD (i + 1) 0)

/-- Whatever of the request matters is there: the type; the room number, unless every
room would refuse the session; and, where anyone hears it, the text with its length. -/
def Complete (c : Content) (sid : SessionID) (payload : List UInt8) : Prop :=
  ∀ pl, c.players.lookup sid = some pl → 2 ≤ payload.length ∧
    (wordAt payload 0 = PacketType.csRoomEnterReq.code → payload.length < 4 →
      ∀ i, sid ∈ (c.rooms i).users ∨ maxLimitPerson ≤ (c.rooms i).users.length) ∧
    (wordAt payload 0 = PacketType.csChatReq.code → pl.state = .inRoom →
      ∀ i, getRoom pl.roomNo = some i → (c.rooms i).users ≠ [] →
        4 ≤ payload.length ∧ (maxChatLen < (wordAt payload 2).toNat ∨
          4 + (wordAt payload 2).toNat ≤ payload.length))

section Reads

variable {pkt : CPacket}

theorem payload_eq_word {payload : List UInt8} (h : 2 ≤ payload.length) :
    payload = wordBytes (wordAt payload 0) ++ payload.drop 2 := by
  rcases payload with _ | ⟨lo, _ | ⟨hi, rest⟩⟩
  · simp at h
  · simp at h
  · change lo :: hi :: rest = wordBytes (leWord lo hi) ++ rest
    rw [wordBytes_leWord]
    rfl

theorem readWord_of_le (h : 2 ≤ pkt.payload.length) :
    ∃ pkt', (∀ old, pkt.readWord old = (wordAt pkt.payload 0, pkt')) ∧
      pkt'.payload = pkt.payload.drop 2 := by
  obtain ⟨pkt', hread, hrest⟩ := readPacket_of_payload (payload_eq_word h)
  rw [wordBytes_length] at hread
  refine ⟨pkt', ?_, hrest⟩
  intro old
  simp only [CPacket.readWord, hread, Prod.mk.injEq, and_true]
  exact leWord_wordBytes _

theorem readPacket_of_lt {len : Nat} (h : pkt.payload.length < len) :
    pkt.readPacket len = (none, pkt) := by
  have hlength := payload_length pkt
  have horder := pkt.readPos_le_writePos
  have hshort : ¬ pkt.readPos + len ≤ pkt.writePos := by omega
  rw [CPacket.readPacket, dif_neg hshort]

theorem readWord_of_lt (h : pkt.payload.length < 2) (old : UInt16) :
    pkt.readWord old = (old, pkt) := by
  rw [CPacket.readWord, readPacket_of_lt h]

theorem wordAt_drop (payload : List UInt8) : wordAt (payload.drop 2) 0 = wordAt payload 2 := by
  simp [wordAt]

end Reads

section Outcomes

theorem sameOutcome_of_eq {x y : Content × List Effect} (h : x = y) : SameOutcome x y := by
  subst h
  exact ⟨rfl, rfl, rfl⟩

theorem deliveries_send (fields : List (List UInt8)) (targets : List SessionID) :
    deliveries [.send fields targets] = targets.map fun sid => (fields.flatten, sid) := by
  simp [deliveries]

theorem flatten_eq_of_deliveries {fields fields' : List (List UInt8)}
    {targets : List SessionID} (hne : targets ≠ [])
    (h : deliveries [.send fields targets] = deliveries [.send fields' targets]) :
    fields.flatten = fields'.flatten := by
  obtain ⟨sid, hsid⟩ := List.exists_mem_of_ne_nil targets hne
  rw [deliveries_send, deliveries_send] at h
  exact congrArg Prod.fst (List.map_inj_left.mp h sid hsid)

theorem order_ne_nil (env : Env) {users : List SessionID} (h : users ≠ []) :
    env.order users ≠ [] := by
  intro hnil
  have hperm := env.order_perm users
  rw [hnil] at hperm
  exact h hperm.nil_eq.symm

end Outcomes

section RoomEnter

variable (env : Env) {c : Content} {sid : SessionID} {pl : CPlayer} {pkt : CPacket}

theorem handleRoomEnter_of_refused
    (hrefused : ∀ i, sid ∈ (c.rooms i).users ∨ maxLimitPerson ≤ (c.rooms i).users.length) :
    handleRoomEnter env c sid pkt = (c, []) := by
  simp only [handleRoomEnter]
  split
  · rfl
  · split
    · rfl
    · rename_i i _
      have hclosed : ¬ ((c.rooms i).enterRoom sid).1 = true := by
        rw [enterRoom_fst]
        rintro ⟨hroomy, hnew⟩
        rcases hrefused i with hmem | hfull
        · exact hnew hmem
        · omega
      split
      · rfl
      · rename_i henter
        rw [henter] at hclosed
        exact absurd rfl hclosed

theorem handleRoomEnter_same_iff (hpl : c.players.lookup sid = some pl) :
    (∀ l l', SameOutcome (handleRoomEnter (withLocals env l) c sid pkt)
      (handleRoomEnter (withLocals env l') c sid pkt)) ↔
      (pkt.payload.length < 2 →
        ∀ i, sid ∈ (c.rooms i).users ∨ maxLimitPerson ≤ (c.rooms i).users.length) := by
  constructor
  · intro hsame hshort i
    by_contra hopen
    push Not at hopen
    obtain ⟨hnew, hroomy⟩ := hopen
    -- with the number of this room in the local the session gets in, with 0 it does not
    set l : Locals := ⟨0, UInt16.ofNat (i.val + 1), 0, fun _ => 0⟩ with hl
    have hget : getRoom l.no = some i := by
      rw [getRoom_eq_some_iff, hl, UInt16.toNat_ofNat']
      have hi := i.isLt
      simp only [maxRoomCount] at hi
      omega
    have hentered : ((c.rooms i).enterRoom sid).1 = true :=
      (enterRoom_fst _ sid).mpr ⟨hroomy, hnew⟩
    rcases henter : (c.rooms i).enterRoom sid with ⟨entered, room⟩
    rw [henter] at hentered
    subst hentered
    have hmem : sid ∈ (((handleRoomEnter (withLocals env l) c sid pkt).1).rooms i).users := by
      simp only [handleRoomEnter, readWord_of_lt hshort, withLocals, hpl, hget, henter]
      have hsid : sid ∈ (Function.update c.rooms i room i).users := by
        rw [Function.update_self]
        exact (mem_enterRoom henter sid).mpr (.inl rfl)
      split <;> exact hsid
    have hnothing : handleRoomEnter (withLocals env ⟨0, 0, 0, fun _ => 0⟩) c sid pkt =
        (c, []) := by
      simp only [handleRoomEnter, readWord_of_lt hshort, withLocals, hpl]
      rfl
    rw [(hsame l ⟨0, 0, 0, fun _ => 0⟩).content, hnothing] at hmem
    exact hnew hmem
  · intro hrefused l l'
    rcases Nat.lt_or_ge pkt.payload.length 2 with hshort | hfull
    · apply sameOutcome_of_eq
      rw [handleRoomEnter_of_refused _ (hrefused hshort),
        handleRoomEnter_of_refused _ (hrefused hshort)]
    · obtain ⟨pkt', hread, -⟩ := readWord_of_le hfull
      apply sameOutcome_of_eq
      simp only [handleRoomEnter, hread]
      rfl

end RoomEnter

section Chat

variable (env : Env) {c : Content} {sid : SessionID} {pl : CPlayer} {pkt : CPacket}
  {i : Fin maxRoomCount}

/-- The text of a request, or what the buffer held. -/
def chatText (env : Env) (pkt : CPacket) (len : Nat) : List UInt8 :=
  match pkt.readPacket len with
  | (some bytes, _) => bytes
  | (none, _) => slice env.chat 0 len

theorem chatText_length (pkt : CPacket) (len : Nat) : (chatText env pkt len).length = len := by
  simp only [chatText, CPacket.readPacket]
  split
  · rename_i hread
    split at hread
    · obtain ⟨hbytes, -⟩ := Prod.mk.inj hread
      rw [← Option.some.inj hbytes, slice_length]
    · simp at hread
  · exact slice_length _ _ _

theorem handleChat_of_unheard (hpl : c.players.lookup sid = some pl)
    (hunheard : pl.state = .inRoom → getRoom pl.roomNo = none) :
    handleChat env c sid pkt = (c, []) := by
  simp only [handleChat, hpl]
  split
  · rfl
  · split
    · rfl
    · rename_i hroom
      rw [hunheard (not_not.mp hroom)]

theorem handleChat_of_heard (hpl : c.players.lookup sid = some pl) (hroom : pl.state = .inRoom)
    (hget : getRoom pl.roomNo = some i)
    (hshort : (pkt.readWord env.chatLen).1.toNat ≤ maxChatLen) :
    handleChat env c sid pkt =
      (c, [.send [wordBytes PacketType.scChatRes.code, pl.nicknameField,
        wordBytes (pkt.readWord env.chatLen).1,
        chatText env (pkt.readWord env.chatLen).2 (pkt.readWord env.chatLen).1.toNat]
          (env.order (c.rooms i).users)]) := by
  simp only [handleChat, hpl, hroom, hget, Nat.not_lt.mpr hshort, if_false, ne_eq,
    not_true_eq_false]
  rfl

theorem handleChat_of_long (hlong : maxChatLen < (pkt.readWord env.chatLen).1.toNat) :
    handleChat env c sid pkt = (c, []) := by
  simp only [handleChat, hlong, if_true]

/-- The request has what its broadcast passes on. -/
def ChatComplete (c : Content) (pl : CPlayer) (body : List UInt8) : Prop :=
  pl.state = .inRoom → ∀ i, getRoom pl.roomNo = some i → (c.rooms i).users ≠ [] →
    2 ≤ body.length ∧ (maxChatLen < (wordAt body 0).toNat ∨
      2 + (wordAt body 0).toNat ≤ body.length)

section Heard

variable (hpl : c.players.lookup sid = some pl) (hroom : pl.state = .inRoom)
  (hget : getRoom pl.roomNo = some i) (l : Locals)

include hpl hroom hget

theorem handleChat_of_noLength (hcut : pkt.payload.length < 2)
    (hallowed : l.chatLen.toNat ≤ maxChatLen) :
    handleChat (withLocals env l) c sid pkt =
      (c, [.send [wordBytes PacketType.scChatRes.code, pl.nicknameField,
        wordBytes l.chatLen, chatText (withLocals env l) pkt l.chatLen.toNat]
          (env.order (c.rooms i).users)]) := by
  have hread := readWord_of_lt hcut (withLocals env l).chatLen
  have hheard := handleChat_of_heard (withLocals env l) hpl hroom hget
    (by rw [hread]; exact hallowed)
  rw [hread] at hheard
  exact hheard

theorem handleChat_of_cutText (hfull : 2 ≤ pkt.payload.length)
    (hallowed : (wordAt pkt.payload 0).toNat ≤ maxChatLen)
    (hcut : pkt.payload.length < 2 + (wordAt pkt.payload 0).toNat) :
    handleChat (withLocals env l) c sid pkt =
      (c, [.send [wordBytes PacketType.scChatRes.code, pl.nicknameField,
        wordBytes (wordAt pkt.payload 0), slice l.chat 0 (wordAt pkt.payload 0).toNat]
          (env.order (c.rooms i).users)]) := by
  obtain ⟨pkt', hread, hrest⟩ := readWord_of_le hfull
  have hheard := handleChat_of_heard (withLocals env l) hpl hroom hget
    (by rw [hread]; exact hallowed)
  have hnone : pkt'.readPacket (wordAt pkt.payload 0).toNat = (none, pkt') := by
    apply readPacket_of_lt
    rw [hrest, List.length_drop]
    omega
  simp only [hread, chatText, hnone] at hheard
  exact hheard

theorem handleChat_of_text (hallowed : (wordAt pkt.payload 0).toNat ≤ maxChatLen)
    (hfull : 2 + (wordAt pkt.payload 0).toNat ≤ pkt.payload.length) :
    handleChat (withLocals env l) c sid pkt =
      (c, [.send [wordBytes PacketType.scChatRes.code, pl.nicknameField,
        wordBytes (wordAt pkt.payload 0),
        (pkt.payload.drop 2).take (wordAt pkt.payload 0).toNat]
          (env.order (c.rooms i).users)]) := by
  have hlength : 2 ≤ pkt.payload.length := by omega
  obtain ⟨pkt', hread, hrest⟩ := readWord_of_le hlength
  have hheard := handleChat_of_heard (withLocals env l) hpl hroom hget
    (by rw [hread]; exact hallowed)
  have hfit : (wordAt pkt.payload 0).toNat ≤ pkt'.payload.length := by
    rw [hrest, List.length_drop]
    omega
  obtain ⟨pkt'', htext, -⟩ := readPacket_of_payload
    (List.take_append_drop (wordAt pkt.payload 0).toNat pkt'.payload).symm
  rw [List.length_take_of_le hfit] at htext
  simp only [hread, chatText, htext] at hheard
  rw [← hrest]
  exact hheard

end Heard

theorem chat_complete_of_same (hpl : c.players.lookup sid = some pl)
    (hroom : pl.state = .inRoom) (hget : getRoom pl.roomNo = some i)
    (husers : (c.rooms i).users ≠ [])
    (hsame : ∀ l l', SameOutcome (handleChat (withLocals env l) c sid pkt)
      (handleChat (withLocals env l') c sid pkt)) :
    2 ≤ pkt.payload.length ∧ (maxChatLen < (wordAt pkt.payload 0).toNat ∨
      2 + (wordAt pkt.payload 0).toNat ≤ pkt.payload.length) := by
  have htargets := order_ne_nil env husers
  rcases Nat.lt_or_ge pkt.payload.length 2 with hshort | hfull
  · have h := (hsame ⟨0, 0, 0, fun _ => 0⟩ ⟨0, 0, 1, fun _ => 0⟩).deliveries
    rw [handleChat_of_noLength env hpl hroom hget _ hshort (by decide),
      handleChat_of_noLength env hpl hroom hget _ hshort (by decide)] at h
    have hflat := congrArg List.length (flatten_eq_of_deliveries htargets h)
    simp [chatText_length] at hflat
  · refine ⟨hfull, ?_⟩
    by_contra hcut
    push Not at hcut
    obtain ⟨hallowed, hcut⟩ := hcut
    have h := (hsame ⟨0, 0, 0, fun _ => 0⟩ ⟨0, 0, 0, fun _ => 1⟩).deliveries
    rw [handleChat_of_cutText env hpl hroom hget _ hfull hallowed hcut,
      handleChat_of_cutText env hpl hroom hget _ hfull hallowed hcut] at h
    have hflat := flatten_eq_of_deliveries htargets h
    simp only [List.flatten_cons, List.append_cancel_left_eq, List.flatten_nil,
      List.append_nil] at hflat
    -- the first byte of the text is the one the local held
    obtain ⟨len, hlen⟩ : ∃ len, (wordAt pkt.payload 0).toNat = len + 1 :=
      Nat.exists_eq_succ_of_ne_zero (by omega)
    rw [hlen, Nat.add_comm, slice_add, slice_add] at hflat
    have hfirst := (List.append_inj hflat rfl).1
    simp [slice] at hfirst

/-- The ways a chat request can go if it is complete as far as anyone hears it: nobody
gets anything, or the text of the request goes to the room. -/
theorem handleChat_of_complete (hpl : c.players.lookup sid = some pl)
    (hcomplete : ChatComplete c pl pkt.payload) :
    (∀ l, (handleChat (withLocals env l) c sid pkt).2 = [] ∨
      ∃ fields, (handleChat (withLocals env l) c sid pkt).2 = [.send fields []]) ∨
    ∃ chatLen text targets, wordBytes chatLen ++ text <+: pkt.payload ∧
      ∀ l, (handleChat (withLocals env l) c sid pkt).2 =
        [.send [wordBytes PacketType.scChatRes.code, pl.nicknameField, wordBytes chatLen, text]
          targets] := by
  rcases em (pl.state = .inRoom → getRoom pl.roomNo = none) with hunheard | hheard
  · refine .inl fun l => .inl ?_
    rw [handleChat_of_unheard _ hpl hunheard]
  · push Not at hheard
    obtain ⟨hroom, hsome⟩ := hheard
    obtain ⟨i, hget⟩ := Option.ne_none_iff_exists'.mp hsome
    rcases eq_or_ne (c.rooms i).users [] with hempty | husers
    · left
      intro l
      rcases Nat.lt_or_ge maxChatLen (pkt.readWord (withLocals env l).chatLen).1.toNat with
        hlong | hshort
      · rw [handleChat_of_long _ hlong]
        exact .inl rfl
      · rw [handleChat_of_heard _ hpl hroom hget hshort, hempty,
          List.perm_nil.mp ((withLocals env l).order_perm [])]
        exact .inr ⟨_, rfl⟩
    · obtain ⟨hfull, htext⟩ := hcomplete hroom i hget husers
      rcases Nat.lt_or_ge maxChatLen (wordAt pkt.payload 0).toNat with hlong | hshort
      · refine .inl fun l => .inl ?_
        obtain ⟨pkt', hread, -⟩ := readWord_of_le hfull
        rw [handleChat_of_long _ (by rw [hread]; exact hlong)]
      · have hwhole := htext.resolve_left (Nat.not_lt.mpr hshort)
        refine .inr ⟨wordAt pkt.payload 0, (pkt.payload.drop 2).take (wordAt pkt.payload 0).toNat,
          env.order (c.rooms i).users, ?_, ?_⟩
        · conv_rhs => rw [payload_eq_word hfull]
          exact (List.prefix_append_right_inj _).mpr (List.take_prefix _ _)
        · intro l
          rw [handleChat_of_text env hpl hroom hget l hshort hwhole]

theorem handleChat_same_iff (hpl : c.players.lookup sid = some pl) :
    (∀ l l', SameOutcome (handleChat (withLocals env l) c sid pkt)
      (handleChat (withLocals env l') c sid pkt)) ↔ ChatComplete c pl pkt.payload := by
  constructor
  · intro hsame hroom i hget husers
    exact chat_complete_of_same env hpl hroom hget husers hsame
  · intro hcomplete l l'
    have hcontent : (handleChat (withLocals env l) c sid pkt).1 =
        (handleChat (withLocals env l') c sid pkt).1 := by
      rw [handleChat_content, handleChat_content]
    rcases handleChat_of_complete env hpl hcomplete with hquiet | ⟨_, _, _, -, htext⟩
    · have hnothing (l : Locals) : jobs (handleChat (withLocals env l) c sid pkt).2 = [] ∧
          deliveries (handleChat (withLocals env l) c sid pkt).2 = [] := by
        rcases hquiet l with hnil | ⟨fields, hnobody⟩
        · rw [hnil]
          exact ⟨rfl, rfl⟩
        · rw [hnobody]
          exact ⟨rfl, rfl⟩
      exact ⟨hcontent, (hnothing l).1.trans (hnothing l').1.symm,
        (hnothing l).2.trans (hnothing l').2.symm⟩
    · exact ⟨hcontent, by rw [htext, htext], by rw [htext, htext]⟩

theorem handleChat_fromRequest {payload : List UInt8} (hpayload : pkt.payload = payload.drop 2)
    (hpl : c.players.lookup sid = some pl) (hcomplete : ChatComplete c pl pkt.payload)
    (l : Locals) : ∀ e ∈ (handleChat (withLocals env l) c sid pkt).2, FromRequest payload e := by
  rcases handleChat_of_complete env hpl hcomplete with
    hquiet | ⟨chatLen, text, targets, hpart, htext⟩
  · rcases hquiet l with hnil | ⟨fields, hnobody⟩
    · simp [hnil]
    · rw [hnobody, List.forall_mem_singleton]
      exact .inl rfl
  · rw [htext, List.forall_mem_singleton]
    exact .inr (.inr ⟨_, chatLen, text, rfl, hpayload ▸ hpart⟩)

end Chat

theorem not_same_of_short (env : Env) {c : Content} {sid : SessionID} {pl : CPlayer}
    (hpl : c.players.lookup sid = some pl) {pkt : CPacket} (hshort : pkt.payload.length < 2) :
    ¬ ∀ l l', SameOutcome (handleRecv (withLocals env l) c sid pkt)
      (handleRecv (withLocals env l') c sid pkt) := by
  intro hsame
  have h := congrArg List.length (hsame ⟨PacketType.csLoginReq.code, 0, 0, fun _ => 0⟩
    ⟨0, 0, 0, fun _ => 0⟩).jobs
  simp only [handleRecv, readWord_of_lt hshort, withLocals, if_true, handleLogin, hpl] at h
  cases h

theorem chatComplete_drop_iff {c : Content} {pl : CPlayer} {payload : List UInt8}
    (h : 2 ≤ payload.length) :
    ChatComplete c pl (payload.drop 2) ↔
      (pl.state = .inRoom → ∀ i, getRoom pl.roomNo = some i → (c.rooms i).users ≠ [] →
        4 ≤ payload.length ∧ (maxChatLen < (wordAt payload 2).toNat ∨
          4 + (wordAt payload 2).toNat ≤ payload.length)) := by
  simp only [ChatComplete, wordAt_drop, List.length_drop]
  have hlen : 2 ≤ payload.length - 2 ↔ 4 ≤ payload.length := by omega
  have htext : 2 + (wordAt payload 2).toNat ≤ payload.length - 2 ↔
      4 + (wordAt payload 2).toNat ≤ payload.length := by omega
  rw [hlen, htext]

section Dispatch

variable (env : Env) {c : Content} {sid : SessionID} {pl : CPlayer} {pkt : CPacket}

theorem handleRecv_of_le (c : Content) (sid : SessionID) (hfull : 2 ≤ pkt.payload.length) :
    ∃ pkt', pkt'.payload = pkt.payload.drop 2 ∧ ∀ l, handleRecv (withLocals env l) c sid pkt =
      if wordAt pkt.payload 0 = PacketType.csLoginReq.code then handleLogin env c sid pkt'
      else if wordAt pkt.payload 0 = PacketType.csSignupReq.code then handleSignUp env c sid pkt'
      else if wordAt pkt.payload 0 = PacketType.csRoomEnterReq.code then
        handleRoomEnter (withLocals env l) c sid pkt'
      else if wordAt pkt.payload 0 = PacketType.csRoomLeaveReq.code then
        handleRoomLeave env c sid
      else if wordAt pkt.payload 0 = PacketType.csChatReq.code then
        handleChat (withLocals env l) c sid pkt'
      else (c, []) := by
  obtain ⟨pkt', hread, hrest⟩ := readWord_of_le hfull
  refine ⟨pkt', hrest, ?_⟩
  intro l
  rw [handleRecv, hread]
  rfl

theorem fromRequest_of_other (c : Content) (sid : SessionID) (hfull : 2 ≤ pkt.payload.length)
    (hnotChat : wordAt pkt.payload 0 ≠ PacketType.csChatReq.code) (l : Locals) :
    ∀ e ∈ (handleRecv (withLocals env l) c sid pkt).2, FromRequest pkt.payload e := by
  intro e he
  cases e with
  | pushJob job => trivial
  | send fields targets =>
      refine .inr (.inl ?_)
      intro hchat
      obtain ⟨r, hrequest⟩ := chatRequest_of_handleRecv he hchat
      obtain ⟨pkt', hread, -⟩ := readWord_of_le hfull
      simp [chatRequest, hread, hnotChat] at hrequest

theorem unaffected_roomEnter_iff (hpl : c.players.lookup sid = some pl)
    (hfull : 2 ≤ pkt.payload.length)
    (htype : wordAt pkt.payload 0 = PacketType.csRoomEnterReq.code) :
    Unaffected env c sid pkt ↔ (pkt.payload.length < 4 →
      ∀ i, sid ∈ (c.rooms i).users ∨ maxLimitPerson ≤ (c.rooms i).users.length) := by
  obtain ⟨pkt', hrest, hdispatch⟩ := handleRecv_of_le env c sid hfull
  have henter (l : Locals) : handleRecv (withLocals env l) c sid pkt =
      handleRoomEnter (withLocals env l) c sid pkt' := by
    rw [hdispatch, htype, if_neg (by decide), if_neg (by decide), if_pos rfl]
  have hbody : pkt'.payload.length < 2 ↔ pkt.payload.length < 4 := by
    rw [hrest, List.length_drop]
    omega
  rw [← hbody, ← handleRoomEnter_same_iff env hpl]
  simp only [← henter]
  refine ⟨fun h => h.same, fun h => ⟨h, ?_⟩⟩
  exact fun l => fromRequest_of_other env c sid hfull (by rw [htype]; decide) l

theorem unaffected_chat_iff (hpl : c.players.lookup sid = some pl)
    (hfull : 2 ≤ pkt.payload.length)
    (htype : wordAt pkt.payload 0 = PacketType.csChatReq.code) :
    Unaffected env c sid pkt ↔ ChatComplete c pl (pkt.payload.drop 2) := by
  obtain ⟨pkt', hrest, hdispatch⟩ := handleRecv_of_le env c sid hfull
  have hchat (l : Locals) : handleRecv (withLocals env l) c sid pkt =
      handleChat (withLocals env l) c sid pkt' := by
    rw [hdispatch, htype, if_neg (by decide), if_neg (by decide), if_neg (by decide),
      if_neg (by decide), if_pos rfl]
  constructor
  · intro h
    rw [← hrest]
    apply (handleChat_same_iff env hpl).mp
    simpa only [hchat] using h.same
  · intro hcomplete
    rw [← hrest] at hcomplete
    refine ⟨?_, ?_⟩
    · simpa only [hchat] using (handleChat_same_iff env hpl).mpr hcomplete
    · intro l
      rw [hchat]
      exact handleChat_fromRequest env hrest hpl hcomplete l

theorem unaffected_of_other (hfull : 2 ≤ pkt.payload.length)
    (hnotEnter : wordAt pkt.payload 0 ≠ PacketType.csRoomEnterReq.code)
    (hnotChat : wordAt pkt.payload 0 ≠ PacketType.csChatReq.code) :
    Unaffected env c sid pkt := by
  obtain ⟨pkt', -, hdispatch⟩ := handleRecv_of_le env c sid hfull
  simp only [if_neg hnotEnter, if_neg hnotChat] at hdispatch
  refine ⟨?_, ?_⟩
  · intro l l'
    apply sameOutcome_of_eq
    rw [hdispatch, hdispatch]
  · exact fun l => fromRequest_of_other env c sid hfull hnotChat l

end Dispatch

/-- The uninitialised locals do not show exactly if whatever of the request matters is
there, or the session has no player. -/
theorem unaffected_iff_complete (env : Env) (c : Content) (sid : SessionID) (pkt : CPacket) :
    Unaffected env c sid pkt ↔ Complete c sid pkt.payload := by
  cases hpl : c.players.lookup sid with
  | none =>
      refine iff_of_true ⟨?_, ?_⟩ (by simp [Complete, hpl])
      · intro l l'
        apply sameOutcome_of_eq
        rw [handleRecv_of_departed _ hpl, handleRecv_of_departed _ hpl]
      · intro l
        simp [handleRecv_of_departed _ hpl]
  | some pl =>
      simp only [Complete, hpl, Option.some.injEq, forall_eq']
      rcases Nat.lt_or_ge pkt.payload.length 2 with hshort | hfull
      · apply iff_of_false
        · intro h
          exact not_same_of_short env hpl hshort h.same
        · omega
      · rw [← chatComplete_drop_iff hfull]
        rcases eq_or_ne (wordAt pkt.payload 0) PacketType.csRoomEnterReq.code with
          henter | hnotEnter
        · rw [unaffected_roomEnter_iff env hpl hfull henter]
          constructor
          · intro hrefused
            exact ⟨hfull, fun _ => hrefused,
              fun hchat => absurd (henter.symm.trans hchat) (by decide)⟩
          · rintro ⟨-, hrefused, -⟩
            exact hrefused henter
        rcases eq_or_ne (wordAt pkt.payload 0) PacketType.csChatReq.code with hchat | hnotChat
        · rw [unaffected_chat_iff env hpl hfull hchat]
          constructor
          · intro hcomplete
            exact ⟨hfull, fun henter => absurd henter hnotEnter, fun _ => hcomplete⟩
          · rintro ⟨-, -, hcomplete⟩
            exact hcomplete hchat
        · exact iff_of_true (unaffected_of_other env hfull hnotEnter hnotChat)
            ⟨hfull, fun henter => absurd henter hnotEnter, fun hchat => absurd hchat hnotChat⟩

/-- A chat request that announces five characters and has none is passed on to the room
with five bytes of the stack. -/
theorem truncated_chat_leaks :
    ¬ Unaffected zeroEnv RoomChanges.inFirstRoom 1#64 (CPacket.new.attachRaw [4, 0, 5, 0]) ∧
    deliveries (handleRecv (withLocals zeroEnv ⟨0, 0, 0, fun _ => 7⟩) RoomChanges.inFirstRoom
      1#64 (CPacket.new.attachRaw [4, 0, 5, 0])).2 =
        [([103, 0] ++ List.replicate 32 0 ++ [5, 0] ++ [7, 7, 7, 7, 7], 1#64)] ∧
    deliveries (handleRecv (withLocals zeroEnv ⟨0, 0, 0, fun _ => 8⟩) RoomChanges.inFirstRoom
      1#64 (CPacket.new.attachRaw [4, 0, 5, 0])).2 =
        [([103, 0] ++ List.replicate 32 0 ++ [5, 0] ++ [8, 8, 8, 8, 8], 1#64)] := by
  refine ⟨?_, by decide, by decide⟩
  intro h
  have hsame := (h.same ⟨0, 0, 0, fun _ => 7⟩ ⟨0, 0, 0, fun _ => 8⟩).deliveries
  revert hsame
  decide

end IocpChat.StaleMemory
