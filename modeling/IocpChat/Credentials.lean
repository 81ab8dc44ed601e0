import IocpChat.ClientRequests

namespace IocpChat.Credentials

open IocpChat.Protocol
open IocpChat.RingWindow
open IocpChat.PacketBuffer
open IocpChat.FrameCodec
open IocpChat.ContentHandlers
open IocpChat.ClientRequests

/-- The characters that a string of bytes stands for, two bytes each. -/
def wideOf : List UInt8 → List UInt16
  | lo :: hi :: bytes => leWord lo hi :: wideOf bytes
  | _ => []

/-- The request that asks for a job. -/
def requestType : DBJobType → PacketType
  | .login => .csLoginReq
  | .signUp => .csSignupReq

/-- The bytes of all fields of a request. -/
def layout : DBJobType → Nat
  | .login => 64 + 128
  | .signUp => 64 + 128 + 64

/-- An array holds the first characters of a field and ends with its last character. -/
def Holds (n : Nat) (array : Nat → UInt16) (field : List UInt8) : Prop :=
  slice array 0 n = (wideOf field).take (n - 1) ++ [0]

/-- The job has the fields of a request, each cut to its maximum length minus one. -/
structure Matches (kind : DBJobType) (sid : SessionID) (body : List UInt8) (job : DBJob) :
    Prop where
  type : job.type = kind
  sid : job.sid = sid
  account : Holds maxAccountLen job.account (body.take 64)
  password : Holds maxPasswordLen job.password ((body.drop 64).take 128)
  nickname : kind = .signUp → Holds maxNicknameLen job.nickname ((body.drop 192).take 64)

/-- A job with the fields of the request is pushed where all of them are there, and
nothing is done where they are not. -/
def Checked (c : Content) (sid : SessionID) (type : DBJobType) (body : List UInt8)
    (out : Content × List Effect) : Prop :=
  if layout type ≤ body.length then
    ∃ job, out = (c, [.pushJob job]) ∧ Matches type sid body job
  else out = (c, [])

theorem wideOf_length {bytes : List UInt8} {n : Nat} (h : bytes.length = 2 * n) :
    (wideOf bytes).length = n := by
  induction n generalizing bytes with
  | zero =>
      rw [List.eq_nil_of_length_eq_zero h]
      rfl
  | succ n ih =>
      rcases bytes with _ | ⟨lo, _ | ⟨hi, bytes⟩⟩
      · simp at h
      · simp only [List.length_cons, List.length_nil] at h
        omega
      · simp only [List.length_cons] at h
        rw [wideOf, List.length_cons, ih (by omega)]

theorem wideBytes_wideOf {bytes : List UInt8} {n : Nat} (h : bytes.length = 2 * n) :
    DummyClient.wideBytes (wideOf bytes) = bytes := by
  induction n generalizing bytes with
  | zero =>
      rw [List.eq_nil_of_length_eq_zero h]
      rfl
  | succ n ih =>
      rcases bytes with _ | ⟨lo, _ | ⟨hi, bytes⟩⟩
      · rfl
      · simp only [List.length_cons, List.length_nil] at h
        omega
      · simp only [List.length_cons] at h
        have hrest : DummyClient.wideBytes (wideOf bytes) = bytes := ih (by omega)
        rw [DummyClient.wideBytes] at hrest ⊢
        rw [wideOf, List.flatMap_cons, hrest, wordBytes_leWord]
        rfl

theorem readWide_field (pkt : CPacket) {n : Nat} (hn : 0 < n)
    (h : 2 * n ≤ pkt.payload.length) (dest : Nat → UInt16) :
    ∃ array pkt', readWide pkt n dest = (array, pkt') ∧
      pkt'.payload = pkt.payload.drop (2 * n) ∧
      Holds n (blit array (n - 1) [0]) (pkt.payload.take (2 * n)) := by
  have htake : (pkt.payload.take (2 * n)).length = 2 * n := List.length_take_of_le h
  have hlength := wideOf_length htake
  have hsplit : pkt.payload = DummyClient.wideBytes (wideOf (pkt.payload.take (2 * n))) ++
      pkt.payload.drop (2 * n) := by
    rw [wideBytes_wideOf htake, List.take_append_drop]
  obtain ⟨pkt', hread, hrest⟩ := readWide_of_payload hsplit dest
  rw [hlength] at hread
  refine ⟨_, pkt', hread, hrest, ?_⟩
  rw [Holds]
  generalize wideOf (pkt.payload.take (2 * n)) = ws at hlength ⊢
  have hfirst : slice (blit (blit dest 0 ws) (n - 1) [0]) 0 (n - 1) = ws.take (n - 1) := by
    rw [slice_blit_of_disjoint _ _ (.inl (by omega)), slice_blit_zero _ _ (by omega),
      List.drop_zero]
  have hlast : slice (blit (blit dest 0 ws) (n - 1) [0]) (0 + (n - 1)) 1 = [0] := by
    rw [Nat.zero_add]
    exact slice_blit_self _ (n - 1) [0]
  have hsum : slice (blit (blit dest 0 ws) (n - 1) [0]) 0 n =
      slice (blit (blit dest 0 ws) (n - 1) [0]) 0 (n - 1 + 1) := by
    rw [Nat.sub_add_cancel hn]
  rw [hsum, slice_add, hfirst, hlast]

theorem readWide_credentials (pkt : CPacket) (h : 192 ≤ pkt.payload.length)
    (dest dest' : Nat → UInt16) :
    ∃ account pkt₁ password pkt₂,
      readWide pkt maxAccountLen dest = (account, pkt₁) ∧
      readWide pkt₁ maxPasswordLen dest' = (password, pkt₂) ∧
      pkt₂.payload = pkt.payload.drop 192 ∧
      Holds maxAccountLen (blit account (maxAccountLen - 1) [0]) (pkt.payload.take 64) ∧
      Holds maxPasswordLen (blit password (maxPasswordLen - 1) [0])
        ((pkt.payload.drop 64).take 128) := by
  obtain ⟨account, pkt₁, hread₁, hrest₁, haccount⟩ :=
    readWide_field pkt (n := maxAccountLen) (by decide)
      (by simp only [maxAccountLen]; omega) dest
  obtain ⟨password, pkt₂, hread₂, hrest₂, hpassword⟩ :=
    readWide_field pkt₁ (n := maxPasswordLen) (by decide)
      (by rw [hrest₁, List.length_drop]; simp only [maxAccountLen, maxPasswordLen]; omega) dest'
  rw [hrest₁] at hpassword hrest₂
  rw [List.drop_drop] at hrest₂
  exact ⟨account, pkt₁, password, pkt₂, hread₁, hread₂, hrest₂, haccount, hpassword⟩

section Requests

variable (env : Env) {c : Content} {sid : SessionID} {pl : CPlayer} {pkt : CPacket}

theorem handleLogin_checked (hlive : c.players.lookup sid = some pl) :
    Checked c sid .login pkt.payload (handleLogin env c sid pkt) ↔
      layout .login ≤ pkt.payload.length := by
  rw [Checked]
  split
  · rename_i hfull
    refine iff_of_true ?_ hfull
    obtain ⟨account, pkt₁, password, pkt₂, hread₁, hread₂, -, haccount, hpassword⟩ :=
      readWide_credentials pkt hfull (emptyWide env.accountMemory)
        (emptyWide env.passwordMemory)
    refine ⟨_, by simp only [handleLogin, hlive, hread₁, hread₂]; rfl, rfl, rfl, haccount,
      hpassword, ?_⟩
    intro hkind
    cases hkind
  · rename_i hshort
    refine iff_of_false ?_ hshort
    intro hnothing
    simp only [handleLogin, hlive, Prod.mk.injEq, reduceCtorEq, and_false] at hnothing

theorem handleSignUp_checked (hlive : c.players.lookup sid = some pl) :
    Checked c sid .signUp pkt.payload (handleSignUp env c sid pkt) ↔
      layout .signUp ≤ pkt.payload.length := by
  rw [Checked]
  split
  · rename_i hfull
    refine iff_of_true ?_ hfull
    simp only [layout] at hfull
    obtain ⟨account, pkt₁, password, pkt₂, hread₁, hread₂, hrest₂, haccount, hpassword⟩ :=
      readWide_credentials pkt (by omega) (emptyWide env.accountMemory)
        (emptyWide env.passwordMemory)
    obtain ⟨nickname, pkt₃, hread₃, -, hnickname⟩ :=
      readWide_field pkt₂ (n := maxNicknameLen) (by decide)
        (by rw [hrest₂, List.length_drop]; simp only [maxNicknameLen]; omega)
        (emptyWide env.nicknameMemory)
    rw [hrest₂] at hnickname
    exact ⟨_, by simp only [handleSignUp, hlive, hread₁, hread₂, hread₃]; rfl, rfl, rfl,
      haccount, hpassword, fun _ => hnickname⟩
  · rename_i hshort
    refine iff_of_false ?_ hshort
    intro hnothing
    simp only [handleSignUp, hlive, Prod.mk.injEq, reduceCtorEq, and_false] at hnothing

end Requests

/-- A login or sign-up request of a session with a player is checked exactly if it is
complete: a shorter one pushes a job, too. -/
theorem credentials_checked_iff (env : Env) {c : Content} {sid : SessionID} {pl : CPlayer}
    (hlive : c.players.lookup sid = some pl) (kind : DBJobType) {pkt : CPacket}
    {body : List UInt8} (hpkt : pkt.payload = wordBytes (requestType kind).code ++ body) :
    Checked c sid kind body (handleRecv env c sid pkt) ↔ layout kind ≤ body.length := by
  obtain ⟨pkt', htype, hbody⟩ := readWord_of_payload hpkt env.type
  subst hbody
  cases kind with
  | login =>
      have hdispatch : handleRecv env c sid pkt = handleLogin env c sid pkt' := by
        rw [handleRecv, htype]
        rfl
      rw [hdispatch]
      exact handleLogin_checked env hlive
  | signUp =>
      have hdispatch : handleRecv env c sid pkt = handleSignUp env c sid pkt' := by
        rw [handleRecv, htype]
        rfl
      rw [hdispatch]
      exact handleSignUp_checked env hlive

/-- One client is connected. -/
def oneClient : Content := handleJoin zeroEnv Content.initial 1#64

theorem oneClient_lookup :
    oneClient.players.lookup 1#64 = some (CPlayer.new 1#64 zeroEnv.playerMemory) := rfl

/-- The fields of a sign-up request, each filled with a byte of its own. -/
def signUpFields : List UInt8 :=
  List.replicate 64 1 ++ List.replicate 128 2 ++ List.replicate 64 3

theorem signUp_checked_fields :
    ∃ job, handleRecv zeroEnv oneClient 1#64
        (CPacket.new.attachRaw (wordBytes 5 ++ signUpFields)) = (oneClient, [.pushJob job]) ∧
      job.type = .signUp ∧ job.sid = 1#64 ∧ job.account 0 = 0x0101 ∧ job.password 0 = 0x0202 ∧
      job.nickname 0 = 0x0303 := by
  have hfull : layout .signUp ≤ signUpFields.length := by decide +kernel
  have hfit : (wordBytes 5 ++ signUpFields).length ≤ packetBufferSize - pktHeaderSize := by
    decide +kernel
  have hfields : ((wideOf (signUpFields.take 64)).take 31 ++ [0]).head? = some 0x0101 ∧
      ((wideOf ((signUpFields.drop 64).take 128)).take 63 ++ [0]).head? = some 0x0202 ∧
      ((wideOf ((signUpFields.drop 192).take 64)).take 31 ++ [0]).head? = some 0x0303 := by
    decide +kernel
  generalize signUpFields = fields at *
  have hpkt := CPacket.payload_attachRaw CPacket.new hfit
  have hchecked : Checked oneClient 1#64 .signUp fields (handleRecv zeroEnv oneClient 1#64
      (CPacket.new.attachRaw (wordBytes 5 ++ fields))) :=
    (credentials_checked_iff zeroEnv oneClient_lookup .signUp hpkt).mpr hfull
  rw [Checked, if_pos hfull] at hchecked
  obtain ⟨job, hout, htype, hsid, haccount, hpassword, hnickname⟩ := hchecked
  obtain ⟨hfirst, hsecond, hthird⟩ := hfields
  have hhead (array : Nat → UInt16) (n : Nat) :
      (slice array 0 (n + 1)).head? = some (array 0) := by
    rw [slice, List.range_succ_eq_map]
    rfl
  refine ⟨job, hout, htype, hsid, ?_, ?_, ?_⟩
  · exact Option.some.inj ((hhead job.account 31).symm.trans
      ((congrArg List.head? haccount).trans hfirst))
  · exact Option.some.inj ((hhead job.password 63).symm.trans
      ((congrArg List.head? hpassword).trans hsecond))
  · exact Option.some.inj ((hhead job.nickname 31).symm.trans
      ((congrArg List.head? (hnickname rfl)).trans hthird))

/-- A sign-up request that ends behind its type asks the DB worker for an account
without a name. -/
theorem signUp_truncated :
    ¬ Checked oneClient 1#64 .signUp []
        (handleRecv zeroEnv oneClient 1#64 (CPacket.new.attachRaw (wordBytes 5))) ∧
      ∃ job, (handleRecv zeroEnv oneClient 1#64 (CPacket.new.attachRaw (wordBytes 5))).2 =
          [.pushJob job] ∧ job.type = .signUp ∧ job.sid = 1#64 ∧
        job.account 0 = 0 ∧ job.password 0 = 0 ∧ job.nickname 0 = 0 := by
  constructor
  · intro h
    have hnothing := congrArg (fun out : Content × List Effect => out.2.length) h
    revert hnothing
    decide
  · exact ⟨_, rfl, rfl, rfl, rfl, rfl, rfl⟩

end IocpChat.Credentials
