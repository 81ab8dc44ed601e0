import IocpChat.ContentSteps
import IocpChat.DbAnswers
import IocpChat.ResponseMemory
import IocpChat.SendResults
import IocpChat.UserTable

/-!
The server with its database.  The oldest job of the DB worker goes through the connector to
the stored procedure, whose row comes back as the result that the update thread handles.
The worker is the only one to call the database, and it calls it in the order of the jobs,
so the call may stand where its result is handled.
-/

namespace IocpChat.Accounts

open IocpChat.Protocol
open IocpChat.RingWindow
open IocpChat.PacketBuffer
open IocpChat.LanServer
open IocpChat.SlotLifecycle
open IocpChat.ContentHandlers
open IocpChat.ChatRuns
open IocpChat.RoomMembership
open IocpChat.ContentSteps
open IocpChat.DbWorker
open IocpChat.DbConnector
open IocpChat.DbAnswers
open IocpChat.ResponseMemory
open IocpChat.SendResults
open IocpChat.UserTable
open IocpChat.LabelledRun

/-- What the driver reads from an array under `SQL_NTS`. -/
def ntsString (array : Nat → UInt16) (size : Nat) : NVarChar :=
  (slice array 0 size).takeWhile (· ≠ 0)

/-- The account as the parameter `SQL_NTS` passes it to the procedure. -/
def accountOf (job : DBJob) : NVarChar := ntsString job.account maxAccountLen

/-- The password as it is passed to the procedure. -/
def passwordOf (job : DBJob) : NVarChar := ntsString job.password maxPasswordLen

/-- The nickname as it is passed to the procedure. -/
def nicknameOf (job : DBJob) : NVarChar := ntsString job.nickname maxNicknameLen

/-- A string as the driver stores it into a zeroed array. -/
def wideChars (s : NVarChar) : Nat → UInt16 := blit (fun _ => 0) 0 s

/-- What the driver and the database bring to one job: the return codes of its calls, whether
a statement is run whose execution is reported as failed, the order in which `sp_Login` scans
the table, the identity numbers that `sp_SignUp` leaves out, and what the local `DBResult` of
the worker holds. -/
structure DbTurn where
  ret : Nat → SqlReturn
  applied : Bool
  scan : List User
  skipped : Nat
  memory : Nat → UInt16

/-- The procedure is run. -/
def Reaches (db : CDBConnector) (turn : DbTurn) (type : DBJobType) : Prop :=
  db.isConnected = true ∧ db.hDbc ≠ sqlNullHandle ∧ sqlOk (turn.ret 0) = true ∧
    (sqlOk (turn.ret (paramCount type + 1)) = true ∨ turn.applied = true)

instance (db : CDBConnector) (turn : DbTurn) (type : DBJobType) :
    Decidable (Reaches db turn type) := inferInstanceAs (Decidable (_ ∧ _ ∧ _ ∧ _))

/-- The columns of the result are bound to the locals of the connector. -/
def Binds (turn : DbTurn) (type : DBJobType) : Prop :=
  ∀ i, i < columnCount type → sqlOk (turn.ret (paramCount type + 2 + i)) = true

instance (turn : DbTurn) (type : DBJobType) : Decidable (Binds turn type) :=
  inferInstanceAs (Decidable (∀ i, i < _ → _))

/-- All calls that are made for a job go well. -/
def Works (db : CDBConnector) (turn : DbTurn) (type : DBJobType) : Prop :=
  db.isConnected = true ∧ db.hDbc ≠ sqlNullHandle ∧
    ∀ n, n ≤ paramCount type + columnCount type + 2 → sqlOk (turn.ret n) = true

section Site

variable (C : Crypto) (toAcp : List UInt16 → List UInt8) (sqlEq : NVarChar → NVarChar → Prop)
  [DecidableRel sqlEq] (db : CDBConnector)

/-- The row of a procedure, with the table as it leaves it. -/
def runProcedure (table : Users × List Record) (turn : DbTurn) (job : DBJob) :
    Option ((Users × List Record) × Row) :=
  match job.type with
  | .login =>
      let row := spLogin sqlEq turn.scan (accountOf job) (passwordOf job)
      (serve sqlEq table (.login (accountOf job) (passwordOf job) turn.scan)).map fun table =>
        (table, ⟨row.result, BitVec.ofNat 32 row.userNo, wideChars row.nickname⟩)
  | .signUp =>
      let row := (spSignUp sqlEq table.1 (accountOf job) (passwordOf job) (nicknameOf job)
        turn.skipped).2
      (serve sqlEq table
        (.signUp (accountOf job) (passwordOf job) (nicknameOf job) turn.skipped)).map fun table =>
        (table, ⟨row.result, BitVec.ofNat 32 row.userNo, fun _ => 0⟩)

/-- The worker processes a job. -/
def serveJob (table : Users × List Record) (turn : DbTurn) (job : DBJob) :
    Option ((Users × List Record) × DBResult) :=
  if Reaches db turn job.type then
    (runProcedure sqlEq table turn job).map fun out =>
      (out.1, answer ⟨turn.ret, fun _ => out.2⟩ db [] turn.memory job)
  else some (table, answer ⟨turn.ret, fun _ => ⟨0, 0, fun _ => 0⟩⟩ db [] turn.memory job)

/-- The server, the table with the calls that were made to it, and the jobs that were pushed. -/
structure Site where
  world : World
  table : Users × List Record
  asked : List DBJob

/-- The server has just started, on an empty table. -/
def Site.start (maxSession : Nat) : Site where
  world := World.start maxSession
  table := (emptyUsers, [])
  asked := []

/-- What can happen next: a step of the network, of the update thread, or the answer to the
oldest job, whose result is handled at once. -/
inductive SiteEvent where
  | net (e : NetEvent)
  | update (env : Env) (io : Nat → SendEnv)
  | answer (turn : DbTurn) (io : Nat → SendEnv)

/-- The job that an effect pushes, if it does. -/
def jobOf : Effect → Option DBJob
  | .pushJob job => some job
  | .send _ _ => none

/-- The jobs that a handler pushes. -/
def pushedJobs (w : World) (env : Env) (io : Nat → SendEnv) : List DBJob :=
  match startHandler toAcp w (.update env io) with
  | some hd => hd.effects.filterMap jobOf
  | none => []

def siteStep (s : Site) : SiteEvent → Option Site
  | .net e => (chatStep C toAcp s.world (.net e)).map fun w => { s with world := w }
  | .update env io =>
      (chatStep C toAcp s.world (.update env io)).map fun w =>
        { s with world := w, asked := s.asked ++ pushedJobs toAcp s.world env io }
  | .answer turn io =>
      match s.world.jobs with
      | [] => none
      | job :: _ =>
          (serveJob sqlEq db s.table turn job).bind fun out =>
            (chatStep C toAcp s.world
              (.dbResult out.2.result out.2.userNo out.2.nickname io)).map fun w =>
                { s with world := w, table := out.1 }

/-- The calls of `SendPacket` with which a job is answered. -/
def answerLog (s : Site) (turn : DbTurn) (io : Nat → SendEnv) : List SendCall :=
  match s.world.jobs with
  | [] => []
  | job :: _ =>
      match serveJob sqlEq db s.table turn job with
      | none => []
      | some out => stepLog C toAcp s.world
          (.dbResult out.2.result out.2.userNo out.2.nickname io)

/-- No job is answered whose result columns are not all bound. -/
def BindsColumns (s : Site) : SiteEvent → Prop
  | .answer turn _ => ∀ job, job ∈ s.world.jobs.head? → Binds turn job.type
  | _ => True

instance (s : Site) (e : SiteEvent) : Decidable (BindsColumns s e) :=
  match e with
  | .net _ => isTrue trivial
  | .update _ _ => isTrue trivial
  | .answer turn _ =>
      inferInstanceAs (Decidable (∀ job, job ∈ s.world.jobs.head? → Binds turn job.type))

end Site

theorem takeWhile_slice_blit {α : Type*} [DecidableEq α] {z : α} {dest : Nat → α} {name : List α}
    {n : Nat} (hend : z ∉ name) (hlength : name.length ≤ n) :
    (slice (blit dest 0 (name ++ [z])) 0 n).takeWhile (· ≠ z) = name := by
  have hfree : ∀ w, w ∈ name → decide (w ≠ z) = true := by
    rintro w hw
    apply decide_eq_true
    rintro rfl
    exact hend hw
  obtain ⟨k, rfl⟩ := Nat.exists_eq_add_of_le hlength
  rw [slice_add, slice_blit_zero _ _ (by simp), List.drop_zero, List.take_left' rfl,
    List.takeWhile_append_of_pos hfree]
  rcases k with _ | k
  · simp
  · have hlast : slice (blit dest 0 (name ++ [z])) (0 + name.length) 1 = [z] := by
      rw [slice_blit_zero _ _ (by simp), Nat.zero_add, List.drop_left]
      rfl
    rw [Nat.add_comm k 1, slice_add, hlast]
    simp

theorem takeWhile_append_end {α : Type*} [DecidableEq α] (z : α) (xs ys : List α) :
    (xs ++ z :: ys).takeWhile (· ≠ z) = xs.takeWhile (· ≠ z) := by
  induction xs with
  | nil => simp
  | cons x xs ih =>
      rcases eq_or_ne x z with rfl | hne
      · simp
      · rw [List.cons_append, List.takeWhile_cons_of_pos (by simpa using hne),
          List.takeWhile_cons_of_pos (by simpa using hne), ih]

theorem zero_notMem_ntsString (array : Nat → UInt16) (n : Nat) : 0 ∉ ntsString array n := by
  intro hmem
  simpa using List.mem_takeWhile_imp hmem

theorem ntsString_length (array : Nat → UInt16) (n : Nat) : (ntsString array n).length ≤ n := by
  have hle : (ntsString array n).length ≤ _ := (List.takeWhile_prefix _).length_le
  rwa [slice_length] at hle

theorem ntsString_wideChars {name : NVarChar} {n : Nat} (hzero : 0 ∉ name)
    (hlength : name.length ≤ n) : ntsString (wideChars name) n = name := by
  have hsame : wideChars name = blit (fun _ => 0) 0 (name ++ [0]) := by
    funext i
    rcases Nat.lt_trichotomy i name.length with hlt | rfl | hgt
    · simp [wideChars, blit, hlt, List.getElem?_append_left hlt]
    · simp [wideChars, blit]
    · rw [wideChars, blit_of_ge _ _ (by omega), blit_of_ge _ _ (by simp; omega)]
  rw [hsame, ntsString, takeWhile_slice_blit hzero hlength]

theorem ntsString_copied (dest src : Nat → UInt16) {n k : Nat} (hk : n ≤ k) :
    ntsString (wcsncpyTruncate dest (n + 1) src) k = ntsString src n := by
  rw [wcsncpyTruncate, Nat.add_sub_cancel]
  exact takeWhile_slice_blit (zero_notMem_ntsString src n) ((ntsString_length src n).trans hk)

section Answers

variable {sqlEq : NVarChar → NVarChar → Prop} [DecidableRel sqlEq] {db : CDBConnector}
  {turn : DbTurn} {job : DBJob} {row : Row} {table table' : Users × List Record} {r : DBResult}

/-- The calls that decide whether `Login` or `SignUp` returns true went well. -/
def TurnAnswered (db : CDBConnector) (turn : DbTurn) (type : DBJobType) : Prop :=
  Answered ⟨turn.ret, fun _ => ⟨0, 0, fun _ => 0⟩⟩ db (paramCount type) (columnCount type) 0

instance (db : CDBConnector) (turn : DbTurn) (type : DBJobType) :
    Decidable (TurnAnswered db turn type) :=
  inferInstanceAs (Decidable (Answered _ _ _ _ _))

theorem Works.answered {type : DBJobType} (h : Works db turn type) :
    TurnAnswered db turn type := by
  obtain ⟨hconnected, hdbc, hcalls⟩ := h
  exact ⟨hconnected, hdbc, hcalls 0 (by omega), hcalls _ (by omega), hcalls _ (by omega)⟩

theorem Works.binds {type : DBJobType} (h : Works db turn type) : Binds turn type := by
  intro i hi
  exact h.2.2 _ (by omega)

theorem TurnAnswered.reaches {type : DBJobType} (h : TurnAnswered db turn type) :
    Reaches db turn type := by
  obtain ⟨hconnected, hdbc, halloc, hexec, -⟩ := h
  refine ⟨hconnected, hdbc, halloc, .inl ?_⟩
  simpa using hexec

theorem execProcedure_turn (db : CDBConnector) (row : Row) (params : List Param)
    {type : DBJobType} (hparams : params.length = paramCount type) (hbinds : Binds turn type)
    (sql : String) :
    (db.execProcedure ⟨turn.ret, fun _ => row⟩ params sql (columnCount type) []).1 =
      if TurnAnswered db turn type then
        some (CDBConnector.boundRow (columnCount type) (fun _ => true) row)
      else none := by
  have hfst := execProcedure_fst ⟨turn.ret, fun _ => row⟩ params sql (columnCount type) db []
  simp only [List.length_nil, Nat.zero_add, hparams] at hfst
  have hbound : CDBConnector.boundRow (columnCount type)
      (fun i => sqlOk (turn.ret (paramCount type + 2 + i))) row =
        CDBConnector.boundRow (columnCount type) (fun _ => true) row := by
    have hbind (i : Nat) : (i < columnCount type ∧
        sqlOk (turn.ret (paramCount type + 2 + i)) = true) ↔ i < columnCount type ∧ true = true :=
      and_congr_right fun hi => by simp [hbinds i hi]
    simp only [CDBConnector.boundRow, hbind]
  rw [hbound] at hfst
  split
  · rename_i hanswered
    exact (hfst _).mpr ⟨hanswered, rfl⟩
  · rename_i hnot
    rcases hrow : (db.execProcedure ⟨turn.ret, fun _ => row⟩ params sql (columnCount type) []).1
      with _ | row'
    · rfl
    · exact absurd ((hfst row').mp hrow).1 hnot

theorem callLogin_turn (db : CDBConnector) (row : Row) (job : DBJob)
    (hbinds : Binds turn .login) :
    callLogin ⟨turn.ret, fun _ => row⟩ db [] job =
      if TurnAnswered db turn .login then
        some ⟨row.result, row.userNo,
          wcsncpyTruncate (blit (fun _ => 0) 0 [0]) (maxNicknameLen + 1) row.nickname⟩
      else none := by
  have hexec := execProcedure_turn db row [⟨32, job.account⟩, ⟨64, job.password⟩] rfl hbinds
    "EXEC sp_Login ?, ?"
  simp only [callLogin, CDBConnector.login]
  change (db.execProcedure ⟨turn.ret, fun _ => row⟩ [⟨32, job.account⟩, ⟨64, job.password⟩]
    "EXEC sp_Login ?, ?" 3 []).1 = _ at hexec
  generalize db.execProcedure _ _ _ _ _ = out at hexec ⊢
  rcases out with ⟨_ | row', log⟩
  · split at hexec
    · cases hexec
    · rename_i hnot
      rw [if_neg hnot]
  · split at hexec
    · rename_i hanswered
      rw [if_pos hanswered]
      obtain rfl := Option.some.inj hexec
      rfl
    · cases hexec

theorem callSignUp_turn (db : CDBConnector) (row : Row) (job : DBJob)
    (hbinds : Binds turn .signUp) :
    callSignUp ⟨turn.ret, fun _ => row⟩ db [] job =
      if TurnAnswered db turn .signUp then some ⟨row.result, row.userNo, fun _ => 0⟩
      else none := by
  have hexec := execProcedure_turn db row
    [⟨32, job.account⟩, ⟨64, job.password⟩, ⟨32, job.nickname⟩] rfl hbinds
    "EXEC sp_SignUp ?, ?, ?"
  simp only [callSignUp, CDBConnector.signUp]
  change (db.execProcedure ⟨turn.ret, fun _ => row⟩
    [⟨32, job.account⟩, ⟨64, job.password⟩, ⟨32, job.nickname⟩] "EXEC sp_SignUp ?, ?, ?" 2
    []).1 = _ at hexec
  generalize db.execProcedure _ _ _ _ _ = out at hexec ⊢
  rcases out with ⟨_ | row', log⟩
  · split at hexec
    · cases hexec
    · rename_i hnot
      rw [if_neg hnot]
  · split at hexec
    · rename_i hanswered
      rw [if_pos hanswered]
      obtain rfl := Option.some.inj hexec
      rfl
    · cases hexec

theorem answer_turn (db : CDBConnector) (row : Row) (job : DBJob)
    (hbinds : Binds turn job.type) {r : DBResult}
    (hr : answer ⟨turn.ret, fun _ => row⟩ db [] turn.memory job = r) :
    r.sid = job.sid ∧ r.type = job.type ∧
      if TurnAnswered db turn job.type then
        r.result = row.result ∧ r.userNo = row.userNo ∧
          (job.type = .login → wideString r.nickname = ntsString row.nickname maxNicknameLen)
      else r.result = 1 := by
  obtain ⟨hsid, htype⟩ := process_answers turn.memory job
    (match job.type with
      | .login => callLogin ⟨turn.ret, fun _ => row⟩ db [] job
      | .signUp => callSignUp ⟨turn.ret, fun _ => row⟩ db [] job)
  subst hr
  refine ⟨hsid, htype, ?_⟩
  rcases hjob : job.type with _ | _
  · rw [hjob] at hbinds
    simp only [answer, hjob, callLogin_turn db row job hbinds]
    split
    · rename_i hanswered
      refine ⟨?_, ?_, ?_⟩
      · simp only [process, hjob, processLogin]
      · simp only [process, hjob, processLogin]
      · rintro -
        rw [wideString_process _ _ hjob]
        exact ntsString_copied _ _ le_rfl
    · simp only [process, hjob, processLogin]
  · rw [hjob] at hbinds
    simp only [answer, hjob, callSignUp_turn db row job hbinds]
    split
    · refine ⟨?_, ?_, ?_⟩
      · simp only [process, hjob, processSignUp]
      · simp only [process, hjob, processSignUp]
      · rintro ⟨⟩
    · simp only [process, hjob, processSignUp]

/-- The account and the password of a job are those of a user. -/
def Matches (sqlEq : NVarChar → NVarChar → Prop) (user : User) (job : DBJob) : Prop :=
  sqlEq user.account (accountOf job) ∧ sqlEq user.password (passwordOf job)

/-- The nicknames of the table fit the arrays of the server. -/
def Tidy (users : Users) : Prop :=
  ∀ user, user ∈ users.rows → 0 ∉ user.nickname ∧ user.nickname.length ≤ maxNicknameLen

/-- The user that a sign-up asks for, under a number. -/
def signedUpAs (job : DBJob) (no : Nat) : User :=
  ⟨no, accountOf job, passwordOf job, nicknameOf job⟩

theorem runProcedure_rows {out : (Users × List Record) × Row} (hfaithful : Faithful sqlEq table)
    (h : runProcedure sqlEq table turn job = some out) :
    Faithful sqlEq out.1 ∧ (out.1.1.rows = table.1.rows ∨
      job.type = .signUp ∧ ∃ no, out.1.1.rows = table.1.rows ++ [signedUpAs job no]) := by
  simp only [runProcedure] at h
  split at h
  · obtain ⟨t, hserve, rfl⟩ := Option.map_eq_some_iff.mp h
    refine ⟨faithful_serve hfaithful hserve, .inl ?_⟩
    simp only [serve, Option.ite_none_right_eq_some, Option.some.injEq] at hserve
    obtain ⟨-, rfl⟩ := hserve
    rfl
  · rename_i hjob
    obtain ⟨t, hserve, rfl⟩ := Option.map_eq_some_iff.mp h
    refine ⟨faithful_serve hfaithful hserve, ?_⟩
    simp only [serve, Option.some.injEq] at hserve
    subst hserve
    rcases spSignUp_cases sqlEq table.1 (accountOf job) (passwordOf job) (nicknameOf job)
      turn.skipped with ⟨htable, -⟩ | ⟨-, hnew⟩
    · left
      simp only [htable]
    · right
      simp only [hnew]
      exact ⟨hjob, _, rfl⟩

theorem serveJob_rows (hfaithful : Faithful sqlEq table)
    (h : serveJob sqlEq db table turn job = some (table', r)) :
    Faithful sqlEq table' ∧ (table'.1.rows = table.1.rows ∨
      job.type = .signUp ∧ ∃ no, table'.1.rows = table.1.rows ++ [signedUpAs job no]) := by
  simp only [serveJob] at h
  split at h
  · obtain ⟨out, hrun, heq⟩ := Option.map_eq_some_iff.mp h
    obtain ⟨rfl, -⟩ := Prod.mk.inj heq
    exact runProcedure_rows hfaithful hrun
  · obtain ⟨rfl, -⟩ := Prod.mk.inj (Option.some.inj h)
    exact ⟨hfaithful, .inl rfl⟩

theorem serveJob_cases (hbinds : Binds turn job.type)
    (h : serveJob sqlEq db table turn job = some (table', r)) :
    r.sid = job.sid ∧ r.type = job.type ∧
      ((¬ TurnAnswered db turn job.type ∧ r.result = 1) ∨
        ∃ out, runProcedure sqlEq table turn job = some out ∧ table' = out.1 ∧
          r.result = out.2.result ∧ r.userNo = out.2.userNo ∧
          (job.type = .login →
            wideString r.nickname = ntsString out.2.nickname maxNicknameLen)) := by
  simp only [serveJob] at h
  split at h
  · obtain ⟨out, hrun, heq⟩ := Option.map_eq_some_iff.mp h
    obtain ⟨rfl, hr⟩ := Prod.mk.inj heq
    obtain ⟨hsid, htype, hrow⟩ := answer_turn db out.2 job hbinds hr
    refine ⟨hsid, htype, ?_⟩
    split at hrow
    · exact .inr ⟨out, hrun, rfl, hrow⟩
    · rename_i hnot
      exact .inl ⟨hnot, hrow⟩
  · rename_i hreaches
    obtain ⟨-, hr⟩ := Prod.mk.inj (Option.some.inj h)
    obtain ⟨hsid, htype, hrow⟩ := answer_turn db _ job hbinds hr
    refine ⟨hsid, htype, .inl ?_⟩
    split at hrow
    · rename_i hanswered
      exact absurd hanswered.reaches hreaches
    · rename_i hnot
      exact ⟨hnot, hrow⟩

/-- A login succeeds only as a user of the table, and for every user of the table. -/
theorem serveJob_login (heq : Equivalence sqlEq) (hfaithful : Faithful sqlEq table)
    (htidy : Tidy table.1) (hjob : job.type = .login) (hbinds : Binds turn .login)
    (h : serveJob sqlEq db table turn job = some (table', r)) :
    (∃ user, user ∈ table'.1.rows ∧ Matches sqlEq user job ∧
        (∀ other, other ∈ table.1.rows → sqlEq other.account (accountOf job) → other = user) ∧
        r.result = 0 ∧ r.userNo = BitVec.ofNat 32 user.userNo ∧
        wideString r.nickname = user.nickname) ∨
      (r.result ≠ 0 ∧ (TurnAnswered db turn .login →
        ∀ user, user ∈ table.1.rows → ¬ Matches sqlEq user job)) := by
  obtain ⟨-, -, hcases⟩ := serveJob_cases (hjob ▸ hbinds) h
  rw [hjob] at hcases
  rcases hcases with ⟨hnot, hone⟩ | ⟨out, hrun, rfl, hresult, hno, hnickname⟩
  · refine .inr ⟨by simp [hone], ?_⟩
    intro hanswered
    exact absurd hanswered hnot
  · simp only [runProcedure, hjob] at hrun
    obtain ⟨t, hserve, rfl⟩ := Option.map_eq_some_iff.mp hrun
    simp only [serve, Option.ite_none_right_eq_some, Option.some.injEq] at hserve
    obtain ⟨hscan, rfl⟩ := hserve
    rcases spLogin_cases heq hfaithful.distinct
      (fun user huser => (hfaithful.numbered user huser).1)
      hscan (accountOf job) (passwordOf job) with
      ⟨hnone, hanswer⟩ | ⟨user, huser, haccount, honly, hanswer⟩
    · rw [hanswer] at hresult
      refine .inr ⟨by simp [hresult], ?_⟩
      rintro - user huser ⟨haccount, -⟩
      exact hnone user huser haccount
    · rw [hanswer] at hresult hno hnickname
      split at hanswer
      · rename_i hpassword
        rw [if_pos hpassword] at hresult hno hnickname
        obtain ⟨hzero, hlength⟩ := htidy user huser
        refine .inl ⟨user, huser, ⟨haccount, hpassword⟩, honly, by simpa using hresult, hno, ?_⟩
        rw [hnickname rfl]
        exact ntsString_wideChars hzero hlength
      · rename_i hpassword
        rw [if_neg hpassword] at hresult
        refine .inr ⟨by simp [hresult], ?_⟩
        rintro - other hother ⟨hotherAccount, hotherPassword⟩
        rw [honly other hother hotherAccount] at hotherPassword
        exact hpassword hotherPassword

theorem serveJob_signUp (hjob : job.type = .signUp) (hbinds : Binds turn .signUp)
    (h : serveJob sqlEq db table turn job = some (table', r)) (hzero : r.result = 0) :
    ∃ no, signedUpAs job no ∈ table'.1.rows ∧ r.userNo = BitVec.ofNat 32 no := by
  obtain ⟨-, -, hcases⟩ := serveJob_cases (hjob ▸ hbinds) h
  rcases hcases with ⟨-, hone⟩ | ⟨out, hrun, rfl, hresult, hno, -⟩
  · rw [hone] at hzero
    cases hzero
  · simp only [runProcedure, hjob] at hrun
    obtain ⟨t, hserve, rfl⟩ := Option.map_eq_some_iff.mp hrun
    simp only [serve, Option.some.injEq] at hserve
    subst hserve
    rcases spSignUp_cases sqlEq table.1 (accountOf job) (passwordOf job) (nicknameOf job)
      turn.skipped with ⟨-, hrow | hrow⟩ | ⟨-, hnew⟩
    · simp [hrow, hzero] at hresult
    · simp [hrow, hzero] at hresult
    · rw [hnew] at hno ⊢
      exact ⟨_, by simp [signedUpAs], hno⟩

end Answers

/-- The player goes by the number and the name of a user. -/
structure Bears (toAcp : List UInt16 → List UInt8) (pl : CPlayer) (user : User) : Prop where
  userNo : pl.userNo = BitVec.ofNat 32 user.userNo
  name : CPlayer.cString pl.nicknameField =
    CPlayer.cString ((toAcp user.nickname).take (maxNicknameLen - 1))

/-- The player is as `Handle_Join` has made it. -/
def Nameless (pl : CPlayer) : Prop := pl.userNo = 0 ∧ CPlayer.cString pl.nicknameField = []

theorem nameless_new (sid : SessionID) (memory : Nat → UInt8) :
    Nameless (CPlayer.new sid memory) := by
  refine ⟨rfl, ?_⟩
  have hread : (slice (blit memory 0 ([] ++ [0])) 0 maxNicknameLen).takeWhile (· ≠ 0) = [] :=
    takeWhile_slice_blit (List.not_mem_nil) (Nat.zero_le _)
  exact hread

theorem takeWhile_slice_zeroed (xs : List UInt8) (n : Nat) :
    (slice (blit (fun _ => 0) 0 xs) 0 n).takeWhile (· ≠ 0) = (xs.take n).takeWhile (· ≠ 0) := by
  rcases Nat.le_total n xs.length with hle | hle
  · rw [slice_blit_zero _ _ (by omega), List.drop_zero]
  · obtain ⟨k, rfl⟩ := Nat.exists_eq_add_of_le hle
    rw [slice_add, slice_blit_zero _ _ (by omega), List.drop_zero,
      List.take_of_length_le (le_refl xs.length), List.take_of_length_le hle]
    rcases k with _ | k
    · simp
    · have hlast : slice (blit (fun _ => (0 : UInt8)) 0 xs) (0 + xs.length) 1 = [0] := by
        simp [slice, blit]
      rw [Nat.add_comm k 1, slice_add, hlast]
      exact takeWhile_append_end 0 xs _

theorem cString_acpNickname (toAcp : List UInt16 → List UInt8) (r : DBResult) :
    CPlayer.cString (acpNickname toAcp r) =
      CPlayer.cString ((toAcp (wideString r.nickname)).take (maxNicknameLen - 1)) := by
  generalize hname : (toAcp (wideString r.nickname)).take maxNicknameLen = name
  have hshort : (toAcp (wideString r.nickname)).take (maxNicknameLen - 1) =
      name.take (maxNicknameLen - 1) := by
    rw [← hname, List.take_take]
    rfl
  have hterminated (m : Nat → UInt8) : slice (blit m (maxNicknameLen - 1) [0]) 0 maxNicknameLen =
      slice m 0 (maxNicknameLen - 1) ++ [0] := by
    calc slice (blit m (maxNicknameLen - 1) [0]) 0 maxNicknameLen
        = slice (blit m (maxNicknameLen - 1) [0]) 0 (maxNicknameLen - 1) ++
            slice (blit m (maxNicknameLen - 1) [0]) (0 + (maxNicknameLen - 1)) 1 :=
          slice_add _ 0 (maxNicknameLen - 1) 1
      _ = slice m 0 (maxNicknameLen - 1) ++ [0] := by
          rw [slice_blit_of_disjoint m [0] (.inl (by omega)), Nat.zero_add]
          exact congrArg _ (slice_blit_self m (maxNicknameLen - 1) [0])
  rw [hshort, acpNickname, hname, CPlayer.cString, hterminated, takeWhile_append_end,
    takeWhile_slice_zeroed]
  rfl

theorem bears_of_login {toAcp : List UInt16 → List UInt8} {r : DBResult} {user : User}
    (pl : CPlayer) (hno : r.userNo = BitVec.ofNat 32 user.userNo)
    (hnickname : wideString r.nickname = user.nickname) :
    Bears toAcp ((pl.setUserNo r.userNo).setNickname (acpNickname toAcp r)) user := by
  refine ⟨hno, ?_⟩
  have hname := cString_acpNickname toAcp r
  rw [hnickname] at hname
  rw [← hname]
  apply takeWhile_slice_blit
  · intro hmem
    simpa using List.mem_takeWhile_imp hmem
  · have hle : (CPlayer.cString (acpNickname toAcp r)).length ≤ _ :=
      (List.takeWhile_prefix _).length_le
    rwa [acpNickname, slice_length] at hle

/-- Number and nickname of a player are those it had, or it has just been made. -/
def Keeps (c : Content) (pl : CPlayer) (sid : SessionID) : Prop :=
  Nameless pl ∨ ∃ old, c.players.lookup sid = some old ∧ pl.userNo = old.userNo ∧
    pl.nickname = old.nickname

theorem keeps_of_outcome {c c' : Content} {e : Event} {effects : List Effect}
    (hout : Outcome c e c' effects)
    (hquiet : ∀ r, e = .dbResult r → r.type = .login → mapLoginResult r.result ≠ .success)
    {sid : SessionID} {pl : CPlayer} (hpl : c'.players.lookup sid = some pl) :
    Keeps c pl sid := by
  have hsame (h : c.players.lookup sid = some pl) : Keeps c pl sid := .inr ⟨pl, h, rfl, rfl⟩
  cases hout with
  | joinKnown => exact hsame hpl
  | joined env other hnone =>
      rcases lookup_insert_cases hpl with ⟨-, rfl⟩ | ⟨-, hold⟩
      · exact .inl (nameless_new _ _)
      · exact hsame hold
  | leaveUnknown => exact hsame hpl
  | leftLobby => exact hsame (lookup_erase_of hpl)
  | leftRoom => exact hsame (lookup_erase_of hpl)
  | recvQuiet => exact hsame hpl
  | roomLeft env other pkt old i hrequest hleave hold hroom hget =>
      rcases lookup_insert_cases hpl with ⟨rfl, rfl⟩ | ⟨-, hother⟩
      · refine .inr ⟨old, hold, ?_⟩
        simp only [CPlayer.leaveRoom]
        split
        · exact ⟨rfl, rfl⟩
        · exact ⟨rfl, rfl⟩
      · exact hsame hother
  | enterRefused => exact hsame hpl
  | placeTaken => exact hsame hpl
  | entered env other pkt no old i room hrequest hold hget henter hroom =>
      rcases lookup_insert_cases hpl with ⟨rfl, rfl⟩ | ⟨-, hother⟩
      · exact .inr ⟨old, hold, rfl, rfl⟩
      · exact hsame hother
  | dbQuiet => exact hsame hpl
  | loggedIn r old name effects hold htype hresult => exact absurd hresult (hquiet r rfl htype)

section Runs

variable {C : Crypto} {toAcp : List UInt16 → List UInt8} {sqlEq : NVarChar → NVarChar → Prop}
  [DecidableRel sqlEq] {db : CDBConnector} {s s' : Site}

theorem performAll_pushed (io : Nat → SendEnv) (es : List Effect) (sv : Server)
    (jobs : List DBJob) : (performAll C io es sv jobs).2 = jobs ++ es.filterMap jobOf := by
  induction es generalizing io sv jobs with
  | nil => simp [performAll]
  | cons e es ih =>
      simp only [performAll]
      rw [ih]
      cases e with
      | pushJob job => simp [perform, jobOf]
      | send fields targets => simp [perform, jobOf, List.filterMap_cons]

theorem serveJob_key {table : Users × List Record} {turn : DbTurn} {job : DBJob}
    {out : (Users × List Record) × DBResult} (h : serveJob sqlEq db table turn job = some out) :
    out.2.sid = job.sid ∧ out.2.type = job.type := by
  simp only [serveJob] at h
  split at h
  · obtain ⟨row, -, rfl⟩ := Option.map_eq_some_iff.mp h
    exact process_answers _ _ _
  · obtain rfl := Option.some.inj h
    exact process_answers _ _ _

theorem update_cases {env : Env} {io : Nat → SendEnv}
    (h : siteStep C toAcp sqlEq db s (.update env io) = some s') :
    s'.table = s.table ∧ (∃ jobs, s'.asked = s.asked ++ jobs ∧
      s'.world.jobs = s.world.jobs ++ jobs) ∧
      ∃ e effects, Outcome s.world.content e s'.world.content effects ∧
        ∀ r, e ≠ .dbResult r := by
  obtain ⟨w, hstep, rfl⟩ := Option.map_eq_some_iff.mp h
  obtain ⟨hd, hstart, rfl⟩ := Option.map_eq_some_iff.mp hstep
  refine ⟨rfl, ⟨hd.effects.filterMap jobOf, ?_, ?_⟩, ?_⟩
  · simp only [pushedJobs, hstart]
  · change (performAll C io hd.effects hd.server hd.jobs).2 = _
    rw [performAll_pushed]
    congr 1
    simp only [startHandler] at hstart
    split at hstart
    · cases hstart
    all_goals
      obtain rfl := Option.some.inj hstart
      rfl
  · change ∃ e effects, Outcome s.world.content e hd.content effects ∧ _
    simp only [startHandler] at hstart
    split at hstart
    · cases hstart
    · rename_i sid rest _
      obtain rfl := Option.some.inj hstart
      exact ⟨.join env sid, _, outcome_cases toAcp s.world.content (.join env sid), by simp⟩
    · rename_i sid rest _
      obtain rfl := Option.some.inj hstart
      exact ⟨.leave sid, _, outcome_cases toAcp s.world.content (.leave sid), by simp⟩
    · rename_i sid p rest _
      obtain rfl := Option.some.inj hstart
      exact ⟨.recv env sid (s.world.server.packets p), _,
        outcome_cases toAcp s.world.content (.recv env sid (s.world.server.packets p)), by simp⟩

theorem filterMap_jobOf_handleDbResult (c : Content) (r : DBResult) :
    (handleDbResult toAcp c r).2.filterMap jobOf = [] := by
  simp only [handleDbResult]
  split
  · rfl
  · split
    · rfl
    · rfl

theorem answer_cases {turn : DbTurn} {io : Nat → SendEnv}
    (h : siteStep C toAcp sqlEq db s (.answer turn io) = some s') :
    ∃ job rest r, s.world.jobs = job :: rest ∧
      serveJob sqlEq db s.table turn job = some (s'.table, r) ∧ s'.asked = s.asked ∧
      s'.world.jobs = rest ∧
      s'.world.content = (handleDbResult toAcp s.world.content r).1 ∧
      answerLog C toAcp sqlEq db s turn io =
        performAllLog C io (handleDbResult toAcp s.world.content r).2 s.world.server rest := by
  simp only [siteStep] at h
  rcases hjobs : s.world.jobs with _ | ⟨job, rest⟩
  · simp [hjobs] at h
  simp only [hjobs] at h
  obtain ⟨⟨table', r⟩, hserve, hstep⟩ := Option.bind_eq_some_iff.mp h
  obtain ⟨w, hworld, rfl⟩ := Option.map_eq_some_iff.mp hstep
  obtain ⟨hsid, htype⟩ := serveJob_key hserve
  have hresult : DBResult.mk job.type job.sid r.result r.userNo r.nickname = r := by
    rw [← hsid, ← htype]
  obtain ⟨hd, hstart, rfl⟩ := Option.map_eq_some_iff.mp hworld
  have hlog : answerLog C toAcp sqlEq db s turn io =
      performAllLog C io (handleDbResult toAcp s.world.content r).2 s.world.server rest := by
    simp only [answerLog, hjobs, hserve, stepLog, hstart]
    simp only [startHandler, hjobs, hresult, Option.some.injEq] at hstart
    rw [← hstart]
  simp only [startHandler, hjobs, hresult, Option.some.injEq] at hstart
  subst hstart
  refine ⟨job, rest, r, rfl, hserve, rfl, ?_, rfl, hlog⟩
  change (performAll C io (handleDbResult toAcp s.world.content r).2 s.world.server rest).2 = rest
  rw [performAll_pushed, filterMap_jobOf_handleDbResult, List.append_nil]

/-- The player goes by a user of the table with whose account and password its session has
asked for a login. -/
structure LoggedInAs (toAcp : List UInt16 → List UInt8) (sqlEq : NVarChar → NVarChar → Prop)
    (s : Site) (sid : SessionID) (pl : CPlayer) (user : User) : Prop where
  row : user ∈ s.table.1.rows
  asked : ∃ job, job ∈ s.asked ∧ job.sid = sid ∧ job.type = .login ∧ Matches sqlEq user job
  bears : Bears toAcp pl user

/-- The table holds users that have been signed up for, and a job that waits was asked for. -/
structure Stored (sqlEq : NVarChar → NVarChar → Prop) (s : Site) : Prop where
  faithful : Faithful sqlEq s.table
  signedUp : ∀ user, user ∈ s.table.1.rows →
    ∃ job no, job ∈ s.asked ∧ job.type = .signUp ∧ user = signedUpAs job no
  waiting : ∀ job, job ∈ s.world.jobs → job ∈ s.asked

/-- Every player with a name has it from a row of the table. -/
def Known (toAcp : List UInt16 → List UInt8) (sqlEq : NVarChar → NVarChar → Prop)
    (s : Site) : Prop :=
  ∀ sid pl, s.world.content.players.lookup sid = some pl →
    Nameless pl ∨ ∃ user, LoggedInAs toAcp sqlEq s sid pl user

omit [DecidableRel sqlEq] in
theorem Stored.tidy (h : Stored sqlEq s) : Tidy s.table.1 := by
  intro user huser
  obtain ⟨job, no, -, -, rfl⟩ := h.signedUp user huser
  exact ⟨zero_notMem_ntsString _ _, ntsString_length _ _⟩

omit [DecidableRel sqlEq] in
theorem start_stored (max : Nat) : Stored sqlEq (Site.start max) := by
  refine ⟨⟨rfl, List.Pairwise.nil, by simp [Site.start, emptyUsers]⟩, ?_, ?_⟩
  · intro user huser
    cases huser
  · intro job hjob
    cases hjob

omit [DecidableRel sqlEq] in
theorem start_known (max : Nat) : Known toAcp sqlEq (Site.start max) := by
  intro sid pl hpl
  cases hpl

theorem siteStep_books {e : SiteEvent} (hstored : Stored sqlEq s)
    (hstep : siteStep C toAcp sqlEq db s e = some s') :
    Stored sqlEq s' ∧ s.table.1.rows <+: s'.table.1.rows ∧ s.asked <+: s'.asked := by
  cases e with
  | net e =>
      obtain ⟨w, hworld, hsite⟩ := Option.map_eq_some_iff.mp hstep
      obtain ⟨-, sv, -, hserver⟩ := chatStep_net hworld
      have htable : s'.table = s.table := by rw [← hsite]
      have hasked : s'.asked = s.asked := by rw [← hsite]
      have hjobs : s'.world.jobs = s.world.jobs := by rw [← hsite, ← hserver]
      refine ⟨⟨?_, ?_, ?_⟩, htable ▸ List.prefix_refl _, hasked ▸ List.prefix_refl _⟩
      · exact htable ▸ hstored.faithful
      · exact htable ▸ hasked ▸ hstored.signedUp
      · exact hjobs ▸ hasked ▸ hstored.waiting
  | update env io =>
      obtain ⟨htable, ⟨jobs, hasked, hjobs⟩, -⟩ := update_cases hstep
      refine ⟨⟨?_, ?_, ?_⟩, htable ▸ List.prefix_refl _, hasked ▸ List.prefix_append _ _⟩
      · exact htable ▸ hstored.faithful
      · intro user huser
        rw [htable] at huser
        obtain ⟨job, no, hjob, hsame⟩ := hstored.signedUp user huser
        exact ⟨job, no, hasked ▸ List.mem_append_left _ hjob, hsame⟩
      · intro job hjob
        rw [hjobs, List.mem_append] at hjob
        rw [hasked, List.mem_append]
        exact hjob.imp (hstored.waiting job) id
  | answer turn io =>
      obtain ⟨job, rest, r, hjobs, hserve, hasked, hrest, -, -⟩ := answer_cases hstep
      have hjob : job ∈ s.asked := hstored.waiting job (by simp [hjobs])
      obtain ⟨hfaithful, hrows⟩ := serveJob_rows hstored.faithful hserve
      refine ⟨⟨hfaithful, ?_, ?_⟩, ?_, hasked ▸ List.prefix_refl _⟩
      · intro user huser
        rw [hasked]
        rcases hrows with hsame | ⟨hsignUp, no, hadded⟩
        · exact hstored.signedUp user (hsame ▸ huser)
        · rw [hadded] at huser
          rcases List.mem_append.mp huser with hold | hnew
          · exact hstored.signedUp user hold
          · exact ⟨job, no, hjob, hsignUp, List.mem_singleton.mp hnew⟩
      · intro other hother
        rw [hrest] at hother
        exact hasked ▸ hstored.waiting other (by simp [hjobs, hother])
      · rcases hrows with hsame | ⟨-, no, hadded⟩
        · exact hsame ▸ List.prefix_refl _
        · exact hadded ▸ List.prefix_append _ _

theorem run_books {events : List SiteEvent} (hstored : Stored sqlEq s)
    (hrun : run (siteStep C toAcp sqlEq db) s events = some s') :
    Stored sqlEq s' ∧ s.table.1.rows <+: s'.table.1.rows :=
  invariant_of_run (J := fun t => Stored sqlEq t ∧ s.table.1.rows <+: t.table.1.rows)
    (siteStep C toAcp sqlEq db)
    (fun _ _ _ ht hstep =>
      let hnext := siteStep_books ht.1 hstep
      ⟨hnext.1, ht.2.trans hnext.2.1⟩)
    ⟨hstored, List.prefix_refl _⟩ hrun

omit [DecidableRel sqlEq] in
theorem Known.keeps (h : Known toAcp sqlEq s) (hrows : s.table.1.rows <+: s'.table.1.rows)
    (hasked : s.asked <+: s'.asked) {sid : SessionID} {pl : CPlayer}
    (hpl : Keeps s.world.content pl sid) :
    Nameless pl ∨ ∃ user, LoggedInAs toAcp sqlEq s' sid pl user := by
  rcases hpl with hnew | ⟨old, hold, hno, hnickname⟩
  · exact .inl hnew
  · have hfield : pl.nicknameField = old.nicknameField := by
      rw [CPlayer.nicknameField, hnickname]
      rfl
    rcases h sid old hold with ⟨hzero, hempty⟩ | ⟨user, hrow, ⟨job, hjob, hmatches⟩, hbears⟩
    · exact .inl ⟨hno.trans hzero, hfield ▸ hempty⟩
    · exact .inr ⟨user, hrows.subset hrow, ⟨job, hasked.subset hjob, hmatches⟩,
        hno.trans hbears.userNo, hfield ▸ hbears.name⟩

theorem mapLoginResult_success_iff (v : Int) : mapLoginResult v = .success ↔ v = 0 := by
  rcases mapResult_cases .login v with ⟨rfl, h⟩ | ⟨rfl, h⟩ | ⟨rfl, h⟩ | ⟨h0, -, -, h⟩
  · simp [mapLoginResult]
  · simp [mapLoginResult]
  · simp [mapLoginResult]
  · simp only [mapResult] at h
    simp [h, h0]

theorem answer_known (heq : Equivalence sqlEq) (hstored : Stored sqlEq s)
    (h : Known toAcp sqlEq s) {turn : DbTurn} {io : Nat → SendEnv}
    (hbinds : BindsColumns s (.answer turn io))
    (hstep : siteStep C toAcp sqlEq db s (.answer turn io) = some s') :
    Known toAcp sqlEq s' := by
  obtain ⟨-, hrows, haskedPrefix⟩ := siteStep_books hstored hstep
  obtain ⟨job, rest, r, hjobs, hserve, hasked, hrest, hcontent, -⟩ := answer_cases hstep
  have hbound : Binds turn job.type := hbinds job (by simp [hjobs])
  obtain ⟨hsid, htype⟩ := serveJob_key hserve
  have hjob : job ∈ s.asked := hstored.waiting job (by simp [hjobs])
  intro sid pl hpl
  rw [hcontent] at hpl
  rcases Classical.em (r.type = .login ∧ r.result = 0) with ⟨hlogin, hzero⟩ | hquiet
  · -- the login has succeeded
    have hjobType : job.type = .login := htype.symm.trans hlogin
    rw [hjobType] at hbound
    rcases serveJob_login heq hstored.faithful hstored.tidy hjobType hbound hserve with
      ⟨user, huser, hmatches, -, -, hno, hnickname⟩ | ⟨hne, -⟩
    · have hsuccess : mapLoginResult r.result = .success := (mapLoginResult_success_iff _).mpr hzero
      rcases hold : s.world.content.players.lookup r.sid with _ | old
      · simp only [handleDbResult, hold] at hpl
        exact h.keeps hrows haskedPrefix (.inr ⟨pl, hpl, rfl, rfl⟩)
      · simp only [handleDbResult, hold, hlogin, hsuccess, if_true] at hpl
        rcases lookup_insert_cases hpl with ⟨rfl, rfl⟩ | ⟨-, hother⟩
        · exact .inr ⟨user, huser, ⟨job, hasked ▸ hjob, hsid.symm, hjobType, hmatches⟩,
            bears_of_login old hno hnickname⟩
        · exact h.keeps hrows haskedPrefix (.inr ⟨pl, hother, rfl, rfl⟩)
    · exact absurd hzero hne
  · apply h.keeps hrows haskedPrefix
    refine keeps_of_outcome (handleDbResult_outcome toAcp s.world.content r) ?_ hpl
    rintro r' hr hlogin hsuccess
    obtain rfl : r = r' := by injection hr
    exact hquiet ⟨hlogin, (mapLoginResult_success_iff _).mp hsuccess⟩

theorem siteStep_known (heq : Equivalence sqlEq) (hstored : Stored sqlEq s)
    (h : Known toAcp sqlEq s) {e : SiteEvent} (hbinds : BindsColumns s e)
    (hstep : siteStep C toAcp sqlEq db s e = some s') : Known toAcp sqlEq s' := by
  obtain ⟨-, hrows, hasked⟩ := siteStep_books hstored hstep
  cases e with
  | net e =>
      obtain ⟨w, hworld, hsite⟩ := Option.map_eq_some_iff.mp hstep
      obtain ⟨-, sv, -, hserver⟩ := chatStep_net hworld
      have hcontent : s'.world.content = s.world.content := by rw [← hsite, ← hserver]
      intro sid pl hpl
      rw [hcontent] at hpl
      exact h.keeps hrows hasked (.inr ⟨pl, hpl, rfl, rfl⟩)
  | update env io =>
      obtain ⟨-, -, e, effects, hout, hevent⟩ := update_cases hstep
      intro sid pl hpl
      apply h.keeps hrows hasked
      exact keeps_of_outcome hout (fun r hr => absurd hr (hevent r)) hpl
  | answer turn io => exact answer_known heq hstored h hbinds hstep

theorem run_known (heq : Equivalence sqlEq) {events : List SiteEvent} {max : Nat}
    (hbinds : Meets (siteStep C toAcp sqlEq db) BindsColumns (Site.start max) events)
    (hrun : run (siteStep C toAcp sqlEq db) (Site.start max) events = some s) :
    Stored sqlEq s ∧ Known toAcp sqlEq s :=
  invariant_of_meets (J := fun t => Stored sqlEq t ∧ Known toAcp sqlEq t)
    (siteStep C toAcp sqlEq db)
    (fun _ _ _ hs hguard hstep =>
      ⟨(siteStep_books hs.1 hstep).1, siteStep_known heq hs.1 hs.2 hguard hstep⟩)
    ⟨start_stored max, start_known max⟩ hbinds hrun

theorem performAllLog_single (io : Nat → SendEnv) (fields : List (List UInt8)) (sid : SessionID)
    (sv : Server) (jobs : List DBJob) :
    ∃ p ok, performAllLog C io [.send fields [sid]] sv jobs = [⟨sid, p, fields, ok⟩] :=
  ⟨_, _, rfl⟩

theorem intBytes_injective {v v' : BitVec 32} (h : intBytes v = intBytes v') : v = v' := by
  simp only [intBytes, List.cons.injEq, and_true] at h
  obtain ⟨h0, h1, h2, h3⟩ := h
  have hbytes := congrArg UInt8.toNat h0
  have hbytes' := congrArg UInt8.toNat h1
  have hbytes'' := congrArg UInt8.toNat h2
  have hbytes''' := congrArg UInt8.toNat h3
  simp only [UInt8.toNat_ofNat'] at hbytes hbytes' hbytes'' hbytes'''
  have hlt := v.isLt
  have hlt' := v'.isLt
  apply BitVec.eq_of_toNat_eq
  omega

theorem code_success {rc : ResultCode} (h : rc.code = ResultCode.success.code) :
    rc = .success := by
  cases rc with
  | success => rfl
  | _ => revert h; decide

theorem signed_up {job : DBJob} (hjob : s.world.jobs.head? = some job)
    (htype : job.type = .signUp) {turn : DbTurn} (hbinds : Binds turn .signUp)
    {io : Nat → SendEnv} (hstep : siteStep C toAcp sqlEq db s (.answer turn io) = some s')
    {x : SendCall} {no : BitVec 32} (hx : x ∈ answerLog C toAcp sqlEq db s turn io)
    (hfields : x.fields =
      [wordBytes PacketType.scSignupRes.code, [ResultCode.success.code], intBytes no]) :
    ∃ n, signedUpAs job n ∈ s'.table.1.rows ∧ no = BitVec.ofNat 32 n := by
  obtain ⟨first, rest, r, hjobs, hserve, -, -, -, hlog⟩ := answer_cases hstep
  obtain rfl : first = job := by simpa [hjobs] using hjob
  have hrtype : r.type = .signUp := (serveJob_key hserve).2.trans htype
  rw [hlog] at hx
  rcases hpl : s.world.content.players.lookup r.sid with _ | pl
  · simp [handleDbResult, hpl, performAllLog] at hx
  · have heffects : (handleDbResult toAcp s.world.content r).2 =
        [.send [wordBytes PacketType.scSignupRes.code, [(mapSignUpResult r.result).code],
          intBytes r.userNo] [r.sid]] := by
      simp only [handleDbResult, hpl, hrtype]
    rw [heffects] at hx
    obtain ⟨p, ok, hsingle⟩ := performAllLog_single io
      [wordBytes PacketType.scSignupRes.code, [(mapSignUpResult r.result).code],
        intBytes r.userNo] r.sid s.world.server rest
    rw [hsingle, List.mem_singleton] at hx
    rw [hx] at hfields
    simp only [List.cons.injEq, and_true, true_and] at hfields
    obtain ⟨hcode, hno⟩ := hfields
    have hzero : r.result = 0 := by
      rcases mapResult_cases .signUp r.result with ⟨h0, -⟩ | ⟨-, h⟩ | ⟨-, h⟩ | ⟨-, -, -, h⟩
      · exact h0
      all_goals
        rw [show mapSignUpResult r.result = _ from h] at hcode
        cases code_success hcode
    obtain ⟨n, hrow, huserNo⟩ := serveJob_signUp htype hbinds hserve hzero
    exact ⟨n, hrow, (intBytes_injective hno).symm.trans huserNo⟩

theorem logged_in (heq : Equivalence sqlEq) (hstored : Stored sqlEq s) {job : DBJob}
    (hjob : s.world.jobs.head? = some job) (htype : job.type = .login) {turn : DbTurn}
    (hworks : Works db turn .login) {io : Nat → SendEnv}
    (hstep : siteStep C toAcp sqlEq db s (.answer turn io) = some s') {user : User}
    (huser : user ∈ s.table.1.rows) (hmatches : Matches sqlEq user job) {pl : CPlayer}
    (hpl : s.world.content.players.lookup job.sid = some pl) :
    (∃ pl', s'.world.content.players.lookup job.sid = some pl' ∧ pl'.state = .loggedIn ∧
      Bears toAcp pl' user) ∧
    ∃ x nickname, answerLog C toAcp sqlEq db s turn io = [x] ∧ x.sid = job.sid ∧
      x.fields = [wordBytes PacketType.scLoginRes.code, [ResultCode.success.code],
        intBytes (BitVec.ofNat 32 user.userNo),
        (slice nickname 0 maxNicknameLen).flatMap wordBytes] ∧
      wideString nickname = user.nickname := by
  obtain ⟨first, rest, r, hjobs, hserve, -, -, hcontent, hlog⟩ := answer_cases hstep
  obtain rfl : first = job := by simpa [hjobs] using hjob
  have hsid : r.sid = first.sid := (serveJob_key hserve).1
  have hrtype : r.type = .login := (serveJob_key hserve).2.trans htype
  have hrpl : s.world.content.players.lookup r.sid = some pl := by
    rw [hsid]
    exact hpl
  rcases serveJob_login heq hstored.faithful hstored.tidy htype hworks.binds hserve with
    ⟨found, -, -, honly, hzero, hno, hnickname⟩ | ⟨-, hnone⟩
  · obtain rfl : user = found := honly user huser hmatches.1
    have hsuccess : mapLoginResult r.result = .success := (mapLoginResult_success_iff _).mpr hzero
    have houtcome : handleDbResult toAcp s.world.content r =
        ({ s.world.content with
            players := s.world.content.players.insert r.sid
              ((pl.setUserNo r.userNo).setNickname (acpNickname toAcp r)) },
          [.send [wordBytes PacketType.scLoginRes.code, [ResultCode.success.code],
            intBytes r.userNo, (slice r.nickname 0 maxNicknameLen).flatMap wordBytes]
            [r.sid]]) := by
      simp only [handleDbResult, hrpl, hrtype, hsuccess, if_true]
    rw [houtcome] at hcontent hlog
    constructor
    · refine ⟨_, ?_, rfl, bears_of_login pl hno hnickname⟩
      rw [hcontent, ← hsid]
      exact AList.lookup_insert _
    · obtain ⟨p, ok, hsingle⟩ := performAllLog_single io
        [wordBytes PacketType.scLoginRes.code, [ResultCode.success.code],
          intBytes r.userNo, (slice r.nickname 0 maxNicknameLen).flatMap wordBytes] r.sid
        s.world.server rest
      exact ⟨_, r.nickname, hlog.trans hsingle, hsid, by rw [hno], hnickname⟩
  · exact absurd hmatches (hnone hworks.answered user huser)

end Runs

/-- A call of the database that goes well. -/
def goodTurn (scan : List User) : DbTurn where
  ret _ := 0
  applied := false
  scan := scan
  skipped := 0
  memory _ := 0

/-- An array of `n` wide characters that holds one character, as bytes. -/
def field (c : UInt8) (n : Nat) : List UInt8 := [c, 0] ++ List.replicate (2 * n - 2) 0

/-- The frame of a payload under keys that leave everything as it is. -/
def frameOf (payload : List UInt8) : List UInt8 :=
  wordBytes (UInt16.ofNat payload.length) ++ List.replicate 28 0 ++ payload

/-- Every nonce is zero, and every send is accepted. -/
def oneNonce : Nat → SendEnv := fun _ => ⟨List.replicate 12 0, fun _ => true⟩

def signUpRequest : List SiteEvent :=
  [.net (.accept 7 true true), .update zeroEnv oneNonce,
    .net (.recvDone 0 (frameOf (wordBytes PacketType.csSignupReq.code ++ field 97 32 ++
      field 49 64 ++ field 120 32)) true),
    .update zeroEnv oneNonce]

def loginRequest : List SiteEvent :=
  [.net (.sendDone 0 true),
    .net (.recvDone 0 (frameOf (wordBytes PacketType.csLoginReq.code ++ field 65 32 ++
      field 49 64)) true),
    .update zeroEnv oneNonce]

/-- A connection as `Connect` leaves it. -/
def openConnector : CDBConnector := ⟨1, 2, true⟩

/-- Characters are cut to their lower bytes. -/
def plainAcp (s : List UInt16) : List UInt8 := s.map fun w => UInt8.ofNat w.toNat

def firstUser : User := ⟨1, [97], [49], [120]⟩

theorem caselessEq_equivalence : Equivalence caselessEq := ⟨fun _ => rfl, Eq.symm, Eq.trans⟩

abbrev exampleStep : Site → SiteEvent → Option Site :=
  siteStep Crypto.none plainAcp caselessEq openConnector

/-- A player goes by no name, or by that of a user of the table with whose account and password
its session has asked for a login.  Every user was signed up for by a session, and no two
users have accounts or nicknames that the database takes for equal. -/
theorem names_belong_to_accounts (C : Crypto) (toAcp : List UInt16 → List UInt8)
    {sqlEq : NVarChar → NVarChar → Prop} [DecidableRel sqlEq] (heq : Equivalence sqlEq)
    (db : CDBConnector) {maxSession : Nat} {events : List SiteEvent} {s : Site}
    (hrun : run (siteStep C toAcp sqlEq db) (Site.start maxSession) events = some s)
    (hbinds : Meets (siteStep C toAcp sqlEq db) BindsColumns (Site.start maxSession) events) :
    (∀ sid pl, s.world.content.players.lookup sid = some pl →
      Nameless pl ∨ ∃ user, LoggedInAs toAcp sqlEq s sid pl user) ∧
    (∀ user, user ∈ s.table.1.rows →
      ∃ job no, job ∈ s.asked ∧ job.type = .signUp ∧ user = signedUpAs job no) ∧
    ∀ user other, user ∈ s.table.1.rows → other ∈ s.table.1.rows →
      sqlEq user.account other.account ∨ sqlEq user.nickname other.nickname → user = other := by
  obtain ⟨hstored, hknown⟩ := run_known heq hbinds hrun
  refine ⟨hknown, hstored.signedUp, ?_⟩
  intro user other huser hother hsame
  by_contra hne
  have hsymm : Std.Symm (Distinct sqlEq) :=
    ⟨fun _ _ h => ⟨fun hac => h.1 (heq.symm hac), fun hnick => h.2 (heq.symm hnick)⟩⟩
  obtain ⟨haccount, hnickname⟩ := hstored.faithful.distinct.forall huser hother hne
  exact hsame.elim haccount hnickname

/-- One session signs up and logs in, with the account in capitals. -/
theorem names_belong_to_accounts_signUpLogin :
    ∃ s pl user, run exampleStep (Site.start 1) (signUpRequest ++
        .answer (goodTurn []) oneNonce :: loginRequest ++
        [.answer (goodTurn [firstUser]) oneNonce]) = some s ∧
      s.world.content.players.lookup 1#64 = some pl ∧
      LoggedInAs plainAcp caselessEq s 1#64 pl user := by
  have hfacts : (run exampleStep (Site.start 1) (signUpRequest ++
      .answer (goodTurn []) oneNonce :: loginRequest ++
      [.answer (goodTurn [firstUser]) oneNonce])).map (fun s =>
        (s.world.content.players.lookup 1#64).map CPlayer.userNo) = some (some 1) := by
    decide +kernel
  obtain ⟨s, hrun, hs⟩ := Option.map_eq_some_iff.mp hfacts
  obtain ⟨pl, hpl, hno⟩ := Option.map_eq_some_iff.mp hs
  rcases (names_belong_to_accounts Crypto.none plainAcp caselessEq_equivalence
    openConnector hrun (by decide +kernel)).1 1#64 pl hpl with ⟨hzero, -⟩ | ⟨user, huser⟩
  · rw [hno] at hzero
    cases hzero
  · exact ⟨s, pl, user, hrun, hpl, huser⟩

/-- Whoever was told of the success of a sign-up, for which the result columns were bound, can
log in with its account and password ever after, from any session: the answer is a success,
with the number that was told and the nickname that was asked for, and the player goes by
both. -/
theorem log_in_as_signed_up (C : Crypto) (toAcp : List UInt16 → List UInt8)
    {sqlEq : NVarChar → NVarChar → Prop} [DecidableRel sqlEq] (heq : Equivalence sqlEq)
    (db : CDBConnector) {maxSession : Nat} {before between : List SiteEvent}
    {s₁ s₂ s₃ s₄ : Site}
    (hbefore : run (siteStep C toAcp sqlEq db) (Site.start maxSession) before = some s₁)
    {turn : DbTurn} {io : Nat → SendEnv}
    (hanswer : siteStep C toAcp sqlEq db s₁ (.answer turn io) = some s₂)
    (hbetween : run (siteStep C toAcp sqlEq db) s₂ between = some s₃)
    {turn' : DbTurn} {io' : Nat → SendEnv}
    (hanswer' : siteStep C toAcp sqlEq db s₃ (.answer turn' io') = some s₄)
    {signUp login : DBJob} (hsignUp : s₁.world.jobs.head? = some signUp)
    (hsignUpType : signUp.type = .signUp) (hlogin : s₃.world.jobs.head? = some login)
    (hloginType : login.type = .login) (hbinds : Binds turn .signUp)
    (hworks : Works db turn' .login)
    {x : SendCall} {userNo : BitVec 32} (hx : x ∈ answerLog C toAcp sqlEq db s₁ turn io)
    (hfields : x.fields =
      [wordBytes PacketType.scSignupRes.code, [ResultCode.success.code], intBytes userNo])
    (haccount : sqlEq (accountOf signUp) (accountOf login))
    (hpassword : sqlEq (passwordOf signUp) (passwordOf login)) {pl : CPlayer}
    (hpl : s₃.world.content.players.lookup login.sid = some pl) :
    (∃ pl', s₄.world.content.players.lookup login.sid = some pl' ∧ pl'.state = .loggedIn ∧
      pl'.userNo = userNo ∧ CPlayer.cString pl'.nicknameField =
        CPlayer.cString ((toAcp (nicknameOf signUp)).take (maxNicknameLen - 1))) ∧
    ∃ x' nickname, answerLog C toAcp sqlEq db s₃ turn' io' = [x'] ∧ x'.sid = login.sid ∧
      x'.fields = [wordBytes PacketType.scLoginRes.code, [ResultCode.success.code],
        intBytes userNo, (slice nickname 0 maxNicknameLen).flatMap wordBytes] ∧
      wideString nickname = nicknameOf signUp := by
  obtain ⟨hstored₁, -⟩ := run_books (start_stored maxSession) hbefore
  obtain ⟨n, hrow, rfl⟩ := signed_up hsignUp hsignUpType hbinds hanswer hx hfields
  obtain ⟨hstored₂, -⟩ := siteStep_books hstored₁ hanswer
  obtain ⟨hstored₃, hrows⟩ := run_books hstored₂ hbetween
  obtain ⟨⟨pl', hpl', hstate, hbears⟩, htold⟩ := logged_in heq hstored₃ hlogin hloginType hworks
    hanswer' (hrows.subset hrow) ⟨haccount, hpassword⟩ hpl
  exact ⟨⟨pl', hpl', hstate, hbears.userNo, hbears.name⟩, htold⟩

theorem log_in_as_signed_up_capitals :
    ∃ s₃ s₄ pl, run exampleStep (Site.start 1) (signUpRequest ++
        .answer (goodTurn []) oneNonce :: loginRequest) = some s₃ ∧
      exampleStep s₃ (.answer (goodTurn [firstUser]) oneNonce) = some s₄ ∧
      s₄.world.content.players.lookup 1#64 = some pl ∧ pl.userNo = 1 ∧
      CPlayer.cString pl.nicknameField = [120] := by
  have hfacts : ((run exampleStep (Site.start 1) signUpRequest).bind fun s₁ =>
      (exampleStep s₁ (.answer (goodTurn []) oneNonce)).bind fun s₂ =>
      (run exampleStep s₂ loginRequest).bind fun s₃ =>
      (exampleStep s₃ (.answer (goodTurn [firstUser]) oneNonce)).map fun _ => decide (
        s₁.world.jobs.head?.map (fun job => (job.type, accountOf job, passwordOf job,
          nicknameOf job)) = some (.signUp, [97], [49], [120]) ∧
        s₃.world.jobs.head?.map (fun job => (job.type, accountOf job, passwordOf job, job.sid)) =
          some (.login, [65], [49], 1#64) ∧
        (answerLog Crypto.none plainAcp caselessEq openConnector s₁ (goodTurn [])
          oneNonce).map SendCall.fields = [[wordBytes PacketType.scSignupRes.code,
            [ResultCode.success.code], intBytes 1]] ∧
        (s₃.world.content.players.lookup 1#64).isSome = true)) = some true := by
    decide +kernel
  obtain ⟨s₁, hbefore, hrest⟩ := Option.bind_eq_some_iff.mp hfacts
  obtain ⟨s₂, hanswer, hrest⟩ := Option.bind_eq_some_iff.mp hrest
  obtain ⟨s₃, hbetween, hrest⟩ := Option.bind_eq_some_iff.mp hrest
  obtain ⟨s₄, hanswer', hs⟩ := Option.map_eq_some_iff.mp hrest
  obtain ⟨hfirst, hsecond, hlog, hplayer⟩ := of_decide_eq_true hs
  obtain ⟨signUp, hsignUp, hcredentials⟩ := Option.map_eq_some_iff.mp hfirst
  obtain ⟨login, hlogin, hcredentials'⟩ := Option.map_eq_some_iff.mp hsecond
  obtain ⟨pl, hpl⟩ := Option.isSome_iff_exists.mp hplayer
  simp only [Prod.mk.injEq] at hcredentials hcredentials'
  obtain ⟨htype, haccount, hpassword, hnickname⟩ := hcredentials
  obtain ⟨htype', haccount', hpassword', hsid⟩ := hcredentials'
  obtain ⟨x, hx, hfields⟩ := List.map_eq_singleton_iff.mp hlog
  have hrun : run exampleStep (Site.start 1) (signUpRequest ++
      .answer (goodTurn []) oneNonce :: loginRequest) = some s₃ := by
    rw [run_append, hbefore]
    exact (run_cons_of_step exampleStep hanswer loginRequest).trans hbetween
  obtain ⟨⟨pl', hpl', -, hno, hname⟩, -⟩ := log_in_as_signed_up Crypto.none plainAcp
    caselessEq_equivalence openConnector hbefore hanswer hbetween hanswer' hsignUp htype
    hlogin htype' (by decide) ⟨rfl, by decide, by decide⟩ (hx ▸ List.mem_singleton_self x) hfields
    (by rw [haccount, haccount']; decide) (by rw [hpassword, hpassword']; decide) (hsid ▸ hpl)
  rw [hnickname] at hname
  exact ⟨s₃, s₄, pl', hrun, hanswer', hsid ▸ hpl', hno, hname⟩

end IocpChat.Accounts
