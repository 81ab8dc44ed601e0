import IocpChat.DbConnector

namespace IocpChat.DbAnswers

open IocpChat.Protocol
open IocpChat.ContentHandlers
open IocpChat.DbWorker
open IocpChat.DbConnector

/-- `db.Login` as `processLogin` calls it, with a zeroed `outNickname[33]`. -/
def callLogin (d : Driver) (db : CDBConnector) (log : List OdbcCall) (job : DBJob) :
    Option DbReply :=
  match db.login d job.account job.password (fun _ => 0) (maxNicknameLen + 1) log with
  | (true, out, _) => some out
  | (false, _, _) => none

/-- What the worker gets of `SignUp`: nothing where the call has failed. -/
def callSignUp (d : Driver) (db : CDBConnector) (log : List OdbcCall) (job : DBJob) :
    Option DbReply :=
  match db.signUp d job.account job.password job.nickname log with
  | (true, (result, userNo), _) => some ⟨result, userNo, fun _ => 0⟩
  | (false, _, _) => none

/-- The result the worker pushes for a job. -/
def answer (d : Driver) (db : CDBConnector) (log : List OdbcCall) (memory : Nat → UInt16)
    (job : DBJob) : DBResult :=
  process memory job
    (match job.type with
      | .login => callLogin d db log job
      | .signUp => callSignUp d db log job)

/-- The parameters of the procedure. -/
def paramCount : DBJobType → Nat
  | .login => 2
  | .signUp => 3

/-- The columns of its row. -/
def columnCount : DBJobType → Nat
  | .login => 3
  | .signUp => 2

/-- What the procedure has returned, where the calls that carry its answer all went well. -/
def procedureResult (d : Driver) (db : CDBConnector) (log : List OdbcCall)
    (type : DBJobType) : Option Int :=
  if Answered d db (paramCount type) (columnCount type) log.length then
    some (d.row (log.length + paramCount type + columnCount type + 2)).result
  else none

/-- Column 1 holds the result of the procedure. -/
def resultBound (d : Driver) (log : List OdbcCall) (type : DBJobType) : Bool :=
  sqlOk (d.ret (log.length + paramCount type + 2))

/-- `MapLoginResult` or `MapSignUpResult`. -/
def mapResult : DBJobType → Int → ResultCode
  | .login => mapLoginResult
  | .signUp => mapSignUpResult

/-- `RESULT_INVALID_ACCOUNT` or `RESULT_DUPLICATE_ACCOUNT` -/
def accountCode : DBJobType → ResultCode
  | .login => .invalidAccount
  | .signUp => .duplicateAccount

/-- `RESULT_INVALID_PASSWORD` or `RESULT_DUPLICATE_NICKNAME` -/
def secondCode : DBJobType → ResultCode
  | .login => .invalidPassword
  | .signUp => .duplicateNickname

/-- The code of a response says what the procedure returned, if it did. -/
structure ToldRight (type : DBJobType) (returned : Option Int) (code : UInt8) : Prop where
  success : code = ResultCode.success.code ↔ returned = some 0
  account : code = (accountCode type).code → returned = some 1
  second : code = (secondCode type).code → returned = some 2
  otherwise : returned ≠ some 0 → returned ≠ some 1 → returned ≠ some 2 →
    code = ResultCode.fail.code

/-- The second field of a response is its result code. -/
def sentCode : Effect → Option UInt8
  | .send (_ :: [code] :: _) _ => some code
  | _ => none

/-- An answer keeps its result only if column 1 was bound to the local it is read from. -/
def reported (d : Driver) (log : List OdbcCall) (type : DBJobType) (returned : Int) : Int :=
  if resultBound d log type then returned else 0

theorem map_result_execProcedure (d : Driver) (params : List Param) (sql : String)
    {columns : Nat} (hcolumns : 0 < columns) (db : CDBConnector) (log : List OdbcCall) :
    (db.execProcedure d params sql columns log).1.map Row.result =
      if Answered d db params.length columns log.length then
        some (if sqlOk (d.ret (log.length + params.length + 2)) then
          (d.row (log.length + params.length + columns + 2)).result else 0)
      else none := by
  have hfst := execProcedure_fst d params sql columns db log
  rcases hrow : (db.execProcedure d params sql columns log).1 with _ | row
  · have hnot : ¬ Answered d db params.length columns log.length := by
      intro hans
      have hsome := (hfst _).mpr ⟨hans, rfl⟩
      rw [hrow] at hsome
      cases hsome
    rw [if_neg hnot, Option.map_none]
  · obtain ⟨hans, rfl⟩ := (hfst row).mp hrow
    rw [if_pos hans, Option.map_some]
    simp [CDBConnector.boundRow, hcolumns]

/-- What `map_result_execProcedure` says in terms of the two procedures. -/
theorem map_reported (d : Driver) (db : CDBConnector) (log : List OdbcCall) (type : DBJobType) :
    (procedureResult d db log type).map (reported d log type) =
      if Answered d db (paramCount type) (columnCount type) log.length then
        some (if sqlOk (d.ret (log.length + paramCount type + 2)) then
          (d.row (log.length + paramCount type + columnCount type + 2)).result else 0)
      else none := by
  unfold procedureResult
  split <;> rfl

theorem map_result_callLogin (d : Driver) (db : CDBConnector) (log : List OdbcCall)
    (job : DBJob) : (callLogin d db log job).map DbReply.result =
      (procedureResult d db log .login).map (reported d log .login) := by
  rw [map_reported]
  refine Eq.trans ?_ (map_result_execProcedure d [⟨32, job.account⟩, ⟨64, job.password⟩]
    "EXEC sp_Login ?, ?" (show 0 < 3 by decide) db log)
  simp only [callLogin, CDBConnector.login]
  generalize db.execProcedure d _ _ _ log = r
  rcases r with ⟨_ | row, log'⟩ <;> rfl

theorem map_result_callSignUp (d : Driver) (db : CDBConnector) (log : List OdbcCall)
    (job : DBJob) : (callSignUp d db log job).map DbReply.result =
      (procedureResult d db log .signUp).map (reported d log .signUp) := by
  rw [map_reported]
  refine Eq.trans ?_ (map_result_execProcedure d
    [⟨32, job.account⟩, ⟨64, job.password⟩, ⟨32, job.nickname⟩] "EXEC sp_SignUp ?, ?, ?"
    (show 0 < 2 by decide) db log)
  simp only [callSignUp, CDBConnector.signUp]
  generalize db.execProcedure d _ _ _ log = r
  rcases r with ⟨_ | row, log'⟩ <;> rfl

theorem process_result (memory : Nat → UInt16) (job : DBJob) (reply : Option DbReply) :
    (process memory job reply).result = (reply.map DbReply.result).getD 1 := by
  unfold process
  cases job.type <;> cases reply <;> rfl

theorem answer_result (d : Driver) (db : CDBConnector) (log : List OdbcCall)
    (memory : Nat → UInt16) (job : DBJob) :
    (answer d db log memory job).result =
      ((procedureResult d db log job.type).map (reported d log job.type)).getD 1 := by
  rw [answer, process_result]
  cases htype : job.type with
  | login => rw [map_result_callLogin]
  | signUp => rw [map_result_callSignUp]

theorem sentCode_handleDbResult (toAcp : List UInt16 → List UInt8) {c : Content}
    {r : DBResult} {pl : CPlayer} (hpl : c.players.lookup r.sid = some pl) :
    (handleDbResult toAcp c r).2.map sentCode = [some (mapResult r.type r.result).code] := by
  simp only [handleDbResult, hpl]
  cases r.type <;> rfl

theorem mapResult_cases (type : DBJobType) (v : Int) :
    (v = 0 ∧ mapResult type v = .success) ∨ (v = 1 ∧ mapResult type v = accountCode type) ∨
      (v = 2 ∧ mapResult type v = secondCode type) ∨
      (v ≠ 0 ∧ v ≠ 1 ∧ v ≠ 2 ∧ mapResult type v = .fail) := by
  rcases eq_or_ne v 0 with rfl | h0
  · exact .inl ⟨rfl, by cases type <;> rfl⟩
  · rcases eq_or_ne v 1 with rfl | h1
    · exact .inr (.inl ⟨rfl, by cases type <;> rfl⟩)
    · rcases eq_or_ne v 2 with rfl | h2
      · exact .inr (.inr (.inl ⟨rfl, by cases type <;> rfl⟩))
      · refine .inr (.inr (.inr ⟨h0, h1, h2, ?_⟩))
        cases type with
        | login =>
            change mapLoginResult v = .fail
            unfold mapLoginResult
            split
            · exact absurd rfl h0
            · exact absurd rfl h1
            · exact absurd rfl h2
            · rfl
        | signUp =>
            change mapSignUpResult v = .fail
            unfold mapSignUpResult
            split
            · exact absurd rfl h0
            · exact absurd rfl h1
            · exact absurd rfl h2
            · rfl

theorem toldRight_returned (type : DBJobType) (v : Int) :
    ToldRight type (some v) (mapResult type v).code := by
  rcases mapResult_cases type v with ⟨rfl, h⟩ | ⟨rfl, h⟩ | ⟨rfl, h⟩ | ⟨h0, h1, h2, h⟩
  · rw [h]
    constructor <;> cases type <;> decide
  · rw [h]
    constructor <;> cases type <;> decide
  · rw [h]
    constructor <;> cases type <;> decide
  · rw [h]
    constructor <;> cases type <;> simp [h0, h1, h2, accountCode, secondCode, ResultCode.code]

theorem toldRight_zero_iff (type : DBJobType) (returned : Option Int) :
    ToldRight type returned (mapResult type 0).code ↔ returned = some 0 := by
  constructor
  · intro h
    exact h.success.mp (by cases type <;> rfl)
  · rintro rfl
    exact toldRight_returned type 0

theorem not_toldRight_none (type : DBJobType) :
    ¬ ToldRight type none (mapResult type 1).code := by
  intro h
  have hone := h.account (by cases type <;> rfl)
  cases hone

/-- The response for a job tells the client what the database decided exactly if the player
is gone, so that none is sent, or the procedure has returned a result that was read. -/
theorem response_told_right_iff (toAcp : List UInt16 → List UInt8) (d : Driver)
    (db : CDBConnector) (log : List OdbcCall) (memory : Nat → UInt16) (job : DBJob)
    (c : Content) :
    (∀ e ∈ (handleDbResult toAcp c (answer d db log memory job)).2, ∃ code,
        sentCode e = some code ∧ ToldRight job.type (procedureResult d db log job.type) code) ↔
      c.players.lookup job.sid = none ∨
        ∃ v, procedureResult d db log job.type = some v ∧
          (resultBound d log job.type = true ∨ v = 0) := by
  obtain ⟨hsid, htype⟩ : (answer d db log memory job).sid = job.sid ∧
      (answer d db log memory job).type = job.type := process_answers memory job _
  have hresult := answer_result d db log memory job
  generalize answer d db log memory job = r at hsid htype hresult
  rcases hpl : c.players.lookup job.sid with _ | pl
  · have hgone : c.players.lookup r.sid = none := hsid ▸ hpl
    simp [handleDbResult, hgone]
  · have hsent := sentCode_handleDbResult toAcp (hsid ▸ hpl : c.players.lookup r.sid = some pl)
    obtain ⟨e, heffects, he⟩ := List.map_eq_singleton_iff.mp hsent
    rw [heffects, List.forall_mem_singleton, he, htype, hresult]
    simp only [Option.some.injEq, exists_eq_left', reduceCtorEq, false_or]
    rcases hreturned : procedureResult d db log job.type with _ | v
    · simpa using not_toldRight_none job.type
    · simp only [Option.map_some, Option.getD_some, Option.some.injEq, exists_eq_left', reported]
      cases hbound : resultBound d log job.type with
      | true => simpa using toldRight_returned job.type v
      | false => simpa using toldRight_zero_iff job.type (some v)

/-- A driver that executes no procedure: the call after the connection, the allocation of
the statement and two parameters fails. -/
def failedExec : Driver where
  ret n := if n = 7 then -1 else 0
  row _ := ⟨0, 0, fun _ => 0⟩

def loginJob : DBJob := ⟨.login, 1#64, fun _ => 0, fun _ => 0, fun _ => 0⟩

/-- A login whose `SQLExecDirect` fails is answered with `RESULT_INVALID_ACCOUNT`. -/
theorem failedExec_told_wrong :
    ¬ ∀ e ∈ (handleDbResult (fun _ => []) (handleJoin zeroEnv Content.initial 1#64)
        (answer failedExec (CDBConnector.new.connect failedExec (fun _ => 0) []).2.1
          (CDBConnector.new.connect failedExec (fun _ => 0) []).2.2 (fun _ => 0) loginJob)).2,
      ∃ code, sentCode e = some code ∧
        ToldRight .login
          (procedureResult failedExec (CDBConnector.new.connect failedExec (fun _ => 0) []).2.1
            (CDBConnector.new.connect failedExec (fun _ => 0) []).2.2 .login) code := by
  intro h
  obtain ⟨code, hcode, htold⟩ := h _ (List.mem_singleton.mpr rfl)
  obtain rfl : ResultCode.invalidAccount.code = code := Option.some.inj hcode
  have hone := htold.account rfl
  revert hone
  decide

end IocpChat.DbAnswers
