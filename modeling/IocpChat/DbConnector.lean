import IocpChat.DbWorker
import IocpChat.ResourceLedger

/-!
`CDBConnector`: the ODBC calls of `Connect`, `Disconnect`, `Login` and `SignUp`, with the
clean-up of every exit.  The driver answers each call with a return code of its own choice,
and the log keeps the calls in order.
-/

namespace IocpChat.DbConnector

open IocpChat.RingWindow
open IocpChat.DbWorker
open IocpChat.ResourceLedger

/-- `SQLRETURN`. -/
abbrev SqlReturn := Int

def sqlSuccess : SqlReturn := 0
def sqlSuccessWithInfo : SqlReturn := 1
def sqlNoData : SqlReturn := 100

/-- `SQL_SUCCEEDED`. -/
def sqlOk (ret : SqlReturn) : Bool := ret == sqlSuccess || ret == sqlSuccessWithInfo

/-- A handle by the number of the call that allocated it, counted from 1, so that an
address the driver gives out again is a new handle. -/
abbrev SqlHandle := Nat

/-- `SQL_NULL_HANDLE`. -/
def sqlNullHandle : SqlHandle := 0

/-- The kinds of handles, as `SQLAllocHandle` and `SQLFreeHandle` name them. -/
inductive HandleType where
  | env
  | dbc
  | stmt
  deriving DecidableEq, Repr

def sqlAttrOdbcVersion : Nat := 200
def sqlOvOdbc3 : Nat := 3

/-- A call into ODBC with those of its arguments that the connector chooses. -/
inductive OdbcCall where
  | allocHandle (type : HandleType) (input output : SqlHandle)
  | freeHandle (type : HandleType) (handle : SqlHandle)
  | setEnvAttr (hEnv : SqlHandle) (attr value : Nat)
  | driverConnect (hDbc : SqlHandle) (connStr : Nat → UInt16)
  | disconnect (hDbc : SqlHandle)
  | bindParameter (hStmt : SqlHandle) (no columnSize : Nat) (value : Nat → UInt16)
  | execDirect (hStmt : SqlHandle) (sql : String)
  | bindCol (hStmt : SqlHandle) (no : Nat)
  | fetch (hStmt : SqlHandle)
  | getDiagRec (type : HandleType) (handle : SqlHandle)

/-- The columns of the row a procedure returns, or the locals they are bound to. -/
structure Row where
  result : Int
  userNo : BitVec 32
  nickname : Nat → UInt16

/-- What the driver answers to its `n`-th call: the return code, and the row where the call
is a fetch. -/
structure Driver where
  ret : Nat → SqlReturn
  row : Nat → Row

/-- The fields of `CDBConnector`. -/
structure CDBConnector where
  hEnv : SqlHandle
  hDbc : SqlHandle
  isConnected : Bool

/-- A parameter of `SQLBindParameter`: the column size and the string. -/
structure Param where
  columnSize : Nat
  value : Nat → UInt16

section Calls

variable (d : Driver)

/-- A call that only has a return code. -/
def Driver.call (c : OdbcCall) (log : List OdbcCall) : SqlReturn × List OdbcCall :=
  (d.ret log.length, log ++ [c])

/-- A failed `SQLAllocHandle` sets its output to the null handle. -/
def Driver.allocHandle (type : HandleType) (input : SqlHandle) (log : List OdbcCall) :
    SqlReturn × SqlHandle × List OdbcCall :=
  let ret := d.ret log.length
  let output := if sqlOk ret then log.length + 1 else sqlNullHandle
  (ret, output, log ++ [.allocHandle type input output])

/-- `PrintDiag` asks for the diagnostic record, and prints it. -/
def printDiag (type : HandleType) (handle : SqlHandle) (log : List OdbcCall) : List OdbcCall :=
  log ++ [.getDiagRec type handle]

end Calls

namespace CDBConnector

/-- The constructor. -/
def new : CDBConnector where
  hEnv := sqlNullHandle
  hDbc := sqlNullHandle
  isConnected := false

/-- `CDBConnector::Connect`, with the clean-up behind each call that may fail. -/
def connect (d : Driver) (connStr : Nat → UInt16) (db : CDBConnector) (log : List OdbcCall) :
    Bool × CDBConnector × List OdbcCall :=
  if db.isConnected then (true, db, log)
  else
    let (ret, hEnv, log) := d.allocHandle .env sqlNullHandle log
    let db := { db with hEnv := hEnv }
    if !sqlOk ret then (false, db, log)
    else
      let (ret, log) := d.call (.setEnvAttr db.hEnv sqlAttrOdbcVersion sqlOvOdbc3) log
      if !sqlOk ret then
        let log := printDiag .env db.hEnv log
        let log := log ++ [.freeHandle .env db.hEnv]
        (false, { db with hEnv := sqlNullHandle }, log)
      else
        let (ret, hDbc, log) := d.allocHandle .dbc db.hEnv log
        let db := { db with hDbc := hDbc }
        if !sqlOk ret then
          let log := printDiag .env db.hEnv log
          let log := log ++ [.freeHandle .env db.hEnv]
          (false, { db with hEnv := sqlNullHandle }, log)
        else
          let (ret, log) := d.call (.driverConnect db.hDbc connStr) log
          if !sqlOk ret then
            let log := printDiag .dbc db.hDbc log
            let log := log ++ [.freeHandle .dbc db.hDbc, .freeHandle .env db.hEnv]
            (false, { db with hDbc := sqlNullHandle, hEnv := sqlNullHandle }, log)
          else (true, { db with isConnected := true }, log)

/-- `CDBConnector::Disconnect`. -/
def disconnect (db : CDBConnector) (log : List OdbcCall) : CDBConnector × List OdbcCall :=
  let (db, log) :=
    if db.hDbc ≠ sqlNullHandle then
      let log := if db.isConnected then log ++ [.disconnect db.hDbc] else log
      ({ db with hDbc := sqlNullHandle }, log ++ [.freeHandle .dbc db.hDbc])
    else (db, log)
  let (db, log) :=
    if db.hEnv ≠ sqlNullHandle then
      ({ db with hEnv := sqlNullHandle }, log ++ [.freeHandle .env db.hEnv])
    else (db, log)
  ({ db with isConnected := false }, log)

/-- The `SQLBindParameter` calls of a statement, none of which is checked. -/
def bindParameters (hStmt : SqlHandle) (params : List Param) : List OdbcCall :=
  params.zipIdx.map fun p => OdbcCall.bindParameter hStmt (p.2 + 1) p.1.columnSize p.1.value

/-- The `SQLBindCol` calls, which are not checked either. -/
def bindCols (hStmt : SqlHandle) (columns : Nat) : List OdbcCall :=
  (List.range columns).map fun i => OdbcCall.bindCol hStmt (i + 1)

/-- The locals of `Login` and `SignUp` after a fetch: zeroed before, and written for the
columns whose `SQLBindCol`, which is not checked, went well. -/
def boundRow (columns : Nat) (bound : Nat → Bool) (row : Row) : Row where
  result := if 0 < columns ∧ bound 0 then row.result else 0
  userNo := if 1 < columns ∧ bound 1 then row.userNo else 0
  nickname := if 2 < columns ∧ bound 2 then row.nickname else fun _ => 0

/-- What `Login` and `SignUp` have in common: the row is missing where they return false. -/
def execProcedure (d : Driver) (params : List Param) (sql : String) (columns : Nat)
    (db : CDBConnector) (log : List OdbcCall) : Option Row × List OdbcCall :=
  if !db.isConnected ∨ db.hDbc = sqlNullHandle then (none, log)
  else
    let (ret, hStmt, log) := d.allocHandle .stmt db.hDbc log
    if !sqlOk ret then (none, printDiag .dbc db.hDbc log)
    else
      let log := log ++ bindParameters hStmt params
      let (ret, log) := d.call (.execDirect hStmt sql) log
      if !sqlOk ret then
        let log := printDiag .stmt hStmt log
        (none, log ++ [.freeHandle .stmt hStmt])
      else
        let bound := fun i => sqlOk (d.ret (log.length + i))
        let log := log ++ bindCols hStmt columns
        let row := boundRow columns bound (d.row log.length)
        let (ret, log) := d.call (.fetch hStmt) log
        if ret = sqlNoData then (none, log ++ [.freeHandle .stmt hStmt])
        else if !sqlOk ret then
          let log := printDiag .stmt hStmt log
          (none, log ++ [.freeHandle .stmt hStmt])
        else (some row, log ++ [.freeHandle .stmt hStmt])

/-- The out-parameters come back with the answer; the caller passes no null pointers. -/
def login (d : Driver) (account password outNickname : Nat → UInt16) (nickBufCount : Nat)
    (db : CDBConnector) (log : List OdbcCall) : Bool × DbReply × List OdbcCall :=
  let outNickname := if 0 < nickBufCount then blit outNickname 0 [0] else outNickname
  match db.execProcedure d [⟨32, account⟩, ⟨64, password⟩] "EXEC sp_Login ?, ?" 3 log with
  | (none, log) => (false, ⟨1, 0, outNickname⟩, log)
  | (some row, log) =>
      let outNickname :=
        if 0 < nickBufCount then wcsncpyTruncate outNickname nickBufCount row.nickname
        else outNickname
      (true, ⟨row.result, row.userNo, outNickname⟩, log)

/-- `CDBConnector::SignUp`: the result stays 1 unless a row was fetched. -/
def signUp (d : Driver) (account password nickname : Nat → UInt16) (db : CDBConnector)
    (log : List OdbcCall) : Bool × (Int × BitVec 32) × List OdbcCall :=
  match db.execProcedure d [⟨32, account⟩, ⟨64, password⟩, ⟨32, nickname⟩]
      "EXEC sp_SignUp ?, ?, ?" 2 log with
  | (none, log) => (false, (1, 0), log)
  | (some row, log) => (true, (row.result, row.userNo), log)

end CDBConnector

/-- What decides whether `Login` or `SignUp` returns true: an open connection, and the return
codes of the three calls they check. -/
def Answered (d : Driver) (db : CDBConnector) (params columns start : Nat) : Prop :=
  db.isConnected = true ∧ db.hDbc ≠ sqlNullHandle ∧ sqlOk (d.ret start) = true ∧
    sqlOk (d.ret (start + params + 1)) = true ∧
    sqlOk (d.ret (start + params + columns + 2)) = true

instance (d : Driver) (db : CDBConnector) (params columns start : Nat) :
    Decidable (Answered d db params columns start) :=
  inferInstanceAs (Decidable (_ ∧ _ ∧ _ ∧ _ ∧ _))

theorem sqlOk_noData : sqlOk sqlNoData = false := rfl

theorem length_bindParameters (hStmt : SqlHandle) (params : List Param) :
    (CDBConnector.bindParameters hStmt params).length = params.length := by
  simp [CDBConnector.bindParameters]

theorem length_bindCols (hStmt : SqlHandle) (columns : Nat) :
    (CDBConnector.bindCols hStmt columns).length = columns := by
  simp [CDBConnector.bindCols]

theorem execProcedure_fst (d : Driver) (params : List Param) (sql : String) (columns : Nat)
    (db : CDBConnector) (log : List OdbcCall) (row : Row) :
    (db.execProcedure d params sql columns log).1 = some row ↔
      Answered d db params.length columns log.length ∧
        row = CDBConnector.boundRow columns
          (fun i => sqlOk (d.ret (log.length + params.length + 2 + i)))
          (d.row (log.length + params.length + columns + 2)) := by
  have hexec : log.length + 1 + params.length = log.length + params.length + 1 := by omega
  have hcols : ∀ i, log.length + params.length + 1 + 1 + i = log.length + params.length + 2 + i :=
    fun i => by omega
  have hfetch : log.length + params.length + 1 + 1 + columns =
      log.length + params.length + columns + 2 := by omega
  simp only [CDBConnector.execProcedure, Answered, Driver.allocHandle, Driver.call, printDiag,
    List.length_append, List.length_cons, List.length_nil, length_bindParameters,
    length_bindCols, Nat.zero_add, hexec, hcols, hfetch]
  cases hconn : db.isConnected with
  | false => simp
  | true =>
      rcases eq_or_ne db.hDbc sqlNullHandle with hdbc | hdbc
      · simp [hdbc]
      · cases halloc : sqlOk (d.ret log.length) with
        | false => simp [hdbc]
        | true =>
            cases hdirect : sqlOk (d.ret (log.length + params.length + 1)) with
            | false => simp [hdbc]
            | true =>
                rcases eq_or_ne (d.ret (log.length + params.length + columns + 2)) sqlNoData with
                  hdata | hdata
                · simp [hdbc, hdata, sqlOk_noData]
                · cases hret : sqlOk (d.ret (log.length + params.length + columns + 2)) with
                  | false => simp [hdbc, hdata]
                  | true => simp [hdbc, hdata, eq_comm]

end IocpChat.DbConnector
