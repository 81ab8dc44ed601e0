import Mathlib.Tactic.IntervalCases
import IocpChat.DbConnector

/-!
What the calls of a connector do to ODBC handles: environments, connections below them, and
statements below connections.  A handle counts as freed by the `SQLFreeHandle` call for it,
whatever that call returns.
-/

namespace IocpChat.DbHandles

open IocpChat.DbWorker
open IocpChat.DbConnector
open IocpChat.ResourceLedger

/-- A handle is known by its kind and its value. -/
abbrev TypedHandle := HandleType × SqlHandle

/-- What a handle is allocated below. -/
def parentType : HandleType → Option HandleType
  | .env => none
  | .dbc => some .env
  | .stmt => some .dbc

/-- An allocation that fails has used the handle it was to be below. -/
def callOps : OdbcCall → List (Op TypedHandle)
  | .allocHandle type input output =>
      let parent := (parentType type).map fun t => (t, input)
      if output = sqlNullHandle then parent.toList.map .use
      else [.acquire (type, output) parent]
  | .freeHandle type handle => [.release (type, handle)]
  | .setEnvAttr hEnv _ _ => [.use (.env, hEnv)]
  | .driverConnect hDbc _ => [.use (.dbc, hDbc)]
  | .disconnect hDbc => [.use (.dbc, hDbc)]
  | .bindParameter hStmt _ _ _ => [.use (.stmt, hStmt)]
  | .execDirect hStmt _ => [.use (.stmt, hStmt)]
  | .bindCol hStmt _ => [.use (.stmt, hStmt)]
  | .fetch hStmt => [.use (.stmt, hStmt)]
  | .getDiagRec type handle => [.use (type, handle)]

/-- What a log says about handles. -/
def handleOps (log : List OdbcCall) : List (Op TypedHandle) := log.flatMap callOps

/-- The public functions of the connector. -/
inductive ApiCall where
  | connect (connStr : Nat → UInt16)
  | disconnect
  | login (account password outNickname : Nat → UInt16) (nickBufCount : Nat)
  | signUp (account password nickname : Nat → UInt16)

/-- A connector with the ODBC calls it has made. -/
structure Traced where
  db : CDBConnector
  log : List OdbcCall

/-- One of them is called. -/
def apiStep (d : Driver) (s : Traced) : ApiCall → Traced
  | .connect connStr =>
      let (_, db, log) := s.db.connect d connStr s.log
      ⟨db, log⟩
  | .disconnect =>
      let (db, log) := s.db.disconnect s.log
      ⟨db, log⟩
  | .login account password outNickname nickBufCount =>
      let (_, _, log) := s.db.login d account password outNickname nickBufCount s.log
      ⟨s.db, log⟩
  | .signUp account password nickname =>
      let (_, _, log) := s.db.signUp d account password nickname s.log
      ⟨s.db, log⟩

/-- Any calls on a new connector. -/
def afterCalls (d : Driver) (calls : List ApiCall) : Traced :=
  calls.foldl (apiStep d) ⟨CDBConnector.new, []⟩

/-- The destructor calls `Disconnect`. -/
def destroy (s : Traced) : Traced :=
  let (db, log) := s.db.disconnect s.log
  ⟨db, log⟩

/-- How `Connect` leaves an object that is not connected, with the calls it has made. -/
inductive ConnectExit (d : Driver) (connStr : Nat → UInt16) (log : List OdbcCall) :
    Bool × CDBConnector × List OdbcCall → Prop
  | noEnv (h : sqlOk (d.ret log.length) = false) :
      ConnectExit d connStr log
        (false, .new, log ++ [.allocHandle .env sqlNullHandle sqlNullHandle])
  | noVersion {e : SqlHandle} (he : e = log.length + 1)
      (h : sqlOk (d.ret (log.length + 1)) = false) :
      ConnectExit d connStr log
        (false, .new, log ++ [.allocHandle .env sqlNullHandle e,
          .setEnvAttr e sqlAttrOdbcVersion sqlOvOdbc3, .getDiagRec .env e, .freeHandle .env e])
  | noDbc {e : SqlHandle} (he : e = log.length + 1)
      (h : sqlOk (d.ret (log.length + 2)) = false) :
      ConnectExit d connStr log
        (false, .new, log ++ [.allocHandle .env sqlNullHandle e,
          .setEnvAttr e sqlAttrOdbcVersion sqlOvOdbc3, .allocHandle .dbc e sqlNullHandle,
          .getDiagRec .env e, .freeHandle .env e])
  | noConnection {e c : SqlHandle} (he : e = log.length + 1) (hc : c = log.length + 3)
      (h : sqlOk (d.ret (log.length + 3)) = false) :
      ConnectExit d connStr log
        (false, .new, log ++ [.allocHandle .env sqlNullHandle e,
          .setEnvAttr e sqlAttrOdbcVersion sqlOvOdbc3, .allocHandle .dbc e c,
          .driverConnect c connStr, .getDiagRec .dbc c, .freeHandle .dbc c,
          .freeHandle .env e])
  | connected {e c : SqlHandle} (he : e = log.length + 1) (hc : c = log.length + 3)
      (h : ∀ i < 4, sqlOk (d.ret (log.length + i)) = true) :
      ConnectExit d connStr log
        (true, ⟨e, c, true⟩, log ++ [.allocHandle .env sqlNullHandle e,
          .setEnvAttr e sqlAttrOdbcVersion sqlOvOdbc3, .allocHandle .dbc e c,
          .driverConnect c connStr])

theorem connect_exit (d : Driver) (connStr : Nat → UInt16) (log : List OdbcCall) :
    ConnectExit d connStr log (CDBConnector.new.connect d connStr log) := by
  cases h0 : sqlOk (d.ret log.length) with
  | false =>
      simpa [CDBConnector.connect, CDBConnector.new, Driver.allocHandle, h0] using
        ConnectExit.noEnv h0
  | true =>
      cases h1 : sqlOk (d.ret (log.length + 1)) with
      | false =>
          simpa [CDBConnector.connect, CDBConnector.new, Driver.allocHandle, Driver.call, printDiag,
            h0, h1] using ConnectExit.noVersion rfl h1
      | true =>
          cases h2 : sqlOk (d.ret (log.length + 2)) with
          | false =>
              simpa [CDBConnector.connect, CDBConnector.new, Driver.allocHandle, Driver.call,
                printDiag, h0, h1, h2] using ConnectExit.noDbc rfl h2
          | true =>
              cases h3 : sqlOk (d.ret (log.length + 3)) with
              | false =>
                  simpa [CDBConnector.connect, CDBConnector.new, Driver.allocHandle, Driver.call,
                    printDiag, h0, h1, h2, h3] using ConnectExit.noConnection rfl rfl h3
              | true =>
                  have hall : ∀ i < 4, sqlOk (d.ret (log.length + i)) = true := by
                    intro i hi
                    interval_cases i <;> assumption
                  simpa [CDBConnector.connect, CDBConnector.new, Driver.allocHandle, Driver.call,
                    h0, h1, h2, h3] using ConnectExit.connected rfl rfl hall

/-- How `Login` and `SignUp` end, with the calls they have made. -/
inductive ProcedureExit (db : CDBConnector) (log : List OdbcCall) : List OdbcCall → Prop
  | notConnected : ProcedureExit db log log
  | noStmt (hconn : db.isConnected = true) (hdbc : db.hDbc ≠ sqlNullHandle) :
      ProcedureExit db log
        (log ++ [.allocHandle .stmt db.hDbc sqlNullHandle, .getDiagRec .dbc db.hDbc])
  | ended {s : SqlHandle} {calls : List OdbcCall} (hconn : db.isConnected = true)
      (hdbc : db.hDbc ≠ sqlNullHandle) (hs : s = log.length + 1)
      (hcalls : ∀ c ∈ calls, callOps c = [.use (.stmt, s)]) :
      ProcedureExit db log
        (log ++ .allocHandle .stmt db.hDbc s :: (calls ++ [.freeHandle .stmt s]))

theorem callOps_bindParameters {s : SqlHandle} {params : List Param} {c : OdbcCall}
    (hc : c ∈ CDBConnector.bindParameters s params) : callOps c = [.use (.stmt, s)] := by
  obtain ⟨p, -, rfl⟩ := List.mem_map.mp hc
  rfl

theorem callOps_bindCols {s : SqlHandle} {columns : Nat} {c : OdbcCall}
    (hc : c ∈ CDBConnector.bindCols s columns) : callOps c = [.use (.stmt, s)] := by
  obtain ⟨i, -, rfl⟩ := List.mem_map.mp hc
  rfl

theorem ProcedureExit.of_calls {db : CDBConnector} {log log' : List OdbcCall}
    (hconn : db.isConnected = true) (hdbc : db.hDbc ≠ sqlNullHandle) (calls : List OdbcCall)
    (hcalls : ∀ c ∈ calls, callOps c = [.use (.stmt, log.length + 1)])
    (hlog : log' = log ++ .allocHandle .stmt db.hDbc (log.length + 1) ::
      (calls ++ [.freeHandle .stmt (log.length + 1)])) : ProcedureExit db log log' :=
  hlog ▸ .ended hconn hdbc rfl hcalls

theorem execProcedure_exit (d : Driver) (params : List Param) (sql : String) (columns : Nat)
    (db : CDBConnector) (log : List OdbcCall) :
    ProcedureExit db log (db.execProcedure d params sql columns log).2 := by
  simp only [CDBConnector.execProcedure, Driver.allocHandle, Driver.call, printDiag]
  cases hconn : db.isConnected with
  | false => simpa using ProcedureExit.notConnected
  | true =>
      rcases eq_or_ne db.hDbc sqlNullHandle with hdbc | hdbc
      · simpa [hdbc] using ProcedureExit.notConnected
      · have hopen : ¬ ((!true) = true ∨ db.hDbc = sqlNullHandle) := by simpa using hdbc
        simp only [hopen, if_false]
        rcases Bool.eq_false_or_eq_true (sqlOk (d.ret log.length)) with halloc | halloc
        · simp only [halloc, Bool.not_true, Bool.false_eq_true, if_false, if_true]
          split
          · apply ProcedureExit.of_calls hconn hdbc
              (CDBConnector.bindParameters (log.length + 1) params ++
                [.execDirect (log.length + 1) sql, .getDiagRec .stmt (log.length + 1)])
            · intro c hc
              simp only [List.mem_append, List.mem_cons, List.not_mem_nil, or_false] at hc
              rcases hc with hc | rfl | rfl
              · exact callOps_bindParameters hc
              · rfl
              · rfl
            · simp
          · have hcalls : ∀ c ∈ CDBConnector.bindParameters (log.length + 1) params ++
                .execDirect (log.length + 1) sql ::
                  (CDBConnector.bindCols (log.length + 1) columns ++ [.fetch (log.length + 1)]),
                callOps c = [.use (.stmt, log.length + 1)] := by
              intro c hc
              simp only [List.mem_append, List.mem_cons, List.not_mem_nil, or_false] at hc
              rcases hc with hc | rfl | hc | rfl
              · exact callOps_bindParameters hc
              · rfl
              · exact callOps_bindCols hc
              · rfl
            split
            · exact ProcedureExit.of_calls hconn hdbc _ hcalls (by simp)
            · split
              · apply ProcedureExit.of_calls hconn hdbc (_ ++ [.getDiagRec .stmt (log.length + 1)])
                · intro c hc
                  rcases List.mem_append.mp hc with hc | hc
                  · exact hcalls c hc
                  · rw [List.mem_singleton.mp hc]
                    rfl
                · simp
              · exact ProcedureExit.of_calls hconn hdbc _ hcalls (by simp)
        · simpa [halloc] using ProcedureExit.noStmt hconn hdbc

theorem handleOps_append (log log' : List OdbcCall) :
    handleOps (log ++ log') = handleOps log ++ handleOps log' := List.flatMap_append

theorem handleOps_cons (c : OdbcCall) (log : List OdbcCall) :
    handleOps (c :: log) = callOps c ++ handleOps log := List.flatMap_cons

@[simp] theorem callOps_allocHandle {output : SqlHandle} (h : output ≠ sqlNullHandle)
    (type : HandleType) (input : SqlHandle) :
    callOps (.allocHandle type input output) =
      [.acquire (type, output) ((parentType type).map fun t => (t, input))] := by
  simp only [callOps, h, if_false]

theorem eq_allocHandle_of_mem {c : OdbcCall} {k : TypedHandle} {parent : Option TypedHandle}
    (h : Op.acquire k parent ∈ callOps c) : ∃ input, c = .allocHandle k.1 input k.2 := by
  cases c with
  | allocHandle type input output =>
      simp only [callOps] at h
      split at h
      · obtain ⟨p, -, hp⟩ := List.mem_map.mp h
        cases hp
      · obtain ⟨rfl, -⟩ := Op.acquire.inj (List.mem_singleton.mp h)
        exact ⟨input, rfl⟩
  | _ => simp [callOps] at h

/-- No handle has been allocated. -/
def unused : TypedHandle → Status TypedHandle := fun _ => .fresh

/-- The state of the handles after the calls of a log. -/
def booked (log : List OdbcCall) : TypedHandle → Status TypedHandle :=
  ledger unused (handleOps log)

/-- The handle a call has put out, if any. -/
def outputOf : OdbcCall → SqlHandle
  | .allocHandle _ _ output => output
  | _ => sqlNullHandle

/-- Handles carry the number of the call that allocated them. -/
def Numbered (log : List OdbcCall) : Prop := ∀ c ∈ log, outputOf c ≤ log.length

theorem booked_of_length_lt {log : List OdbcCall} (hnum : Numbered log)
    (hlog : Disciplined unused (handleOps log)) {k : TypedHandle} (hk : log.length < k.2) :
    booked log k = .fresh := by
  have hnone : (handleOps log).countP (Op.acquires k) = 0 := by
    rw [List.countP_eq_zero]
    intro op hop hacq
    cases op with
    | acquire k' parent =>
        obtain ⟨c, hc, hcop⟩ := List.mem_flatMap.mp hop
        obtain ⟨input, rfl⟩ := eq_allocHandle_of_mem hcop
        obtain rfl : k' = k := by simpa [Op.acquires] using hacq
        exact absurd (hnum _ hc) (Nat.not_le.mpr hk)
    | use k' => cases hacq
    | release k' => cases hacq
  have hacquired := acquired_ledger hlog k
  rw [hnone] at hacquired
  cases hstatus : booked log k with
  | fresh => rfl
  | live parent =>
      rw [booked] at hstatus
      simp [hstatus, Status.acquired, unused] at hacquired
  | released =>
      rw [booked] at hstatus
      simp [hstatus, Status.acquired, unused] at hacquired

theorem rooted_booked {log : List OdbcCall} (hlog : Disciplined unused (handleOps log)) :
    Rooted (booked log) := by
  apply rooted_ledger ?_ hlog
  intro c p hc
  cases hc

/-- What a connector holds: nothing, or an environment and a connection below it. -/
inductive Holds : CDBConnector → (TypedHandle → Status TypedHandle) → Prop
  | nothing {l : TypedHandle → Status TypedHandle} (h : ∀ k, ¬ Live l k) : Holds .new l
  | connection {e c : SqlHandle} {l : TypedHandle → Status TypedHandle}
      (he : e ≠ sqlNullHandle) (hc : c ≠ sqlNullHandle) (henv : l (.env, e) = .live none)
      (hdbc : l (.dbc, c) = .live (some (.env, e)))
      (honly : ∀ k, Live l k → k = (.env, e) ∨ k = (.dbc, c)) : Holds ⟨e, c, true⟩ l

theorem Holds.not_live {l : TypedHandle → Status TypedHandle} (h : Holds .new l) :
    ∀ k, ¬ Live l k := by
  generalize hdb : CDBConnector.new = db at h
  cases h with
  | nothing hnone => exact hnone
  | connection => cases hdb

/-- The log is in order, and the connector holds what is live. -/
structure Tracked (s : Traced) : Prop where
  numbered : Numbered s.log
  disciplined : Disciplined unused (handleOps s.log)
  holds : Holds s.db (booked s.log)

theorem booked_append (log calls : List OdbcCall) :
    booked (log ++ calls) = ledger (booked log) (handleOps calls) := by
  rw [booked, handleOps_append, ledger_append, booked]

theorem Holds.of_same {db : CDBConnector} {l l' : TypedHandle → Status TypedHandle}
    (h : Holds db l) (hsame : ∀ k parent, l' k = .live parent ↔ l k = .live parent) :
    Holds db l' := by
  have hlive : ∀ k, Live l' k ↔ Live l k := fun k => exists_congr fun parent => hsame k parent
  cases h with
  | nothing hnone => exact .nothing fun k hk => hnone k ((hlive k).mp hk)
  | connection he hc henv hdbc honly =>
      exact .connection he hc ((hsame _ _).mpr henv) ((hsame _ _).mpr hdbc)
        fun k hk => honly k ((hlive k).mp hk)

theorem Numbered.append {log calls : List OdbcCall} (hnum : Numbered log)
    (hcalls : ∀ c ∈ calls, outputOf c ≤ log.length + calls.length) :
    Numbered (log ++ calls) := by
  intro c hc
  rw [List.length_append]
  rcases List.mem_append.mp hc with hc | hc
  · exact (hnum c hc).trans (Nat.le_add_right _ _)
  · exact hcalls c hc

theorem Tracked.closed {s : Traced} (hs : Tracked s) {calls : List OdbcCall}
    (hcalls : Closed (booked s.log) (handleOps calls))
    (hnum : ∀ c ∈ calls, outputOf c ≤ s.log.length + calls.length) :
    Tracked ⟨s.db, s.log ++ calls⟩ where
  numbered := hs.numbered.append hnum
  disciplined := by
    rw [handleOps_append, disciplined_append]
    exact ⟨hs.disciplined, hcalls.disciplined⟩
  holds := by
    rw [booked_append]
    exact hs.holds.of_same hcalls.same

theorem tracked_initial : Tracked ⟨CDBConnector.new, []⟩ where
  numbered := nofun
  disciplined := trivial
  holds := .nothing fun _ h => by
    obtain ⟨parent, hlive⟩ := h
    cases hlive

theorem live_self (l : TypedHandle → Status TypedHandle) (k : TypedHandle)
    (parent : Option TypedHandle) : Live (Function.update l k (.live parent)) k :=
  ⟨parent, Function.update_self k _ l⟩

theorem closed_env {log : List OdbcCall} (hlog : Disciplined unused (handleOps log))
    (hnum : Numbered log) {e : SqlHandle} (he : log.length < e) {body : List (Op TypedHandle)}
    (hbody : Closed (Function.update (booked log) (.env, e) (.live none)) body) :
    Closed (booked log) (.acquire (.env, e) none :: (body ++ [.release (.env, e)])) := by
  apply closed_scope (rooted_booked hlog) (booked_of_length_lt hnum hlog he) ?_ hbody
  intro p hp
  cases hp

theorem closed_dbc {log : List OdbcCall} (hlog : Disciplined unused (handleOps log))
    (hnum : Numbered log) {e c : SqlHandle} (he : log.length < e) (hc : log.length < c) :
    Closed (Function.update (booked log) (.env, e) (.live none))
      [.acquire (.dbc, c) (some (.env, e)), .use (.dbc, c), .use (.dbc, c),
        .release (.dbc, c)] := by
  have hfresh : booked log (.env, e) = .fresh := booked_of_length_lt hnum hlog he
  have hallowed : Allowed (booked log) (.acquire (.env, e) none) :=
    ⟨hfresh, fun _ hp => by cases hp⟩
  have hrooted : Rooted (Function.update (booked log) (.env, e) (.live none)) :=
    rooted_enter (rooted_booked hlog) hallowed
  refine closed_scope hrooted ?_ ?_
    ((closed_use (live_self _ _ _)).append (closed_use (live_self _ _ _)))
  · rw [Function.update_of_ne (by simp)]
    exact booked_of_length_lt hnum hlog hc
  · intro p hp
    cases hp
    exact live_self _ _ _

theorem tracked_connected {log : List OdbcCall} (hs : Tracked ⟨.new, log⟩)
    (connStr : Nat → UInt16) :
    Tracked ⟨⟨log.length + 1, log.length + 3, true⟩,
      log ++ [.allocHandle .env sqlNullHandle (log.length + 1),
        .setEnvAttr (log.length + 1) sqlAttrOdbcVersion sqlOvOdbc3,
        .allocHandle .dbc (log.length + 1) (log.length + 3),
        .driverConnect (log.length + 3) connStr]⟩ := by
  have hallocs : handleOps [.allocHandle .env sqlNullHandle (log.length + 1),
      .setEnvAttr (log.length + 1) sqlAttrOdbcVersion sqlOvOdbc3,
      .allocHandle .dbc (log.length + 1) (log.length + 3),
      .driverConnect (log.length + 3) connStr] =
    [.acquire (.env, log.length + 1) none, .use (.env, log.length + 1),
      .acquire (.dbc, log.length + 3) (some (.env, log.length + 1)),
      .use (.dbc, log.length + 3)] := by
    simp only [handleOps, List.flatMap_cons, List.flatMap_nil,
      callOps_allocHandle (Nat.succ_ne_zero _)]
    rfl
  have henv : booked log (.env, log.length + 1) = .fresh :=
    booked_of_length_lt hs.numbered hs.disciplined (Nat.lt_add_of_pos_right (by decide))
  have hdbc : booked log (.dbc, log.length + 3) = .fresh :=
    booked_of_length_lt hs.numbered hs.disciplined (Nat.lt_add_of_pos_right (by decide))
  constructor
  · apply hs.numbered.append
    simp [outputOf, sqlNullHandle]
  · rw [handleOps_append, disciplined_append, hallocs]
    refine ⟨hs.disciplined, ⟨henv, ?_⟩, live_self _ _ _, ⟨?_, ?_⟩, live_self _ _ _, trivial⟩
    · intro p hp
      cases hp
    · have hne : ((.dbc, log.length + 3) : TypedHandle) ≠ (.env, log.length + 1) := by simp
      exact (Function.update_of_ne hne (.live none) (booked log)).trans hdbc
    · intro p hp
      cases hp
      exact live_self _ _ _
  · rw [booked_append, hallocs]
    apply Holds.connection (Nat.succ_ne_zero _) (Nat.succ_ne_zero _)
    · simp [enter]
    · simp [enter]
    · rintro k ⟨parent, hlive⟩
      rcases eq_or_ne k (.dbc, log.length + 3) with hk | hk
      · exact .inr hk
      · rcases eq_or_ne k (.env, log.length + 1) with hk' | hk'
        · exact .inl hk'
        · simp only [ledger_cons, ledger_nil, enter, Function.update_of_ne hk,
            Function.update_of_ne hk'] at hlive
          exact absurd ⟨parent, hlive⟩ (hs.holds.not_live k)

theorem tracked_connect {d : Driver} {connStr : Nat → UInt16} {log : List OdbcCall}
    (hs : Tracked ⟨.new, log⟩) {r : Bool × CDBConnector × List OdbcCall}
    (hexit : ConnectExit d connStr log r) : Tracked ⟨r.2.1, r.2.2⟩ := by
  have hpos : ∀ n, log.length < log.length + (n + 1) := fun n => by omega
  cases hexit with
  | noEnv h =>
      apply hs.closed (closed_nil _)
      simp [outputOf, sqlNullHandle]
  | noVersion he h =>
      subst he
      apply hs.closed
      · simp only [handleOps, List.flatMap_cons, List.flatMap_nil,
          callOps_allocHandle (Nat.succ_ne_zero _)]
        exact closed_env hs.disciplined hs.numbered (hpos 0)
          ((closed_use (live_self _ _ _)).append (closed_use (live_self _ _ _)))
      · simp [outputOf, sqlNullHandle]
  | noDbc he h =>
      subst he
      apply hs.closed
      · simp only [handleOps, List.flatMap_cons, List.flatMap_nil,
          callOps_allocHandle (Nat.succ_ne_zero _)]
        exact closed_env hs.disciplined hs.numbered (hpos 0)
          ((closed_use (live_self _ _ _)).append
            ((closed_use (live_self _ _ _)).append (closed_use (live_self _ _ _))))
      · simp [outputOf, sqlNullHandle]
  | noConnection he hc h =>
      subst he hc
      apply hs.closed
      · simp only [handleOps, List.flatMap_cons, List.flatMap_nil,
          callOps_allocHandle (Nat.succ_ne_zero _)]
        exact closed_env hs.disciplined hs.numbered (hpos 0)
          ((closed_use (live_self _ _ _)).append
            (closed_dbc hs.disciplined hs.numbered (hpos 0) (hpos 2)))
      · simp [outputOf, sqlNullHandle]
  | connected he hc h =>
      subst he hc
      exact tracked_connected hs connStr

theorem destroy_new (log : List OdbcCall) : destroy ⟨.new, log⟩ = ⟨.new, log⟩ := by
  simp [destroy, CDBConnector.disconnect, CDBConnector.new]

theorem destroy_connected {e c : SqlHandle} (he : e ≠ sqlNullHandle) (hc : c ≠ sqlNullHandle)
    (log : List OdbcCall) : destroy ⟨⟨e, c, true⟩, log⟩ =
      ⟨.new, log ++ [.disconnect c, .freeHandle .dbc c, .freeHandle .env e]⟩ := by
  simp [destroy, CDBConnector.disconnect, CDBConnector.new, he, hc]

theorem ledger_disconnect {l : TypedHandle → Status TypedHandle} {e c : SqlHandle}
    (henv : l (.env, e) = .live none) (hdbc : l (.dbc, c) = .live (some (.env, e)))
    (honly : ∀ k, Live l k → k = (.env, e) ∨ k = (.dbc, c)) :
    Disciplined l [.use (.dbc, c), .release (.dbc, c), .release (.env, e)] ∧
      ∀ k, ¬ Live (ledger l [.use (.dbc, c), .release (.dbc, c), .release (.env, e)]) k := by
  have hchild : ∀ k p, l k = .live (some p) → k = (.dbc, c) ∧ p = (.env, e) := by
    intro k p hk
    rcases honly k ⟨_, hk⟩ with rfl | rfl
    · simp [henv] at hk
    · simp only [hdbc, Status.live.injEq, Option.some.injEq] at hk
      exact ⟨rfl, hk.symm⟩
  have hne : ((.env, e) : TypedHandle) ≠ (.dbc, c) := by simp
  constructor
  · refine ⟨⟨_, hdbc⟩, ⟨⟨_, hdbc⟩, ?_⟩, ⟨⟨none, ?_⟩, ?_⟩, trivial⟩
    · intro k hk
      exact hne (hchild k _ hk).2.symm
    · exact (Function.update_of_ne hne .released l).trans henv
    · intro k hk
      rcases eq_or_ne k (.dbc, c) with rfl | hkc
      · simp [enter] at hk
      · change Function.update l (.dbc, c) .released k = _ at hk
        rw [Function.update_of_ne hkc] at hk
        exact hkc (hchild k _ hk).1
  · rintro k ⟨parent, hk⟩
    change Function.update (Function.update l (.dbc, c) .released) (.env, e) .released k =
      .live parent at hk
    rcases eq_or_ne k (.env, e) with rfl | hke
    · simp at hk
    · rcases eq_or_ne k (.dbc, c) with rfl | hkc
      · simp at hk
      · rw [Function.update_of_ne hke, Function.update_of_ne hkc] at hk
        rcases honly k ⟨_, hk⟩ with h | h
        · exact hke h
        · exact hkc h

theorem tracked_destroy {s : Traced} (hs : Tracked s) :
    Tracked (destroy s) ∧ (destroy s).db = .new := by
  obtain ⟨db, log⟩ := s
  obtain ⟨hnum, hlog, hholds⟩ := hs
  cases hholds with
  | nothing h =>
      change Tracked (destroy ⟨.new, log⟩) ∧ (destroy ⟨.new, log⟩).db = .new
      rw [destroy_new]
      exact ⟨⟨hnum, hlog, .nothing h⟩, rfl⟩
  | @connection e c l he hc henv hdbc honly =>
      obtain ⟨hdisciplined, hnothing⟩ := ledger_disconnect henv hdbc honly
      rw [destroy_connected he hc]
      refine ⟨⟨?_, ?_, ?_⟩, rfl⟩
      · apply hnum.append
        simp [outputOf, sqlNullHandle]
      · rw [handleOps_append, disciplined_append]
        exact ⟨hlog, hdisciplined⟩
      · rw [booked_append]
        exact .nothing hnothing

theorem handleOps_uses {s : SqlHandle} {calls : List OdbcCall}
    (hcalls : ∀ c ∈ calls, callOps c = [.use (.stmt, s)]) :
    ∀ op ∈ handleOps calls, op = .use (.stmt, s) := by
  intro op hop
  obtain ⟨c, hc, hmem⟩ := List.mem_flatMap.mp hop
  rw [hcalls c hc] at hmem
  exact List.mem_singleton.mp hmem

theorem outputOf_use {s : SqlHandle} {c : OdbcCall} (hc : callOps c = [.use (.stmt, s)]) :
    outputOf c = sqlNullHandle := by
  cases c with
  | allocHandle type input output =>
      rcases eq_or_ne output sqlNullHandle with h | h
      · exact h
      · simp [h] at hc
  | _ => rfl

theorem closed_procedure {log : List OdbcCall} {c : SqlHandle} {s : SqlHandle}
    (hlog : Disciplined unused (handleOps log)) (hnum : Numbered log)
    (hdbc : Live (booked log) (.dbc, c)) (hs : log.length < s) {calls : List OdbcCall}
    (hcalls : ∀ op ∈ handleOps calls, op = .use (.stmt, s)) :
    Closed (booked log) (.acquire (.stmt, s) (some (.dbc, c)) ::
      (handleOps calls ++ [.release (.stmt, s)])) := by
  apply closed_scope (rooted_booked hlog) (booked_of_length_lt hnum hlog hs)
  · intro p hp
    cases hp
    exact hdbc
  · apply closed_uses
    intro op hop
    exact ⟨_, hcalls op hop, live_self _ _ _⟩

theorem Holds.live_hDbc {db : CDBConnector} {l : TypedHandle → Status TypedHandle}
    (h : Holds db l) (hconn : db.isConnected = true) : Live l (.dbc, db.hDbc) := by
  cases h with
  | nothing => cases hconn
  | connection _ _ _ hdbc _ => exact ⟨_, hdbc⟩

theorem tracked_procedure {db : CDBConnector} {log log' : List OdbcCall}
    (hs : Tracked ⟨db, log⟩) (hexit : ProcedureExit db log log') : Tracked ⟨db, log'⟩ := by
  cases hexit with
  | notConnected => exact hs
  | noStmt hconn hdbc =>
      have hlive : Live (booked log) (.dbc, db.hDbc) := hs.holds.live_hDbc hconn
      apply hs.closed
      · exact (closed_use hlive).append (closed_use hlive)
      · simp [outputOf, sqlNullHandle]
  | ended hconn hdbc hstmt hcalls =>
      subst hstmt
      have hlive : Live (booked log) (.dbc, db.hDbc) := hs.holds.live_hDbc hconn
      apply hs.closed
      · rw [handleOps_cons, callOps_allocHandle (Nat.succ_ne_zero _), handleOps_append]
        exact closed_procedure hs.disciplined hs.numbered hlive (Nat.lt_succ_self _)
          (handleOps_uses hcalls)
      · intro c hc
        simp only [List.mem_cons, List.mem_append, List.not_mem_nil, or_false] at hc
        rcases hc with rfl | hc | rfl
        · simp [outputOf]
        · rw [outputOf_use (hcalls c hc)]
          exact Nat.zero_le _
        · exact Nat.zero_le _

theorem connect_cases (d : Driver) (connStr : Nat → UInt16) {s : Traced} (hs : Tracked s) :
    (s.db.isConnected = true ∧ s.db.connect d connStr s.log = (true, s.db, s.log)) ∨
      (s.db = .new ∧ ConnectExit d connStr s.log (s.db.connect d connStr s.log)) := by
  obtain ⟨db, log⟩ := s
  cases hs.holds with
  | nothing => exact .inr ⟨rfl, connect_exit d connStr log⟩
  | connection => exact .inl ⟨rfl, rfl⟩

theorem login_exit (d : Driver) (account password outNickname : Nat → UInt16)
    (nickBufCount : Nat) (db : CDBConnector) (log : List OdbcCall) :
    ProcedureExit db log
      (db.login d account password outNickname nickBufCount log).2.2 := by
  have hexit := execProcedure_exit d [⟨32, account⟩, ⟨64, password⟩] "EXEC sp_Login ?, ?" 3 db log
  simp only [CDBConnector.login]
  generalize db.execProcedure d _ _ _ log = r at hexit
  rcases r with ⟨_ | row, log'⟩ <;> exact hexit

theorem signUp_exit (d : Driver) (account password nickname : Nat → UInt16)
    (db : CDBConnector) (log : List OdbcCall) :
    ProcedureExit db log (db.signUp d account password nickname log).2.2 := by
  have hexit := execProcedure_exit d [⟨32, account⟩, ⟨64, password⟩, ⟨32, nickname⟩]
    "EXEC sp_SignUp ?, ?, ?" 2 db log
  simp only [CDBConnector.signUp]
  generalize db.execProcedure d _ _ _ log = r at hexit
  rcases r with ⟨_ | row, log'⟩ <;> exact hexit

theorem tracked_apiStep (d : Driver) {s : Traced} (hs : Tracked s) (a : ApiCall) :
    Tracked (apiStep d s a) := by
  obtain ⟨db, log⟩ := s
  cases a with
  | connect connStr =>
      rcases connect_cases d connStr hs with ⟨-, hsame⟩ | ⟨hdb, hexit⟩
      · simp only [apiStep, hsame]
        exact hs
      · exact tracked_connect (hdb ▸ hs) hexit
  | disconnect => exact (tracked_destroy hs).1
  | login account password outNickname nickBufCount =>
      exact tracked_procedure hs (login_exit d account password outNickname nickBufCount db log)
  | signUp account password nickname =>
      exact tracked_procedure hs (signUp_exit d account password nickname db log)

theorem tracked_afterCalls (d : Driver) (calls : List ApiCall) :
    Tracked (afterCalls d calls) := by
  suffices h : ∀ s, Tracked s → Tracked (calls.foldl (apiStep d) s) from h _ tracked_initial
  induction calls with
  | nil => exact fun _ hs => hs
  | cons a calls ih => exact fun _ hs => ih _ (tracked_apiStep d hs a)

theorem Holds.connected_iff {db : CDBConnector} {l : TypedHandle → Status TypedHandle}
    (h : Holds db l) :
    db.isConnected = true ↔ db.hEnv ≠ sqlNullHandle ∧ db.hDbc ≠ sqlNullHandle := by
  cases h with
  | nothing => simp [CDBConnector.new]
  | connection he hc => exact iff_of_true rfl ⟨he, hc⟩

theorem Holds.stmt_not_live {db : CDBConnector} {l : TypedHandle → Status TypedHandle}
    (h : Holds db l) (s : SqlHandle) : ¬ Live l (.stmt, s) := by
  cases h with
  | nothing hnone => exact hnone _
  | connection _ _ _ _ honly =>
      intro hlive
      rcases honly _ hlive with h | h <;> cases h

theorem balanced_destroy {s : Traced} (hs : Tracked s) : Balanced (handleOps (destroy s).log) := by
  obtain ⟨htracked, hdb⟩ := tracked_destroy hs
  apply balanced_of_disciplined (fun _ => rfl) htracked.disciplined
  exact (hdb ▸ htracked.holds).not_live

theorem connect_failed {d : Driver} {connStr : Nat → UInt16} {s : Traced} (hs : Tracked s)
    (hfail : (s.db.connect d connStr s.log).1 = false) :
    (s.db.connect d connStr s.log).2.1 = s.db := by
  rcases connect_cases d connStr hs with ⟨-, hsame⟩ | ⟨hdb, hexit⟩
  · rw [hsame]
  · rw [hdb]
    rw [hdb] at hfail hexit
    generalize CDBConnector.new.connect d connStr s.log = r at hfail hexit
    cases hexit with
    | connected => cases hfail
    | _ => rfl

theorem connect_succeeds_iff {d : Driver} {connStr : Nat → UInt16} {s : Traced}
    (hs : Tracked s) :
    (s.db.connect d connStr s.log).1 = true ↔
      s.db.isConnected = true ∨ ∀ i < 4, sqlOk (d.ret (s.log.length + i)) = true := by
  rcases connect_cases d connStr hs with ⟨hconn, hsame⟩ | ⟨hdb, hexit⟩
  · rw [hsame]
    exact iff_of_true rfl (.inl hconn)
  · rw [hdb] at hexit ⊢
    have hbad : ∀ n < 4, sqlOk (d.ret (s.log.length + n)) = false →
        (false = true ↔ CDBConnector.new.isConnected = true ∨
          ∀ i < 4, sqlOk (d.ret (s.log.length + i)) = true) := by
      intro n hn hret
      apply iff_of_false Bool.false_ne_true
      rintro (hconn | hall)
      · cases hconn
      · exact Bool.false_ne_true (hret.symm.trans (hall n hn))
    generalize CDBConnector.new.connect d connStr s.log = r at hexit ⊢
    cases hexit with
    | noEnv h => exact hbad 0 (by decide) h
    | noVersion he h => exact hbad 1 (by decide) h
    | noDbc he h => exact hbad 2 (by decide) h
    | noConnection he hc h => exact hbad 3 (by decide) h
    | connected he hc h => exact iff_of_true rfl (.inr h)

/-- Whatever is called on a connector and whatever the driver answers, the handles of its
whole life are balanced.  Between calls no statement is live, `isConnected` says whether both
handles are held, and a `Connect` that fails changes nothing, so that the next one goes
well as soon as the driver lets it. -/
theorem odbc_handles_balanced (d : Driver) (calls : List ApiCall) :
    let s := afterCalls d calls
    Balanced (handleOps (destroy s).log) ∧ (destroy s).db = .new ∧
      (∀ h, (handleOps s.log).countP (Op.releases (.stmt, h)) =
        (handleOps s.log).countP (Op.acquires (.stmt, h))) ∧
      (s.db.isConnected = true ↔ s.db.hEnv ≠ sqlNullHandle ∧ s.db.hDbc ≠ sqlNullHandle) ∧
      ∀ connStr,
        ((s.db.connect d connStr s.log).1 = false →
          (s.db.connect d connStr s.log).2.1 = s.db) ∧
        ((s.db.connect d connStr s.log).1 = true ↔
          s.db.isConnected = true ∨ ∀ i < 4, sqlOk (d.ret (s.log.length + i)) = true) := by
  intro s
  have hs : Tracked s := tracked_afterCalls d calls
  refine ⟨balanced_destroy hs, (tracked_destroy hs).2, ?_, hs.holds.connected_iff, ?_⟩
  · intro h
    exact countP_releases_of_not_live (fun _ => rfl) hs.disciplined (hs.holds.stmt_not_live h)
  · intro connStr
    exact ⟨connect_failed hs, connect_succeeds_iff hs⟩

end IocpChat.DbHandles
