import IocpChat.LabelledRun
import Mathlib.Data.List.Perm.Basic

/-!
The `Users` table and the two stored procedures of the database.  Equality of
SQL strings is a parameter: a collation may identify strings that differ in
case, width or trailing blanks.
-/

namespace IocpChat.UserTable

open IocpChat.LabelledRun

/-- A value of type `NVARCHAR`. -/
abbrev NVarChar := List UInt16

/-- A row of `Users`, less `RegDate`, which no procedure reads. -/
structure User where
  userNo : Nat
  account : NVarChar
  password : NVarChar
  nickname : NVarChar
  deriving DecidableEq, Repr

/-- The table with the last number its `IDENTITY(1, 1)` column has yielded. -/
structure Users where
  rows : List User
  identity : Nat
  deriving DecidableEq, Repr

/-- The table has just been created. -/
def emptyUsers : Users := ⟨[], 0⟩

/-- The row that `sp_Login` selects. -/
structure LoginRow where
  result : Nat
  userNo : Nat
  nickname : NVarChar
  deriving DecidableEq, Repr

/-- The row that `sp_SignUp` selects. -/
structure SignUpRow where
  result : Nat
  userNo : Nat
  deriving DecidableEq, Repr

/-- A call made to the database.  A login carries the order in which the server
scans the table, a sign-up the identity numbers the server leaves out. -/
inductive Call where
  | login (account passWord : NVarChar) (scan : List User)
  | signUp (account password nickname : NVarChar) (skipped : Nat)
  deriving DecidableEq, Repr

/-- A finished call with the row it answered. -/
inductive Record where
  | login (account passWord : NVarChar) (row : LoginRow)
  | signUp (account password nickname : NVarChar) (row : SignUpRow)
  deriving DecidableEq, Repr

section Procedures

variable (sqlEq : NVarChar → NVarChar → Prop) [DecidableRel sqlEq]

/-- The assignments of `SELECT @UserNo = UserNo, ...`: one for each row that
matches, in scan order, and none where no row does. -/
def selectInto (account : NVarChar) :
    List User → Nat × NVarChar × NVarChar → Nat × NVarChar × NVarChar
  | [], vars => vars
  | row :: rows, vars =>
      if sqlEq row.account account then
        selectInto account rows (row.userNo, row.password, row.nickname)
      else
        selectInto account rows vars

/-- `sp_Login`, on the rows in the order of the scan. -/
def spLogin (scan : List User) (account passWord : NVarChar) : LoginRow :=
  match selectInto sqlEq account scan (0, [], []) with
  | (userNo, storedPassword, nickname) =>
      if userNo = 0 then ⟨1, 0, []⟩
      else if ¬ sqlEq storedPassword passWord then ⟨2, 0, []⟩
      else ⟨0, userNo, nickname⟩

/-- `sp_SignUp`; `skipped` are the values of the identity column that have been lost. -/
def spSignUp (users : Users) (account password nickname : NVarChar) (skipped : Nat) :
    Users × SignUpRow :=
  if ∃ row ∈ users.rows, sqlEq row.account account then (users, ⟨1, 0⟩)
  else if ∃ row ∈ users.rows, sqlEq row.nickname nickname then (users, ⟨2, 0⟩)
  else
    let userNo := users.identity + 1 + skipped
    (⟨users.rows ++ [⟨userNo, account, password, nickname⟩], userNo⟩, ⟨0, userNo⟩)

/-- One call after the other, as the only database worker makes them. -/
def serve (s : Users × List Record) : Call → Option (Users × List Record)
  | .login account passWord scan =>
      if scan.Perm s.1.rows then
        some (s.1, s.2 ++ [.login account passWord (spLogin sqlEq scan account passWord)])
      else none
  | .signUp account password nickname skipped =>
      let answer := spSignUp sqlEq s.1 account password nickname skipped
      some (answer.1, s.2 ++ [.signUp account password nickname answer.2])

end Procedures

/-- The row a finished sign-up has put into the table. -/
def Record.registered? : Record → Option User
  | .signUp account password nickname ⟨0, userNo⟩ => some ⟨userNo, account, password, nickname⟩
  | _ => none

theorem registered?_eq_some {r : Record} {row : User} :
    r.registered? = some row ↔
      r = .signUp row.account row.password row.nickname ⟨0, row.userNo⟩ := by
  rcases r with _ | ⟨a, p, n, ⟨_ | result, u⟩⟩ <;> rcases row with ⟨u', a', p', n'⟩ <;>
    simp [Record.registered?]
  tauto

section Invariant

variable {sqlEq : NVarChar → NVarChar → Prop} [DecidableRel sqlEq]

/-- Two rows that the `UNIQUE` constraints of the table let stand together. -/
def Distinct (sqlEq : NVarChar → NVarChar → Prop) (row row' : User) : Prop :=
  ¬ sqlEq row.account row'.account ∧ ¬ sqlEq row.nickname row'.nickname

/-- The table holds the rows of the successful sign-ups, in their order; no two
of them clash, and their numbers lie between 1 and the last identity number. -/
structure Faithful (sqlEq : NVarChar → NVarChar → Prop) (s : Users × List Record) : Prop where
  rows_eq : s.1.rows = s.2.filterMap Record.registered?
  distinct : s.1.rows.Pairwise (Distinct sqlEq)
  numbered : ∀ row ∈ s.1.rows, 0 < row.userNo ∧ row.userNo ≤ s.1.identity

theorem spSignUp_cases (sqlEq : NVarChar → NVarChar → Prop) [DecidableRel sqlEq]
    (users : Users) (account password nickname : NVarChar) (skipped : Nat) :
    ((spSignUp sqlEq users account password nickname skipped).1 = users ∧
      ((spSignUp sqlEq users account password nickname skipped).2 = ⟨1, 0⟩ ∨
        (spSignUp sqlEq users account password nickname skipped).2 = ⟨2, 0⟩)) ∨
    ((∀ row ∈ users.rows, ¬ sqlEq row.account account ∧ ¬ sqlEq row.nickname nickname) ∧
      spSignUp sqlEq users account password nickname skipped =
        (⟨users.rows ++ [⟨users.identity + 1 + skipped, account, password, nickname⟩],
          users.identity + 1 + skipped⟩, ⟨0, users.identity + 1 + skipped⟩)) := by
  unfold spSignUp
  split
  · exact .inl ⟨rfl, .inl rfl⟩
  · rename_i haccount
    split
    · exact .inl ⟨rfl, .inr rfl⟩
    · rename_i hnickname
      push Not at haccount hnickname
      exact .inr ⟨fun row hrow => ⟨haccount row hrow, hnickname row hrow⟩, rfl⟩

theorem faithful_serve {s t : Users × List Record} {call : Call} (hs : Faithful sqlEq s)
    (hstep : serve sqlEq s call = some t) : Faithful sqlEq t := by
  rcases call with ⟨account, passWord, scan⟩ | ⟨account, password, nickname, skipped⟩
  · simp only [serve, Option.ite_none_right_eq_some, Option.some.injEq] at hstep
    obtain ⟨-, rfl⟩ := hstep
    refine ⟨?_, hs.distinct, hs.numbered⟩
    simp [hs.rows_eq, Record.registered?]
  · simp only [serve, Option.some.injEq] at hstep
    subst hstep
    rcases spSignUp_cases sqlEq s.1 account password nickname skipped with
      ⟨htable, hrow⟩ | ⟨hfresh, heq⟩
    · rw [htable]
      refine ⟨?_, hs.distinct, hs.numbered⟩
      rcases hrow with hrow | hrow <;> simp [hs.rows_eq, hrow, Record.registered?]
    · rw [heq]
      refine ⟨?_, ?_, ?_⟩
      · simp [hs.rows_eq, Record.registered?]
      · refine List.pairwise_append.mpr ⟨hs.distinct, List.pairwise_singleton _ _, ?_⟩
        intro row hrow new hnew
        rw [List.mem_singleton.mp hnew]
        exact hfresh row hrow
      · intro row hrow
        rcases List.mem_append.mp hrow with hold | hnew
        · have := hs.numbered row hold
          simp only
          omega
        · rw [List.mem_singleton.mp hnew]
          simp only
          omega

theorem faithful_of_run {calls : List Call} {t : Users × List Record}
    (hrun : run (serve sqlEq) (emptyUsers, []) calls = some t) : Faithful sqlEq t :=
  invariant_of_run (serve sqlEq) (fun _ _ _ => faithful_serve)
    ⟨rfl, List.Pairwise.nil, by simp [emptyUsers]⟩ hrun

theorem selectInto_of_none {account : NVarChar} {scan : List User}
    {vars : Nat × NVarChar × NVarChar} (hnone : ∀ row ∈ scan, ¬ sqlEq row.account account) :
    selectInto sqlEq account scan vars = vars := by
  induction scan with
  | nil => rfl
  | cons row rows ih =>
      simp only [List.forall_mem_cons] at hnone
      simp only [selectInto, hnone.1, if_false]
      exact ih hnone.2

/-- Where accounts are unique, the `SELECT` assigns the values of the one row
that matches, in whatever order the table is scanned. -/
theorem selectInto_of_mem (heq : Equivalence sqlEq) {account : NVarChar} {scan : List User}
    (vars : Nat × NVarChar × NVarChar)
    (hdistinct : scan.Pairwise fun row row' => ¬ sqlEq row.account row'.account)
    {row : User} (hrow : row ∈ scan) (haccount : sqlEq row.account account) :
    selectInto sqlEq account scan vars = (row.userNo, row.password, row.nickname) := by
  induction scan generalizing vars with
  | nil => simp at hrow
  | cons first rows ih =>
      obtain ⟨hfirst, hrows⟩ := List.pairwise_cons.mp hdistinct
      rcases List.mem_cons.mp hrow with rfl | hrest
      · simp only [selectInto, haccount, if_true]
        apply selectInto_of_none
        intro other hother hmatch
        exact hfirst other hother (heq.trans haccount (heq.symm hmatch))
      · simp only [selectInto]
        split <;> exact ih _ hrows hrest

/-- What `sp_Login` answers for a table of distinct rows with positive numbers:
the variable `@UserNo` is still 0 exactly where no account matches. -/
theorem spLogin_cases (heq : Equivalence sqlEq) {rows scan : List User}
    (hdistinct : rows.Pairwise (Distinct sqlEq)) (hnumbered : ∀ row ∈ rows, 0 < row.userNo)
    (hscan : scan.Perm rows) (account passWord : NVarChar) :
    ((∀ row ∈ rows, ¬ sqlEq row.account account) ∧
      spLogin sqlEq scan account passWord = ⟨1, 0, []⟩) ∨
    ∃ row ∈ rows, sqlEq row.account account ∧
      (∀ other ∈ rows, sqlEq other.account account → other = row) ∧
      spLogin sqlEq scan account passWord =
        if sqlEq row.password passWord then ⟨0, row.userNo, row.nickname⟩ else ⟨2, 0, []⟩ := by
  have hsymm : Std.Symm fun row row' : User => ¬ sqlEq row.account row'.account :=
    ⟨fun _ _ h hsymm => h (heq.symm hsymm)⟩
  have hrows : rows.Pairwise fun row row' => ¬ sqlEq row.account row'.account :=
    hdistinct.imp fun h => h.1
  have haccounts : scan.Pairwise fun row row' => ¬ sqlEq row.account row'.account :=
    (hscan.pairwise_iff fun h => hsymm.symm _ _ h).mpr hrows
  by_cases hmatch : ∃ row ∈ rows, sqlEq row.account account
  · right
    obtain ⟨row, hrow, haccount⟩ := hmatch
    refine ⟨row, hrow, haccount, ?_, ?_⟩
    · intro other hother hotherAccount
      by_contra hne
      exact hrows.forall hother hrow hne (heq.trans hotherAccount (heq.symm haccount))
    · have hselect := selectInto_of_mem heq (0, [], []) haccounts
        (hscan.mem_iff.mpr hrow) haccount
      have hpos := hnumbered row hrow
      simp only [spLogin, hselect, Nat.ne_of_gt hpos, if_false, ite_not]
  · left
    push Not at hmatch
    refine ⟨hmatch, ?_⟩
    have hselect : selectInto sqlEq account scan (0, [], []) = (0, [], []) :=
      selectInto_of_none fun row hrow => hmatch row (hscan.mem_iff.mp hrow)
    simp [spLogin, hselect]

end Invariant

section Histories

variable {sqlEq : NVarChar → NVarChar → Prop}

/-- Some successful sign-up of the history registered these credentials under
this number and nickname. -/
def Registered (sqlEq : NVarChar → NVarChar → Prop) (past : List Record)
    (account passWord : NVarChar) (userNo : Nat) (nickname : NVarChar) : Prop :=
  ∃ account' password', Record.signUp account' password' nickname ⟨0, userNo⟩ ∈ past ∧
    sqlEq account' account ∧ sqlEq password' passWord

/-- Some successful sign-up of the history registered this account. -/
def AccountTaken (sqlEq : NVarChar → NVarChar → Prop) (past : List Record)
    (account : NVarChar) : Prop :=
  ∃ account' password' nickname userNo,
    Record.signUp account' password' nickname ⟨0, userNo⟩ ∈ past ∧ sqlEq account' account

/-- Two finished calls that are not successful sign-ups of equal accounts or of
equal nicknames. -/
def Unclashing (sqlEq : NVarChar → NVarChar → Prop) (r r' : Record) : Prop :=
  ∀ row row', r.registered? = some row → r'.registered? = some row' → Distinct sqlEq row row'

theorem mem_rows_iff {s : Users × List Record} (hs : Faithful sqlEq s) {row : User} :
    row ∈ s.1.rows ↔
      Record.signUp row.account row.password row.nickname ⟨0, row.userNo⟩ ∈ s.2 := by
  rw [hs.rows_eq, List.mem_filterMap]
  constructor
  · rintro ⟨r, hr, hrow⟩
    exact registered?_eq_some.mp hrow ▸ hr
  · intro hr
    exact ⟨_, hr, registered?_eq_some.mpr rfl⟩

theorem accountTaken_iff {s : Users × List Record} (hs : Faithful sqlEq s)
    {account : NVarChar} :
    AccountTaken sqlEq s.2 account ↔ ∃ row ∈ s.1.rows, sqlEq row.account account := by
  constructor
  · rintro ⟨account', password', nickname, userNo, hmem, haccount⟩
    exact ⟨⟨userNo, account', password', nickname⟩, (mem_rows_iff hs).mpr hmem, haccount⟩
  · rintro ⟨row, hrow, haccount⟩
    exact ⟨_, _, _, _, (mem_rows_iff hs).mp hrow, haccount⟩

theorem registered_iff {s : Users × List Record} (hs : Faithful sqlEq s)
    {account passWord : NVarChar} {userNo : Nat} {nickname : NVarChar} :
    Registered sqlEq s.2 account passWord userNo nickname ↔
      ∃ row ∈ s.1.rows, sqlEq row.account account ∧ sqlEq row.password passWord ∧
        row.userNo = userNo ∧ row.nickname = nickname := by
  constructor
  · rintro ⟨account', password', hmem, haccount, hpassword⟩
    exact ⟨⟨userNo, account', password', nickname⟩, (mem_rows_iff hs).mpr hmem, haccount,
      hpassword, rfl, rfl⟩
  · rintro ⟨row, hrow, haccount, hpassword, rfl, rfl⟩
    exact ⟨_, _, (mem_rows_iff hs).mp hrow, haccount, hpassword⟩

theorem unclashing_of_faithful {s : Users × List Record} (hs : Faithful sqlEq s) :
    s.2.Pairwise (Unclashing sqlEq) := by
  have hrows := hs.distinct
  rw [hs.rows_eq, List.pairwise_filterMap] at hrows
  exact hrows.imp fun h row row' hr hr' => h row hr row' hr'

theorem login_iff_registered [DecidableRel sqlEq] (heq : Equivalence sqlEq)
    {calls : List Call} {users : Users} {past : List Record}
    (hrun : run (serve sqlEq) (emptyUsers, []) calls = some (users, past)) :
    (∀ account passWord scan, scan.Perm users.rows →
      (∀ userNo nickname, spLogin sqlEq scan account passWord = ⟨0, userNo, nickname⟩ ↔
        Registered sqlEq past account passWord userNo nickname) ∧
      ((spLogin sqlEq scan account passWord).result = 1 ↔ ¬ AccountTaken sqlEq past account) ∧
      ((spLogin sqlEq scan account passWord).result = 2 ↔
        AccountTaken sqlEq past account ∧
          ¬ ∃ userNo nickname, Registered sqlEq past account passWord userNo nickname)) ∧
    past.Pairwise (Unclashing sqlEq) ∧
    ∀ account password nickname skipped,
      ((spSignUp sqlEq users account password nickname skipped).2.result = 1 ∨
        (spSignUp sqlEq users account password nickname skipped).2.result = 2) →
      (spSignUp sqlEq users account password nickname skipped).1 = users := by
  have hs := faithful_of_run hrun
  refine ⟨?_, unclashing_of_faithful hs, ?_⟩
  · intro account passWord scan hscan
    simp only [accountTaken_iff hs, registered_iff hs]
    rcases spLogin_cases heq hs.distinct (fun row hrow => (hs.numbered row hrow).1) hscan
      account passWord with ⟨hnone, hanswer⟩ | ⟨row, hrow, haccount, honly, hanswer⟩
    · rw [hanswer]
      refine ⟨?_, ?_, ?_⟩
      · intro userNo nickname
        simp only [LoginRow.mk.injEq, one_ne_zero, false_and, false_iff]
        rintro ⟨row, hrow, haccount, -⟩
        exact hnone row hrow haccount
      · simpa using hnone
      · simp only [show (1 : Nat) ≠ 2 by decide, false_iff]
        rintro ⟨⟨row, hrow, haccount⟩, -⟩
        exact hnone row hrow haccount
    · have htaken : ∃ row ∈ users.rows, sqlEq row.account account := ⟨row, hrow, haccount⟩
      rw [hanswer]
      split
      · rename_i hpassword
        refine ⟨?_, ?_, ?_⟩
        · intro userNo nickname
          constructor
          · intro h
            obtain ⟨-, rfl, rfl⟩ := LoginRow.mk.inj h
            exact ⟨row, hrow, haccount, hpassword, rfl, rfl⟩
          · rintro ⟨other, hother, hotherAccount, -, rfl, rfl⟩
            rw [honly other hother hotherAccount]
        · simpa using htaken
        · simp only [show (0 : Nat) ≠ 2 by decide, false_iff]
          rintro ⟨-, hnone⟩
          exact hnone ⟨_, _, row, hrow, haccount, hpassword, rfl, rfl⟩
      · rename_i hpassword
        have hwrong : ¬ ∃ userNo nickname, ∃ row ∈ users.rows, sqlEq row.account account ∧
            sqlEq row.password passWord ∧ row.userNo = userNo ∧ row.nickname = nickname := by
          rintro ⟨_, _, other, hother, hotherAccount, hotherPassword, -⟩
          exact hpassword (honly other hother hotherAccount ▸ hotherPassword)
        refine ⟨?_, ?_, ?_⟩
        · intro userNo nickname
          simp only [LoginRow.mk.injEq, show (2 : Nat) ≠ 0 by decide, false_and, false_iff]
          exact fun h => hwrong ⟨userNo, nickname, h⟩
        · simpa using htaken
        · simp only [true_iff]
          exact ⟨htaken, hwrong⟩
  · intro account password nickname skipped hresult
    rcases spSignUp_cases sqlEq users account password nickname skipped with
      ⟨htable, -⟩ | ⟨-, heq⟩
    · exact htable
    · simp [heq] at hresult

/-- A collation that does not tell the letters a to z from A to Z. -/
def caselessEq (s t : NVarChar) : Prop :=
  s.map (fun c => if 97 ≤ c ∧ c ≤ 122 then c - 32 else c) =
    t.map (fun c => if 97 ≤ c ∧ c ≤ 122 then c - 32 else c)

instance : DecidableRel caselessEq := fun _ _ => inferInstanceAs (Decidable (_ = _))

theorem login_iff_registered_caseless :
    run (serve caselessEq) (emptyUsers, [])
        [.signUp [97] [49] [120] 0, .signUp [65] [50] [121] 0, .signUp [98] [51] [122] 4] =
      some (⟨[⟨1, [97], [49], [120]⟩, ⟨6, [98], [51], [122]⟩], 6⟩,
        [.signUp [97] [49] [120] ⟨0, 1⟩, .signUp [65] [50] [121] ⟨1, 0⟩,
          .signUp [98] [51] [122] ⟨0, 6⟩]) ∧
    spLogin caselessEq [⟨6, [98], [51], [122]⟩, ⟨1, [97], [49], [120]⟩] [65] [49] =
      ⟨0, 1, [120]⟩ := by
  have hrun : run (serve caselessEq) (emptyUsers, [])
      [.signUp [97] [49] [120] 0, .signUp [65] [50] [121] 0, .signUp [98] [51] [122] 4] =
    some (⟨[⟨1, [97], [49], [120]⟩, ⟨6, [98], [51], [122]⟩], 6⟩,
      [.signUp [97] [49] [120] ⟨0, 1⟩, .signUp [65] [50] [121] ⟨1, 0⟩,
        .signUp [98] [51] [122] ⟨0, 6⟩]) := by
    decide
  refine ⟨hrun, ?_⟩
  have heq : Equivalence caselessEq := ⟨fun _ => rfl, Eq.symm, Eq.trans⟩
  refine (((login_iff_registered heq hrun).1 [65] [49] _ (List.Perm.swap _ _ _)).1 1 [120]).mpr ?_
  exact ⟨[97], [49], by decide, by decide, by decide⟩

end Histories

end IocpChat.UserTable
