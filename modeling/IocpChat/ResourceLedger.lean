import Mathlib.Data.List.Count
import Mathlib.Logic.Function.Basic

/-!
Traces of operations on resources that are acquired, used and released, each below a
parent that has to outlive it.  A ledger follows a trace; a trace every operation of which
the ledger allows, and which leaves nothing live, is balanced.
-/

namespace IocpChat.ResourceLedger

variable {Handle : Type*}

/-- An operation on a resource. -/
inductive Op (Handle : Type*) where
  | acquire (h : Handle) (parent : Option Handle)
  | use (h : Handle)
  | release (h : Handle)

/-- What has become of a resource. -/
inductive Status (Handle : Type*) where
  | fresh
  | live (parent : Option Handle)
  | released

/-- How often a handle of this status has been acquired. -/
def Status.acquired : Status Handle → Nat
  | .fresh => 0
  | .live _ => 1
  | .released => 1

/-- How often a handle of this status has been released. -/
def Status.freed : Status Handle → Nat
  | .fresh => 0
  | .live _ => 0
  | .released => 1

/-- The handle an operation relies on. -/
def Op.touched : Op Handle → Option Handle
  | .acquire _ parent => parent
  | .use h => some h
  | .release h => some h

/-- The resource has been acquired and not released. -/
def Live (l : Handle → Status Handle) (h : Handle) : Prop := ∃ parent, l h = .live parent

/-- Nothing live hangs below the resource. -/
def Childless (l : Handle → Status Handle) (h : Handle) : Prop := ∀ c, l c ≠ .live (some h)

/-- A resource is acquired once, below a live parent, used while it is live, and released
after its children. -/
def Allowed (l : Handle → Status Handle) : Op Handle → Prop
  | .acquire h parent => l h = .fresh ∧ ∀ p, parent = some p → Live l p
  | .use h => Live l h
  | .release h => Live l h ∧ Childless l h

theorem live_of_touched {l : Handle → Status Handle} {op : Op Handle} (hop : Allowed l op)
    {h : Handle} (ht : op.touched = some h) : Live l h := by
  cases op with
  | acquire k parent => exact hop.2 h ht
  | use k => exact Option.some.inj ht ▸ hop
  | release k => exact Option.some.inj ht ▸ hop.1

/-- What lives below a handle lives below a live one. -/
def Rooted (l : Handle → Status Handle) : Prop :=
  ∀ c p, l c = .live (some p) → Live l p

theorem Rooted.childless {l : Handle → Status Handle} (hl : Rooted l) {h : Handle}
    (hfresh : l h = .fresh) : Childless l h := by
  intro c hc
  obtain ⟨parent, hlive⟩ := hl c h hc
  simp [hfresh] at hlive

section Traces

variable [DecidableEq Handle]

/-- The ledger after an operation. -/
def enter (l : Handle → Status Handle) : Op Handle → Handle → Status Handle
  | .acquire h parent => Function.update l h (.live parent)
  | .use _ => l
  | .release h => Function.update l h .released

/-- The ledger after a trace. -/
def ledger (l : Handle → Status Handle) (ops : List (Op Handle)) : Handle → Status Handle :=
  ops.foldl enter l

/-- Every operation of the trace is allowed when it comes. -/
def Disciplined : (Handle → Status Handle) → List (Op Handle) → Prop
  | _, [] => True
  | l, op :: ops => Allowed l op ∧ Disciplined (enter l op) ops

/-- The operation acquires `h`. -/
def Op.acquires (h : Handle) : Op Handle → Bool
  | .acquire k _ => k = h
  | .use _ => false
  | .release _ => false

/-- The operation releases `h`. -/
def Op.releases (h : Handle) : Op Handle → Bool
  | .acquire _ _ => false
  | .use _ => false
  | .release k => k = h

@[simp] theorem ledger_nil (l : Handle → Status Handle) : ledger l [] = l := rfl

@[simp] theorem ledger_cons (l : Handle → Status Handle) (op : Op Handle)
    (ops : List (Op Handle)) : ledger l (op :: ops) = ledger (enter l op) ops := rfl

theorem ledger_append (l : Handle → Status Handle) (ops ops' : List (Op Handle)) :
    ledger l (ops ++ ops') = ledger (ledger l ops) ops' := List.foldl_append

theorem disciplined_append (l : Handle → Status Handle) (ops ops' : List (Op Handle)) :
    Disciplined l (ops ++ ops') ↔ Disciplined l ops ∧ Disciplined (ledger l ops) ops' := by
  induction ops generalizing l with
  | nil => simp [Disciplined]
  | cons op ops ih => simp only [List.cons_append, Disciplined, ledger_cons, ih, and_assoc]

theorem allowed_of_split {l : Handle → Status Handle} {before after : List (Op Handle)}
    {op : Op Handle} (h : Disciplined l (before ++ op :: after)) :
    Allowed (ledger l before) op :=
  ((disciplined_append l before _).mp h).2.1

theorem acquired_enter {l : Handle → Status Handle} {op : Op Handle} (hop : Allowed l op)
    (h : Handle) : (enter l op h).acquired = (l h).acquired + [op].countP (Op.acquires h) := by
  cases op with
  | acquire k parent =>
      rcases eq_or_ne h k with rfl | hne
      · simp [enter, Op.acquires, hop.1, Status.acquired]
      · simp [enter, Op.acquires, hne, hne.symm]
  | use k => simp [enter, Op.acquires]
  | release k =>
      rcases eq_or_ne h k with rfl | hne
      · obtain ⟨parent, hlive⟩ := hop.1
        simp [enter, Op.acquires, hlive, Status.acquired]
      · simp [enter, Op.acquires, hne]

theorem freed_enter {l : Handle → Status Handle} {op : Op Handle} (hop : Allowed l op)
    (h : Handle) : (enter l op h).freed = (l h).freed + [op].countP (Op.releases h) := by
  cases op with
  | acquire k parent =>
      rcases eq_or_ne h k with rfl | hne
      · simp [enter, Op.releases, hop.1, Status.freed]
      · simp [enter, Op.releases, hne]
  | use k => simp [enter, Op.releases]
  | release k =>
      rcases eq_or_ne h k with rfl | hne
      · obtain ⟨parent, hlive⟩ := hop.1
        simp [enter, Op.releases, hlive, Status.freed]
      · simp [enter, Op.releases, hne, hne.symm]

theorem acquired_ledger {l : Handle → Status Handle} {ops : List (Op Handle)}
    (hops : Disciplined l ops) (h : Handle) :
    (ledger l ops h).acquired = (l h).acquired + ops.countP (Op.acquires h) := by
  induction ops generalizing l with
  | nil => rfl
  | cons op ops ih =>
      rw [ledger_cons, ih hops.2, acquired_enter hops.1, Nat.add_assoc, ← List.countP_append,
        List.singleton_append]

theorem freed_ledger {l : Handle → Status Handle} {ops : List (Op Handle)}
    (hops : Disciplined l ops) (h : Handle) :
    (ledger l ops h).freed = (l h).freed + ops.countP (Op.releases h) := by
  induction ops generalizing l with
  | nil => rfl
  | cons op ops ih =>
      rw [ledger_cons, ih hops.2, freed_enter hops.1, Nat.add_assoc, ← List.countP_append,
        List.singleton_append]

theorem counts_of_live {l : Handle → Status Handle} {ops : List (Op Handle)}
    (hfresh : ∀ h, l h = .fresh) (hops : Disciplined l ops) {h : Handle}
    (hlive : Live (ledger l ops) h) :
    ops.countP (Op.acquires h) = 1 ∧ ops.countP (Op.releases h) = 0 := by
  obtain ⟨parent, hlive⟩ := hlive
  have hacquired := acquired_ledger hops h
  have hfreed := freed_ledger hops h
  rw [hfresh, hlive] at hacquired hfreed
  simp only [Status.acquired, Status.freed] at hacquired hfreed
  omega

theorem countP_releases_of_not_live {l : Handle → Status Handle} {ops : List (Op Handle)}
    (hfresh : ∀ h, l h = .fresh) (hops : Disciplined l ops) {h : Handle}
    (hdead : ¬ Live (ledger l ops) h) :
    ops.countP (Op.releases h) = ops.countP (Op.acquires h) := by
  have hacquired := acquired_ledger hops h
  have hfreed := freed_ledger hops h
  rw [hfresh] at hacquired hfreed
  cases hstatus : ledger l ops h with
  | fresh =>
      simp only [hstatus, Status.acquired, Status.freed] at hacquired hfreed
      omega
  | live parent => exact absurd ⟨parent, hstatus⟩ hdead
  | released =>
      simp only [hstatus, Status.acquired, Status.freed] at hacquired hfreed
      omega

theorem parent_enter {l : Handle → Status Handle} {op : Op Handle} (hop : Allowed l op)
    {c : Handle} {parent : Option Handle} (hc : l c = .live parent ∨ l c = .released) :
    enter l op c = .live parent ∨ enter l op c = .released := by
  cases op with
  | acquire k q =>
      rcases eq_or_ne c k with rfl | hne
      · simp [hop.1] at hc
      · simpa [enter, hne] using hc
  | use k => exact hc
  | release k =>
      rcases eq_or_ne c k with rfl | hne
      · simp [enter]
      · simpa [enter, hne] using hc

theorem parent_ledger {l : Handle → Status Handle} {ops : List (Op Handle)}
    (hops : Disciplined l ops) {c : Handle} {parent : Option Handle}
    (hc : l c = .live parent ∨ l c = .released ∨ Op.acquire c parent ∈ ops) :
    ledger l ops c = .live parent ∨ ledger l ops c = .released := by
  induction ops generalizing l with
  | nil => simpa using hc
  | cons op ops ih =>
      apply ih hops.2
      rcases hc with hc | hc | hc
      · exact (parent_enter hops.1 (.inl hc)).imp_right .inl
      · exact (parent_enter hops.1 (.inr hc)).imp_right .inl
      · rcases List.mem_cons.mp hc with rfl | hc
        · exact .inl (by simp [enter])
        · exact .inr (.inr hc)

/-- A trace without loose ends: each handle is acquired at most once and released as often,
what an operation relies on has been acquired and not yet released, and whatever was
acquired below a handle is released before it. -/
structure Balanced (ops : List (Op Handle)) : Prop where
  acquired_once : ∀ h, ops.countP (Op.acquires h) ≤ 1
  released : ∀ h, ops.countP (Op.releases h) = ops.countP (Op.acquires h)
  held : ∀ before op after h, ops = before ++ op :: after → op.touched = some h →
    before.countP (Op.acquires h) = 1 ∧ before.countP (Op.releases h) = 0
  children_first : ∀ before after h c, ops = before ++ .release h :: after →
    .acquire c (some h) ∈ before → before.countP (Op.releases c) = 1

theorem balanced_of_disciplined {l : Handle → Status Handle} {ops : List (Op Handle)}
    (hfresh : ∀ h, l h = .fresh) (hops : Disciplined l ops)
    (hend : ∀ h, ¬ Live (ledger l ops) h) : Balanced ops where
  acquired_once h := by
    have hacquired := acquired_ledger hops h
    rw [hfresh] at hacquired
    cases hstatus : ledger l ops h <;> simp only [hstatus, Status.acquired] at hacquired <;> omega
  released h := countP_releases_of_not_live hfresh hops (hend h)
  held before op after h hsplit ht := by
    subst hsplit
    exact counts_of_live hfresh ((disciplined_append l before _).mp hops).1
      (live_of_touched (allowed_of_split hops) ht)
  children_first before after h c hsplit hc := by
    subst hsplit
    have hbefore := ((disciplined_append l before _).mp hops).1
    have hfreed := freed_ledger hbefore c
    rcases parent_ledger hbefore (.inr (.inr hc)) with hlive | hreleased
    · exact absurd hlive ((allowed_of_split hops).2 c)
    · rw [hfresh, hreleased] at hfreed
      simp only [Status.freed] at hfreed
      omega

theorem rooted_enter {l : Handle → Status Handle} (hl : Rooted l) {op : Op Handle}
    (hop : Allowed l op) : Rooted (enter l op) := by
  cases op with
  | acquire k parent =>
      have hkeep : ∀ h, Live l h → Live (enter l (.acquire k parent)) h := by
        rintro h ⟨q, hlive⟩
        rcases eq_or_ne h k with rfl | hne
        · simp [hop.1] at hlive
        · exact ⟨q, by simpa [enter, hne] using hlive⟩
      intro c p hc
      rcases eq_or_ne c k with rfl | hne
      · apply hkeep p
        apply hop.2 p
        simpa [enter] using hc
      · apply hkeep p
        apply hl c p
        simpa [enter, hne] using hc
  | use k => exact hl
  | release k =>
      intro c p hc
      rcases eq_or_ne c k with rfl | hne
      · simp [enter] at hc
      · have hcl : l c = .live (some p) := by simpa [enter, hne] using hc
        have hpk : p ≠ k := fun h => hop.2 c (h ▸ hcl)
        obtain ⟨q, hlive⟩ := hl c p hcl
        exact ⟨q, by simpa [enter, hpk] using hlive⟩

theorem rooted_ledger {l : Handle → Status Handle} (hl : Rooted l) {ops : List (Op Handle)}
    (hops : Disciplined l ops) : Rooted (ledger l ops) := by
  induction ops generalizing l with
  | nil => exact hl
  | cons op ops ih => exact ih (rooted_enter hl hops.1) hops.2

/-- What is live before the trace is live after it, with the same parent, and nothing else
is. -/
structure Closed (l : Handle → Status Handle) (ops : List (Op Handle)) : Prop where
  disciplined : Disciplined l ops
  same : ∀ h parent, ledger l ops h = .live parent ↔ l h = .live parent

theorem closed_nil (l : Handle → Status Handle) : Closed l [] :=
  ⟨trivial, fun _ _ => Iff.rfl⟩

theorem closed_use {l : Handle → Status Handle} {h : Handle} (hlive : Live l h) :
    Closed l [.use h] :=
  ⟨⟨hlive, trivial⟩, fun _ _ => Iff.rfl⟩

theorem Closed.append {l : Handle → Status Handle} {ops ops' : List (Op Handle)}
    (hops : Closed l ops) (hops' : Closed (ledger l ops) ops') : Closed l (ops ++ ops') where
  disciplined := (disciplined_append l ops ops').mpr ⟨hops.disciplined, hops'.disciplined⟩
  same h parent := by rw [ledger_append, hops'.same, hops.same]

theorem closed_uses {l : Handle → Status Handle} {ops : List (Op Handle)}
    (hops : ∀ op ∈ ops, ∃ h, op = .use h ∧ Live l h) : Closed l ops := by
  induction ops with
  | nil => exact closed_nil l
  | cons op ops ih =>
      obtain ⟨h, rfl, hlive⟩ := hops op List.mem_cons_self
      exact (closed_use hlive).append (ih fun op hop => hops op (List.mem_cons_of_mem _ hop))

theorem closed_scope {l : Handle → Status Handle} (hl : Rooted l) {h : Handle}
    {parent : Option Handle} (hfresh : l h = .fresh)
    (hparent : ∀ p, parent = some p → Live l p) {body : List (Op Handle)}
    (hbody : Closed (Function.update l h (.live parent)) body) :
    Closed l (.acquire h parent :: (body ++ [.release h])) := by
  have hchildless : Childless (Function.update l h (.live parent)) h := by
    intro c
    rcases eq_or_ne c h with rfl | hne
    · rw [Function.update_self]
      intro heq
      obtain ⟨q, hlive⟩ := hparent c (Status.live.inj heq)
      simp [hfresh] at hlive
    · rw [Function.update_of_ne hne]
      exact hl.childless hfresh c
  constructor
  · refine ⟨⟨hfresh, hparent⟩, (disciplined_append _ body _).mpr
      ⟨hbody.disciplined, ⟨⟨parent, ?_⟩, ?_⟩, trivial⟩⟩
    · exact (hbody.same h parent).mpr (Function.update_self h _ l)
    · intro c hc
      exact hchildless c ((hbody.same c (some h)).mp hc)
  · intro k q
    rw [ledger_cons, ledger_append, ledger_cons, ledger_nil]
    rcases eq_or_ne k h with rfl | hne
    · simp [enter, hfresh]
    · simp only [enter, Function.update_of_ne hne]
      rw [hbody.same, Function.update_of_ne hne]

end Traces

end IocpChat.ResourceLedger
