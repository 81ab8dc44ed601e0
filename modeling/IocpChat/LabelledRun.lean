import Mathlib.Algebra.BigOperators.Group.Finset.Piecewise
import Mathlib.Data.List.Infix

/-!
Finite runs of a labelled step function, and the rules by which a property of
one step becomes a property of a whole run.  A label carries every choice that
is made outside the system, so that a run is determined by its labels; a step
function answers `none` where a label is not enabled.
-/

namespace IocpChat.LabelledRun

section Runs

variable {State Label : Type*} (step : State → Label → Option State)

/-- The state a list of labels leads to, if every label is enabled in turn. -/
def run : State → List Label → Option State
  | s, [] => some s
  | s, l :: ls =>
      match step s l with
      | none => none
      | some t => run t ls

/-- Every step the labels make is made in a state that meets the guard. -/
def Meets (guard : State → Label → Prop) : State → List Label → Prop
  | _, [] => True
  | s, l :: ls =>
      match step s l with
      | none => True
      | some t => guard s l ∧ Meets guard t ls

instance decidableMeets (guard : State → Label → Prop) [∀ s l, Decidable (guard s l)] :
    ∀ s ls, Decidable (Meets step guard s ls)
  | _, [] => isTrue trivial
  | s, l :: ls =>
      match h : step s l with
      | none => isTrue (by simp [Meets, h])
      | some t =>
          have := decidableMeets guard t ls
          decidable_of_iff (guard s l ∧ Meets step guard t ls) (by simp [Meets, h])

/-- The property holds in every state the labels pass through, the first and
the last one included. -/
def Always (P : State → Prop) (s : State) (ls : List Label) : Prop :=
  ∀ done, done <+: ls → ∀ t, run step s done = some t → P t

@[simp] theorem run_nil (s : State) : run step s [] = some s := rfl

theorem run_cons_of_step {s t : State} {l : Label} (h : step s l = some t)
    (ls : List Label) : run step s (l :: ls) = run step t ls := by
  simp [run, h]

theorem run_append (s : State) (ls ms : List Label) :
    run step s (ls ++ ms) = (run step s ls).bind fun t => run step t ms := by
  induction ls generalizing s with
  | nil => rfl
  | cons l ls ih =>
      simp only [List.cons_append, run]
      cases step s l with
      | none => rfl
      | some t => exact ih t

theorem meets_prefix {guard : State → Label → Prop} {s : State} {ls ms : List Label}
    (h : Meets step guard s (ls ++ ms)) : Meets step guard s ls := by
  induction ls generalizing s with
  | nil => trivial
  | cons l ls ih =>
      simp only [List.cons_append, Meets] at h ⊢
      cases hl : step s l with
      | none => trivial
      | some u =>
          simp only [hl] at h ⊢
          exact ⟨h.1, ih h.2⟩

theorem invariant_of_meets {guard : State → Label → Prop} {J : State → Prop}
    (hstep : ∀ s l t, J s → guard s l → step s l = some t → J t)
    {s : State} (hs : J s) {ls : List Label} (hls : Meets step guard s ls)
    {t : State} (hrun : run step s ls = some t) : J t := by
  induction ls generalizing s with
  | nil =>
      have hst : s = t := by simpa using hrun
      exact hst ▸ hs
  | cons l ls ih =>
      simp only [run] at hrun
      simp only [Meets] at hls
      cases hl : step s l with
      | none => simp [hl] at hrun
      | some u =>
          simp only [hl] at hrun hls
          exact ih (hstep s l u hs hls.1 hl) hls.2 hrun

/-- Where each step shows as a total function on what is seen of the state, a run
shows as that function folded over its labels. -/
theorem view_of_run {View : Type*} (view : State → View) {f : View → Label → View}
    (hstep : ∀ s l t, step s l = some t → view t = f (view s) l)
    {s : State} {ls : List Label} {t : State} (hrun : run step s ls = some t) :
    view t = ls.foldl f (view s) := by
  induction ls generalizing s with
  | nil =>
      have hst : s = t := by simpa using hrun
      rw [hst, List.foldl_nil]
  | cons l ls ih =>
      simp only [run] at hrun
      cases hl : step s l with
      | none => simp [hl] at hrun
      | some u =>
          simp only [hl] at hrun
          rw [ih hrun, hstep s l u hl, List.foldl_cons]

theorem invariant_of_labels (allowed : Label → Prop) {J : State → Prop}
    (hstep : ∀ s l t, J s → allowed l → step s l = some t → J t)
    {s : State} (hs : J s) {ls : List Label} (hls : ∀ l ∈ ls, allowed l) {t : State}
    (hrun : run step s ls = some t) : J t := by
  refine invariant_of_meets step (fun s l t hs hl => hstep s l t hs hl)  hs ?_ hrun
  clear hs hrun
  induction ls generalizing s with
  | nil => trivial
  | cons l ls ih =>
      simp only [List.forall_mem_cons] at hls
      simp only [Meets]
      cases step s l with
      | none => trivial
      | some u => exact ⟨hls.1, ih hls.2⟩

theorem invariant_of_run {J : State → Prop}
    (hstep : ∀ s l t, J s → step s l = some t → J t)
    {s : State} (hs : J s) {ls : List Label} {t : State}
    (hrun : run step s ls = some t) : J t :=
  invariant_of_labels step (fun _ => True) (fun s l t hJ _ => hstep s l t hJ) hs
    (fun _ _ => trivial) hrun

theorem always_of_meets {guard : State → Label → Prop} {J : State → Prop}
    (hstep : ∀ s l t, J s → guard s l → step s l = some t → J t)
    {s : State} (hs : J s) {ls : List Label} (hls : Meets step guard s ls) :
    Always step J s ls := by
  intro done hdone t hrun
  refine invariant_of_meets step hstep hs ?_ hrun
  obtain ⟨rest, rfl⟩ := hdone
  exact meets_prefix step hls

/-- What the invariant gives of every guarded step, every step of a guarded
run has. -/
theorem meets_of_meets {guard P : State → Label → Prop} {J : State → Prop}
    (hstep : ∀ s l t, J s → guard s l → step s l = some t → J t)
    (hP : ∀ s l t, J s → guard s l → step s l = some t → P s l)
    {s : State} (hs : J s) {ls : List Label} (hls : Meets step guard s ls) :
    Meets step P s ls := by
  induction ls generalizing s with
  | nil => trivial
  | cons l ls ih =>
      simp only [Meets] at hls ⊢
      cases hl : step s l with
      | none => trivial
      | some u =>
          simp only [hl] at hls ⊢
          exact ⟨hP s l u hs hls.1 hl, ih (hstep s l u hs hls.1 hl) hls.2⟩

/-- When a step from a good state ends in a good state exactly if it meets the
guard, a run stays good throughout exactly if all its steps meet the guard.
What every step keeps anyway may be used for the equivalence. -/
theorem always_iff_meets {guard : State → Label → Prop} {P J : State → Prop}
    (hinv : ∀ s l t, J s → step s l = some t → J t)
    (hstep : ∀ s l t, J s → P s → step s l = some t → (P t ↔ guard s l))
    {s : State} (hi : J s) (hs : P s) (ls : List Label) :
    Always step P s ls ↔ Meets step guard s ls := by
  induction ls generalizing s with
  | nil =>
      simp only [Meets, iff_true]
      intro done hdone t hrun
      have hnil : done = [] := by simpa using hdone
      subst hnil
      have hst : s = t := by simpa using hrun
      exact hst ▸ hs
  | cons l ls ih =>
      simp only [Meets]
      cases hl : step s l with
      | none =>
          simp only [iff_true]
          intro done hdone t hrun
          rcases done with _ | ⟨m, done⟩
          · have hst : s = t := by simpa using hrun
            exact hst ▸ hs
          · have hm : m = l := (List.cons_prefix_cons.mp hdone).1
            subst hm
            simp [run, hl] at hrun
      | some u =>
          have hiu := hinv s l u hi hl
          constructor
          · intro halways
            have hu : P u := halways [l] (by simp) u (by simp [run, hl])
            refine ⟨(hstep s l u hi hs hl).mp hu, (ih hiu hu).mp ?_⟩
            intro done hdone t hrun
            exact halways (l :: done) (List.cons_prefix_cons.mpr ⟨rfl, hdone⟩) t
              (by simpa [run, hl] using hrun)
          · rintro ⟨hguard, hmeets⟩ done hdone t hrun
            rcases done with _ | ⟨m, done⟩
            · have hst : s = t := by simpa using hrun
              exact hst ▸ hs
            · obtain ⟨hm, hrest⟩ := List.cons_prefix_cons.mp hdone
              subst hm
              have hu : P u := (hstep s m u hi hs hl).mpr hguard
              exact (ih hiu hu).mpr hmeets done hrest t (by simpa [run, hl] using hrun)

end Runs

section Outputs

variable {State State' Label Label' Output : Type*}

/-- What a machine that is never stuck puts out along a list of labels. -/
def outputs (next : State → Label → State) (out : State → Label → List Output) :
    State → List Label → List Output
  | _, [] => []
  | s, l :: ls => out s l ++ outputs next out (next s l) ls

/-- The unwinding rule: where corresponding steps from related states put out the same
and lead to related states, corresponding runs put out the same. -/
theorem outputs_eq_of_unwinding {next : State → Label → State}
    {out : State → Label → List Output} {next' : State' → Label' → State'}
    {out' : State' → Label' → List Output} {R : State → State' → Prop}
    {S : Label → Label' → Prop} {guard : State → Label → Prop}
    (hstep : ∀ s s' l l', R s s' → S l l' → guard s l →
      out' s' l' = out s l ∧ R (next s l) (next' s' l'))
    {s : State} {s' : State'} (hs : R s s') {ls : List Label} {ls' : List Label'}
    (hls : List.Forall₂ S ls ls') (hguard : Meets (fun s l => some (next s l)) guard s ls) :
    outputs next' out' s' ls' = outputs next out s ls := by
  induction hls generalizing s s' with
  | nil => rfl
  | cons hl _ ih =>
      obtain ⟨hhere, hrest⟩ := hguard
      obtain ⟨hout, hnext⟩ := hstep _ _ _ _ hs hl hhere
      rw [outputs, outputs, hout, ih hnext hrest]

/-- Where corresponding steps put out what corresponds, so do corresponding runs, and they
end in related states. -/
theorem forall₂_outputs_of_unwinding {Output' : Type*} {next : State → Label → State}
    {out : State → Label → List Output} {next' : State' → Label' → State'}
    {out' : State' → Label' → List Output'} {R : State → State' → Prop}
    {S : Label → Label' → Prop} {P : Output → Output' → Prop} {guard : State → Label → Prop}
    (hstep : ∀ s s' l l', R s s' → S l l' → guard s l →
      List.Forall₂ P (out s l) (out' s' l') ∧ R (next s l) (next' s' l'))
    {s : State} {s' : State'} (hs : R s s') {ls : List Label} {ls' : List Label'}
    (hls : List.Forall₂ S ls ls') (hguard : Meets (fun s l => some (next s l)) guard s ls) :
    List.Forall₂ P (outputs next out s ls) (outputs next' out' s' ls') ∧
      R (ls.foldl next s) (ls'.foldl next' s') := by
  induction hls generalizing s s' with
  | nil => exact ⟨.nil, hs⟩
  | cons hl _ ih =>
      obtain ⟨hhere, hrest⟩ := hguard
      obtain ⟨hout, hnext⟩ := hstep _ _ _ _ hs hl hhere
      obtain ⟨houts, hlast⟩ := ih hnext hrest
      exact ⟨List.rel_append hout houts, hlast⟩

end Outputs

section Refinement

variable {State State' Label Label' : Type*}

/-- The labels a run shows one level up, where a step may show as none or as several. -/
def shownLabels (step : State → Label → Option State) (shows : State → Label → List Label') :
    State → List Label → List Label'
  | _, [] => []
  | s, l :: ls =>
      match step s l with
      | none => []
      | some t => shows s l ++ shownLabels step shows t ls

/-- Where the view of each step is a run of the level above, so is the view of a run. -/
theorem run_of_shows {step : State → Label → Option State}
    {step' : State' → Label' → Option State'} {view : State → State'}
    {shows : State → Label → List Label'} {J : State → Prop}
    (hstep : ∀ s l t, J s → step s l = some t →
      J t ∧ run step' (view s) (shows s l) = some (view t))
    {s : State} (hs : J s) {ls : List Label} {t : State} (hrun : run step s ls = some t) :
    run step' (view s) (shownLabels step shows s ls) = some (view t) := by
  induction ls generalizing s with
  | nil =>
      obtain rfl : s = t := by simpa using hrun
      rfl
  | cons l ls ih =>
      simp only [run] at hrun
      cases hl : step s l with
      | none => simp [hl] at hrun
      | some u =>
          simp only [hl] at hrun
          obtain ⟨hu, hshown⟩ := hstep s l u hs hl
          simp only [shownLabels, hl]
          rw [run_append, hshown, Option.bind_some]
          exact ih hu hrun

end Refinement

section Families

variable {ι M : Type*} [DecidableEq ι] [AddCommMonoid M] {α : Type*}

theorem sum_update_trade (s : Finset ι) (f : α → M) (g : ι → α) {i : ι}
    (hi : i ∈ s) (v : α) :
    ∑ j ∈ s, f (Function.update g i v j) + f (g i) = ∑ j ∈ s, f (g j) + f v := by
  rw [← Finset.add_sum_erase s (fun j => f (g j)) hi,
    ← Finset.add_sum_erase s (fun j => f (Function.update g i v j)) hi]
  have hrest : ∑ j ∈ s.erase i, f (Function.update g i v j) =
      ∑ j ∈ s.erase i, f (g j) := by
    apply Finset.sum_congr rfl
    intro j hj
    rw [Function.update_of_ne (Finset.ne_of_mem_erase hj)]
  rw [hrest, Function.update_self, add_right_comm, add_comm (f v), add_right_comm]

end Families

end IocpChat.LabelledRun
