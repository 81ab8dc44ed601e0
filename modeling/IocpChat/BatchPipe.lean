import Mathlib.Data.List.Infix

/-!
A pipe that carries items in batches.  An open pipe takes items one at a time; when no
batch is on its way, all that wait become the next one.  A batch arrives as a whole.  What
waits when the pipe is closed is lost, and so is a batch that does not arrive.
-/

namespace IocpChat.BatchPipe

variable {α : Type*}

/-- A pipe with its batch on the way; nothing waits in a closed one. -/
inductive Pipe (α : Type*) where
  | flowing (batch waiting : List α)
  | closed (batch : List α)

namespace Pipe

/-- The items on their way. -/
def batch : Pipe α → List α
  | .flowing b _ => b
  | .closed b => b

/-- Everything that may still arrive. -/
def pending : Pipe α → List α
  | .flowing b w => b ++ w
  | .closed b => b

/-- What waits is lost, and what is on its way stays there. -/
def close : Pipe α → Pipe α
  | .flowing b _ => .closed b
  | .closed b => .closed b

end Pipe

/-- One step, with the items it takes in and those that arrive. -/
inductive Moves : Pipe α → List α → List α → Pipe α → Prop where
  | put (b w : List α) (x : α) : Moves (.flowing b w) [x] [] (.flowing b (w ++ [x]))
  | load (w : List α) : Moves (.flowing [] w) [] [] (.flowing w [])
  | arrive (b w : List α) : Moves (.flowing b w) [] b (.flowing [] w)
  | arriveLast (b : List α) : Moves (.closed b) [] b (.closed [])
  | close (p : Pipe α) : Moves p [] [] p.close
  | lose (p : Pipe α) : Moves p [] [] (.closed [])

/-- Any number of steps. -/
inductive Carries (p : Pipe α) : List α → List α → Pipe α → Prop where
  | refl : Carries p [] [] p
  | step {q r : Pipe α} {xs ys ins outs : List α} (h : Carries p xs ys q)
      (hstep : Moves q ins outs r) : Carries p (xs ++ ins) (ys ++ outs) r

namespace Carries

variable {p q r : Pipe α} {xs ys xs' ys' : List α}

theorem of_moves (h : Moves p xs ys q) : Carries p xs ys q := .step .refl h

theorem trans (h : Carries p xs ys q) (k : Carries q xs' ys' r) :
    Carries p (xs ++ xs') (ys ++ ys') r := by
  induction k with
  | refl =>
      simp only [List.append_nil]
      exact h
  | step _ hstep ih =>
      rw [← List.append_assoc, ← List.append_assoc]
      exact .step ih hstep

theorem trans_silent (h : Carries p xs ys q) (k : Carries q [] [] r) : Carries p xs ys r := by
  have hall := h.trans k
  rwa [List.append_nil, List.append_nil] at hall

end Carries

/-- The items taken in so far against those that have arrived: nothing is lost while the
pipe is open, and nothing that is lost is overtaken. -/
structure InOrder (sent arrived : List α) (p : Pipe α) : Prop where
  first : arrived ++ p.batch <+: sent
  exact : ∀ b w, p = .flowing b w → arrived ++ p.pending = sent

theorem InOrder.empty : InOrder [] [] (.flowing [] [] : Pipe α) :=
  ⟨List.prefix_refl _, fun _ _ _ => rfl⟩

theorem InOrder.moves {sent arrived ins outs : List α} {p q : Pipe α}
    (h : InOrder sent arrived p) (hstep : Moves p ins outs q) :
    InOrder (sent ++ ins) (arrived ++ outs) q := by
  obtain ⟨hfirst, hexact⟩ := h
  cases hstep with
  | put b w x =>
      have hall := hexact b w rfl
      refine ⟨?_, ?_⟩
      · rw [List.append_nil]
        exact hfirst.trans (List.prefix_append sent [x])
      · rintro b' w' -
        rw [← hall]
        simp [Pipe.pending]
  | load w =>
      have hall := hexact [] w rfl
      simp only [List.append_nil]
      refine ⟨?_, ?_⟩
      · rw [← hall]
        exact List.prefix_refl _
      · rintro b' w' -
        rw [← hall]
        simp [Pipe.pending]
  | arrive _ w =>
      have hall := hexact outs w rfl
      rw [List.append_nil]
      refine ⟨?_, ?_⟩
      · simpa [Pipe.batch] using hfirst
      · rintro b' w' -
        rw [← hall]
        simp [Pipe.pending]
  | arriveLast _ =>
      rw [List.append_nil]
      refine ⟨?_, ?_⟩
      · simpa [Pipe.batch] using hfirst
      · rintro b' w' hopen
        cases hopen
  | close p =>
      simp only [List.append_nil]
      refine ⟨?_, ?_⟩
      · cases p with
        | flowing b w => exact hfirst
        | closed b => exact hfirst
      · rintro b' w' hopen
        cases p with
        | flowing b w => cases hopen
        | closed b => cases hopen
  | lose p =>
      simp only [List.append_nil]
      refine ⟨?_, ?_⟩
      · rw [Pipe.batch, List.append_nil]
        exact (List.prefix_append _ _).trans hfirst
      · rintro b' w' hopen
        cases hopen

theorem InOrder.carries {sent arrived ins outs : List α} {p q : Pipe α}
    (h : InOrder sent arrived p) (hsteps : Carries p ins outs q) :
    InOrder (sent ++ ins) (arrived ++ outs) q := by
  induction hsteps with
  | refl =>
      simp only [List.append_nil]
      exact h
  | step _ hstep ih =>
      rw [← List.append_assoc, ← List.append_assoc]
      exact ih.moves hstep

end IocpChat.BatchPipe
