import Mathlib.Data.Multiset.AddSub

/-!
Reference-counted objects with a pool of free ones.  Objects are numbered in
the order of their creation.  The counts are balanced against a multiset of
holders when every object is counted once for each time it is held, and the
pool consists of the objects that nobody holds.
-/

namespace IocpChat.RefCounting

/-- The counts of all objects there have been, and the pool. -/
structure Refs where
  count : Nat → Int
  allocated : Nat
  pool : List Nat

namespace Refs

/-- A free object, or a new one, with one reference. -/
def alloc (r : Refs) : Nat × Refs :=
  match r.pool with
  | p :: rest => (p, { r with pool := rest, count := Function.update r.count p 1 })
  | [] => (r.allocated,
      { r with
        allocated := r.allocated + 1
        count := Function.update r.count r.allocated 1 })

/-- One reference more. -/
def addRef (r : Refs) (p : Nat) : Refs :=
  { r with count := Function.update r.count p (r.count p + 1) }

/-- One reference less; with the last one the object goes to the pool. -/
def release (r : Refs) (p : Nat) : Refs :=
  { r with
    count := Function.update r.count p (r.count p - 1)
    pool := if r.count p - 1 = 0 then p :: r.pool else r.pool }

end Refs

/-- Every object is counted as often as it is held, and the pool has the others. -/
structure Balanced (r : Refs) (holders : Multiset Nat) : Prop where
  count : ∀ p, p < r.allocated → r.count p = holders.count p
  known : ∀ p, p ∈ holders → p < r.allocated
  nodup : r.pool.Nodup
  free : ∀ p, p ∈ r.pool ↔ p < r.allocated ∧ p ∉ holders

namespace Balanced

variable {r : Refs} {holders : Multiset Nat}

theorem empty (count : Nat → Int) : Balanced ⟨count, 0, []⟩ 0 := by
  refine ⟨?_, ?_, List.nodup_nil, ?_⟩
  · intro p hp
    simp at hp
  · intro p hp
    simp at hp
  · intro p
    simp

theorem alloc (h : Balanced r holders) : Balanced r.alloc.2 (r.alloc.1 ::ₘ holders) := by
  simp only [Refs.alloc]
  split
  · rename_i p rest hpool
    have hp := (h.free p).mp (by simp [hpool])
    have hnodup := h.nodup
    rw [hpool, List.nodup_cons] at hnodup
    refine ⟨?_, ?_, hnodup.2, ?_⟩
    · intro q hq
      rcases eq_or_ne q p with rfl | hne
      · simp [Multiset.count_eq_zero_of_notMem hp.2]
      · simpa [hne] using h.count q hq
    · intro q hq
      rcases Multiset.mem_cons.mp hq with rfl | hq
      · exact hp.1
      · exact h.known q hq
    · intro q
      have hfree := h.free q
      rw [hpool, List.mem_cons] at hfree
      rw [Multiset.mem_cons]
      rcases eq_or_ne q p with rfl | hne
      · simp [hnodup.1]
      · simpa [hne] using hfree
  · rename_i hpool
    have hnew : r.allocated ∉ holders := fun hmem => absurd (h.known _ hmem) (by omega)
    refine ⟨?_, ?_, h.nodup, ?_⟩
    · intro q hq
      rcases eq_or_ne q r.allocated with rfl | hne
      · simp [Multiset.count_eq_zero_of_notMem hnew]
      · simp only at hq
        simpa [hne] using h.count q (by omega)
    · intro q hq
      simp only
      rcases Multiset.mem_cons.mp hq with rfl | hq
      · omega
      · have hlt := h.known q hq
        omega
    · intro q
      have hfree := h.free q
      rw [hpool] at hfree ⊢
      rw [Multiset.mem_cons]
      simp only [List.not_mem_nil, false_iff, not_and, not_not] at hfree ⊢
      intro hq
      rcases eq_or_ne q r.allocated with heq | hne
      · exact Or.inl heq
      · exact Or.inr (hfree (by omega))

theorem addRef (h : Balanced r holders) {p : Nat} (hp : p ∈ holders) :
    Balanced (r.addRef p) (p ::ₘ holders) := by
  refine ⟨?_, ?_, h.nodup, ?_⟩
  · intro q hq
    have hcount := h.count q hq
    rcases eq_or_ne q p with rfl | hne
    · simp [Refs.addRef, hcount]
    · simpa [Refs.addRef, hne] using hcount
  · intro q hq
    rcases Multiset.mem_cons.mp hq with rfl | hq
    · exact h.known q hp
    · exact h.known q hq
  · intro q
    rw [Multiset.mem_cons]
    have hfree := h.free q
    rcases eq_or_ne q p with rfl | hne
    · simpa [Refs.addRef, hp] using hfree
    · simpa [Refs.addRef, hne] using hfree

theorem release {p : Nat} (h : Balanced r (p ::ₘ holders)) :
    Balanced (r.release p) holders := by
  have hp := h.known p (Multiset.mem_cons_self p holders)
  have hcount : r.count p - 1 = holders.count p := by
    rw [h.count p hp, Multiset.count_cons_self]
    omega
  have hout : p ∉ r.pool := fun hmem =>
    ((h.free p).mp hmem).2 (Multiset.mem_cons_self p holders)
  have hzero : r.count p - 1 = 0 ↔ p ∉ holders := by
    rw [hcount, ← Multiset.count_eq_zero]
    omega
  refine ⟨?_, ?_, ?_, ?_⟩
  · intro q hq
    rcases eq_or_ne q p with rfl | hne
    · simpa [Refs.release] using hcount
    · simpa [Refs.release, hne] using h.count q hq
  · intro q hq
    exact h.known q (Multiset.mem_cons_of_mem hq)
  · simp only [Refs.release]
    split
    · exact List.nodup_cons.mpr ⟨hout, h.nodup⟩
    · exact h.nodup
  · intro q
    have hfree := h.free q
    rw [Multiset.mem_cons] at hfree
    simp only [Refs.release]
    rcases eq_or_ne q p with rfl | hne
    · split
      · rename_i hlast
        simp [hzero.mp hlast, hp]
      · rename_i hlast
        have hheld : q ∈ holders := not_not.mp (mt hzero.mpr hlast)
        simp [hout, hheld]
    · split
      · simpa [hne] using hfree
      · simpa [hne] using hfree

theorem of_mem_pool (h : Balanced r holders) {p : Nat} (hp : p ∈ r.pool) :
    r.count p = 0 ∧ r.pool.count p = 1 ∧ p ∉ holders := by
  obtain ⟨hlt, hnot⟩ := (h.free p).mp hp
  refine ⟨?_, List.count_eq_one_of_mem h.nodup hp, hnot⟩
  rw [h.count p hlt, Multiset.count_eq_zero_of_notMem hnot]
  rfl

theorem notMem_pool (h : Balanced r holders) {p : Nat} (hp : p ∈ holders) : p ∉ r.pool :=
  fun hmem => ((h.free p).mp hmem).2 hp

/-- All objects are free exactly if nobody holds any. -/
theorem all_free_iff (h : Balanced r holders) :
    (∀ p, p < r.allocated → r.count p = 0 ∧ p ∈ r.pool) ↔ holders = 0 := by
  constructor
  · intro hall
    apply Multiset.eq_zero_of_forall_notMem
    intro p hp
    exact h.notMem_pool hp (hall p (h.known p hp)).2
  · rintro rfl p hp
    exact ⟨by simpa using h.count p hp, (h.free p).mpr ⟨hp, by simp⟩⟩

end Balanced

end IocpChat.RefCounting
