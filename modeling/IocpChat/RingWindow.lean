import Mathlib.Data.List.Basic
import Mathlib.Logic.Function.Basic

/-!
Blocks of memory and circular windows into them.  A block is a total function
from offsets to cells; `slice` reads a straight piece of it, `window` a piece
that wraps around at a fixed size, and `blit` overwrites a straight piece.
-/

namespace IocpChat.RingWindow

variable {α : Type*}

/-- The `len` cells from offset `pos` on. -/
def slice (m : Nat → α) (pos len : Nat) : List α :=
  (List.range len).map fun i => m (pos + i)

/-- The `count` cells from `head` on, wrapping around at `size`. -/
def window (m : Nat → α) (size head count : Nat) : List α :=
  (List.range count).map fun i => m ((head + i) % size)

/-- Overwrite the cells from offset `pos` on. -/
def blit (m : Nat → α) (pos : Nat) (xs : List α) : Nat → α := fun i =>
  if pos ≤ i then (xs[i - pos]?).getD (m i) else m i

@[simp] theorem slice_length (m : Nat → α) (pos len : Nat) :
    (slice m pos len).length = len := by
  simp [slice]

@[simp] theorem window_length (m : Nat → α) (size head count : Nat) :
    (window m size head count).length = count := by
  simp [window]

@[simp] theorem slice_zero (m : Nat → α) (pos : Nat) : slice m pos 0 = [] := rfl

@[simp] theorem window_zero (m : Nat → α) (size head : Nat) :
    window m size head 0 = [] := rfl

theorem slice_congr {m m' : Nat → α} {pos len : Nat}
    (h : ∀ i, pos ≤ i → i < pos + len → m i = m' i) :
    slice m pos len = slice m' pos len := by
  apply List.map_congr_left
  intro i hi
  have hlt : i < len := List.mem_range.mp hi
  exact h (pos + i) (by omega) (by omega)

theorem slice_add (m : Nat → α) (pos a b : Nat) :
    slice m pos (a + b) = slice m pos a ++ slice m (pos + a) b := by
  simp [slice, List.range_add, Nat.add_assoc]

theorem take_drop_slice (m : Nat → α) {pos k n len : Nat} (h : k + n ≤ len) :
    ((slice m pos len).drop k).take n = slice m (pos + k) n := by
  obtain ⟨r, rfl⟩ := Nat.exists_eq_add_of_le h
  rw [Nat.add_assoc, slice_add, List.drop_left' (slice_length m pos k), slice_add,
    List.take_left' (slice_length m (pos + k) n)]

theorem getD_slice (m : Nat → α) {i len : Nat} (h : i < len) (x : α) :
    (slice m 0 len).getD i x = m i := by
  simp [slice, h]

theorem window_add (m : Nat → α) (size head a b : Nat) :
    window m size head (a + b) =
      window m size head a ++ window m size (head + a) b := by
  simp [window, List.range_add, Nat.add_assoc]

@[simp] theorem window_mod_head (m : Nat → α) (size head count : Nat) :
    window m size (head % size) count = window m size head count := by
  simp [window]

theorem window_one (m : Nat → α) (size head : Nat) :
    window m size head 1 = [m (head % size)] := by
  simp [window]

theorem window_succ (m : Nat → α) (size head count : Nat) :
    window m size head (count + 1) =
      m (head % size) :: window m size ((head + 1) % size) count := by
  rw [Nat.add_comm count 1, window_add, window_one, window_mod_head]
  rfl

theorem window_eq_slice (m : Nat → α) {size head count : Nat}
    (h : head + count ≤ size) : window m size head count = slice m head count := by
  apply List.map_congr_left
  intro i hi
  have hlt : i < count := List.mem_range.mp hi
  rw [Nat.mod_eq_of_lt (by omega)]

theorem window_eq_slices (m : Nat → α) {size head count : Nat}
    (hhead : head ≤ size) (hwrap : size ≤ head + count)
    (hfit : head + count ≤ size + size) :
    window m size head count =
      slice m head (size - head) ++ slice m 0 (head + count - size) := by
  have hsplit : count = (size - head) + (head + count - size) := by omega
  conv_lhs => rw [hsplit]
  rw [window_add, window_eq_slice m (by omega), ← window_mod_head,
    show head + (size - head) = size by omega, Nat.mod_self,
    window_eq_slice m (by omega)]

theorem window_congr {m m' : Nat → α} {size head count : Nat}
    (h : ∀ i, i < count → m ((head + i) % size) = m' ((head + i) % size)) :
    window m size head count = window m' size head count := by
  apply List.map_congr_left
  intro i hi
  exact h i (List.mem_range.mp hi)

@[simp] theorem blit_nil (m : Nat → α) (pos : Nat) : blit m pos [] = m := by
  funext i
  simp [blit]

theorem blit_of_lt (m : Nat → α) (xs : List α) {pos i : Nat} (h : i < pos) :
    blit m pos xs i = m i := by
  simp [blit, Nat.not_le.mpr h]

theorem blit_of_ge (m : Nat → α) (xs : List α) {pos i : Nat}
    (h : pos + xs.length ≤ i) : blit m pos xs i = m i := by
  have hpos : pos ≤ i := by omega
  simp [blit, hpos, List.getElem?_eq_none (show xs.length ≤ i - pos by omega)]

theorem slice_blit_self (m : Nat → α) (pos : Nat) (xs : List α) :
    slice (blit m pos xs) pos xs.length = xs := by
  apply List.ext_getElem
  · simp
  · intro i _ hi
    simp [slice, blit, hi]

theorem slice_blit_of_disjoint (m : Nat → α) (xs : List α) {pos start len : Nat}
    (h : start + len ≤ pos ∨ pos + xs.length ≤ start) :
    slice (blit m pos xs) start len = slice m start len := by
  apply slice_congr
  intro i hstart hend
  rcases h with hbefore | hbehind
  · exact blit_of_lt m xs (by omega)
  · exact blit_of_ge m xs (by omega)

theorem slice_blit_zero (m : Nat → α) (xs : List α) {pos len : Nat}
    (h : pos + len ≤ xs.length) : slice (blit m 0 xs) pos len = (xs.drop pos).take len := by
  apply List.ext_getElem
  · simp only [slice_length, List.length_take, List.length_drop]
    omega
  · intro i hi _
    have hlt : i < len := by simpa using hi
    simp [slice, blit, List.getElem?_eq_getElem (show pos + i < xs.length by omega)]

theorem mod_ne_of_lt {size head i j : Nat} (hij : i < j) (hj : j < i + size) :
    (head + i) % size ≠ (head + j) % size := by
  intro h
  have hdvd : size ∣ (head + j) - (head + i) :=
    Nat.dvd_of_mod_eq_zero (Nat.sub_mod_eq_zero_of_mod_eq h.symm)
  have hle : size ≤ (head + j) - (head + i) := Nat.le_of_dvd (by omega) hdvd
  omega

theorem window_update (m : Nat → α) {size head count : Nat} (x : α)
    (h : count < size) :
    window (Function.update m ((head + count) % size) x) size head (count + 1) =
      window m size head count ++ [x] := by
  rw [window_add, window_one]
  congr 1
  · apply window_congr
    intro i hi
    exact Function.update_of_ne
      (mod_ne_of_lt hi (show count < i + size by omega)) x m
  · simp

/-- Copying a straight block behind a window appends it, provided that the
block ends within the memory and does not run into the window's head. -/
theorem window_blit (m : Nat → α) {size head count tail : Nat} (xs : List α)
    (htail : tail = (head + count) % size)
    (hend : tail + xs.length ≤ size) (hfit : count + xs.length ≤ size) :
    window (blit m tail xs) size head (count + xs.length) =
      window m size head count ++ xs := by
  rw [window_add, ← window_mod_head _ _ (head + count), ← htail,
    window_eq_slice _ hend, slice_blit_self]
  congr 1
  apply window_congr
  intro i hi
  rcases Nat.lt_or_ge ((head + i) % size) tail with hlt | hge
  · exact blit_of_lt m xs hlt
  · apply blit_of_ge
    by_contra hcon
    have hin : (head + i) % size < tail + xs.length := by omega
    have hoff : (head + (count + ((head + i) % size - tail))) % size =
        (head + i) % size := by
      rw [← Nat.add_assoc, Nat.add_mod, ← htail,
        Nat.mod_eq_of_lt (show (head + i) % size - tail < size by omega),
        Nat.add_sub_cancel' hge, Nat.mod_mod]
    have hne : (head + i) % size ≠
        (head + (count + ((head + i) % size - tail))) % size :=
      mod_ne_of_lt (by omega) (by omega)
    exact hne hoff.symm

end IocpChat.RingWindow
