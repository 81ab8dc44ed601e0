import Mathlib.Data.List.Basic

/-!
Streams that consist of frames.  A reader looks at the front of a stream and
decides whether a whole frame is there; what it decides must not change when
more of the stream arrives.  Parsing then does not depend on how the stream is
cut into pieces.
-/

namespace IocpChat.FrameStream

variable {α β : Type*}

/-- What stands at the front of a stream. -/
inductive Front (β : Type*) where
  | incomplete
  | invalid
  | frame (payload : β) (size : Nat)

/-- How the front of a stream is read; more of the stream changes no decision. -/
structure Reader (α β : Type*) where
  front : List α → Front β
  size_pos : ∀ {s x n}, front s = .frame x n → 0 < n
  size_le : ∀ {s x n}, front s = .frame x n → n ≤ s.length
  frame_append : ∀ {s x n} t, front s = .frame x n → front (s ++ t) = .frame x n
  invalid_append : ∀ {s} t, front s = .invalid → front (s ++ t) = .invalid

/-- What is left when no more frames can be read. -/
inductive Verdict (α : Type*) where
  | waiting (rest : List α)
  | rejected

variable (R : Reader α β)

/-- The payloads of all frames up to the first invalid one, and what is left of
the stream if there is none. -/
def parse (s : List α) : List β × Verdict α :=
  match _h : R.front s with
  | .incomplete => ([], .waiting s)
  | .invalid => ([], .rejected)
  | .frame x n =>
      let next := parse (s.drop n)
      (x :: next.1, next.2)
termination_by s.length
decreasing_by
  have hpos := R.size_pos _h
  have hle := R.size_le _h
  rw [List.length_drop]
  omega

variable {R} {s : List α}

theorem parse_of_incomplete (h : R.front s = .incomplete) :
    parse R s = ([], .waiting s) := by
  rw [parse, h]

theorem parse_of_invalid (h : R.front s = .invalid) : parse R s = ([], .rejected) := by
  rw [parse, h]

theorem parse_of_frame {x : β} {n : Nat} (h : R.front s = .frame x n) :
    parse R s = (x :: (parse R (s.drop n)).1, (parse R (s.drop n)).2) := by
  rw [parse, h]

theorem parse_append_of_rejected (t : List α) (h : (parse R s).2 = .rejected) :
    parse R (s ++ t) = parse R s := by
  induction s using parse.induct R with
  | case1 s hfront => simp [parse_of_incomplete hfront] at h
  | case2 s hfront =>
      rw [parse_of_invalid hfront, parse_of_invalid (R.invalid_append t hfront)]
  | case3 s x n hfront ih =>
      rw [parse_of_frame hfront] at h ⊢
      rw [parse_of_frame (R.frame_append t hfront),
        List.drop_append_of_le_length (R.size_le hfront), ih h]

theorem parse_append_of_waiting {rest : List α} (t : List α)
    (h : (parse R s).2 = .waiting rest) :
    parse R (s ++ t) =
      ((parse R s).1 ++ (parse R (rest ++ t)).1, (parse R (rest ++ t)).2) := by
  induction s using parse.induct R with
  | case1 s hfront =>
      rw [parse_of_incomplete hfront] at h ⊢
      have hrest : s = rest := Verdict.waiting.inj h
      rw [hrest]
      rfl
  | case2 s hfront => simp [parse_of_invalid hfront] at h
  | case3 s x n hfront ih =>
      rw [parse_of_frame hfront] at h ⊢
      rw [parse_of_frame (R.frame_append t hfront),
        List.drop_append_of_le_length (R.size_le hfront), ih h]
      rfl

/-- What is read of the front of a stream is read first of all of it, and nothing more once
the front has been rejected. -/
theorem parse_prefix {t : List α} (h : s <+: t) :
    (parse R s).1 <+: (parse R t).1 ∧ ((parse R s).2 = .rejected → parse R t = parse R s) := by
  obtain ⟨more, rfl⟩ := h
  cases hverdict : (parse R s).2 with
  | rejected =>
      have hsame := parse_append_of_rejected more hverdict
      rw [hsame]
      exact ⟨List.prefix_refl _, fun _ => rfl⟩
  | waiting rest =>
      rw [parse_append_of_waiting more hverdict]
      refine ⟨List.prefix_append _ _, ?_⟩
      intro hrejected
      cases hrejected

section Pieces

/-- The reader takes the piece as one frame with this payload, or rejects it, once it is
complete. -/
structure Reads (R : Reader α β) (piece : List α) (x : Option β) : Prop where
  frame : ∀ payload, x = some payload → ∀ t, R.front (piece ++ t) = .frame payload piece.length
  invalid : x = none → ∀ t, R.front (piece ++ t) = .invalid
  part : ∀ s, s <+: piece → s.length < piece.length → R.front s = .incomplete

/-- What is read before the first piece that is rejected. -/
def admitted : List (Option β) → List β
  | [] => []
  | none :: _ => []
  | some x :: xs => x :: admitted xs

/-- How many pieces are complete within so many elements. -/
def completePieces : List (List α) → Nat → Nat
  | [], _ => 0
  | piece :: pieces, k =>
      if piece.length ≤ k then completePieces pieces (k - piece.length) + 1 else 0

theorem completePieces_flatten (pieces : List (List α)) :
    completePieces pieces pieces.flatten.length = pieces.length := by
  induction pieces with
  | nil => rfl
  | cons piece pieces ih =>
      rw [List.flatten_cons, List.length_append, completePieces, if_pos (Nat.le_add_right _ _),
        Nat.add_sub_cancel_left, ih, List.length_cons]

theorem parse_pieces (hempty : R.front [] = .incomplete) {pieces : List (List α)}
    {xs : List (Option β)} (h : List.Forall₂ (Reads R) pieces xs) (hs : s <+: pieces.flatten) :
    (parse R s).1 = (admitted xs).take (completePieces pieces s.length) ∧
      ((parse R s).2 = .rejected ↔ (admitted xs).length < completePieces pieces s.length) := by
  induction h generalizing s with
  | nil =>
      obtain rfl : s = [] := by simpa using hs
      rw [parse_of_incomplete hempty]
      simp [completePieces, admitted]
  | @cons piece x pieces xs hpiece _ ih =>
      rw [List.flatten_cons] at hs
      rcases Nat.lt_or_ge s.length piece.length with hlt | hge
      · have hpart : s <+: piece :=
          List.prefix_of_prefix_length_le hs (List.prefix_append _ _) (Nat.le_of_lt hlt)
        rw [parse_of_incomplete (hpiece.part s hpart hlt), completePieces, if_neg (by omega)]
        simp
      · obtain ⟨s', rfl⟩ : piece <+: s :=
          List.prefix_of_prefix_length_le (List.prefix_append _ _) hs hge
        have hrest := ih ((List.prefix_append_right_inj _).mp hs)
        rw [completePieces, if_pos hge, List.length_append, Nat.add_sub_cancel_left]
        rcases x with _ | payload
        · rw [parse_of_invalid (hpiece.invalid rfl s')]
          simp [admitted]
        · rw [parse_of_frame (hpiece.frame payload rfl s'), List.drop_left, hrest.1]
          simp [admitted, hrest.2]

end Pieces

end IocpChat.FrameStream
