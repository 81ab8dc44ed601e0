import Mathlib.Data.Set.Card
import IocpChat.LabelledRun

/-!
What a chat service with rooms is for.  A client that has joined has a name and is in one
room at most; who is in a room is read off the clients and not kept a second time.  Every
answer to a request says who is to hear it.
-/

namespace IocpChat.ChatService

open IocpChat.LabelledRun

/-- What the service knows of a client. -/
structure Member (Room Name : Type*) where
  name : Name
  room : Option Room

/-- The clients that have joined. -/
abbrev Service (Client Room Name : Type*) := Client → Option (Member Room Name)

/-- What clients ask for, and what happens to them. -/
inductive Request (Client Room Name Text : Type*) where
  | join (x : Client) (name : Name)
  | leave (x : Client)
  | rename (x : Client) (change : Name → Name)
  | enter (x : Client) (r : Room)
  | exitRoom (x : Client)
  | say (x : Client) (text : Text)

/-- What a client is told. -/
inductive Notice (Room Name Text : Type*) where
  | entered (r : Room)
  | arrived (name : Name)
  | departed (name : Name)
  | said (name : Name) (text : Text)

section Service

variable {Client Room Name Text : Type*} [DecidableEq Client] (capacity : Nat)

/-- Who is in a room. -/
def members (s : Service Client Room Name) (r : Room) : Set Client :=
  {x | ∃ m, s x = some m ∧ m.room = some r}

/-- The service after a request; `none` asks for nothing. -/
noncomputable def next (s : Service Client Room Name) :
    Option (Request Client Room Name Text) → Service Client Room Name
  | none => s
  | some (.join x name) =>
      match s x with
      | none => Function.update s x (some ⟨name, none⟩)
      | some _ => s
  | some (.leave x) => Function.update s x none
  | some (.rename x change) =>
      match s x with
      | none => s
      | some m => Function.update s x (some { m with name := change m.name })
  | some (.enter x r) =>
      match s x with
      | some ⟨name, none⟩ =>
          if (members s r).ncard < capacity then Function.update s x (some ⟨name, some r⟩) else s
      | _ => s
  | some (.exitRoom x) =>
      match s x with
      | some ⟨name, some _⟩ => Function.update s x (some ⟨name, none⟩)
      | _ => s
  | some (.say _ _) => s

/-- What is said about a request, each time with those who hear it. -/
noncomputable def notices (s : Service Client Room Name) :
    Option (Request Client Room Name Text) → List (Notice Room Name Text × Set Client)
  | some (.enter x r) =>
      match s x with
      | some ⟨name, none⟩ =>
          if (members s r).ncard < capacity then
            [(.entered r, {x}), (.arrived name, members s r)]
          else []
      | _ => []
  | some (.exitRoom x) =>
      match s x with
      | some ⟨name, some r⟩ => [(.departed name, members s r \ {x})]
      | _ => []
  | some (.say x text) =>
      match s x with
      | some ⟨name, some r⟩ => [(.said name text, members s r)]
      | _ => []
  | _ => []

open Classical in
/-- What a client hears of it. -/
noncomputable def heard (x : Client) (outs : List (Notice Room Name Text × Set Client)) :
    List (Notice Room Name Text) :=
  outs.filterMap fun out => if x ∈ out.2 then some out.1 else none

/-- The request takes the client out of the room it is in. -/
def Parts (x : Client) (q : Option (Request Client Room Name Text)) : Prop :=
  q = some (.leave x) ∨ q = some (.exitRoom x)

variable {capacity} {s : Service Client Room Name} {x y : Client} {r : Room}
  {q : Option (Request Client Room Name Text)}

omit [DecidableEq Client] in
theorem mem_members_iff : x ∈ members s r ↔ ∃ name, s x = some ⟨name, some r⟩ := by
  constructor
  · rintro ⟨⟨name, room⟩, hx, rfl⟩
    exact ⟨name, hx⟩
  · rintro ⟨name, hx⟩
    exact ⟨_, hx, rfl⟩

omit [DecidableEq Client] in
theorem room_unique {r' : Room} (h : x ∈ members s r) (h' : x ∈ members s r') : r = r' := by
  obtain ⟨name, hx⟩ := mem_members_iff.mp h
  obtain ⟨name', hx'⟩ := mem_members_iff.mp h'
  rw [hx] at hx'
  cases hx'
  rfl

theorem mem_update_of_ne (hne : x ≠ y) (m : Option (Member Room Name)) :
    x ∈ members (Function.update s y m) r ↔ x ∈ members s r := by
  simp only [members, Set.mem_ofPred_eq, Function.update_of_ne hne]

theorem mem_members_next (hx : x ∈ members s r) (hstays : ¬ Parts x q) :
    x ∈ members (next capacity s q) r := by
  obtain ⟨name, hsx⟩ := mem_members_iff.mp hx
  have hkeep {y : Client} (m : Option (Member Room Name)) (hne : x ≠ y) :
      x ∈ members (Function.update s y m) r := (mem_update_of_ne hne m).mpr hx
  rcases q with _ | q
  · exact hx
  · cases q with
    | join y name' =>
        simp only [next]
        split
        · rename_i hnone
          exact hkeep _ (by rintro rfl; simp [hsx] at hnone)
        · exact hx
    | leave y =>
        have hne : x ≠ y := by
          rintro rfl
          exact hstays (.inl rfl)
        exact hkeep _ hne
    | rename y change =>
        simp only [next]
        split
        · exact hx
        · rename_i m hm
          rcases eq_or_ne x y with rfl | hne
          · rw [hsx] at hm
            obtain rfl := Option.some.inj hm
            exact mem_members_iff.mpr ⟨change name, by simp⟩
          · exact hkeep _ hne
    | enter y r' =>
        simp only [next]
        split
        · rename_i name' hy
          split
          · exact hkeep _ (by rintro rfl; simp [hsx] at hy)
          · exact hx
        · exact hx
    | exitRoom y =>
        simp only [next]
        have hne : x ≠ y := by
          rintro rfl
          exact hstays (.inr rfl)
        split
        · exact hkeep _ hne
        · exact hx
    | say y text => exact hx

theorem mem_members_of_stay {qs : List (Option (Request Client Room Name Text))}
    (hx : x ∈ members s r) (hstays : ∀ q, q ∈ qs → ¬ Parts x q) :
    x ∈ members (qs.foldl (next capacity) s) r := by
  induction qs generalizing s with
  | nil => exact hx
  | cons q qs ih =>
      exact ih (mem_members_next hx (hstays q List.mem_cons_self))
        fun q' hq' => hstays q' (List.mem_cons_of_mem _ hq')

omit [DecidableEq Client] in
theorem told_alike (hx : x ∈ members s r) (hy : y ∈ members s r) (hxstays : ¬ Parts x q)
    (hystays : ¬ Parts y q) {out : Notice Room Name Text × Set Client}
    (hout : out ∈ notices capacity s q) : x ∈ out.2 ↔ y ∈ out.2 := by
  have hroom (r' : Room) : x ∈ members s r' ↔ y ∈ members s r' := by
    constructor
    · intro h
      exact room_unique hx h ▸ hy
    · intro h
      exact room_unique hy h ▸ hx
  have hin {z : Client} (hz : z ∈ members s r) {name : Name} : s z ≠ some ⟨name, none⟩ := by
    obtain ⟨name', hsz⟩ := mem_members_iff.mp hz
    simp [hsz]
  rcases q with _ | q
  · simp [notices] at hout
  · cases q with
    | enter z r' =>
        simp only [notices] at hout
        split at hout
        · rename_i name hz
          have hxz : x ≠ z := by
            rintro rfl
            exact hin hx hz
          have hyz : y ≠ z := by
            rintro rfl
            exact hin hy hz
          split at hout
          · rcases List.mem_cons.mp hout with rfl | hout
            · simp [hxz, hyz]
            · rw [List.mem_singleton.mp hout]
              exact hroom r'
          · cases hout
        · cases hout
    | exitRoom z =>
        have hxz : x ≠ z := by
          rintro rfl
          exact hxstays (.inr rfl)
        have hyz : y ≠ z := by
          rintro rfl
          exact hystays (.inr rfl)
        simp only [notices] at hout
        split at hout
        · rw [List.mem_singleton.mp hout]
          simp [hxz, hyz, hroom]
        · cases hout
    | say z text =>
        simp only [notices] at hout
        split at hout
        · rename_i name r' hz
          rw [List.mem_singleton.mp hout]
          exact hroom r'
        · cases hout
    | _ => simp [notices] at hout

omit [DecidableEq Client] in
theorem heard_append (outs outs' : List (Notice Room Name Text × Set Client)) :
    heard x (outs ++ outs') = heard x outs ++ heard x outs' := List.filterMap_append

open Classical in
omit [DecidableEq Client] in
theorem heard_congr {outs : List (Notice Room Name Text × Set Client)}
    (h : ∀ out, out ∈ outs → (x ∈ out.2 ↔ y ∈ out.2)) : heard x outs = heard y outs := by
  apply List.filterMap_congr
  intro out hout
  exact if_congr (h out hout) rfl rfl

/-- As long as both stay in their room, two members hear the same in the same order. -/
theorem heard_eq_of_stay (hx : x ∈ members s r) (hy : y ∈ members s r)
    {qs : List (Option (Request Client Room Name Text))}
    (hstay : ∀ q, q ∈ qs → ¬ Parts x q ∧ ¬ Parts y q) :
    heard x (outputs (next capacity) (notices capacity) s qs) =
      heard y (outputs (next capacity) (notices capacity) s qs) := by
  induction qs generalizing s with
  | nil => rfl
  | cons q qs ih =>
      obtain ⟨hxstays, hystays⟩ := hstay q List.mem_cons_self
      have hxnext : x ∈ members (next capacity s q) r := mem_members_next hx hxstays
      have hynext : y ∈ members (next capacity s q) r := mem_members_next hy hystays
      have hrest := ih hxnext hynext fun q' hq' => hstay q' (List.mem_cons_of_mem _ hq')
      have hhere : heard x (notices capacity s q) = heard y (notices capacity s q) :=
        heard_congr fun out hout => told_alike hx hy hxstays hystays hout
      rw [outputs, heard_append, heard_append, hhere, hrest]

end Service

end IocpChat.ChatService
