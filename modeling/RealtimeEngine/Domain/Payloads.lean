import RealtimeEngine.Domain.Play

/-! Which payloads are moves. `decodeMove` reads a payload into a struct of two
integers, so a coordinate that the payload leaves out is zero: besides the
payloads that give both coordinates it takes those that give one, or none, for
a move on the first row, on the first column or to the origin. -/
namespace RealtimeEngine.Domain.TicTacToe
open Foundations
set_option autoImplicit false
set_option maxHeartbeats 250000

/-! ## Payloads -/

/-- The decoder reads this move. -/
def Reads (payload : RawMessage) (mv : MovePayload) : Prop :=
  ∃ fields, Json.structFields payload = some fields ∧
    Json.intField "x" fields = some (mv.x.val : ℤ) ∧ Json.intField "y" fields = some (mv.y.val : ℤ)

/-- A key of the object stands for the field and has an integer. -/
def Gives (name : String) (fields : List (String × Json)) : Prop :=
  ∃ kv ∈ fields, Json.foldName kv.1 = Json.foldName name ∧ kv.2.integer.isSome = true

/-- The payload is an object that gives both coordinates. -/
def Specified (payload : RawMessage) : Prop :=
  ∃ fields, payload = some (.obj fields) ∧ Gives "x" fields ∧ Gives "y" fields

/-- Only a coordinate that is zero can have been left out. -/
theorem Reads.specified {payload : RawMessage} {mv : MovePayload} (h : Reads payload mv)
    (hx : mv.x ≠ 0) (hy : mv.y ≠ 0) : Specified payload := by
  obtain ⟨fields, hf, hfx, hfy⟩ := h
  have hnonzero : ∀ k : Fin 3, k ≠ 0 → (k.val : ℤ) ≠ 0 := by
    intro k hk h0
    exact hk (Fin.ext (Int.natCast_eq_zero.mp h0))
  have hgives : ∀ name (k : Fin 3), k ≠ 0 → Json.intField name fields = some (k.val : ℤ) →
      Gives name fields := by
    intro name k hk hfield
    obtain h0 | ⟨kv, hmem, hname, hv⟩ := Json.intField_cases name fields _ hfield
    · exact absurd h0 (hnonzero k hk)
    · exact ⟨kv, hmem, hname, by rw [hv]; rfl⟩
  refine ⟨fields, ?_, hgives "x" mv.x hx hfx, hgives "y" mv.y hy hfy⟩
  unfold Json.structFields at hf
  split at hf
  · cases hf
    rfl
  · cases hf
    -- `null` gives no coordinate, so both are zero
    have hzero := (Option.some.inj hfx).symm
    exact absurd hzero (hnonzero mv.x hx)
  · cases hf

theorem decodeMove_ok (action : Action) (ht : action.type = actionMove) (mv : MovePayload) :
    decodeMove action = .ok mv ↔ Reads action.payload mv := by
  unfold decodeMove Reads
  rw [if_neg (not_not.mpr ht)]
  cases hfields : Json.structFields action.payload with
  | none => exact iff_of_false (fun h => by cases h) fun ⟨_, h, _⟩ => by cases h
  | some fields =>
    dsimp only
    constructor
    · intro h
      split at h
      · next x y hx hy =>
        split at h
        · next hrange =>
          cases h
          refine ⟨fields, rfl, ?_, ?_⟩
          · rw [hx, Option.some.injEq]
            change x = (x.toNat : ℤ)
            omega
          · rw [hy, Option.some.injEq]
            change y = (y.toNat : ℤ)
            omega
        · cases h
      · cases h
    · rintro ⟨fields', hf, hx, hy⟩
      cases hf
      have hrange : (0 ≤ (mv.x.val : ℤ) ∧ (mv.x.val : ℤ) ≤ 2) ∧
          0 ≤ (mv.y.val : ℤ) ∧ (mv.y.val : ℤ) ≤ 2 := by omega
      simp only [hx, hy]
      rw [dif_pos hrange]
      rfl

/-! ## Accepted moves -/

theorem seatOf_turn (st : State) (hne : st.players 0 ≠ st.players 1) (p : PlayerID)
    (hp : p = st.players st.turn) : st.seatOf p = some st.turn := by
  unfold State.seatOf
  rw [find_seat, hp]
  obtain ht | ht := Fin.exists_fin_two.mp ⟨st.turn, rfl⟩
  · rw [ht, if_pos rfl]
  · rw [ht, if_neg hne, if_pos rfl]

/-- The player to move is accepted exactly with a payload that is read as a free cell. -/
theorem legalMove_iff (st : State) (hne : st.players 0 ≠ st.players 1) (hd : st.done = false)
    (action : Action) (ht : action.type = actionMove)
    (hp : action.playerID = st.players st.turn) (mv : MovePayload) :
    legalMove st action = .ok mv ↔ Reads action.payload mv ∧ st.board mv.idx = .empty := by
  unfold legalMove
  rw [if_neg (by simp [hd]), seatOf_turn st hne _ hp]
  dsimp only
  rw [if_neg (not_not.mpr rfl), ← decodeMove_ok action ht]
  cases hmv : decodeMove action with
  | error e => exact iff_of_false (fun h => by cases h) fun h => by cases h.1
  | ok mv' =>
    dsimp only
    constructor
    · intro h
      split at h
      · cases h
      · next hfree =>
        cases h
        exact ⟨rfl, not_not.mp hfree⟩
    · rintro ⟨h, hfree⟩
      cases h
      rw [if_neg (not_not.mpr hfree)]

def Accepts (st : State) (action : Action) : Prop :=
  ∃ result, applyAction (some (.ticTacToe st)) action = .ok result

theorem accepts_iff (st : State) (action : Action) :
    Accepts st action ↔ ∃ mv, legalMove st action = .ok mv := by
  unfold Accepts applyAction asState
  dsimp only
  cases legalMove st action with
  | error e => exact iff_of_false (fun ⟨_, h⟩ => by cases h) fun ⟨_, h⟩ => by cases h
  | ok mv => exact iff_of_true ⟨_, rfl⟩ ⟨mv, rfl⟩

theorem applyAction_legal (st : State) (action : Action) (mv : MovePayload)
    (h : legalMove st action = .ok mv) :
    applyAction (some (.ticTacToe st)) action = .ok (play st mv) := by
  unfold applyAction asState
  dsimp only
  rw [h]

/-- **Exactly the well-formed moves are played, unless a coordinate is left out.**
For the player to move in a game of two players, a move is accepted exactly when
it gives both coordinates and the cell is free, if and only if the payload is
not one that leaves a coordinate out and is read as a free cell. What is accepted
marks the cell that was read and no other, and what is rejected changes nothing.
A coordinate that was left out is zero. -/
theorem wellFormed_moves_iff (a b : PlayerID) (hab : a ≠ b) (config : RawMessage)
    (s₀ : Option GameState) (h₀ : init [a, b] config = .ok s₀) (cs : List Call) (st : State)
    (hst : final respond s₀ cs = some (.ticTacToe st)) (hd : st.done = false) (action : Action)
    (ht : action.type = actionMove) (hp : action.playerID = st.players st.turn) :
    ((Accepts st action ↔ ∃ mv, Reads action.payload mv ∧ Specified action.payload ∧
        st.board mv.idx = .empty) ↔
      ∀ mv, Reads action.payload mv → st.board mv.idx = .empty → Specified action.payload) ∧
    (∀ result, applyAction (some (.ticTacToe st)) action = .ok result →
      ∃ mv st', Reads action.payload mv ∧ st.board mv.idx = .empty ∧
        result.newState = some (.ticTacToe st') ∧
        st'.board = Function.update st.board mv.idx (markOf st.turn)) ∧
    (¬ Accepts st action →
      (respond (some (.ticTacToe st)) (.applyAction action)).1 = some (.ticTacToe st)) ∧
    ∀ mv, Reads action.payload mv → mv.x ≠ 0 → mv.y ≠ 0 → Specified action.payload := by
  obtain ⟨st₁, hst₁, hplayers⟩ := final_players a b config s₀ h₀ cs
  rw [hst] at hst₁
  cases hst₁
  have hne : st.players 0 ≠ st.players 1 := by
    rw [hplayers]
    exact hab
  have hlegal := legalMove_iff st hne hd action ht hp
  have haccepts : Accepts st action ↔
      ∃ mv, Reads action.payload mv ∧ st.board mv.idx = .empty := by
    rw [accepts_iff]
    exact exists_congr hlegal
  refine ⟨?_, ?_, ?_, fun mv => Reads.specified⟩
  · rw [haccepts]
    constructor
    · intro hiff mv hreads hfree
      obtain ⟨_, -, hspec, -⟩ := hiff.mp ⟨mv, hreads, hfree⟩
      exact hspec
    · intro hspec
      constructor
      · rintro ⟨mv, hreads, hfree⟩
        exact ⟨mv, hreads, hspec mv hreads hfree, hfree⟩
      · rintro ⟨mv, hreads, -, hfree⟩
        exact ⟨mv, hreads, hfree⟩
  · intro result hok
    obtain ⟨mv, hmv⟩ := (accepts_iff st action).mp ⟨result, hok⟩
    rw [applyAction_legal st action mv hmv] at hok
    cases hok
    obtain ⟨st', d, hplays, hnew, -⟩ := play_plays st mv
    obtain ⟨hreads, hfree⟩ := (hlegal mv).mp hmv
    exact ⟨mv, st', hreads, hfree, hnew, hplays.board⟩
  · intro hrejected
    unfold respond Call.run
    split
    · rfl
    · next result hok => exact absurd ⟨result, hok⟩ hrejected

/-- alice opens in the middle. -/
theorem opening_accepted : ∃ s₀ st, init ["alice", "bob"] none = .ok s₀ ∧
    s₀ = some (.ticTacToe st) ∧ Accepts st (moveTo "alice" 1 1) := by
  refine ⟨_, _, rfl, rfl, ?_⟩
  have hreads : Reads (moveTo "alice" 1 1).payload ⟨1, 1⟩ := ⟨_, rfl, rfl, rfl⟩
  obtain ⟨hiff, -, -, hspec⟩ := wellFormed_moves_iff "alice" "bob" (by decide) none _ rfl [] _ rfl rfl
    (moveTo "alice" 1 1) rfl rfl
  have hspecified := hspec ⟨1, 1⟩ hreads (by decide) (by decide)
  exact (hiff.mpr fun _ _ _ => hspecified).mpr ⟨⟨1, 1⟩, hreads, hspecified, rfl⟩

/-- An empty object, and `null`, are played as a move to the origin. -/
theorem empty_payload_plays_origin : ∃ s₀ st, init ["alice", "bob"] none = .ok s₀ ∧
    s₀ = some (.ticTacToe st) ∧ st.board 0 = .empty ∧
    ∀ payload, payload = some (.obj []) ∨ payload = some .null →
      ¬ Specified payload ∧ ∃ result st',
        applyAction s₀ { moveTo "alice" 0 0 with payload := payload } = .ok result ∧
        result.newState = some (.ticTacToe st') ∧ st'.board 0 = .x := by
  refine ⟨_, _, rfl, rfl, rfl, ?_⟩
  rintro payload (rfl | rfl)
  · refine ⟨?_, _, _, rfl, rfl, rfl⟩
    rintro ⟨fields, hf, ⟨kv, hmem, -⟩, -⟩
    cases hf
    cases hmem
  · refine ⟨?_, _, _, rfl, rfl, rfl⟩
    rintro ⟨fields, hf, -⟩
    cases hf

end RealtimeEngine.Domain.TicTacToe
