import Mathlib.Data.Finset.Card
import Mathlib.Data.Fintype.Card
import RealtimeEngine.Domain.Duel
import RealtimeEngine.Foundations.Runs

/-! Whole games of tic-tac-toe: any sequence of `ApplyAction` and
`OnPlayerAbandoned`, accepted or rejected. A game is a sequence of marks put
alternately on empty cells until a line is complete or the board is full, or
until a player gives up. -/
namespace RealtimeEngine.Domain.TicTacToe
open Foundations
set_option autoImplicit false
set_option maxHeartbeats 250000

/-! ## Calls -/

inductive Call
  | applyAction (action : Action)
  | onPlayerAbandoned (playerID : PlayerID)

def Call.run (s : Option GameState) : Call → Except Err (Result GameState)
  | applyAction action => TicTacToe.applyAction s action
  | onPlayerAbandoned playerID => TicTacToe.onPlayerAbandoned s playerID

/-- A caller keeps its state when a call fails, and takes the new one when it succeeds. -/
def respond (s : Option GameState) (c : Call) : Option GameState × List (Result GameState) :=
  match c.run s with
  | .error _ => (s, [])
  | .ok result => (result.newState, [result])

/-- A player's move to a cell. -/
def moveTo (player : PlayerID) (x y : ℤ) : Action where
  type := actionMove
  playerID := player
  seq := 1
  timestamp := 0
  payload := some (.obj [("x", .int x), ("y", .int y)])

/-! ## The lines of the board -/

def cell (x y : Fin 3) : Fin 9 := ⟨y.val * 3 + x.val, by omega⟩

def rows : List (Fin 9 × Fin 9 × Fin 9) :=
  (List.finRange 3).map fun y => (cell 0 y, cell 1 y, cell 2 y)

def columns : List (Fin 9 × Fin 9 × Fin 9) :=
  (List.finRange 3).map fun x => (cell x 0, cell x 1, cell x 2)

def diagonals : List (Fin 9 × Fin 9 × Fin 9) :=
  [(cell 0 0, cell 1 1, cell 2 2), (cell 2 0, cell 1 1, cell 0 2)]

/-- The table of the source lists all the lines there are. -/
theorem winLines_eq : winLines = rows ++ columns ++ diagonals := by decide

/-- The mark fills a line. -/
def Complete (board : Fin 9 → Seat) (mark : Seat) : Prop :=
  ∃ line ∈ rows ++ columns ++ diagonals,
    board line.1 = mark ∧ board line.2.1 = mark ∧ board line.2.2 = mark

instance (board : Fin 9 → Seat) (mark : Seat) : Decidable (Complete board mark) :=
  inferInstanceAs (Decidable (∃ line ∈ rows ++ columns ++ diagonals, _))

/-- A player's mark fills a line. -/
def HasLine (board : Fin 9 → Seat) : Prop := Complete board .x ∨ Complete board .o

instance (board : Fin 9 → Seat) : Decidable (HasLine board) :=
  inferInstanceAs (Decidable (_ ∨ _))

def markOf (seat : Fin 2) : Seat := if seat = 1 then .o else .x

theorem markOf_ne_empty (seat : Fin 2) : markOf seat ≠ .empty := by
  unfold markOf
  split <;> exact Seat.noConfusion

theorem index_markOf (seat : Fin 2) : (markOf seat).index = some seat := by
  revert seat
  decide

theorem markOf_of_index (mark : Seat) (seat : Fin 2) (h : mark.index = some seat) :
    mark = markOf seat := by
  cases mark with
  | empty => cases h
  | x =>
    cases h
    rfl
  | o =>
    cases h
    rfl

theorem winningSeat_complete (board : Fin 9 → Seat) (seat : Fin 2)
    (h : winningSeat board = some seat) : Complete board (markOf seat) := by
  unfold winningSeat at h
  obtain ⟨line, hline, hsome⟩ := List.exists_of_findSome?_eq_some h
  split at hsome
  · next hfull =>
    have hmark := markOf_of_index _ _ hsome
    rw [winLines_eq] at hline
    refine ⟨line, hline, hmark, ?_, ?_⟩
    · rw [← hfull.2.1, hmark]
    · rw [← hfull.2.2, ← hfull.2.1, hmark]
  · cases hsome

theorem not_complete_of_winningSeat (board : Fin 9 → Seat) (h : winningSeat board = none)
    (seat : Fin 2) : ¬ Complete board (markOf seat) := by
  rintro ⟨line, hline, h1, h2, h3⟩
  unfold winningSeat at h
  rw [← winLines_eq] at hline
  have hnone := List.findSome?_eq_none_iff.mp h line hline
  rw [if_pos ⟨by rw [h1]; exact markOf_ne_empty seat, by rw [h1, h2], by rw [h2, h3]⟩, h1,
    index_markOf] at hnone
  cases hnone

theorem hasLine_iff (board : Fin 9 → Seat) :
    HasLine board ↔ ∃ seat, Complete board (markOf seat) := by
  constructor
  · rintro (h | h)
    · exact ⟨0, h⟩
    · exact ⟨1, h⟩
  · rintro ⟨seat, h⟩
    unfold markOf at h
    split at h
    · exact Or.inr h
    · exact Or.inl h

theorem not_hasLine_of_winningSeat (board : Fin 9 → Seat) (h : winningSeat board = none) :
    ¬ HasLine board := by
  intro hline
  obtain ⟨seat, hseat⟩ := (hasLine_iff board).mp hline
  exact not_complete_of_winningSeat board h seat hseat

/-- A mark put on the board completes no line of another mark. -/
theorem Complete.of_update {board : Fin 9 → Seat} {i : Fin 9} {mark other : Seat}
    (h : Complete (Function.update board i mark) other) (hne : mark ≠ other) :
    Complete board other := by
  obtain ⟨line, hline, h1, h2, h3⟩ := h
  have hkeep : ∀ j, Function.update board i mark j = other → board j = other := by
    intro j hj
    by_cases hji : j = i
    · subst hji
      rw [Function.update_self] at hj
      exact absurd hj hne
    · rwa [Function.update_of_ne hji] at hj
  exact ⟨line, hline, hkeep _ h1, hkeep _ h2, hkeep _ h3⟩

/-! ## Counting marks -/

def count (board : Fin 9 → Seat) (mark : Seat) : ℕ :=
  (Finset.univ.filter fun i => board i = mark).card

def occupied (board : Fin 9 → Seat) : ℕ :=
  (Finset.univ.filter fun i => board i ≠ .empty).card

theorem occupied_le (board : Fin 9 → Seat) : occupied board ≤ 9 := by
  have h := Finset.card_le_univ (Finset.univ.filter fun i => board i ≠ Seat.empty)
  simpa [occupied] using h

theorem occupied_eq_nine_iff (board : Fin 9 → Seat) :
    occupied board = 9 ↔ ∀ i, board i ≠ .empty := by
  constructor
  · intro h i
    have huniv := Finset.eq_univ_of_card (Finset.univ.filter fun i => board i ≠ Seat.empty)
      (by rw [Fintype.card_fin]; exact h)
    have hi : i ∈ Finset.univ.filter fun i => board i ≠ Seat.empty := by
      rw [huniv]
      exact Finset.mem_univ i
    exact (Finset.mem_filter.mp hi).2
  · intro h
    unfold occupied
    rw [Finset.filter_true_of_mem fun i _ => h i]
    simp

/-- A test that an empty cell fails counts one more cell when a mark that passes it is put there. -/
theorem card_update (test : Seat → Prop) [DecidablePred test] (board : Fin 9 → Seat) (i : Fin 9)
    (mark : Seat) (hi : board i = .empty) (he : ¬ test .empty) :
    (Finset.univ.filter fun j => test (Function.update board i mark j)).card =
      (Finset.univ.filter fun j => test (board j)).card + if test mark then 1 else 0 := by
  have hnot : i ∉ Finset.univ.filter fun j => test (board j) := by
    simp [hi, he]
  by_cases hm : test mark
  · have hset : (Finset.univ.filter fun j => test (Function.update board i mark j)) =
        insert i (Finset.univ.filter fun j => test (board j)) := by
      ext j
      by_cases hj : j = i
      · subst hj
        simp [hm]
      · simp [hj]
    rw [hset, Finset.card_insert_of_notMem hnot, if_pos hm]
  · have hset : (Finset.univ.filter fun j => test (Function.update board i mark j)) =
        Finset.univ.filter fun j => test (board j) := by
      ext j
      by_cases hj : j = i
      · subst hj
        simp [hm, hi, he]
      · simp [hj]
    rw [hset, if_neg hm, Nat.add_zero]

theorem count_update (board : Fin 9 → Seat) (i : Fin 9) (mark other : Seat)
    (hi : board i = .empty) (ho : other ≠ .empty) :
    count (Function.update board i mark) other =
      count board other + if mark = other then 1 else 0 :=
  card_update (fun m => m = other) board i mark hi (Ne.symm ho)

theorem occupied_update (board : Fin 9 → Seat) (i : Fin 9) (mark : Seat) (hi : board i = .empty)
    (hm : mark ≠ .empty) : occupied (Function.update board i mark) = occupied board + 1 := by
  have h := card_update (fun m => m ≠ .empty) board i mark hi (fun h => h rfl)
  rw [if_pos hm] at h
  exact h

/-! ## One call -/

/-- The board and the count after a move, before it is judged. -/
def State.marked (st : State) (mv : MovePayload) : State :=
  { st with board := Function.update st.board mv.idx (markOf st.turn),
            moveCount := st.moveCount + 1 }

def State.cellDiff (st : State) (mv : MovePayload) : CellDiff where
  x := mv.x.val
  y := mv.y.val
  mark := (markOf st.turn).mark

/-- The three ways a move can end, with the diff it is reported by. -/
inductive Plays (st : State) (mv : MovePayload) : State → DiffPayload → Prop
  | won (w : Fin 2) (hw : winningSeat (st.marked mv).board = some w) :
      Plays st mv { st.marked mv with done := true, winner := some (st.players w) }
        { cell := st.cellDiff mv, terminal := true, winner := st.players w }
  | drawn (hw : winningSeat (st.marked mv).board = none) (hf : st.moveCount + 1 = 9) :
      Plays st mv { st.marked mv with done := true, draw := true }
        { cell := st.cellDiff mv, terminal := true, draw := true }
  | passed (hw : winningSeat (st.marked mv).board = none) (hf : st.moveCount + 1 ≠ 9) :
      Plays st mv { st.marked mv with turn := 1 - st.turn }
        { cell := st.cellDiff mv, turn := st.players (1 - st.turn) }

theorem play_plays (st : State) (mv : MovePayload) :
    ∃ st' d, Plays st mv st' d ∧ (play st mv).newState = some (.ticTacToe st') ∧
      (play st mv).diff = some d.encode := by
  cases hw : winningSeat (st.marked mv).board with
  | some w =>
    have hw' := hw
    unfold State.marked markOf at hw'
    refine ⟨_, _, .won w hw, ?_, ?_⟩
    · simp only [play, hw']
      rfl
    · simp only [play, hw']
      rfl
  | none =>
    have hw' := hw
    unfold State.marked markOf at hw'
    by_cases hf : st.moveCount + 1 = 9
    · refine ⟨_, _, .drawn hw hf, ?_, ?_⟩
      · simp only [play, hw', if_pos hf]
        rfl
      · simp only [play, hw', if_pos hf]
        rfl
    · refine ⟨_, _, .passed hw hf, ?_, ?_⟩
      · simp only [play, hw', if_neg hf]
        rfl
      · simp only [play, hw', if_neg hf]
        rfl

theorem Plays.players {st st' : State} {mv : MovePayload} {d : DiffPayload}
    (hp : Plays st mv st' d) : st'.players = st.players := by
  cases hp <;> rfl

theorem Plays.board {st st' : State} {mv : MovePayload} {d : DiffPayload} (hp : Plays st mv st' d) :
    st'.board = Function.update st.board mv.idx (markOf st.turn) := by
  cases hp <;> rfl

/-- What a legal move has passed. -/
structure Legal (st : State) (action : Action) (mv : MovePayload) : Prop where
  ongoing : st.done = false
  mover : st.players st.turn = action.playerID
  free : st.board mv.idx = .empty

theorem legalMove_ok (st : State) (action : Action) (mv : MovePayload)
    (h : legalMove st action = .ok mv) : Legal st action mv := by
  unfold legalMove at h
  split at h
  · cases h
  · next hd =>
    split at h
    · cases h
    · next seatIdx hs =>
      split at h
      · cases h
      · next ht =>
        split at h
        · cases h
        · split at h
          · cases h
          · next hfree =>
            cases h
            have hplayer := List.find?_some hs
            rw [not_not.mp ht] at hplayer
            exact ⟨by simpa using hd, by simpa using hplayer, not_not.mp hfree⟩

theorem applyAction_ok (st : State) (action : Action) (result : Result GameState)
    (h : applyAction (some (.ticTacToe st)) action = .ok result) :
    ∃ mv st' d, Legal st action mv ∧ Plays st mv st' d ∧
      result.newState = some (.ticTacToe st') ∧ result.diff = some d.encode := by
  unfold applyAction asState at h
  dsimp only at h
  split at h
  · cases h
  · next mv hmv =>
    cases h
    obtain ⟨st', d, hp, hnew, hdiff⟩ := play_plays st mv
    exact ⟨mv, st', d, legalMove_ok st action mv hmv, hp, hnew, hdiff⟩

theorem onPlayerAbandoned_ok (st : State) (p : PlayerID) (result : Result GameState)
    (h : onPlayerAbandoned (some (.ticTacToe st)) p = .ok result) :
    st.done = true ∧ result = { newState := some (.ticTacToe st) } ∨
      ∃ seat, st.done = false ∧ result = abandon st seat := by
  unfold onPlayerAbandoned asState at h
  dsimp only at h
  split at h
  · next hd =>
    cases h
    exact Or.inl ⟨hd, rfl⟩
  · next hd =>
    split at h
    · cases h
    · next seat _ =>
      cases h
      exact Or.inr ⟨seat, by simpa using hd, rfl⟩

/-- Every way a call can end on a state of the game. -/
inductive Called (st : State) : Call → State → Prop
  | rejected (c : Call) (e : Err) (h : c.run (some (.ticTacToe st)) = .error e) : Called st c st
  | moved (action : Action) (mv : MovePayload) (st' : State) (d : DiffPayload)
      (hl : Legal st action mv) (hp : Plays st mv st' d) : Called st (.applyAction action) st'
  | settled (p : PlayerID) (hd : st.done = true) : Called st (.onPlayerAbandoned p) st
  | forfeited (p : PlayerID) (seat : Fin 2) (hd : st.done = false) :
      Called st (.onPlayerAbandoned p)
        { st with done := true, winner := some (st.players (1 - seat)) }

theorem respond_called (st : State) (c : Call) :
    ∃ st', (respond (some (.ticTacToe st)) c).1 = some (.ticTacToe st') ∧ Called st c st' := by
  unfold respond
  cases hc : c.run (some (.ticTacToe st)) with
  | error e => exact ⟨st, rfl, .rejected c e hc⟩
  | ok result =>
    dsimp only
    cases c with
    | applyAction action =>
      obtain ⟨mv, st', d, hl, hp, hnew, -⟩ := applyAction_ok st action result hc
      exact ⟨st', hnew, .moved action mv st' d hl hp⟩
    | onPlayerAbandoned p =>
      obtain ⟨hd, rfl⟩ | ⟨seat, hd, rfl⟩ := onPlayerAbandoned_ok st p result hc
      · exact ⟨st, rfl, .settled p hd⟩
      · exact ⟨_, rfl, .forfeited p seat hd⟩

/-! ## The rules -/

structure Lawful (st : State) : Prop where
  moveCount : st.moveCount = occupied st.board
  turn : st.done = false → count st.board .x = count st.board .o + st.turn.val
  unfinished : st.done = false → ¬ HasLine st.board
  single : ¬ (Complete st.board .x ∧ Complete st.board .o)
  undecided : st.done = false → st.draw = false ∧ st.winner = none

theorem Lawful.occupied_marked {st : State} (h : Lawful st) {action : Action} {mv : MovePayload}
    (hl : Legal st action mv) : (st.marked mv).moveCount = occupied (st.marked mv).board := by
  unfold State.marked
  rw [occupied_update _ _ _ hl.free (markOf_ne_empty st.turn), ← h.moveCount]

/-- Only the mover can have a line after a move. -/
theorem Lawful.complete_marked {st : State} (h : Lawful st) {action : Action} {mv : MovePayload}
    (hl : Legal st action mv) (seat : Fin 2)
    (hc : Complete (st.marked mv).board (markOf seat)) : seat = st.turn := by
  by_contra hne
  have hmark : markOf st.turn ≠ markOf seat := by
    intro heq
    have hi := index_markOf st.turn
    rw [heq, index_markOf, Option.some.injEq] at hi
    exact hne hi
  exact h.unfinished hl.ongoing ((hasLine_iff _).mpr ⟨seat, hc.of_update hmark⟩)

theorem Lawful.single_marked {st : State} (h : Lawful st) {action : Action} {mv : MovePayload}
    (hl : Legal st action mv) :
    ¬ (Complete (st.marked mv).board .x ∧ Complete (st.marked mv).board .o) := by
  rintro ⟨hx, ho⟩
  have h0 := h.complete_marked hl 0 hx
  have h1 := h.complete_marked hl 1 ho
  rw [← h0] at h1
  cases h1

/-- The turn passes to the player with fewer marks. -/
theorem Lawful.turn_marked {st : State} (h : Lawful st) {action : Action} {mv : MovePayload}
    (hl : Legal st action mv) :
    count (st.marked mv).board .x = count (st.marked mv).board .o + (1 - st.turn).val := by
  have hold := h.turn hl.ongoing
  unfold State.marked
  dsimp only
  rw [count_update _ _ _ _ hl.free Seat.noConfusion, count_update _ _ _ _ hl.free Seat.noConfusion]
  unfold markOf
  obtain ht | ht := Fin.exists_fin_two.mp ⟨st.turn, rfl⟩
  · rw [ht] at hold ⊢
    simp at hold ⊢
    omega
  · rw [ht] at hold ⊢
    simp at hold ⊢
    omega

theorem Lawful.called {st st' : State} {c : Call} (h : Lawful st) (hc : Called st c st') :
    Lawful st' := by
  cases hc with
  | rejected | settled => exact h
  | forfeited p seat hd =>
    exact ⟨h.moveCount, fun hf => Bool.noConfusion hf, fun hf => Bool.noConfusion hf, h.single,
      fun hf => Bool.noConfusion hf⟩
  | moved action mv st' d hl hp =>
    have hcount := h.occupied_marked hl
    have hsingle := h.single_marked hl
    cases hp with
    | won w hw =>
      exact ⟨hcount, fun hf => Bool.noConfusion hf, fun hf => Bool.noConfusion hf, hsingle,
        fun hf => Bool.noConfusion hf⟩
    | drawn hw hf =>
      exact ⟨hcount, fun hf => Bool.noConfusion hf, fun hf => Bool.noConfusion hf, hsingle,
        fun hf => Bool.noConfusion hf⟩
    | passed hw hf =>
      exact ⟨hcount, fun _ => h.turn_marked hl, fun _ => not_hasLine_of_winningSeat _ hw, hsingle,
        fun _ => h.undecided hl.ongoing⟩

theorem init_lawful (a b : PlayerID) :
    Lawful { board := fun _ => .empty, players := ![a, b], turn := 0, moveCount := 0,
             done := false, draw := false, winner := none } where
  moveCount := by
    change 0 = occupied fun _ => Seat.empty
    decide
  turn := fun _ => by
    change count (fun _ => Seat.empty) .x = count (fun _ => Seat.empty) .o + 0
    decide
  unfinished := fun _ => by
    change ¬ HasLine fun _ => Seat.empty
    decide
  single := by
    change ¬ (Complete (fun _ => Seat.empty) .x ∧ Complete (fun _ => Seat.empty) .o)
    decide
  undecided := fun _ => ⟨rfl, rfl⟩

/-- What `Init` establishes and every call keeps holds in every state of a game. -/
theorem final_called (P : State → Prop) (a b : PlayerID) (config : RawMessage)
    (s₀ : Option GameState) (h₀ : init [a, b] config = .ok s₀)
    (hstart : ∀ st, s₀ = some (.ticTacToe st) → P st)
    (hstep : ∀ st c st', P st → Called st c st' → P st') (cs : List Call) :
    ∃ st, final respond s₀ cs = some (.ticTacToe st) ∧ P st := by
  refine final_invariant respond (fun s => ∃ st, s = some (.ticTacToe st) ∧ P st) ?_ s₀ ?_ cs
  · rintro _ c ⟨st, rfl, hst⟩
    obtain ⟨st', hst', hc⟩ := respond_called st c
    exact ⟨st', hst', hstep st c st' hst hc⟩
  · cases h₀
    exact ⟨_, rfl, hstart _ rfl⟩

/-- Every call of a game is made on a lawful state of the game. -/
theorem final_lawful (a b : PlayerID) (config : RawMessage) (s₀ : Option GameState)
    (h₀ : init [a, b] config = .ok s₀) (cs : List Call) :
    ∃ st, final respond s₀ cs = some (.ticTacToe st) ∧ Lawful st := by
  refine final_called Lawful a b config s₀ h₀ ?_ (fun _ _ _ hst hc => hst.called hc) cs
  cases h₀
  rintro _ ⟨⟩
  exact init_lawful a b

theorem Called.players {st st' : State} {c : Call} (h : Called st c st') :
    st'.players = st.players := by
  cases h with
  | rejected | settled | forfeited => rfl
  | moved action mv st' d hl hp => exact hp.players

/-- The seats of a game never change hands. -/
theorem final_players (a b : PlayerID) (config : RawMessage) (s₀ : Option GameState)
    (h₀ : init [a, b] config = .ok s₀) (cs : List Call) :
    ∃ st, final respond s₀ cs = some (.ticTacToe st) ∧ st.players = ![a, b] := by
  refine final_called (fun st => st.players = ![a, b]) a b config s₀ h₀ ?_
    (fun _ _ _ hst hc => hc.players.trans hst) cs
  cases h₀
  rintro _ ⟨⟩
  rfl

/-- How a move ends, in the words of the rules. -/
structure Outcome (st st' : State) (mover : PlayerID) : Prop where
  done_iff : st'.done = true ↔ HasLine st'.board ∨ ∀ i, st'.board i ≠ .empty
  line_iff : HasLine st'.board ↔ Complete st'.board (markOf st.turn)
  won : HasLine st'.board → st'.winner = some mover ∧ st'.draw = false
  drawn : ¬ HasLine st'.board → (∀ i, st'.board i ≠ .empty) → st'.draw = true ∧ st'.winner = none

theorem Lawful.outcome {st st' : State} {action : Action} {mv : MovePayload} {d : DiffPayload}
    (h : Lawful st) (hl : Legal st action mv) (hp : Plays st mv st' d) :
    Outcome st st' action.playerID := by
  have hcount := h.occupied_marked hl
  obtain ⟨hdraw, hwinner⟩ := h.undecided hl.ongoing
  have hfull := occupied_eq_nine_iff (st.marked mv).board
  have hboard : st'.board = (st.marked mv).board := by cases hp <;> rfl
  have hline : HasLine (st.marked mv).board ↔ Complete (st.marked mv).board (markOf st.turn) := by
    rw [hasLine_iff]
    constructor
    · rintro ⟨seat, hseat⟩
      rwa [h.complete_marked hl seat hseat] at hseat
    · exact fun hc => ⟨_, hc⟩
  rw [← hcount] at hfull
  cases hp with
  | won w hw =>
    have hc := winningSeat_complete _ _ hw
    have hw' := h.complete_marked hl w hc
    have hhas : HasLine (st.marked mv).board := (hasLine_iff _).mpr ⟨w, hc⟩
    refine ⟨⟨fun _ => Or.inl hhas, fun _ => rfl⟩, hline, ?_, fun hno => absurd hhas hno⟩
    intro _
    refine ⟨?_, hdraw⟩
    change some (st.players w) = some action.playerID
    rw [hw', hl.mover]
  | drawn hw hf =>
    have hno : ¬ HasLine (st.marked mv).board := not_hasLine_of_winningSeat _ hw
    exact ⟨⟨fun _ => Or.inr (hfull.mp hf), fun _ => rfl⟩, hline, fun hhas => absurd hhas hno,
      fun _ _ => ⟨rfl, hwinner⟩⟩
  | passed hw hf =>
    have hno : ¬ HasLine (st.marked mv).board := not_hasLine_of_winningSeat _ hw
    refine ⟨⟨?_, ?_⟩, hline, fun hhas => absurd hhas hno, fun _ hall => absurd (hfull.mpr hall) hf⟩
    · intro hd
      have hd' : st.done = true := hd
      rw [hl.ongoing] at hd'
      cases hd'
    · rintro (hhas | hall)
      · exact absurd hhas hno
      · exact absurd (hfull.mpr hall) hf

/-- **The rules of tic-tac-toe.** In every game of two players, whatever calls are
made: the moves are the occupied cells; as long as the game goes on there is
no line and the marks alternate; a move ends the game exactly when it completes a
line, which is then the mover's, or fills the board; two lines of different marks
never stand on the board; and a game that is over never changes. -/
theorem rules_invariant (a b : PlayerID) (config : RawMessage) :
    ∃ s₀, init [a, b] config = .ok s₀ ∧ ∀ cs, ∃ st, final respond s₀ cs = some (.ticTacToe st) ∧
      st.moveCount = occupied st.board ∧ st.moveCount ≤ 9 ∧
      (st.done = false → ¬ HasLine st.board ∧
        (count st.board .x : ℤ) - count st.board .o = st.turn.val ∧
        (st.turn.val = 0 ∨ st.turn.val = 1)) ∧
      ¬ (Complete st.board .x ∧ Complete st.board .o) ∧
      ∀ c, ∃ st', (respond (some (.ticTacToe st)) c).1 = some (.ticTacToe st') ∧
        (st.done = true → st' = st) ∧
        ∀ action result, c = .applyAction action →
          applyAction (some (.ticTacToe st)) action = .ok result →
          (st'.done = true ↔ HasLine st'.board ∨ ∀ i, st'.board i ≠ .empty) ∧
          (HasLine st'.board ↔ Complete st'.board (markOf st.turn)) ∧
          (HasLine st'.board → st'.winner = some action.playerID ∧ st'.draw = false) ∧
          (¬ HasLine st'.board → (∀ i, st'.board i ≠ .empty) →
            st'.draw = true ∧ st'.winner = none) := by
  refine ⟨_, rfl, fun cs => ?_⟩
  obtain ⟨st, hst, h⟩ := final_lawful a b config _ rfl cs
  refine ⟨st, hst, h.moveCount, ?_, ?_, h.single, ?_⟩
  · rw [h.moveCount]
    exact occupied_le st.board
  · intro hd
    have hturn := h.turn hd
    refine ⟨h.unfinished hd, ?_, ?_⟩
    · omega
    · omega
  · intro c
    obtain ⟨st', hst', hc⟩ := respond_called st c
    refine ⟨st', hst', ?_, ?_⟩
    · intro hd
      cases hc with
      | rejected | settled => rfl
      | moved action mv st' d hl hp =>
        rw [hl.ongoing] at hd
        cases hd
      | forfeited p seat hf =>
        rw [hf] at hd
        cases hd
    · rintro action result rfl hok
      cases hc with
      | rejected c e he =>
        have he' : applyAction (some (.ticTacToe st)) action = .error e := he
        rw [hok] at he'
        cases he'
      | moved action mv st' d hl hp =>
        have ho := h.outcome hl hp
        exact ⟨ho.done_iff, ho.line_iff, ho.won, ho.drawn⟩

/-- The cells of a game of alice and bob, in the order they take them. -/
def takeTurns : Bool → List (ℤ × ℤ) → List Call
  | _, [] => []
  | first, (x, y) :: cells =>
    .applyAction (moveTo (if first then "alice" else "bob") x y) :: takeTurns (!first) cells

-- a column on the fifth move
example : ∃ s₀ st, init ["alice", "bob"] none = .ok s₀ ∧ final respond s₀
    (takeTurns true [(0, 0), (1, 0), (0, 1), (1, 1), (0, 2)]) = some (.ticTacToe st) ∧
    st.done = true ∧ st.winner = some "alice" ∧ st.moveCount = 5 :=
  ⟨_, _, rfl, rfl, rfl, rfl, rfl⟩

-- a row with the ninth move: the full board is won, not drawn
example : ∃ s₀ st, init ["alice", "bob"] none = .ok s₀ ∧ final respond s₀
    (takeTurns true [(0, 0), (1, 1), (1, 0), (2, 1), (0, 1), (0, 2), (2, 2), (1, 2), (2, 0)]) =
      some (.ticTacToe st) ∧
    st.done = true ∧ st.winner = some "alice" ∧ st.draw = false ∧ st.moveCount = 9 :=
  ⟨_, _, rfl, rfl, rfl, rfl, rfl, rfl⟩

-- a full board without a line
example : ∃ s₀ st, init ["alice", "bob"] none = .ok s₀ ∧ final respond s₀
    (takeTurns true [(0, 0), (1, 0), (2, 0), (1, 1), (0, 1), (2, 1), (1, 2), (0, 2), (2, 2)]) =
      some (.ticTacToe st) ∧
    st.done = true ∧ st.winner = none ∧ st.draw = true :=
  ⟨_, _, rfl, rfl, rfl, rfl, rfl⟩

end RealtimeEngine.Domain.TicTacToe
