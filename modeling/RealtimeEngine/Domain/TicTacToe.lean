import Mathlib.Logic.Function.Basic
import RealtimeEngine.Domain.States

/-! The rules of tic-tac-toe (`internal/domain/tictactoe/tictactoe.go`,
`rules.go`). -/
namespace RealtimeEngine.Domain.TicTacToe
open Foundations
set_option autoImplicit false
set_option maxHeartbeats 250000

def actionMove : ActionType := "ACTION_MOVE"

/-! ## Rules -/

def winLines : List (Fin 9 × Fin 9 × Fin 9) :=
  [(0, 1, 2), (3, 4, 5), (6, 7, 8), (0, 3, 6), (1, 4, 7), (2, 5, 8), (0, 4, 8), (2, 4, 6)]

def Seat.index : Seat → Option (Fin 2)
  | empty => none
  | x => some 0
  | o => some 1

/-- The seat index of the first complete line; `none` is the source's `-1`. -/
def winningSeat (board : Fin 9 → Seat) : Option (Fin 2) :=
  winLines.findSome? fun line =>
    if board line.1 ≠ .empty ∧ board line.1 = board line.2.1 ∧ board line.2.1 = board line.2.2 then
      (board line.1).index
    else none

/-! ## Moves -/

/-- A move payload that passed the range check. -/
structure MovePayload where
  x : Fin 3
  y : Fin 3
  deriving DecidableEq

def MovePayload.idx (mv : MovePayload) : Fin 9 :=
  ⟨mv.y.val * 3 + mv.x.val, by omega⟩

structure CellDiff where
  x : ℤ
  y : ℤ
  mark : String
  deriving DecidableEq

structure DiffPayload where
  cell : CellDiff := ⟨0, 0, ""⟩
  turn : String := ""
  terminal : Bool := false
  winner : String := ""
  draw : Bool := false
  reason : String := ""
  deriving DecidableEq

/-- A struct-typed field is emitted even when it is zero. -/
def DiffPayload.encode (d : DiffPayload) : Json :=
  .obj ([("cell", .obj [("x", .int d.cell.x), ("y", .int d.cell.y), ("mark", .str d.cell.mark)])] ++
    omitEmptyStr "turn" d.turn ++ omitEmptyBool "terminal" d.terminal ++
    omitEmptyStr "winner" d.winner ++ omitEmptyBool "draw" d.draw ++
    omitEmptyStr "reason" d.reason)

def asState : Option GameState → Except Err State
  | some (.ticTacToe s) => .ok s
  | _ => .error (.game .invalidPayload)

def decodeMove (action : Action) : Except Err MovePayload :=
  if action.type ≠ actionMove then .error (.game .unknownActionType)
  else
    match Json.structFields action.payload with
    | none => .error (.game .invalidPayload)
    | some fields =>
      match Json.intField "x" fields, Json.intField "y" fields with
      | some x, some y =>
        if h : (0 ≤ x ∧ x ≤ 2) ∧ 0 ≤ y ∧ y ≤ 2 then
          .ok ⟨⟨x.toNat, by omega⟩, ⟨y.toNat, by omega⟩⟩
        else .error (.game .invalidPayload)
      | _, _ => .error (.game .invalidPayload)

/-- The checks of `Validate` on a state of this game; a move that passes them is returned. -/
def legalMove (st : State) (action : Action) : Except Err MovePayload :=
  if st.done then .error (.game .gameOver)
  else
    match st.seatOf action.playerID with
    | none => .error (.game .unknownPlayer)
    | some seatIdx =>
      if seatIdx ≠ st.turn then .error (.game .notYourTurn)
      else
        match decodeMove action with
        | .error e => .error e
        | .ok mv =>
          if st.board mv.idx ≠ .empty then .error (.game .illegalMove)
          else .ok mv

def validate (s : Option GameState) (action : Action) : Except Err Unit :=
  match asState s with
  | .error e => .error e
  | .ok st => (legalMove st action).map fun _ => ()

/-- The board, diff, events and flags of an admitted move. -/
def play (st : State) (mv : MovePayload) : Result GameState :=
  let mark := if st.turn = 1 then Seat.o else Seat.x
  let next := { st with board := Function.update st.board mv.idx mark,
                        moveCount := st.moveCount + 1 }
  let cell : CellDiff := { x := mv.x.val, y := mv.y.val, mark := mark.mark }
  match winningSeat next.board with
  | some winSeat =>
    let w := next.players winSeat
    { newState := some (.ticTacToe { next with done := true, winner := some w }),
      diff := some ({ cell := cell, terminal := true, winner := w } : DiffPayload).encode,
      events := [{ type := "player_won" }], terminal := true, winner := some w }
  | none =>
    if next.moveCount = 9 then
      { newState := some (.ticTacToe { next with done := true, draw := true }),
        diff := some ({ cell := cell, terminal := true, draw := true } : DiffPayload).encode,
        events := [{ type := "draw" }], terminal := true, winner := none }
    else
      let turn := 1 - st.turn
      { newState := some (.ticTacToe { next with turn := turn }),
        diff := some ({ cell := cell, turn := next.players turn } : DiffPayload).encode,
        events := [{ type := "turn_changed" }], terminal := false, winner := none }

def applyAction (s : Option GameState) (action : Action) : Except Err (Result GameState) :=
  match asState s with
  | .error e => .error e
  | .ok st =>
    match legalMove st action with
    | .error e => .error e
    | .ok mv => .ok (play st mv)

/-! ## The other methods -/

def init (players : List PlayerID) (_config : RawMessage) : Except Err (Option GameState) :=
  match players with
  | [a, b] =>
    .ok (some (.ticTacToe { board := fun _ => .empty, players := ![a, b], turn := 0,
                            moveCount := 0, done := false, draw := false, winner := none }))
  | _ => .error (.game .invalidPlayerCount)

def tick (_s : GameState) (_now : Time) : Result GameState × Bool := (.zero, false)

def isTerminal (s : Option GameState) : Bool :=
  match asState s with
  | .error _ => false
  | .ok st => st.done

/-- The state and result of a forfeit by the player in `abandonedSeat`. -/
def abandon (st : State) (abandonedSeat : Fin 2) : Result GameState :=
  let w := st.players (1 - abandonedSeat)
  { newState := some (.ticTacToe { st with done := true, winner := some w }),
    diff := some ({ terminal := true, winner := w, reason := "opponent_abandoned" } :
      DiffPayload).encode,
    events := [{ type := "player_abandoned" }, { type := "player_won" }],
    terminal := true, winner := some w }

def onPlayerAbandoned (s : Option GameState) (playerID : PlayerID) :
    Except Err (Result GameState) :=
  match asState s with
  | .error e => .error e
  | .ok st =>
    if st.done then .ok { newState := s }
    else
      match st.seatOf playerID with
      | none => .error (.game .unknownPlayer)
      | some abandonedSeat => .ok (abandon st abandonedSeat)

def game : Game GameState where
  init := init
  validate := validate
  applyAction := applyAction
  tick := tick
  snapshot := GameState.marshal
  isTerminal := isTerminal
  onPlayerAbandoned := onPlayerAbandoned
  minPlayers := 2
  maxPlayers := 2

end RealtimeEngine.Domain.TicTacToe
