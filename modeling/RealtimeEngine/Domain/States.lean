import Mathlib.Algebra.GroupWithZero.Nat
import Mathlib.Data.Fin.VecNotation
import Mathlib.Data.Fintype.Basic
import RealtimeEngine.Domain.Game

/-! The state types of the two games and their wire forms (`State`,
`wireState`, `toWire` of `internal/domain/tictactoe` and
`internal/domain/pingpong`). `GameState` is the part of the Go interface
`game.State` that the registered games can build. -/
set_option autoImplicit false
set_option maxHeartbeats 250000

/-- Seats are numbered 0 and 1 in both games. The library's instance has a name here, so that
a seat number is the same term in every module that uses it. -/
instance RealtimeEngine.Domain.neZero_seats : NeZero 2 := Nat.instNeZeroSucc

/-! ## Tic-tac-toe -/

namespace RealtimeEngine.Domain.TicTacToe
open Foundations

inductive Seat
  | empty
  | x
  | o
  deriving DecidableEq, Repr

def Seat.mark : Seat → String
  | x => "X"
  | o => "O"
  | empty => ""

structure State where
  board : Fin 9 → Seat
  players : Fin 2 → PlayerID
  turn : Fin 2
  moveCount : ℕ
  done : Bool
  draw : Bool
  winner : Option PlayerID
  deriving DecidableEq

structure WireState where
  board : Fin 9 → String
  players : Fin 2 → String
  turn : String
  moveCount : ℕ
  done : Bool
  draw : Bool
  winner : String
  deriving DecidableEq

def State.toWire (s : State) : WireState where
  board := fun i => (s.board i).mark
  players := s.players
  turn := s.players s.turn
  moveCount := s.moveCount
  done := s.done
  draw := s.draw
  winner := s.winner.getD ""

def WireState.encode (w : WireState) : Json :=
  .obj ([("board", .arr (List.ofFn fun i => .str (w.board i))),
         ("players", .arr (List.ofFn fun i => .str (w.players i))),
         ("turn", .str w.turn), ("moveCount", .int w.moveCount), ("done", .bool w.done)] ++
    omitEmptyBool "draw" w.draw ++ omitEmptyStr "winner" w.winner)

def State.marshal (s : State) : Except Err RawMessage := .ok (some s.toWire.encode)

/-- The first seat that holds the player. -/
def State.seatOf (s : State) (player : PlayerID) : Option (Fin 2) :=
  [0, 1].find? fun i => s.players i = player

end RealtimeEngine.Domain.TicTacToe

/-! ## Ping-pong -/

namespace RealtimeEngine.Domain.PingPong
open Foundations

inductive Phase
  | countdown
  | armed
  | done
  deriving DecidableEq, Repr

def Phase.string : Phase → String
  | countdown => "countdown"
  | armed => "armed"
  | done => "done"

structure State where
  players : Fin 2 → PlayerID
  armDelay : ℤ
  armAt : Time
  phase : Phase
  done : Bool
  winner : Option PlayerID
  reason : String
  deriving DecidableEq

structure WireState where
  players : List String
  phase : String
  done : Bool
  winner : String
  reason : String
  deriving DecidableEq

def State.toWire (s : State) : WireState where
  players := [s.players 0, s.players 1]
  phase := s.phase.string
  done := s.done
  winner := s.winner.getD ""
  reason := s.reason

def WireState.encode (w : WireState) : Json :=
  .obj ([("players", .arr (w.players.map .str)), ("phase", .str w.phase),
         ("done", .bool w.done)] ++
    omitEmptyStr "winner" w.winner ++ omitEmptyStr "reason" w.reason)

def State.marshal (s : State) : Except Err RawMessage := .ok (some s.toWire.encode)

def State.seatOf (s : State) (player : PlayerID) : Option (Fin 2) :=
  [0, 1].find? fun i => s.players i = player

end RealtimeEngine.Domain.PingPong

/-! ## The interface value -/

namespace RealtimeEngine.Domain
open Foundations

inductive GameState
  | ticTacToe (s : TicTacToe.State)
  | pingPong (s : PingPong.State)
  deriving DecidableEq

def GameState.marshal : GameState → Except Err RawMessage
  | ticTacToe s => s.marshal
  | pingPong s => s.marshal

/-- What the room's correctness needs to read from a game state. -/
structure View (σ : Type) where
  players : σ → List PlayerID
  winner : σ → Option PlayerID
  drawn : σ → Bool

def GameState.players : GameState → List PlayerID
  | ticTacToe s => List.ofFn s.players
  | pingPong s => List.ofFn s.players

def GameState.winner : GameState → Option PlayerID
  | ticTacToe s => s.winner
  | pingPong s => s.winner

/-- Only tic-tac-toe can end in a draw. -/
def GameState.drawn : GameState → Bool
  | ticTacToe s => s.draw
  | pingPong _ => false

def gameView : View GameState := ⟨GameState.players, GameState.winner, GameState.drawn⟩

end RealtimeEngine.Domain
