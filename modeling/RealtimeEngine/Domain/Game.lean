import RealtimeEngine.Foundations.Json

/-! The contract every game plugs into (`internal/domain/game`): actions,
results, the errors a call may return, and the `Game` interface itself. A game
is a record of pure functions over its own state type; the room is the only
caller. A Go interface value that may be nil is an `Option`. -/
namespace RealtimeEngine.Domain
open Foundations
set_option autoImplicit false
set_option maxHeartbeats 250000

abbrev PlayerID := String
abbrev ActionType := String
abbrev EventType := String

/-- Nanoseconds since Go's zero time, so `0` is `time.Time{}`. -/
abbrev Time := ℤ

/-! ## Errors -/

inductive GameErr
  | notYourTurn
  | illegalMove
  | gameOver
  | unknownActionType
  | invalidPayload
  | invalidPlayerCount
  | unknownPlayer
  deriving DecidableEq, Repr

inductive RoomErr
  | roomClosed
  | roomFull
  | roomNotActive
  | unknownPlayer
  | playerDisconnected
  | staleAction
  | unknownGameType
  deriving DecidableEq, Repr

/-- A non-nil `error`: one of the sentinels of the two packages, the context's
deadline, or any other error a game may return. -/
inductive Err
  | game (e : GameErr)
  | room (e : RoomErr)
  | deadlineExceeded
  | other (text : String)
  deriving DecidableEq, Repr

def GameErr.text : GameErr → String
  | notYourTurn => "game: not your turn"
  | illegalMove => "game: illegal move"
  | gameOver => "game: game already over"
  | unknownActionType => "game: unknown action type"
  | invalidPayload => "game: invalid action payload"
  | invalidPlayerCount => "game: invalid player count for this game"
  | unknownPlayer => "game: player is not seated in this game"

def RoomErr.text : RoomErr → String
  | roomClosed => "room: room is closed"
  | roomFull => "room: room is full"
  | roomNotActive => "room: room is not active"
  | unknownPlayer => "room: player is not part of this room"
  | playerDisconnected => "room: player is currently disconnected"
  | staleAction => "room: duplicate or stale action sequence number"
  | unknownGameType => "room: unknown game type"

def Err.text : Err → String
  | game e => e.text
  | room e => e.text
  | deadlineExceeded => "context deadline exceeded"
  | other text => text

/-! ## Actions and results -/

structure Action where
  type : ActionType
  playerID : PlayerID
  seq : UInt64
  timestamp : Time
  payload : RawMessage

structure Event where
  type : EventType
  data : RawMessage := none

structure Result (σ : Type) where
  newState : Option σ := none
  diff : RawMessage := none
  events : List Event := []
  terminal : Bool := false
  winner : Option PlayerID := none

/-- The zero value `game.Result{}`. -/
def Result.zero {σ : Type} : Result σ := {}

/-- `Tick` and `Snapshot` are only ever called on a non-nil state; the other
methods take whatever the room holds. A negative player bound compares with a
length as zero does, so the bounds are natural numbers. -/
structure Game (σ : Type) where
  init : List PlayerID → RawMessage → Except Err (Option σ)
  validate : Option σ → Action → Except Err Unit
  applyAction : Option σ → Action → Except Err (Result σ)
  tick : σ → Time → Result σ × Bool
  snapshot : σ → Except Err RawMessage
  isTerminal : Option σ → Bool
  onPlayerAbandoned : Option σ → PlayerID → Except Err (Result σ)
  minPlayers : ℕ
  maxPlayers : ℕ

end RealtimeEngine.Domain
