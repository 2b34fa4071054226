import RealtimeEngine.Room.Actor

/-! The wire messages (`internal/transport/ws/envelope.go`, `errors.go`): what a
client may send, what the server answers, and how room events and errors become
messages. -/
namespace RealtimeEngine.Transport
open Foundations Domain Rooms
set_option autoImplicit false
set_option maxHeartbeats 250000

/-- `Type` of a server message; room events keep their own names on the wire. -/
inductive MessageType
  | event (kind : EventKind)
  | error
  | redirect
  deriving DecidableEq, Repr

structure WireError where
  code : String
  message : String
  deriving DecidableEq

structure ClientEnvelope where
  type : String
  seq : UInt64 := 0
  ts : ℤ := 0
  payload : RawMessage := none

structure ServerEnvelope where
  type : MessageType
  roomID : ID := ""
  serverSeq : ℕ := 0
  ts : ℤ
  ackPlayer : String := ""
  ackSeq : UInt64 := 0
  diff : RawMessage := none
  snapshot : RawMessage := none
  events : List String := []
  terminal : Bool := false
  winner : String := ""
  error : Option WireError := none
  redirect : String := ""

def typeFindMatch : String := "FIND_MATCH"
def typeResync : String := "RESYNC"

/-! ## Time on the wire -/

/-- 1 January 1970, in nanoseconds since the zero time. -/
def unixEpoch : Time := 62135596800000000000

def unixMilli (t : Time) : ℤ := (t - unixEpoch) / 1000000

/-- `time.UnixMilli`. -/
def ofUnixMilli (ms : ℤ) : Time := unixEpoch + ms * 1000000

/-! ## Messages -/

def eventNames (events : List Event) : List String := events.map Event.type

def buildEnvelope (now : Time) (event : RoomEvent) : ServerEnvelope where
  type := .event event.kind
  roomID := event.roomID
  serverSeq := event.serverSeq
  ts := unixMilli now
  ackPlayer := event.subject
  diff := event.diff
  snapshot := event.snapshot
  events := eventNames event.events
  terminal := event.terminal
  winner := event.winner.getD ""

def errorEnvelope (now : Time) (code message : String) : ServerEnvelope where
  type := .error
  ts := unixMilli now
  error := some { code := code, message := message }

def redirectEnvelope (now : Time) (ownerNode : String) : ServerEnvelope where
  type := .redirect
  ts := unixMilli now
  redirect := ownerNode

/-- `room.ErrUnknownPlayer` has no code of its own. -/
def errorCode : Err → String
  | .game .notYourTurn => "NOT_YOUR_TURN"
  | .game .illegalMove => "ILLEGAL_MOVE"
  | .game .gameOver => "GAME_OVER"
  | .game .unknownActionType => "UNKNOWN_ACTION_TYPE"
  | .game .invalidPayload => "INVALID_PAYLOAD"
  | .game .unknownPlayer => "UNKNOWN_PLAYER"
  | .game .invalidPlayerCount => "INVALID_PLAYER_COUNT"
  | .room .roomFull => "ROOM_FULL"
  | .room .roomClosed => "ROOM_CLOSED"
  | .room .roomNotActive => "ROOM_NOT_ACTIVE"
  | .room .playerDisconnected => "PLAYER_DISCONNECTED"
  | .room .staleAction => "STALE_OR_DUPLICATE_SEQ"
  | .room .unknownGameType => "UNKNOWN_GAME_TYPE"
  | .deadlineExceeded => "TIMEOUT"
  | .room .unknownPlayer | .other _ => "INTERNAL_ERROR"

/-- `c.sendError(errorCode(err), err.Error())`. -/
def failureEnvelope (now : Time) (e : Err) : ServerEnvelope :=
  errorEnvelope now (errorCode e) e.text

/-- The game type a `FIND_MATCH` payload names; an empty one is refused like a malformed one. -/
def decodeFindMatch (payload : RawMessage) : Option String :=
  match (Json.structFields payload).bind (Json.strField "gameType") with
  | none => none
  | some gameType => if gameType = "" then none else some gameType

/-! ## Versions -/

/-- The message types that carry a version of the game state. -/
def MessageType.versioned : MessageType → Bool
  | .event .stateDiff | .event .stateSnapshot | .event .roomStarted => true
  | _ => false

/-- The version a message carries, if it is a versioned message of the room. -/
def versionOf (roomID : ID) (env : ServerEnvelope) : Option ℕ :=
  if env.type.versioned ∧ env.roomID = roomID then some env.serverSeq else none

end RealtimeEngine.Transport
