import RealtimeEngine.Domain.States

/-! The reflex duel (`internal/domain/pingpong/pingpong.go`). Durations are
nanoseconds in a wrapping 64-bit integer. -/
namespace RealtimeEngine.Domain.PingPong
open Foundations
set_option autoImplicit false
set_option maxHeartbeats 250000

def actionBuzz : ActionType := "ACTION_BUZZ"

def millisecond : ℤ := 1000000

def defaultArmDelay : ℤ := 2 * 1000 * millisecond

/-- `time.Duration(m) * time.Millisecond` in Go's wrapping `int64`. -/
def durationMillis (m : ℤ) : ℤ := (m * millisecond).bmod (2 ^ 64)

/-! ## Methods -/

/-- A config blob that does not decode, or whose delay is not positive, keeps the default. -/
def armDelayOf (config : RawMessage) : ℤ :=
  match (Json.structFields config).bind (Json.intField "armDelayMillis") with
  | none => defaultArmDelay
  | some m => if m > 0 then durationMillis m else defaultArmDelay

def init (players : List PlayerID) (config : RawMessage) : Except Err (Option GameState) :=
  match players with
  | [a, b] =>
    .ok (some (.pingPong { players := ![a, b], armDelay := armDelayOf config, armAt := 0,
                           phase := .countdown, done := false, winner := none, reason := "" }))
  | _ => .error (.game .invalidPlayerCount)

def asState : Option GameState → Except Err State
  | some (.pingPong s) => .ok s
  | _ => .error (.game .invalidPayload)

/-- The checks of `Validate` on a state of this game; the buzzer's seat is returned. -/
def legalBuzz (st : State) (action : Action) : Except Err (Fin 2) :=
  if st.done then .error (.game .gameOver)
  else if action.type ≠ actionBuzz then .error (.game .unknownActionType)
  else
    match st.seatOf action.playerID with
    | none => .error (.game .unknownPlayer)
    | some buzzerSeat => .ok buzzerSeat

def validate (s : Option GameState) (action : Action) : Except Err Unit :=
  match asState s with
  | .error e => .error e
  | .ok st => (legalBuzz st action).map fun _ => ()

/-- The state in which the player in `winnerSeat` has won. -/
def win (st : State) (winnerSeat : Fin 2) (reason : String) : State :=
  { st with done := true, phase := .done, winner := some (st.players winnerSeat),
            reason := reason }

def winResult (next : State) (events : List Event) : Result GameState :=
  { newState := some (.pingPong next), diff := some next.toWire.encode, events := events,
    terminal := true, winner := next.winner }

def buzz (st : State) (buzzerSeat : Fin 2) : Result GameState :=
  let next :=
    if st.phase = .armed then win st buzzerSeat "first_buzz"
    else win st (1 - buzzerSeat) "false_start"
  winResult next [{ type := "player_won" }]

def applyAction (s : Option GameState) (action : Action) : Except Err (Result GameState) :=
  match asState s with
  | .error e => .error e
  | .ok st =>
    match legalBuzz st action with
    | .error e => .error e
    | .ok buzzerSeat => .ok (buzz st buzzerSeat)

/-- The two updates `Tick` may make, and whether it made one. -/
def advance (st : State) (now : Time) : State × Bool :=
  let unset := decide (st.armAt = 0)
  let next := if unset then { st with armAt := now + st.armDelay } else st
  if next.phase = .countdown ∧ next.armAt ≤ now then ({ next with phase := .armed }, true)
  else (next, unset)

def tick (s : GameState) (now : Time) : Result GameState × Bool :=
  match asState (some s) with
  | .error _ => (.zero, false)
  | .ok st =>
    if st.done then (.zero, false)
    else
      match advance st now with
      | (_, false) => (.zero, false)
      | (next, true) =>
        ({ newState := some (.pingPong next), diff := some next.toWire.encode,
           events := if next.phase = .armed then [{ type := "armed" }] else [] }, true)

def isTerminal (s : Option GameState) : Bool :=
  match asState s with
  | .error _ => false
  | .ok st => st.done

def onPlayerAbandoned (s : Option GameState) (playerID : PlayerID) :
    Except Err (Result GameState) :=
  match asState s with
  | .error e => .error e
  | .ok st =>
    if st.done then .ok { newState := s }
    else
      match st.seatOf playerID with
      | none => .error (.game .unknownPlayer)
      | some abandonedSeat =>
        .ok (winResult (win st (1 - abandonedSeat) "opponent_abandoned")
          [{ type := "player_abandoned" }, { type := "player_won" }])

def game : Game GameState where
  init := init
  validate := validate
  applyAction := applyAction
  tick := tick
  snapshot := GameState.marshal
  isTerminal := isTerminal
  onPlayerAbandoned := onPlayerAbandoned
  minPlayers := 2
  maxPlayers := 2

end RealtimeEngine.Domain.PingPong
