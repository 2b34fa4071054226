import RealtimeEngine.Domain.Game
import RealtimeEngine.Foundations.Runs
import RealtimeEngine.Foundations.Tables

/-! The room actor (`internal/service/room/room.go`, `lifecycle.go`, `sink.go`).
All fields below are owned by one goroutine, so a command is one transition of
the room; what the goroutine does to the outside while handling it (broadcasts,
the reply, the grace timer) is the list of outputs, in the order of the source.
-/
namespace RealtimeEngine.Rooms
open Foundations Domain
set_option autoImplicit false
set_option maxHeartbeats 250000

/-! ## Data -/

abbrev ID := String

inductive Lifecycle
  | waiting
  | active
  | finished
  | closed
  deriving DecidableEq, Repr

/-- The position in the `iota` declaration. -/
def Lifecycle.rank : Lifecycle → ℕ
  | waiting => 0
  | active => 1
  | finished => 2
  | closed => 3

inductive Command
  | join (player : PlayerID)
  | leave (player : PlayerID)
  | action (a : Action)
  | disconnect (player : PlayerID)
  | reconnect (player : PlayerID)
  | graceExpired (player : PlayerID) (generation : ℕ)
  | forceClose
  | snapshot

/-- A field that the source leaves out of a composite literal has its zero value. -/
structure CmdResult where
  err : Option Err := none
  seat : ℕ := 0
  lifecycle : Lifecycle := .waiting
  snapshot : RawMessage := none
  serverSeq : ℕ := 0

inductive EventKind
  | stateDiff
  | stateSnapshot
  | playerJoined
  | playerDisconnected
  | playerReconnected
  | roomStarted
  | roomClosed
  deriving DecidableEq, Repr

structure RoomEvent where
  roomID : ID
  kind : EventKind
  serverSeq : ℕ
  diff : RawMessage := none
  snapshot : RawMessage := none
  events : List Event := []
  terminal : Bool := false
  winner : Option PlayerID := none
  subject : PlayerID := ""

/-- What the actor does outside its own fields: `Sink.Broadcast`, a send on the
command's reply channel, and `time.AfterFunc` for a grace timer. -/
inductive Output
  | broadcast (event : RoomEvent)
  | reply (res : CmdResult)
  | afterFunc (player : PlayerID) (generation : ℕ)

/-- The generation counter is an `int` that only counts up; it is taken as not wrapping. -/
structure PlayerSlot where
  seat : ℕ
  connected : Bool
  generation : ℕ := 0
  lastAppliedSeq : UInt64 := 0
  deriving DecidableEq

structure Room (σ : Type) where
  id : ID
  gameType : String
  lifecycle : Lifecycle
  state : Option σ
  seatOrder : List PlayerID
  players : Table PlayerID PlayerSlot
  serverSeq : ℕ
  createdAt : Time
  lastActivity : Time
  finishedAt : Time

structure Status where
  id : ID
  gameType : String
  lifecycle : Lifecycle
  players : List PlayerID
  playerCount : ℕ
  connectedCount : ℕ
  createdAt : Time
  lastActivityAt : Time
  finishedAt : Time

section Handlers
variable {σ : Type}

def newRoom (σ : Type) (id : ID) (gameType : String) (now : Time) : Room σ where
  id := id
  gameType := gameType
  lifecycle := .waiting
  state := none
  seatOrder := []
  players := ∅
  serverSeq := 0
  createdAt := now
  lastActivity := now
  finishedAt := 0

def statusLocked (r : Room σ) : Status where
  id := r.id
  gameType := r.gameType
  lifecycle := r.lifecycle
  players := r.seatOrder
  playerCount := r.seatOrder.length
  connectedCount := Table.count (fun s => s.connected) r.players
  createdAt := r.createdAt
  lastActivityAt := r.lastActivity
  finishedAt := r.finishedAt

/-! ## Handlers -/

def touch (now : Time) (r : Room σ) : Room σ := { r with lastActivity := now }

def snapshotBytes (g : Game σ) (r : Room σ) : RawMessage :=
  match r.state with
  | none => none
  | some st =>
    match g.snapshot st with
    | .error _ => none
    | .ok snap => snap

def setSlot (r : Room σ) (player : PlayerID) (slot : PlayerSlot) : Room σ :=
  { r with players := r.players.insert player slot }

/-- A broadcast about one player; only state diffs carry more than this. -/
def playerEvent (r : Room σ) (kind : EventKind) (player : PlayerID) : Output :=
  .broadcast { roomID := r.id, kind := kind, serverSeq := r.serverSeq, subject := player }

/-- A `STATE_DIFF` broadcast at the room's current version. -/
def diffEvent (r : Room σ) (result : Result σ) (terminal : Bool) (subject : PlayerID) : Output :=
  .broadcast { roomID := r.id, kind := .stateDiff, serverSeq := r.serverSeq, diff := result.diff,
               events := result.events, terminal := terminal, winner := result.winner,
               subject := subject }

/-- The reply that hands out the current snapshot and version. -/
def snapshotReply (g : Game σ) (r : Room σ) (seat : ℕ) : Output :=
  .reply { seat := seat, lifecycle := r.lifecycle, snapshot := snapshotBytes g r,
           serverSeq := r.serverSeq }

def failReply (e : Err) : Output := .reply { err := some e }

/-- The room with a new player in the next free seat. -/
def seatPlayer (r : Room σ) (player : PlayerID) : Room σ :=
  { r with seatOrder := r.seatOrder ++ [player],
           players := r.players.insert player { seat := r.seatOrder.length, connected := true } }

def handleJoin (g : Game σ) (r : Room σ) (player : PlayerID) : Room σ × List Output :=
  if r.lifecycle = .closed ∨ r.lifecycle = .finished then
    (r, [failReply (.room .roomClosed)])
  else
    match r.players.lookup player with
    | some slot => (r, [snapshotReply g r slot.seat])
    | none =>
      if r.seatOrder.length ≥ g.maxPlayers then
        (r, [failReply (.room .roomFull)])
      else
        let seat := r.seatOrder.length
        let r1 := seatPlayer r player
        let joined := playerEvent r1 .playerJoined player
        if r1.lifecycle = .waiting ∧ r1.seatOrder.length ≥ g.minPlayers then
          match g.init r1.seatOrder none with
          | .error e => (r1, [joined, failReply e])
          | .ok state =>
            let r2 := { r1 with state := state, lifecycle := .active }
            (r2, [joined,
              .broadcast { roomID := r2.id, kind := .roomStarted, serverSeq := r2.serverSeq,
                           snapshot := snapshotBytes g r2 },
              snapshotReply g r2 seat])
        else (r1, [joined, snapshotReply g r1 seat])

def handleDisconnect (r : Room σ) (player : PlayerID) : Room σ × List Output :=
  match r.players.lookup player with
  | none => (r, [.reply { lifecycle := r.lifecycle }])
  | some slot =>
    if ¬ slot.connected then (r, [.reply { lifecycle := r.lifecycle }])
    else
      let generation := slot.generation + 1
      let r1 := setSlot r player { slot with connected := false, generation := generation }
      (r1, [playerEvent r1 .playerDisconnected player, .reply { lifecycle := r1.lifecycle }] ++
        if r1.lifecycle = .active then [.afterFunc player generation] else [])

/-- The loop over the map that closes the gap a leaving player's seat left. -/
def closeSeatGap (seat : ℕ) (s : PlayerSlot) : PlayerSlot :=
  if s.seat > seat then { s with seat := s.seat - 1 } else s

def handleLeave (r : Room σ) (player : PlayerID) : Room σ × List Output :=
  match r.players.lookup player with
  | none => (r, [.reply { lifecycle := r.lifecycle }])
  | some slot =>
    if r.lifecycle ≠ .waiting then handleDisconnect r player
    else
      let r1 := { r with players := Table.mapVal (closeSeatGap slot.seat) (r.players.erase player),
                         seatOrder := r.seatOrder.erase player }
      let replied := Output.reply { lifecycle := r1.lifecycle }
      if r1.seatOrder.length = 0 then ({ r1 with lifecycle := .closed }, [replied])
      else (r1, [replied])

def handleAction (g : Game σ) (now : Time) (r : Room σ) (action : Action) : Room σ × List Output :=
  if r.lifecycle ≠ .active then (r, [failReply (.room .roomNotActive)])
  else
    match r.players.lookup action.playerID with
    | none => (r, [failReply (.room .unknownPlayer)])
    | some slot =>
      if ¬ slot.connected then (r, [failReply (.room .playerDisconnected)])
      else if action.seq ≤ slot.lastAppliedSeq ∧ slot.lastAppliedSeq ≠ 0 then
        (r, [failReply (.room .staleAction)])
      else
        match g.validate r.state action with
        | .error e => (r, [failReply e])
        | .ok _ =>
          match g.applyAction r.state action with
          | .error e => (r, [failReply e])
          | .ok result =>
            let r1 := setSlot { r with state := result.newState, serverSeq := r.serverSeq + 1 }
              action.playerID { slot with lastAppliedSeq := action.seq }
            let r2 :=
              if result.terminal then { r1 with lifecycle := .finished, finishedAt := now } else r1
            (r2, [diffEvent r1 result result.terminal action.playerID,
              .reply { lifecycle := r2.lifecycle, serverSeq := r2.serverSeq }])

def handleReconnect (g : Game σ) (r : Room σ) (player : PlayerID) : Room σ × List Output :=
  match r.players.lookup player with
  | none => (r, [failReply (.room .unknownPlayer)])
  | some slot =>
    let r1 := setSlot r player { slot with connected := true }
    let back := if slot.connected then [] else [playerEvent r1 .playerReconnected player]
    (r1, back ++ [snapshotReply g r1 slot.seat])

def handleGraceExpired (g : Game σ) (now : Time) (r : Room σ) (player : PlayerID)
    (generation : ℕ) : Room σ × List Output :=
  match r.players.lookup player with
  | none => (r, [])
  | some slot =>
    if slot.connected ∨ slot.generation ≠ generation then (r, [])
    else if r.lifecycle ≠ .active then (r, [])
    else
      match g.onPlayerAbandoned r.state player with
      | .error _ => (r, [])
      | .ok result =>
        let r1 := { r with state := result.newState, serverSeq := r.serverSeq + 1,
                           lifecycle := .finished, finishedAt := now }
        (r1, [diffEvent r1 result true player])

def handleForceClose (r : Room σ) : Room σ × List Output :=
  let closing :=
    if r.lifecycle ≠ .closed then
      [Output.broadcast { roomID := r.id, kind := .roomClosed, serverSeq := r.serverSeq }]
    else []
  ({ r with lifecycle := .closed }, closing ++ [.reply { lifecycle := .closed }])

def handleSnapshot (g : Game σ) (r : Room σ) : Room σ × List Output :=
  (r, [snapshotReply g r 0])

def handleTick (g : Game σ) (now : Time) (r : Room σ) : Room σ × List Output :=
  if r.lifecycle ≠ .active then (r, [])
  else
    match r.state with
    | none => (r, [])
    | some st =>
      match g.tick st now with
      | (_, false) => (r, [])
      | (result, true) =>
        let r1 := { r with state := result.newState, serverSeq := r.serverSeq + 1 }
        let r2 :=
          if result.terminal then { r1 with lifecycle := .finished, finishedAt := now } else r1
        (r2, [diffEvent r1 result result.terminal ""])

/-! ## The actor loop -/

/-- `handle`: the clock is read when the command is taken. -/
def handle (g : Game σ) (now : Time) (r : Room σ) (cmd : Command) : Room σ × List Output :=
  let r := touch now r
  match cmd with
  | .join player => handleJoin g r player
  | .leave player => handleLeave r player
  | .action a => handleAction g now r a
  | .disconnect player => handleDisconnect r player
  | .reconnect player => handleReconnect g r player
  | .graceExpired player generation => handleGraceExpired g now r player generation
  | .forceClose => handleForceClose r
  | .snapshot => handleSnapshot g r

inductive Input
  | command (now : Time) (cmd : Command)
  | tick (now : Time)

/-- One turn of the loop in `run`; a closed room has left the loop and takes no further input. -/
def step (g : Game σ) (r : Room σ) (i : Input) : Room σ × List Output :=
  if r.lifecycle = .closed then (r, [])
  else
    match i with
    | .command now cmd => handle g now r cmd
    | .tick now => handleTick g now r

end Handlers
end RealtimeEngine.Rooms
