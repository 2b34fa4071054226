import RealtimeEngine.Matchmaking.Queue
import RealtimeEngine.Storage.Sessions
import RealtimeEngine.Transport.Envelope
import RealtimeEngine.Transport.Hub

/-! One node: the connections, the Hub, the matchmaking queues, the session
store and the room actors (`internal/transport/ws`, `service/matchmaking`,
`service/room/manager.go`), as goroutines that interleave at every access to
shared memory. Each connection has a goroutine that first runs `tryResume` and
then handles one message after another, and, once `Close` was called, the body
of its `closeOnce`, which a caller of `Close` waits for. Each room has its actor,
which performs the outputs of a turn one by one. Here are the places where the
goroutines can be and the accesses they make. -/
namespace RealtimeEngine.Transport
open Foundations Domain Rooms Storage Matchmaking
set_option autoImplicit false
set_option maxHeartbeats 250000

/-! ## Room actors -/

/-- A reply channel; every `submit` makes a new one. -/
abbrev ChanID := ℕ

/-- A command in `cmdCh`; a grace timer's command has no reply channel. -/
structure Ticket where
  cmd : Command
  reply : Option ChanID := none

/-- What is left to do of a turn. A `Broadcast` first copies the connections of
the room and then enqueues on each; an `enqueue` that finds a full buffer runs
`Close` before the loop goes on. -/
inductive Op
  | broadcast (event : RoomEvent)
  | deliver (env : ServerEnvelope) (targets : List ConnID)
  | waitClosed (c : ConnID)
  | reply (ch : Option ChanID) (res : CmdResult)
  | afterFunc (player : PlayerID) (generation : ℕ)

def Op.ofOutput (ch : Option ChanID) : Output → Op
  | .broadcast event => .broadcast event
  | .reply res => .reply ch res
  | .afterFunc player generation => .afterFunc player generation

structure GraceTimer where
  player : PlayerID
  generation : ℕ
  due : Time

/-- `listed` is membership in the manager's map. `completed` is history only:
the versions of the state diffs whose `Broadcast` call has returned. -/
structure Actor (σ : Type) where
  game : Game σ
  room : Room σ
  listed : Bool := true
  stopped : Bool := false
  queue : List Ticket := []
  todo : List Op := []
  timers : List GraceTimer := []
  completed : List ℕ := []

/-- The capacity of `cmdCh`. -/
def cmdCap : ℕ := 64

/-- The capacity of a connection's `send` channel. -/
def sendCap : ℕ := 32

/-! ## Connection goroutines -/

/-- A call of `Room.submit` with what its caller goes on with: `tryResume`, the
loop of `CreateRoom`, the loop of `seatMatchedPlayers`, `handleResync` and
`handleGameAction`. -/
inductive Call
  | resume (room : ID)
  | join (room : ID) (player : PlayerID) (rest : List PlayerID)
  | seat (room : ID) (player : PlayerID) (conn : ConnID) (rest : List PlayerID)
  | resync (room : ID)
  | act (room : ID) (action : Action)

def Call.room : Call → ID
  | resume room | join room _ _ | seat room _ _ _ | resync room | act room _ => room

def Call.command (self : PlayerID) : Call → Command
  | resume _ => .reconnect self
  | join _ player _ => .join player
  | seat _ _ _ _ | resync _ => .snapshot
  | act _ action => .action action

/-- The player a call presents to the Hub and the session store. -/
def Call.player (self : PlayerID) : Call → PlayerID
  | seat _ player _ _ => player
  | _ => self

/-- The connection that is sent the snapshot the call asks for. -/
def Call.target (self : ConnID) : Call → Option ConnID
  | resume _ | resync _ => some self
  | seat _ _ conn _ => some conn
  | join _ _ _ | act _ _ => none

/-- The calls whose snapshot is the first one a connection gets of the room. -/
def Call.initial : Call → Bool
  | resume _ | seat _ _ _ _ => true
  | _ => false

/-- The seats that a caller goes on with. -/
def Call.rest : Call → Option (ID × List PlayerID)
  | seat room _ _ rest => some (room, rest)
  | _ => none

/-- The last steps of `tryResume` and of a pass of the `seatMatchedPlayers` loop. -/
inductive Stage
  | setRoom
  | register
  | bind
  | send
  deriving DecidableEq

/-- Where a connection's goroutine is. `tell` carries the call and its answer,
`none` when `Snapshot` failed, on to the message for the client. -/
inductive Reader
  | idle
  | load
  | get (rec : SessionRecord)
  | submit (k : Call)
  | await (k : Call) (ch : ChanID)
  | tell (stage : Stage) (k : Call) (answer : Option CmdResult)
  | send (env : ServerEnvelope)
  | pend (gameType : String)
  | enqueue (gameType : String)
  | create (gameType : String) (players : List PlayerID)
  | clearPending (e : Err)
  | status (room : ID)
  | seat (room : ID) (players : List PlayerID)
  | waitClosed (c : ConnID) (rest : Option (ID × List PlayerID))

def Reader.isIdle : Reader → Bool
  | idle => true
  | _ => false

/-- Where the `closeOnce` body of a connection is; `off` as long as `Close` was not called. -/
inductive Closer
  | off
  | start
  | dequeue (gameType : String)
  | getRoom
  | unregister (room : ID)
  | submit (room : ID)
  | await (room : ID) (ch : ChanID)
  | bind (room : ID)
  | done
  deriving DecidableEq

/-- `sent` is everything put on the `send` channel, of which `writePump` has
taken `drained`. `pumping` says that the pumps were started. `given` is history
only: room and version of each initial snapshot put on the channel. -/
structure Conn where
  playerID : PlayerID := ""
  sessionID : String := ""
  room : Option ID := none
  sent : List ServerEnvelope := []
  drained : ℕ := 0
  pumping : Bool := false
  reader : Reader := .idle
  closer : Closer := .off
  given : List (ID × ℕ) := []

def Conn.fits (x : Conn) : Bool := x.sent.length - x.drained < sendCap

/-- Where the sweep of `RunGC` is. -/
inductive Sweeper
  | idle
  | visit (now : Time) (rooms : List ID)
  | submit (now : Time) (room : ID) (rest : List ID)
  | await (now : Time) (room : ID) (ch : ChanID) (rest : List ID)

/-! ## The node -/

/-- The registry, the configuration, and the player each session token was
issued to: a token names its session and its player. -/
structure Setup (σ : Type) where
  games : String → Option (Game σ)
  owner : String → PlayerID
  nodeID : String
  graceDuration : ℤ
  sessionTTL : ℤ
  waitingTTL : ℤ
  finishedLinger : ℤ

/-- The grace period of the rooms: `ManagerConfig.withDefaults` takes zero for thirty seconds. -/
def Setup.roomGrace {σ : Type} (u : Setup σ) : ℤ :=
  if u.graceDuration = 0 then 30000000000 else u.graceDuration

/-- How long `onConnectionClosed` keeps a session's record, in Go's wrapping `int64`. -/
def Setup.recordTTL {σ : Type} (u : Setup σ) : ℤ := (u.graceDuration + 5000000000).bmod (2 ^ 64)

/-- Connections are numbered in the order of arrival, `conns` of them so far,
and `chans` reply channels were made so far. -/
structure Sys (σ : Type) where
  now : Time := 0
  actor : ID → Option (Actor σ) := fun _ => none
  hub : Hub := ∅
  conn : ConnID → Conn := fun _ => {}
  conns : ℕ := 0
  pending : Table PlayerID ConnID := ∅
  pendingGT : Table PlayerID String := ∅
  queues : String → List PlayerID := fun _ => []
  sessions : SessionStore := ∅
  replies : ChanID → Option CmdResult := fun _ => none
  chans : ℕ := 0
  sweeper : Sweeper := .idle

/-- The outcome of a `select`: a channel operation or a plain statement, the
context's deadline, the closed `stopped` channel; or a statement that makes a
new room ID. -/
inductive Choice
  | go
  | timeout
  | stopped
  | fresh (id : ID)
  deriving DecidableEq

/-- What `readPump` may get: a message the limiter refuses, one that does not
decode, with the error's text, or an envelope. -/
inductive Incoming
  | limited
  | malformed (text : String)
  | message (env : ClientEnvelope)

section Node
variable {σ : Type}

namespace Sys

def setConn (s : Sys σ) (c : ConnID) (x : Conn) : Sys σ :=
  { s with conn := Function.update s.conn c x }

def setActor (s : Sys σ) (id : ID) (a : Actor σ) : Sys σ :=
  { s with actor := Function.update s.actor id (some a) }

/-- The goroutine of `c` goes on at `pc`; back at the top of the loop, the pumps run. -/
def goto (s : Sys σ) (c : ConnID) (pc : Reader) : Sys σ :=
  s.setConn c { s.conn c with reader := pc, pumping := (s.conn c).pumping || pc.isIdle }

def gotoCloser (s : Sys σ) (c : ConnID) (pc : Closer) : Sys σ :=
  s.setConn c { s.conn c with closer := pc }

/-- `Close`: the first caller starts the body of `closeOnce`. -/
def close (s : Sys σ) (c : ConnID) : Sys σ :=
  if (s.conn c).closer = .off then s.gotoCloser c .start else s

/-- `Manager.Get`. -/
def listed (s : Sys σ) (id : ID) : Bool := (s.actor id).any (fun a => a.listed)

def stopped (s : Sys σ) (id : ID) : Bool := (s.actor id).any (fun a => a.stopped)

/-- `send` can put a command on `cmdCh`. -/
def accepts (s : Sys σ) (id : ID) : Bool := (s.actor id).any fun a => a.queue.length < cmdCap

/-- The answer to `GetStatus`: the actor serves it between two turns. -/
def status (s : Sys σ) (id : ID) : Option Status :=
  match s.actor id with
  | none => none
  | some a =>
    if a.todo.isEmpty ∧ a.room.lifecycle ≠ .closed then some (statusLocked a.room) else none

end Sys

/-- One access of a goroutine to shared memory. -/
inductive Effect (σ : Type)
  | silent
  | setRoom (c : ConnID) (room : ID)
  | register (room : ID) (player : PlayerID) (c : ConnID)
  | unregister (room : ID) (player : PlayerID) (c : ConnID)
  | saveSession (sessionID : String) (rec : SessionRecord) (ttl : ℤ)
  | pend (player : PlayerID) (c : ConnID) (gameType : String)
  | unpend (player : PlayerID)
  | setQueue (gameType : String) (queue : List PlayerID)
  | createRoom (id : ID) (gameType : String) (game : Game σ)
  | submit (room : ID) (cmd : Command)
  | enqueue (c : ConnID) (env : ServerEnvelope) (given : Option (ID × ℕ))

namespace Sys

def enqueue (s : Sys σ) (c : ConnID) (env : ServerEnvelope) (given : Option (ID × ℕ)) : Sys σ :=
  let x := s.conn c
  if x.fits then s.setConn c { x with sent := x.sent ++ [env], given := x.given ++ given.toList }
  else s.close c

/-- `send`: the command and a new reply channel go on `cmdCh`. -/
def push (s : Sys σ) (id : ID) (cmd : Command) : Sys σ :=
  match s.actor id with
  | none => s
  | some a =>
    { s.setActor id { a with queue := a.queue ++ [{ cmd := cmd, reply := some s.chans }] } with
      chans := s.chans + 1 }

def apply (s : Sys σ) : Effect σ → Sys σ
  | .silent => s
  | .setRoom c room => s.setConn c { s.conn c with room := some room }
  | .register room player c => { s with hub := s.hub.register room player c }
  | .unregister room player c => { s with hub := s.hub.unregister room player c }
  | .saveSession sessionID rec ttl =>
    { s with sessions := s.sessions.saveSession s.now sessionID rec ttl }
  | .pend player c gameType =>
    { s with pending := s.pending.insert player c,
             pendingGT := s.pendingGT.insert player gameType }
  | .unpend player =>
    { s with pending := s.pending.erase player, pendingGT := s.pendingGT.erase player }
  | .setQueue gameType queue => { s with queues := Function.update s.queues gameType queue }
  | .createRoom id gameType game =>
    s.setActor id { game := game, room := newRoom σ id gameType s.now }
  | .submit room cmd => s.push room cmd
  | .enqueue c env given => s.enqueue c env given

end Sys
end Node
end RealtimeEngine.Transport
