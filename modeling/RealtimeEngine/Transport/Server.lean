import RealtimeEngine.Transport.Node

/-! What each goroutine of a node does next (`server.go`, `connection.go`,
`Room.submit`, `Room.run`, `GCSweepOnce`). A label says which goroutine moves
and how a `select` with several ready cases is decided; `step` is the node after
that move, or nothing when the goroutine cannot move so. -/
namespace RealtimeEngine.Transport
open Foundations Domain Rooms Storage Matchmaking
set_option autoImplicit false
set_option maxHeartbeats 250000

section Node
variable {σ : Type}

/-! ## Messages from a client -/

def handleFindMatch (now : Time) (x : Conn) (env : ClientEnvelope) : Reader :=
  if x.room.isSome then .send (errorEnvelope now "ALREADY_IN_ROOM" "already seated in a room")
  else
    match decodeFindMatch env.payload with
    | none =>
      .send (errorEnvelope now "INVALID_PAYLOAD" "FIND_MATCH requires a non-empty gameType")
    | some gameType => .pend gameType

def handleResync (now : Time) (x : Conn) : Reader :=
  match x.room with
  | none => .send (errorEnvelope now "NOT_IN_ROOM" "not currently seated in a room")
  | some room => .submit (.resync room)

def handleGameAction (now : Time) (x : Conn) (env : ClientEnvelope) : Reader :=
  match x.room with
  | none =>
    .send (errorEnvelope now "NOT_IN_ROOM"
      "not currently seated in a room; send FIND_MATCH first")
  | some room =>
    .submit (.act room { type := env.type, playerID := x.playerID, seq := env.seq,
                         timestamp := ofUnixMilli env.ts, payload := env.payload })

def handleMessage (now : Time) (x : Conn) : Incoming → Reader
  | .limited => .send (errorEnvelope now "RATE_LIMITED" "too many messages; slow down")
  | .malformed text => .send (errorEnvelope now "INVALID_ENVELOPE" text)
  | .message env =>
    if env.type = typeFindMatch then handleFindMatch now x env
    else if env.type = typeResync then handleResync now x
    else handleGameAction now x env

/-! ## After a call of the room -/

/-- The loop of `CreateRoom`, and `seatMatchedPlayers` after it. -/
def joining (room : ID) : List PlayerID → Reader
  | [] => .status room
  | p :: rest => .submit (.join room p rest)

/-- Where a goroutine goes on once a message is enqueued. -/
def Reader.after : Option (ID × List PlayerID) → Reader
  | none => .idle
  | some (room, players) => .seat room players

def Call.failed (now : Time) (e : Err) (k : Call) : Reader :=
  match k with
  | resume _ | resync _ | act _ _ => .send (failureEnvelope now e)
  | join _ _ _ => .clearPending e
  | seat _ _ _ _ => .tell .setRoom k none

def Call.succeeded (res : CmdResult) (k : Call) : Reader :=
  match k with
  | resume _ | seat _ _ _ _ => .tell .setRoom k (some res)
  | join room _ rest => joining room rest
  | resync _ => .tell .send k (some res)
  | act _ _ => .idle

/-- The version an answer carries on the wire. -/
def answerSeq (answer : Option CmdResult) : ℕ := (answer.map CmdResult.serverSeq).getD 0

def tellEnvelope (now : Time) (k : Call) (answer : Option CmdResult) : ServerEnvelope where
  type := match k with
    | .seat _ _ _ _ => .event .roomStarted
    | _ => .event .stateSnapshot
  roomID := k.room
  serverSeq := answerSeq answer
  ts := unixMilli now
  snapshot := answer.bind CmdResult.snapshot

/-- The initial snapshot in a message, for the history. -/
def tellGiven (k : Call) (answer : Option CmdResult) : Option (ID × ℕ) :=
  if k.initial then answer.map fun res => (k.room, res.serverSeq) else none

/-! ## The goroutine of a connection -/

def bindRecord (u : Setup σ) (room : ID) (player : PlayerID) : SessionRecord where
  roomID := room
  playerID := player
  ownerNode := u.nodeID

/-- `enqueue` on `c`, and the wait for `Close` when the buffer is full. -/
def enqueueThen (s : Sys σ) (c : ConnID) (env : ServerEnvelope) (given : Option (ID × ℕ))
    (rest : Option (ID × List PlayerID)) : Effect σ × Reader :=
  (.enqueue c env given, if (s.conn c).fits then .after rest else .waitClosed c rest)

def tellNext (u : Setup σ) (s : Sys σ) (c target : ConnID) (stage : Stage) (k : Call)
    (answer : Option CmdResult) : Effect σ × Reader :=
  match stage with
  | .setRoom => (.setRoom target k.room, .tell .register k answer)
  | .register =>
    (.register k.room (k.player (s.conn c).playerID) target, .tell .bind k answer)
  | .bind =>
    (.saveSession (s.conn target).sessionID (bindRecord u k.room (s.conn target).playerID)
      u.sessionTTL, .tell .send k answer)
  | .send => enqueueThen s target (tellEnvelope s.now k answer) (tellGiven k answer) k.rest

/-- `tryResume` between `LoadSession` and `Reconnect`. -/
def resumeNext (u : Setup σ) (s : Sys σ) (rec : SessionRecord) : Reader :=
  if s.listed rec.roomID then .submit (.resume rec.roomID)
  else if rec.ownerNode ≠ "" ∧ rec.ownerNode ≠ u.nodeID then
    .send (redirectEnvelope s.now rec.ownerNode)
  else
    .send (errorEnvelope s.now "ROOM_NOT_FOUND" "session referenced a room that no longer exists")

/-- `Enqueue` up to the end of its critical section. -/
def enqueueNext (u : Setup σ) (s : Sys σ) (player : PlayerID) (gameType : String) :
    Effect σ × Reader :=
  match u.games gameType with
  | none => (.silent, .clearPending (.room .unknownGameType))
  | some g =>
    let (queue, matched) := Matchmaking.enqueue g.maxPlayers (s.queues gameType) player
    (.setQueue gameType queue,
      match matched with
      | none => .idle
      | some players => .create gameType players)

/-- One pass of the loop of `seatMatchedPlayers` up to `Snapshot`. -/
def seatNext (s : Sys σ) (room : ID) : List PlayerID → Effect σ × Reader
  | [] => (.silent, .idle)
  | p :: rest =>
    match s.pending.lookup p with
    | none => (.silent, .seat room rest)
    | some conn => (.unpend p, .submit (.seat room p conn rest))

def Reader.next (u : Setup σ) (s : Sys σ) (c : ConnID) : Reader → Choice →
    Option (Effect σ × Reader)
  | .load, .go =>
    match s.sessions.loadSession s.now (s.conn c).sessionID with
    | none => some (.silent, .idle)
    | some rec => some (.silent, .get rec)
  | .get rec, .go => some (.silent, resumeNext u s rec)
  | .submit k, .go =>
    if s.accepts k.room then
      some (.submit k.room (k.command (s.conn c).playerID), .await k s.chans)
    else none
  | .submit k, .stopped =>
    if s.stopped k.room then some (.silent, k.failed s.now (.room .roomClosed)) else none
  | .await k ch, .go =>
    match s.replies ch with
    | none => none
    | some res =>
      match res.err with
      | some e => some (.silent, k.failed s.now e)
      | none => some (.silent, k.succeeded res)
  | .await k _, .stopped =>
    if s.stopped k.room then some (.silent, k.failed s.now (.room .roomClosed)) else none
  | .await k _, .timeout => some (.silent, k.failed s.now .deadlineExceeded)
  | .tell stage k answer, .go =>
    match k.target c with
    | none => none
    | some target => some (tellNext u s c target stage k answer)
  | .send env, .go => some (enqueueThen s c env none none)
  | .pend gameType, .go => some (.pend (s.conn c).playerID c gameType, .enqueue gameType)
  | .enqueue gameType, .go => some (enqueueNext u s (s.conn c).playerID gameType)
  | .create gameType players, .fresh id =>
    match u.games gameType, s.actor id with
    | some g, none => some (.createRoom id gameType g, joining id players)
    | _, _ => none
  | .clearPending e, .go => some (.unpend (s.conn c).playerID, .send (failureEnvelope s.now e))
  | .status room, .go =>
    match s.status room with
    | none => none
    | some view => some (.silent, .seat room view.players)
  | .status room, .stopped => if s.stopped room then some (.silent, .idle) else none
  | .status _, .timeout => some (.silent, .idle)
  | .seat room players, .go => some (seatNext s room players)
  | .waitClosed target rest, .go =>
    if (s.conn target).closer = .done then some (.silent, .after rest) else none
  | _, _ => none

/-! ## `onConnectionClosed` -/

def Closer.next (u : Setup σ) (s : Sys σ) (c : ConnID) : Closer → Choice →
    Option (Effect σ × Closer)
  | .start, .go =>
    match s.pending.lookup (s.conn c).playerID with
    | none => some (.silent, .getRoom)
    | some _ =>
      some (.unpend (s.conn c).playerID,
        .dequeue ((s.pendingGT.lookup (s.conn c).playerID).getD ""))
  | .dequeue gameType, .go =>
    some (.setQueue gameType (Matchmaking.dequeue (s.queues gameType) (s.conn c).playerID).1,
      .getRoom)
  | .getRoom, .go =>
    match (s.conn c).room with
    | none => some (.silent, .done)
    | some room => some (.silent, .unregister room)
  | .unregister room, .go => some (.unregister room (s.conn c).playerID c, .submit room)
  | .submit room, .go =>
    if s.accepts room then
      some (.submit room (.disconnect (s.conn c).playerID), .await room s.chans)
    else none
  | .submit room, .stopped => if s.stopped room then some (.silent, .bind room) else none
  | .await room ch, .go => if (s.replies ch).isSome then some (.silent, .bind room) else none
  | .await room _, .stopped => if s.stopped room then some (.silent, .bind room) else none
  | .await room _, .timeout => some (.silent, .bind room)
  | .bind room, .go =>
    some (.saveSession (s.conn c).sessionID (bindRecord u room (s.conn c).playerID) u.recordTTL,
      .done)
  | _, _ => none

/-! ## `GCSweepOnce` -/

/-- The sweep's decision about a room. -/
def sweepable (u : Setup σ) (now : Time) (status : Status) : Bool :=
  match status.lifecycle with
  | .waiting => now - status.lastActivityAt > u.waitingTTL
  | .finished => now - status.finishedAt > u.finishedLinger
  | _ => false

def Sweeper.next (u : Setup σ) (s : Sys σ) : Sweeper → Choice → Option (Effect σ × Sweeper)
  | .visit _ [], .go => some (.silent, .idle)
  | .visit now (room :: rest), .go =>
    match s.status room with
    | none => none
    | some view =>
      some (.silent, if sweepable u now view then .submit now room rest else .visit now rest)
  | .visit now (room :: rest), .stopped =>
    if s.stopped room then some (.silent, .visit now rest) else none
  | .submit now room rest, .go =>
    if s.accepts room then some (.submit room .forceClose, .await now room s.chans rest) else none
  | .submit now room rest, .stopped =>
    if s.stopped room then some (.silent, .visit now rest) else none
  | .await now _ ch rest, .go =>
    if (s.replies ch).isSome then some (.silent, .visit now rest) else none
  | .await now room _ rest, .stopped =>
    if s.stopped room then some (.silent, .visit now rest) else none
  | _, _ => none

/-! ## The room actor -/

/-- `handle` or `handleTick`; what it has to do outside its fields is left in `todo`. -/
def turnWith (a : Actor σ) (i : Input) (ch : Option ChanID) (queue : List Ticket) : Actor σ :=
  let (room, outs) := Rooms.step a.game a.room i
  { a with room := room, queue := queue, todo := outs.map (Op.ofOutput ch) }

/-- The end of one `Broadcast`. -/
def Actor.complete (a : Actor σ) (env : ServerEnvelope) (rest : List Op) : Actor σ :=
  { a with todo := rest,
           completed :=
            if env.type = .event .stateDiff then a.completed ++ [env.serverSeq] else a.completed }

/-- The next output of a turn; `i` picks the connection in a loop over the Hub's map. -/
def actNext (u : Setup σ) (s : Sys σ) (id : ID) (a : Actor σ) (i : ℕ) : Option (Sys σ) :=
  match a.todo with
  | [] => none
  | .broadcast event :: rest =>
    some (s.setActor id { a with
      todo := .deliver (buildEnvelope s.now event)
        (Table.values (s.hub.connectionsFor event.roomID)) :: rest })
  | .deliver env targets :: rest =>
    if targets.isEmpty then some (s.setActor id (a.complete env rest))
    else
      match targets[i]? with
      | none => none
      | some c =>
        let loop := Op.deliver env (targets.eraseIdx i) :: rest
        let todo := if (s.conn c).fits then loop else .waitClosed c :: loop
        some ((s.setActor id { a with todo := todo }).enqueue c env none)
  | .waitClosed c :: rest =>
    if (s.conn c).closer = .done then some (s.setActor id { a with todo := rest }) else none
  | .reply ch res :: rest =>
    let s' := s.setActor id { a with todo := rest }
    match ch with
    | none => some s'
    | some ch => some { s' with replies := Function.update s.replies ch (some res) }
  | .afterFunc player generation :: rest =>
    let timer := { player := player, generation := generation, due := s.now + u.roomGrace }
    some (s.setActor id { a with todo := rest, timers := a.timers ++ [timer] })

/-! ## The node -/

inductive Label
  | dial (sessionID : String)
  | recv (c : ConnID) (m : Incoming)
  | hangup (c : ConnID)
  | pump (c : ConnID)
  | run (c : ConnID) (choice : Choice)
  | close (c : ConnID) (choice : Choice)
  | turn (id : ID)
  | tick (id : ID)
  | act (id : ID) (i : ℕ)
  | fire (id : ID) (i : ℕ)
  | quit (id : ID) (i : ℕ)
  | remove (id : ID)
  | stop (id : ID)
  | sweepRooms (rooms : List ID)
  | gc (choice : Choice)
  | sweepSessions
  | clock (t : Time)

/-- An actor between two turns of its loop. -/
def Actor.ready (a : Actor σ) : Bool := a.todo.isEmpty && decide (a.room.lifecycle ≠ .closed)

/-- An actor that has left its loop. -/
def Actor.left (a : Actor σ) : Bool := a.todo.isEmpty && decide (a.room.lifecycle = .closed)

/-- A move of the room's own goroutines. -/
def roomStep (u : Setup σ) (s : Sys σ) (id : ID) (a : Actor σ) : Label → Option (Sys σ)
  | .turn _ =>
    match a.queue with
    | [] => none
    | t :: rest =>
      if a.ready then some (s.setActor id (turnWith a (.command s.now t.cmd) t.reply rest))
      else none
  | .tick _ =>
    if a.ready then some (s.setActor id (turnWith a (.tick s.now) none a.queue)) else none
  | .act _ i => actNext u s id a i
  | .fire _ i =>
    match a.timers[i]? with
    | none => none
    | some timer =>
      if timer.due ≤ s.now ∧ a.queue.length < cmdCap then
        some (s.setActor id { a with
          queue := a.queue ++ [{ cmd := .graceExpired timer.player timer.generation }],
          timers := a.timers.eraseIdx i })
      else none
  | .quit _ i =>
    if a.stopped then some (s.setActor id { a with timers := a.timers.eraseIdx i }) else none
  | .remove _ => if a.left ∧ a.listed then some (s.setActor id { a with listed := false }) else none
  | .stop _ =>
    if a.left ∧ ¬ a.listed ∧ ¬ a.stopped then some (s.setActor id { a with stopped := true })
    else none
  | _ => none

def step (u : Setup σ) (s : Sys σ) : Label → Option (Sys σ)
  | .dial sessionID =>
    some { s.setConn s.conns { playerID := u.owner sessionID, sessionID := sessionID,
                               reader := .load } with
           conns := s.conns + 1 }
  | .recv c m =>
    if (s.conn c).pumping ∧ (s.conn c).reader.isIdle then
      some (s.goto c (handleMessage s.now (s.conn c) m))
    else none
  | .hangup c => if (s.conn c).pumping then some (s.close c) else none
  | .pump c =>
    if (s.conn c).pumping ∧ (s.conn c).drained < (s.conn c).sent.length then
      some (s.setConn c { s.conn c with drained := (s.conn c).drained + 1 })
    else none
  | .run c choice =>
    ((s.conn c).reader.next u s c choice).map fun next => (s.apply next.1).goto c next.2
  | .close c choice =>
    ((s.conn c).closer.next u s c choice).map fun next => (s.apply next.1).gotoCloser c next.2
  | .turn id => (s.actor id).bind fun a => roomStep u s id a (.turn id)
  | .tick id => (s.actor id).bind fun a => roomStep u s id a (.tick id)
  | .act id i => (s.actor id).bind fun a => roomStep u s id a (.act id i)
  | .fire id i => (s.actor id).bind fun a => roomStep u s id a (.fire id i)
  | .quit id i => (s.actor id).bind fun a => roomStep u s id a (.quit id i)
  | .remove id => (s.actor id).bind fun a => roomStep u s id a (.remove id)
  | .stop id => (s.actor id).bind fun a => roomStep u s id a (.stop id)
  | .sweepRooms rooms =>
    match s.sweeper with
    | .idle => if rooms.all s.listed then some { s with sweeper := .visit s.now rooms } else none
    | _ => none
  | .gc choice =>
    (s.sweeper.next u s choice).map fun next => { s.apply next.1 with sweeper := next.2 }
  | .sweepSessions => some { s with sessions := s.sessions.sweep s.now }
  | .clock t => some { s with now := t }

/-- A run of a node that has just started. -/
def run (u : Setup σ) (ls : List Label) : Option (Sys σ) := exec (step u) {} ls

end Node
end RealtimeEngine.Transport
