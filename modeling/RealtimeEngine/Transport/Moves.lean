import RealtimeEngine.Transport.Server

/-! Every move a node can make, with the guards that allow it. `step_move` is
proved once; later modules split on its cases and never unfold a handler. -/
namespace RealtimeEngine.Transport
open Foundations Domain Rooms Storage Matchmaking
set_option autoImplicit false
set_option maxHeartbeats 250000

section Moves
variable {σ : Type}

/-! ## Connection goroutines -/

/-- An access of the goroutine of `c`, from one place to the next. -/
inductive ReaderStep (u : Setup σ) (s : Sys σ) (c : ConnID) : Reader → Effect σ → Reader → Prop
  | unknown : ReaderStep u s c .load .silent .idle
  | loaded (rec : SessionRecord)
      (h : s.sessions.loadSession s.now (s.conn c).sessionID = some rec) :
      ReaderStep u s c .load .silent (.get rec)
  | found (rec : SessionRecord) (h : s.listed rec.roomID = true) :
      ReaderStep u s c (.get rec) .silent (.submit (.resume rec.roomID))
  | missing (rec : SessionRecord) (env : ServerEnvelope) (h : env.type.versioned = false) :
      ReaderStep u s c (.get rec) .silent (.send env)
  | submitted (k : Call) (h : s.accepts k.room = true) :
      ReaderStep u s c (.submit k) (.submit k.room (k.command (s.conn c).playerID))
        (.await k s.chans)
  | refused (k : Call) (h : s.stopped k.room = true) :
      ReaderStep u s c (.submit k) .silent (k.failed s.now (.room .roomClosed))
  | failed (k : Call) (ch : ChanID) (e : Err)
      (h : (∃ res, s.replies ch = some res ∧ res.err = some e) ∨
        s.stopped k.room = true ∧ e = .room .roomClosed ∨ e = .deadlineExceeded) :
      ReaderStep u s c (.await k ch) .silent (k.failed s.now e)
  | succeeded (k : Call) (ch : ChanID) (res : CmdResult) (h : s.replies ch = some res)
      (he : res.err = none) : ReaderStep u s c (.await k ch) .silent (k.succeeded res)
  | setRoom (k : Call) (answer : Option CmdResult) (target : ConnID)
      (ht : k.target c = some target) :
      ReaderStep u s c (.tell .setRoom k answer) (.setRoom target k.room)
        (.tell .register k answer)
  | registered (k : Call) (answer : Option CmdResult) (target : ConnID)
      (ht : k.target c = some target) :
      ReaderStep u s c (.tell .register k answer)
        (.register k.room (k.player (s.conn c).playerID) target) (.tell .bind k answer)
  | bound (k : Call) (answer : Option CmdResult) (target : ConnID)
      (ht : k.target c = some target) :
      ReaderStep u s c (.tell .bind k answer)
        (.saveSession (s.conn target).sessionID (bindRecord u k.room (s.conn target).playerID)
          u.sessionTTL) (.tell .send k answer)
  | told (k : Call) (answer : Option CmdResult) (target : ConnID) (pc : Reader)
      (ht : k.target c = some target)
      (hp : pc = if (s.conn target).fits then .after k.rest else .waitClosed target k.rest) :
      ReaderStep u s c (.tell .send k answer)
        (.enqueue target (tellEnvelope s.now k answer) (tellGiven k answer)) pc
  | sent (env : ServerEnvelope) (pc : Reader)
      (hp : pc = if (s.conn c).fits then .idle else .waitClosed c none) :
      ReaderStep u s c (.send env) (.enqueue c env none) pc
  | pended (gameType : String) :
      ReaderStep u s c (.pend gameType) (.pend (s.conn c).playerID c gameType) (.enqueue gameType)
  | unlisted (gameType : String) (h : u.games gameType = none) :
      ReaderStep u s c (.enqueue gameType) .silent (.clearPending (.room .unknownGameType))
  | queued (gameType : String) (g : Game σ) (queue : List PlayerID)
      (hg : u.games gameType = some g)
      (hq : Matchmaking.enqueue g.maxPlayers (s.queues gameType) (s.conn c).playerID =
        (queue, none)) :
      ReaderStep u s c (.enqueue gameType) (.setQueue gameType queue) .idle
  | matched (gameType : String) (g : Game σ) (queue players : List PlayerID)
      (hg : u.games gameType = some g)
      (hq : Matchmaking.enqueue g.maxPlayers (s.queues gameType) (s.conn c).playerID =
        (queue, some players)) :
      ReaderStep u s c (.enqueue gameType) (.setQueue gameType queue) (.create gameType players)
  | created (gameType : String) (players : List PlayerID) (id : ID) (g : Game σ)
      (hg : u.games gameType = some g) (hn : s.actor id = none) :
      ReaderStep u s c (.create gameType players) (.createRoom id gameType g) (joining id players)
  | cleared (e : Err) :
      ReaderStep u s c (.clearPending e) (.unpend (s.conn c).playerID)
        (.send (failureEnvelope s.now e))
  | observed (room : ID) (a : Actor σ) (ha : s.actor room = some a) (ht : a.todo = []) :
      ReaderStep u s c (.status room) .silent (.seat room a.room.seatOrder)
  | unobserved (room : ID) : ReaderStep u s c (.status room) .silent .idle
  | finished (room : ID) : ReaderStep u s c (.seat room []) .silent .idle
  | skipped (room : ID) (p : PlayerID) (rest : List PlayerID) (h : s.pending.lookup p = none) :
      ReaderStep u s c (.seat room (p :: rest)) .silent (.seat room rest)
  | popped (room : ID) (p : PlayerID) (rest : List PlayerID) (conn : ConnID)
      (h : s.pending.lookup p = some conn) :
      ReaderStep u s c (.seat room (p :: rest)) (.unpend p) (.submit (.seat room p conn rest))
  | waited (target : ConnID) (rest : Option (ID × List PlayerID))
      (h : (s.conn target).closer = .done) :
      ReaderStep u s c (.waitClosed target rest) .silent (.after rest)

theorem tellNext_step (u : Setup σ) (s : Sys σ) (c target : ConnID) (stage : Stage) (k : Call)
    (answer : Option CmdResult) (ht : k.target c = some target) :
    ReaderStep u s c (.tell stage k answer) (tellNext u s c target stage k answer).1
      (tellNext u s c target stage k answer).2 := by
  cases stage with
  | setRoom => exact .setRoom k answer target ht
  | register => exact .registered k answer target ht
  | bind => exact .bound k answer target ht
  | send =>
    exact .told k answer target _ ht rfl

theorem resumeNext_step (u : Setup σ) (s : Sys σ) (c : ConnID) (rec : SessionRecord) :
    ReaderStep u s c (.get rec) .silent (resumeNext u s rec) := by
  unfold resumeNext
  split
  · next h => exact .found rec h
  · split <;> exact .missing rec _ rfl

theorem enqueueNext_step (u : Setup σ) (s : Sys σ) (c : ConnID) (gameType : String) :
    ReaderStep u s c (.enqueue gameType) (enqueueNext u s (s.conn c).playerID gameType).1
      (enqueueNext u s (s.conn c).playerID gameType).2 := by
  unfold enqueueNext
  split
  · next hg => exact .unlisted gameType hg
  · next g hg =>
    dsimp only
    split
    · next hm => exact .queued gameType g _ hg (Prod.ext rfl hm)
    · next players hm => exact .matched gameType g _ players hg (Prod.ext rfl hm)

theorem seatNext_step (u : Setup σ) (s : Sys σ) (c : ConnID) (room : ID)
    (players : List PlayerID) :
    ReaderStep u s c (.seat room players) (seatNext s room players).1
      (seatNext s room players).2 := by
  unfold seatNext
  split
  · exact .finished room
  · next p rest =>
    split
    · next h => exact .skipped room p rest h
    · next conn h => exact .popped room p rest conn h

theorem status_some (s : Sys σ) (id : ID) (view : Status) (h : s.status id = some view) :
    ∃ a, s.actor id = some a ∧ a.todo = [] ∧ view = statusLocked a.room := by
  unfold Sys.status at h
  split at h
  · cases h
  · next a ha =>
    split at h
    · next ht => exact ⟨a, ha, List.isEmpty_iff.mp ht.1, (Option.some.inj h).symm⟩
    · cases h

theorem reader_step (u : Setup σ) (s : Sys σ) (c : ConnID) (pc pc' : Reader) (choice : Choice)
    (e : Effect σ) (h : pc.next u s c choice = some (e, pc')) : ReaderStep u s c pc e pc' := by
  unfold Reader.next at h
  split at h
  · split at h
    · cases h
      exact .unknown
    · next rec hr =>
      cases h
      exact .loaded rec hr
  · next rec =>
    cases h
    exact resumeNext_step u s c rec
  · next k =>
    split at h
    · next ha =>
      cases h
      exact .submitted k ha
    · cases h
  · next k =>
    split at h
    · next hs =>
      cases h
      exact .refused k hs
    · cases h
  · next k ch =>
    split at h
    · cases h
    · next res hr =>
      split at h
      · next err he =>
        cases h
        exact .failed k ch err (Or.inl ⟨res, hr, he⟩)
      · next he =>
        cases h
        exact .succeeded k ch res hr he
  · next k ch =>
    split at h
    · next hs =>
      cases h
      exact .failed k ch _ (Or.inr (Or.inl ⟨hs, rfl⟩))
    · cases h
  · next k ch =>
    cases h
    exact .failed k ch _ (Or.inr (Or.inr rfl))
  · next stage k answer =>
    split at h
    · cases h
    · next target ht =>
      have hn := tellNext_step u s c target stage k answer ht
      rw [Option.some.inj h] at hn
      exact hn
  · next env =>
    cases h
    exact .sent env _ rfl
  · next gameType =>
    cases h
    exact .pended gameType
  · next gameType =>
    have hn := enqueueNext_step u s c gameType
    rw [Option.some.inj h] at hn
    exact hn
  · next gameType players id =>
    split at h
    · next g hg hn =>
      cases h
      exact .created gameType players id g hg hn
    · cases h
  · next err =>
    cases h
    exact .cleared err
  · next room =>
    split at h
    · cases h
    · next view hv =>
      cases h
      obtain ⟨a, ha, ht, rfl⟩ := status_some s room view hv
      exact .observed room a ha ht
  · next room =>
    split at h
    · cases h
      exact .unobserved room
    · cases h
  · next room =>
    cases h
    exact .unobserved room
  · next room players =>
    have hn := seatNext_step u s c room players
    rw [Option.some.inj h] at hn
    exact hn
  · next target rest =>
    split at h
    · next hd =>
      cases h
      exact .waited target rest hd
    · cases h
  · cases h

/-- The places that one statement only leads to. -/
def Reader.entered : Reader → Bool
  | .get _ | .submit (.resume _) | .submit (.seat _ _ _ _) | .await _ _ | .tell .register _ _
  | .tell .bind _ _ | .enqueue _ | .create _ _ => true
  | _ => false

/-- The statements that lead to such a place. -/
inductive Enters (u : Setup σ) (s : Sys σ) (c : ConnID) : Reader → Effect σ → Reader → Prop
  | loaded (rec : SessionRecord) : Enters u s c .load .silent (.get rec)
  | found (rec : SessionRecord) :
      Enters u s c (.get rec) .silent (.submit (.resume rec.roomID))
  | submitted (k : Call) (h : s.accepts k.room = true) :
      Enters u s c (.submit k) (.submit k.room (k.command (s.conn c).playerID)) (.await k s.chans)
  | setRoom (k : Call) (answer : Option CmdResult) (target : ConnID)
      (ht : k.target c = some target) :
      Enters u s c (.tell .setRoom k answer) (.setRoom target k.room) (.tell .register k answer)
  | registered (k : Call) (answer : Option CmdResult) (target : ConnID)
      (ht : k.target c = some target) :
      Enters u s c (.tell .register k answer)
        (.register k.room (k.player (s.conn c).playerID) target) (.tell .bind k answer)
  | pended (gameType : String) :
      Enters u s c (.pend gameType) (.pend (s.conn c).playerID c gameType) (.enqueue gameType)
  | matched (gameType : String) (g : Game σ) (queue players : List PlayerID)
      (hg : u.games gameType = some g)
      (hq : Matchmaking.enqueue g.maxPlayers (s.queues gameType) (s.conn c).playerID =
        (queue, some players)) :
      Enters u s c (.enqueue gameType) (.setQueue gameType queue) (.create gameType players)
  | popped (room : ID) (p : PlayerID) (rest : List PlayerID) (conn : ConnID) :
      Enters u s c (.seat room (p :: rest)) (.unpend p) (.submit (.seat room p conn rest))

theorem ReaderStep.enters {u : Setup σ} {s : Sys σ} {c : ConnID} {pc pc' : Reader}
    {e : Effect σ} (h : ReaderStep u s c pc e pc') (he : pc'.entered = true) :
    Enters u s c pc e pc' := by
  cases h with
  | loaded rec hr => exact .loaded rec
  | found rec hr => exact .found rec
  | submitted k ha => exact .submitted k ha
  | setRoom k answer target ht => exact .setRoom k answer target ht
  | registered k answer target ht => exact .registered k answer target ht
  | pended gameType => exact .pended gameType
  | matched gameType g queue players hg hq => exact .matched gameType g queue players hg hq
  | popped room p rest conn hp => exact .popped room p rest conn
  | refused k hs => cases k <;> cases he
  | failed k ch err hs => cases k <;> cases he
  | succeeded k ch res hr hok =>
    cases k with
    | join room p rest => cases rest <;> cases he
    | _ => cases he
  | told k answer target pc ht hp =>
    rw [hp] at he
    split at he
    · generalize k.rest = rest at he
      cases rest <;> cases he
    · cases he
  | sent env pc hp =>
    rw [hp] at he
    split at he <;> cases he
  | created gameType players id g hg hn => cases players <;> cases he
  | waited target rest hd => cases rest <;> cases he
  | _ => cases he

/-! ## Closing a connection -/

/-- An access of the `closeOnce` body of `c`. -/
inductive CloserStep (u : Setup σ) (s : Sys σ) (c : ConnID) : Closer → Effect σ → Closer → Prop
  | searched (h : s.pending.lookup (s.conn c).playerID = none) :
      CloserStep u s c .start .silent .getRoom
  | unpended (conn : ConnID) (h : s.pending.lookup (s.conn c).playerID = some conn) :
      CloserStep u s c .start (.unpend (s.conn c).playerID)
        (.dequeue ((s.pendingGT.lookup (s.conn c).playerID).getD ""))
  | dequeued (gameType : String) :
      CloserStep u s c (.dequeue gameType)
        (.setQueue gameType (Matchmaking.dequeue (s.queues gameType) (s.conn c).playerID).1)
        .getRoom
  | roomless (h : (s.conn c).room = none) : CloserStep u s c .getRoom .silent .done
  | roomed (room : ID) (h : (s.conn c).room = some room) :
      CloserStep u s c .getRoom .silent (.unregister room)
  | unregistered (room : ID) :
      CloserStep u s c (.unregister room) (.unregister room (s.conn c).playerID c) (.submit room)
  | submitted (room : ID) (h : s.accepts room = true) :
      CloserStep u s c (.submit room) (.submit room (.disconnect (s.conn c).playerID))
        (.await room s.chans)
  | refused (room : ID) (h : s.stopped room = true) :
      CloserStep u s c (.submit room) .silent (.bind room)
  | answered (room : ID) (ch : ChanID) : CloserStep u s c (.await room ch) .silent (.bind room)
  | bound (room : ID) :
      CloserStep u s c (.bind room)
        (.saveSession (s.conn c).sessionID (bindRecord u room (s.conn c).playerID)
          u.recordTTL) .done

theorem closer_step (u : Setup σ) (s : Sys σ) (c : ConnID) (pc pc' : Closer) (choice : Choice)
    (e : Effect σ) (h : pc.next u s c choice = some (e, pc')) : CloserStep u s c pc e pc' := by
  unfold Closer.next at h
  split at h
  · split at h
    · next hp =>
      cases h
      exact .searched hp
    · next conn hp =>
      cases h
      exact .unpended conn hp
  · next gameType =>
    cases h
    exact .dequeued gameType
  · split at h
    · next hr =>
      cases h
      exact .roomless hr
    · next room hr =>
      cases h
      exact .roomed room hr
  · next room =>
    cases h
    exact .unregistered room
  · next room =>
    split at h
    · next ha =>
      cases h
      exact .submitted room ha
    · cases h
  · next room =>
    split at h
    · next hs =>
      cases h
      exact .refused room hs
    · cases h
  · next room ch =>
    split at h
    · cases h
      exact .answered room ch
    · cases h
  · next room ch =>
    split at h
    · cases h
      exact .answered room ch
    · cases h
  · next room ch =>
    cases h
    exact .answered room ch
  · next room =>
    cases h
    exact .bound room
  · cases h

/-! ## The sweep of the rooms -/

/-- The steps of `GCSweepOnce`, with what the sweep finds. -/
inductive SweepStep (u : Setup σ) (s : Sys σ) : Sweeper → Effect σ → Sweeper → Prop
  | ended (now : Time) : SweepStep u s (.visit now []) .silent .idle
  | looked (now : Time) (room : ID) (rest : List ID) (a : Actor σ) (ha : s.actor room = some a) :
      SweepStep u s (.visit now (room :: rest)) .silent
        (if sweepable u now (statusLocked a.room) then .submit now room rest else .visit now rest)
  | gone (now : Time) (room : ID) (rest : List ID) (hs : s.stopped room = true) :
      SweepStep u s (.visit now (room :: rest)) .silent (.visit now rest)
  | submitted (now : Time) (room : ID) (rest : List ID) (hacc : s.accepts room = true) :
      SweepStep u s (.submit now room rest) (.submit room .forceClose)
        (.await now room s.chans rest)
  | refused (now : Time) (room : ID) (rest : List ID) (hs : s.stopped room = true) :
      SweepStep u s (.submit now room rest) .silent (.visit now rest)
  | answered (now : Time) (room : ID) (ch : ChanID) (rest : List ID)
      (hr : (s.replies ch).isSome = true) :
      SweepStep u s (.await now room ch rest) .silent (.visit now rest)
  | left (now : Time) (room : ID) (ch : ChanID) (rest : List ID) (hs : s.stopped room = true) :
      SweepStep u s (.await now room ch rest) .silent (.visit now rest)

theorem sweeper_next_step {u : Setup σ} {s : Sys σ} {w w' : Sweeper} {choice : Choice} {e : Effect σ}
    (h : w.next u s choice = some (e, w')) : SweepStep u s w e w' := by
  unfold Sweeper.next at h
  split at h
  · next now =>
    cases h
    exact .ended now
  · next now room rest =>
    split at h
    · cases h
    · next view hv =>
      cases h
      obtain ⟨a, ha, -, rfl⟩ := status_some s room view hv
      exact .looked now room rest a ha
  · next now room rest =>
    split at h
    · next hs =>
      cases h
      exact .gone now room rest hs
    · cases h
  · next now room rest =>
    split at h
    · next hacc =>
      cases h
      exact .submitted now room rest hacc
    · cases h
  · next now room rest =>
    split at h
    · next hs =>
      cases h
      exact .refused now room rest hs
    · cases h
  · next now room ch rest =>
    split at h
    · next hr =>
      cases h
      exact .answered now room ch rest hr
    · cases h
  · next now room ch rest =>
    split at h
    · next hs =>
      cases h
      exact .left now room ch rest hs
    · cases h
  · cases h

/-- The sweep reads the rooms and at most submits a `ForceClose`. -/
theorem SweepStep.effect {u : Setup σ} {s : Sys σ} {w w' : Sweeper} {e : Effect σ}
    (h : SweepStep u s w e w') : e = .silent ∨ ∃ room, e = .submit room .forceClose := by
  cases h with
  | submitted now room rest => exact Or.inr ⟨room, rfl⟩
  | _ => exact Or.inl rfl

/-- The sweep comes to wait only by submitting its `ForceClose`, on a new channel. -/
theorem SweepStep.to_await {u : Setup σ} {s : Sys σ} {w : Sweeper} {e : Effect σ} {now : Time}
    {room : ID} {ch : ChanID} {rest : List ID} (h : SweepStep u s w e (.await now room ch rest)) :
    w = .submit now room rest ∧ e = .submit room .forceClose ∧ ch = s.chans ∧
      s.accepts room = true := by
  generalize hw : Sweeper.await now room ch rest = w' at h
  cases h with
  | looked now room rest a ha => split at hw <;> cases hw
  | submitted now room rest hacc =>
    cases hw
    exact ⟨rfl, rfl, rfl, hacc⟩
  | _ => cases hw

/-! ## Outputs of a turn -/

/-- One output of the room's turn, or one pass of its loop over the Hub's map. -/
inductive ActStep (u : Setup σ) (s : Sys σ) (id : ID) (a : Actor σ) : ℕ → Sys σ → Prop
  | broadcast (i : ℕ) (event : RoomEvent) (rest : List Op) (ht : a.todo = .broadcast event :: rest) :
      ActStep u s id a i (s.setActor id { a with
        todo := .deliver (buildEnvelope s.now event)
          (Table.values (s.hub.connectionsFor event.roomID)) :: rest })
  | completed (i : ℕ) (env : ServerEnvelope) (rest : List Op) (ht : a.todo = .deliver env [] :: rest) :
      ActStep u s id a i (s.setActor id (a.complete env rest))
  | delivered (i : ℕ) (env : ServerEnvelope) (targets : List ConnID) (rest todo : List Op)
      (c : ConnID) (ht : a.todo = .deliver env targets :: rest) (hc : targets[i]? = some c)
      (hd : todo = .deliver env (targets.eraseIdx i) :: rest ∨
        todo = .waitClosed c :: .deliver env (targets.eraseIdx i) :: rest) :
      ActStep u s id a i ((s.setActor id { a with todo := todo }).enqueue c env none)
  | closed (i : ℕ) (c : ConnID) (rest : List Op) (ht : a.todo = .waitClosed c :: rest) :
      ActStep u s id a i (s.setActor id { a with todo := rest })
  | dropped (i : ℕ) (res : CmdResult) (rest : List Op) (ht : a.todo = .reply none res :: rest) :
      ActStep u s id a i (s.setActor id { a with todo := rest })
  | replied (i : ℕ) (ch : ChanID) (res : CmdResult) (rest : List Op)
      (ht : a.todo = .reply (some ch) res :: rest) :
      ActStep u s id a i { s.setActor id { a with todo := rest } with
        replies := Function.update s.replies ch (some res) }
  | armed (i : ℕ) (player : PlayerID) (generation : ℕ) (rest : List Op) (timers : List GraceTimer)
      (ht : a.todo = .afterFunc player generation :: rest) :
      ActStep u s id a i (s.setActor id { a with todo := rest, timers := timers })

theorem act_step (u : Setup σ) (s s' : Sys σ) (id : ID) (a : Actor σ) (i : ℕ)
    (h : actNext u s id a i = some s') : ActStep u s id a i s' := by
  unfold actNext at h
  split at h
  · cases h
  · next event rest ht =>
    cases h
    exact .broadcast i event rest ht
  · next env targets rest ht =>
    split at h
    · next he =>
      cases h
      rw [List.isEmpty_iff.mp he] at ht
      exact .completed i env rest ht
    · split at h
      · cases h
      · next c hc =>
        cases h
        apply ActStep.delivered i env targets rest _ c ht hc
        by_cases hf : (s.conn c).fits = true
        · exact Or.inl (if_pos hf)
        · exact Or.inr (if_neg hf)
  · next c rest ht =>
    split at h
    · cases h
      exact .closed i c rest ht
    · cases h
  · next ch res rest ht =>
    dsimp only at h
    split at h
    · cases h
      exact .dropped i res rest ht
    · next ch =>
      cases h
      exact .replied i ch res rest ht
  · next player generation rest ht =>
    cases h
    exact .armed i player generation rest _ ht

/-! ## The node -/

inductive Move (u : Setup σ) (s : Sys σ) : Label → Sys σ → Prop
  | dial (sid : String) :
      Move u s (.dial sid) { s.setConn s.conns { playerID := u.owner sid, sessionID := sid,
                                                 reader := .load } with conns := s.conns + 1 }
  | recv (c : ConnID) (m : Incoming) (hp : (s.conn c).pumping = true)
      (hi : (s.conn c).reader = .idle) :
      Move u s (.recv c m) (s.goto c (handleMessage s.now (s.conn c) m))
  | hangup (c : ConnID) (hp : (s.conn c).pumping = true) : Move u s (.hangup c) (s.close c)
  | pump (c : ConnID) (hp : (s.conn c).pumping = true) :
      Move u s (.pump c) (s.setConn c { s.conn c with drained := (s.conn c).drained + 1 })
  | run (c : ConnID) (choice : Choice) (e : Effect σ) (pc : Reader)
      (h : ReaderStep u s c (s.conn c).reader e pc) :
      Move u s (.run c choice) ((s.apply e).goto c pc)
  | close (c : ConnID) (choice : Choice) (e : Effect σ) (pc : Closer)
      (h : CloserStep u s c (s.conn c).closer e pc) :
      Move u s (.close c choice) ((s.apply e).gotoCloser c pc)
  | turn (id : ID) (a : Actor σ) (t : Ticket) (rest : List Ticket) (ha : s.actor id = some a)
      (hq : a.queue = t :: rest) (ht : a.todo = []) (hl : a.room.lifecycle ≠ .closed) :
      Move u s (.turn id) (s.setActor id (turnWith a (.command s.now t.cmd) t.reply rest))
  | tick (id : ID) (a : Actor σ) (ha : s.actor id = some a) (ht : a.todo = [])
      (hl : a.room.lifecycle ≠ .closed) :
      Move u s (.tick id) (s.setActor id (turnWith a (.tick s.now) none a.queue))
  | act (id : ID) (i : ℕ) (a : Actor σ) (s' : Sys σ) (ha : s.actor id = some a)
      (h : ActStep u s id a i s') : Move u s (.act id i) s'
  | fire (id : ID) (i : ℕ) (a : Actor σ) (timer : GraceTimer) (ha : s.actor id = some a) :
      Move u s (.fire id i) (s.setActor id { a with
        queue := a.queue ++ [{ cmd := .graceExpired timer.player timer.generation }],
        timers := a.timers.eraseIdx i })
  | flag (l : Label) (id : ID) (a : Actor σ) (listed stopped : Bool) (timers : List GraceTimer)
      (ha : s.actor id = some a) (hl : l = .remove id ∨ l = .stop id ∨ ∃ i, l = .quit id i) :
      Move u s l (s.setActor id { a with listed := listed, stopped := stopped, timers := timers })
  | sweepRooms (rooms : List ID) (hi : s.sweeper = .idle) (hl : rooms.all s.listed = true) :
      Move u s (.sweepRooms rooms) { s with sweeper := .visit s.now rooms }
  | gc (choice : Choice) (e : Effect σ) (w : Sweeper) (h : SweepStep u s s.sweeper e w) :
      Move u s (.gc choice) { s.apply e with sweeper := w }
  | sweepSessions : Move u s .sweepSessions { s with sessions := s.sessions.sweep s.now }
  | clock (t : Time) : Move u s (.clock t) { s with now := t }

/-! Labels that name their move. -/

theorem Move.dial_inv {u : Setup σ} {s s' : Sys σ} {sid : String} (h : Move u s (.dial sid) s') :
    s' = { s.setConn s.conns { playerID := u.owner sid, sessionID := sid,
                               reader := .load } with conns := s.conns + 1 } := by
  cases h with
  | dial sid => rfl
  | flag l id a listed stopped timers ha hl => obtain hl | hl | ⟨i, hl⟩ := hl <;> cases hl

theorem Move.run_inv {u : Setup σ} {s s' : Sys σ} {c : ConnID} {choice : Choice}
    (h : Move u s (.run c choice) s') :
    ∃ e pc, ReaderStep u s c (s.conn c).reader e pc ∧ s' = (s.apply e).goto c pc := by
  cases h with
  | run c choice e pc hr => exact ⟨e, pc, hr, rfl⟩
  | flag l id a listed stopped timers ha hl => obtain hl | hl | ⟨i, hl⟩ := hl <;> cases hl

theorem Move.close_inv {u : Setup σ} {s s' : Sys σ} {c : ConnID} {choice : Choice}
    (h : Move u s (.close c choice) s') :
    ∃ e pc, CloserStep u s c (s.conn c).closer e pc ∧ s' = (s.apply e).gotoCloser c pc := by
  cases h with
  | close c choice e pc hr => exact ⟨e, pc, hr, rfl⟩
  | flag l id a listed stopped timers ha hl => obtain hl | hl | ⟨i, hl⟩ := hl <;> cases hl

theorem Move.turn_inv {u : Setup σ} {s s' : Sys σ} {id : ID} (h : Move u s (.turn id) s') :
    ∃ a t rest, s.actor id = some a ∧ a.queue = t :: rest ∧ a.room.lifecycle ≠ .closed ∧
      s' = s.setActor id (turnWith a (.command s.now t.cmd) t.reply rest) := by
  cases h with
  | turn id a t rest ha hq ht hl => exact ⟨a, t, rest, ha, hq, hl, rfl⟩
  | flag l id a listed stopped timers ha hl => obtain hl | hl | ⟨i, hl⟩ := hl <;> cases hl

theorem Move.act_inv {u : Setup σ} {s s' : Sys σ} {id : ID} {i : ℕ} (h : Move u s (.act id i) s') :
    ∃ a, s.actor id = some a ∧ ActStep u s id a i s' := by
  cases h with
  | act id i a s' ha hact => exact ⟨a, ha, hact⟩
  | flag l id a listed stopped timers ha hl => obtain hl | hl | ⟨i, hl⟩ := hl <;> cases hl

theorem ready_iff (a : Actor σ) : a.ready = true ↔ a.todo = [] ∧ a.room.lifecycle ≠ .closed := by
  unfold Actor.ready
  rw [Bool.and_eq_true, List.isEmpty_iff, decide_eq_true_iff]

theorem roomStep_move (u : Setup σ) (s s' : Sys σ) (id : ID) (a : Actor σ) (l : Label)
    (ha : s.actor id = some a) (h : roomStep u s id a l = some s')
    (hl : l = .turn id ∨ l = .tick id ∨ (∃ i, l = .act id i) ∨ (∃ i, l = .fire id i) ∨
      (∃ i, l = .quit id i) ∨ l = .remove id ∨ l = .stop id) : Move u s l s' := by
  obtain rfl | rfl | ⟨i, rfl⟩ | ⟨i, rfl⟩ | ⟨i, rfl⟩ | rfl | rfl := hl
  · unfold roomStep at h
    dsimp only at h
    split at h
    · cases h
    · next t rest hq =>
      split at h
      · next hr =>
        cases h
        obtain ⟨ht, hl⟩ := (ready_iff a).mp hr
        exact .turn id a t rest ha hq ht hl
      · cases h
  · unfold roomStep at h
    dsimp only at h
    split at h
    · next hr =>
      cases h
      obtain ⟨ht, hl⟩ := (ready_iff a).mp hr
      exact .tick id a ha ht hl
    · cases h
  · exact .act id i a s' ha (act_step u s s' id a i h)
  · unfold roomStep at h
    dsimp only at h
    split at h
    · cases h
    · next timer ht =>
      split at h
      · cases h
        exact .fire id i a timer ha
      · cases h
  · unfold roomStep at h
    dsimp only at h
    split at h
    · cases h
      exact .flag _ id a a.listed a.stopped _ ha (Or.inr (Or.inr ⟨i, rfl⟩))
    · cases h
  · unfold roomStep at h
    dsimp only at h
    split at h
    · cases h
      exact .flag _ id a false a.stopped a.timers ha (Or.inl rfl)
    · cases h
  · unfold roomStep at h
    dsimp only at h
    split at h
    · cases h
      exact .flag _ id a a.listed true a.timers ha (Or.inr (Or.inl rfl))
    · cases h

theorem step_move (u : Setup σ) (s s' : Sys σ) (l : Label) (h : step u s l = some s') :
    Move u s l s' := by
  have hroom : ∀ id l', ((s.actor id).bind fun a => roomStep u s id a l') = some s' →
      (l' = .turn id ∨ l' = .tick id ∨ (∃ i, l' = .act id i) ∨ (∃ i, l' = .fire id i) ∨
        (∃ i, l' = .quit id i) ∨ l' = .remove id ∨ l' = .stop id) → Move u s l' s' := by
    intro id l' hb hl
    obtain ⟨a, ha, hs⟩ := Option.bind_eq_some_iff.mp hb
    exact roomStep_move u s s' id a l' ha hs hl
  cases l with
  | dial sid =>
    cases h
    exact .dial sid
  | recv c m =>
    simp only [step] at h
    split at h
    · next hc =>
      cases h
      apply Move.recv c m hc.1
      cases hr : (s.conn c).reader <;> rw [hr] at hc <;> first | rfl | cases hc.2
    · cases h
  | hangup c =>
    simp only [step] at h
    split at h
    · next hp =>
      cases h
      exact .hangup c hp
    · cases h
  | pump c =>
    simp only [step] at h
    split at h
    · next hp =>
      cases h
      exact .pump c hp.1
    · cases h
  | run c choice =>
    obtain ⟨⟨e, pc⟩, hn, rfl⟩ := Option.map_eq_some_iff.mp h
    exact .run c choice e pc (reader_step u s c _ pc choice e hn)
  | close c choice =>
    obtain ⟨⟨e, pc⟩, hn, rfl⟩ := Option.map_eq_some_iff.mp h
    exact .close c choice e pc (closer_step u s c _ pc choice e hn)
  | turn id => exact hroom id _ h (Or.inl rfl)
  | tick id => exact hroom id _ h (Or.inr (Or.inl rfl))
  | act id i => exact hroom id _ h (Or.inr (Or.inr (Or.inl ⟨i, rfl⟩)))
  | fire id i => exact hroom id _ h (Or.inr (Or.inr (Or.inr (Or.inl ⟨i, rfl⟩))))
  | quit id i => exact hroom id _ h (Or.inr (Or.inr (Or.inr (Or.inr (Or.inl ⟨i, rfl⟩)))))
  | remove id => exact hroom id _ h (Or.inr (Or.inr (Or.inr (Or.inr (Or.inr (Or.inl rfl))))))
  | stop id => exact hroom id _ h (Or.inr (Or.inr (Or.inr (Or.inr (Or.inr (Or.inr rfl))))))
  | sweepRooms rooms =>
    simp only [step] at h
    split at h
    · next hi =>
      split at h
      · next hl =>
        cases h
        exact .sweepRooms rooms hi hl
      · cases h
    · cases h
  | gc choice =>
    obtain ⟨⟨e, w⟩, hn, rfl⟩ := Option.map_eq_some_iff.mp h
    exact .gc choice e w (sweeper_next_step hn)
  | sweepSessions =>
    cases h
    exact .sweepSessions
  | clock t =>
    cases h
    exact .clock t

end Moves
end RealtimeEngine.Transport
