import RealtimeEngine.Transport.Changes

/-! What one move can do to the actor of one room: its command channel grows at
the end and is taken from at the front by a turn, a turn leaves its outputs to
be done, and the outputs are done in order. -/
namespace RealtimeEngine.Transport
open Foundations Domain Rooms Storage Matchmaking
set_option autoImplicit false
set_option maxHeartbeats 250000

section Actors
variable {σ : Type} {u : Setup σ} {s s' : Sys σ} {l : Label}

/-- Who puts a command on the channel of a room. -/
inductive Pushes (s : Sys σ) : Label → ID → Ticket → Prop
  | call (c : ConnID) (choice : Choice) (k : Call) (hr : (s.conn c).reader = .submit k) :
      Pushes s (.run c choice) k.room
        { cmd := k.command (s.conn c).playerID, reply := some s.chans }
  | drop (c : ConnID) (choice : Choice) (room : ID) (hc : (s.conn c).closer = .submit room) :
      Pushes s (.close c choice) room
        { cmd := .disconnect (s.conn c).playerID, reply := some s.chans }
  | sweep (choice : Choice) (now : Time) (room : ID) (rest : List ID)
      (hw : s.sweeper = .submit now room rest) :
      Pushes s (.gc choice) room { cmd := .forceClose, reply := some s.chans }
  | grace (id : ID) (i : ℕ) (player : PlayerID) (generation : ℕ) :
      Pushes s (.fire id i) id { cmd := .graceExpired player generation }

/-- The operations that are neither a broadcast nor its loop. -/
def Op.plain : Op → Bool
  | .broadcast _ | .deliver _ _ => false
  | _ => true

/-- One output done, or one pass of the loop over the Hub's map. -/
inductive Progress (s : Sys σ) (i : ℕ) (a : Actor σ) : Actor σ → Prop
  | broadcast (event : RoomEvent) (rest : List Op) (ht : a.todo = .broadcast event :: rest) :
      Progress s i a { a with
        todo := .deliver (buildEnvelope s.now event)
          (Table.values (s.hub.connectionsFor event.roomID)) :: rest }
  | completed (env : ServerEnvelope) (rest : List Op) (ht : a.todo = .deliver env [] :: rest) :
      Progress s i a (a.complete env rest)
  | delivered (env : ServerEnvelope) (targets : List ConnID) (rest todo : List Op) (c : ConnID)
      (ht : a.todo = .deliver env targets :: rest) (hc : targets[i]? = some c)
      (hd : todo = .deliver env (targets.eraseIdx i) :: rest ∨
        todo = .waitClosed c :: .deliver env (targets.eraseIdx i) :: rest) :
      Progress s i a { a with todo := todo }
  | done (op : Op) (rest : List Op) (timers : List GraceTimer) (ht : a.todo = op :: rest)
      (hp : op.plain = true) : Progress s i a { a with todo := rest, timers := timers }

/-- The actor of room `id` before and after a move that leaves `chans` channels made. -/
inductive ActorChange (u : Setup σ) (s : Sys σ) (l : Label) (chans : ℕ) (id : ID) :
    Option (Actor σ) → Option (Actor σ) → Prop
  | kept (o : Option (Actor σ)) : ActorChange u s l chans id o o
  | created (c : ConnID) (choice : Choice) (gameType : String) (players : List PlayerID)
      (g : Game σ) (hl : l = .run c choice)
      (hr : (s.conn c).reader = .create gameType players) (hg : u.games gameType = some g) :
      ActorChange u s l chans id none (some { game := g, room := newRoom σ id gameType s.now })
  | pushed (a : Actor σ) (t : Ticket) (timers : List GraceTimer) (hp : Pushes s l id t)
      (hc : ∀ ch, t.reply = some ch → ch = s.chans ∧ chans = s.chans + 1) :
      ActorChange u s l chans id (some a) (some { a with queue := a.queue ++ [t], timers := timers })
  | turned (a : Actor σ) (t : Ticket) (rest : List Ticket) (hl : l = .turn id)
      (hq : a.queue = t :: rest) (ht : a.todo = []) (ho : a.room.lifecycle ≠ .closed) :
      ActorChange u s l chans id (some a) (some (turnWith a (.command s.now t.cmd) t.reply rest))
  | ticked (a : Actor σ) (hl : l = .tick id) (ht : a.todo = []) (ho : a.room.lifecycle ≠ .closed) :
      ActorChange u s l chans id (some a) (some (turnWith a (.tick s.now) none a.queue))
  | acted (a a' : Actor σ) (i : ℕ) (hl : l = .act id i) (hp : Progress s i a a') :
      ActorChange u s l chans id (some a) (some a')
  | flagged (a : Actor σ) (listed stopped : Bool) (timers : List GraceTimer) :
      ActorChange u s l chans id (some a)
        (some { a with listed := listed, stopped := stopped, timers := timers })

/-- A move that writes one actor leaves every other as it was. -/
theorem actorChange_set {chans : ℕ} {id id' : ID} {a' : Actor σ}
    (h : ActorChange u s l chans id' (s.actor id') (some a')) :
    ActorChange u s l chans id (s.actor id) ((s.setActor id' a').actor id) := by
  rw [setActor_actor]
  by_cases hid : id = id'
  · subst hid
    rw [if_pos rfl]
    exact h
  · rw [if_neg hid]
    exact .kept _

theorem push_chans (s : Sys σ) (room : ID) (cmd : Command) (a : Actor σ)
    (ha : s.actor room = some a) : (s.push room cmd).chans = s.chans + 1 := by
  unfold Sys.push
  rw [ha]

theorem push_actor (s : Sys σ) (room : ID) (cmd : Command) (id : ID)
    (hp : Pushes s l room { cmd := cmd, reply := some s.chans }) :
    ActorChange u s l (s.push room cmd).chans id (s.actor id) ((s.push room cmd).actor id) := by
  unfold Sys.push
  split
  · exact .kept _
  · next a ha =>
    apply actorChange_set
    rw [ha]
    exact .pushed a _ a.timers hp fun ch hch => ⟨(Option.some.inj hch).symm, rfl⟩

theorem act_progress {id : ID} {a : Actor σ} {i : ℕ} (ha : s.actor id = some a)
    (h : ActStep u s id a i s') (id' : ID) :
    ActorChange u s (.act id i) s'.chans id' (s.actor id') (s'.actor id') := by
  have hset : ∀ a' n, Progress s i a a' →
      ActorChange u s (.act id i) n id' (s.actor id') ((s.setActor id a').actor id') := by
    intro a' n hp
    apply actorChange_set
    rw [ha]
    exact .acted a a' i rfl hp
  cases h with
  | broadcast event rest ht => exact hset _ _ (.broadcast event rest ht)
  | completed env rest ht => exact hset _ _ (.completed env rest ht)
  | delivered env targets rest todo c ht hc hd =>
    have h := hset _ ((s.setActor id { a with todo := todo }).enqueue c env none).chans
      (.delivered env targets rest todo c ht hc hd)
    rw [enqueue_rest (s.setActor id { a with todo := todo }) (fun s => s.actor id')
      (fun _ _ _ => rfl) c env none]
    exact h
  | closed c rest ht => exact hset _ _ (.done _ rest a.timers ht rfl)
  | dropped res rest ht => exact hset _ _ (.done _ rest a.timers ht rfl)
  | replied ch res rest ht => exact hset _ _ (.done _ rest a.timers ht rfl)
  | armed player generation rest timers ht => exact hset _ _ (.done _ rest timers ht rfl)

theorem move_actor (hm : Move u s l s') (id : ID) :
    ActorChange u s l s'.chans id (s.actor id) (s'.actor id) := by
  cases hm with
  | dial sid => exact .kept _
  | recv c m hp hi => exact .kept _
  | hangup c hp =>
    rw [close_rest s (fun s => s.actor id) (fun _ _ _ => rfl) c]
    exact .kept _
  | pump c hp => exact .kept _
  | run c choice e pc hr =>
    change ActorChange u s _ (s.apply e).chans id _ ((s.apply e).actor id)
    generalize hpc : (s.conn c).reader = r at hr
    cases hr with
    | submitted k ha => exact push_actor s _ _ id (.call c choice k hpc)
    | created gameType players id' g hg hn =>
      apply actorChange_set
      rw [hn]
      exact .created c choice gameType players g rfl hpc hg
    | told k answer target pc ht hp =>
      rw [Sys.apply, enqueue_rest s (fun s => s.actor id) (fun _ _ _ => rfl)]
      exact .kept _
    | sent env pc hp =>
      rw [Sys.apply, enqueue_rest s (fun s => s.actor id) (fun _ _ _ => rfl)]
      exact .kept _
    | _ => exact .kept _
  | close c choice e pc hr =>
    change ActorChange u s _ (s.apply e).chans id _ ((s.apply e).actor id)
    generalize hpc : (s.conn c).closer = r at hr
    cases hr with
    | submitted room ha => exact push_actor s _ _ id (.drop c choice room hpc)
    | _ => exact .kept _
  | turn id' a t rest ha hq ht hl =>
    apply actorChange_set
    rw [ha]
    exact .turned a t rest rfl hq ht hl
  | tick id' a ha ht hl =>
    apply actorChange_set
    rw [ha]
    exact .ticked a rfl ht hl
  | act id' i a s' ha hact => exact act_progress ha hact id
  | fire id' i a timer ha =>
    apply actorChange_set
    rw [ha]
    exact .pushed a _ _ (.grace id' i timer.player timer.generation) fun ch hch => by cases hch
  | flag l id' a listed stopped timers ha hl =>
    apply actorChange_set
    rw [ha]
    exact .flagged a listed stopped timers
  | sweepRooms rooms hi hl => exact .kept _
  | gc choice e w he =>
    generalize hw : s.sweeper = w₀ at he
    cases he with
    | submitted now room rest hacc =>
      exact push_actor s room .forceClose id (.sweep choice now room rest hw)
    | _ => exact .kept _
  | sweepSessions => exact .kept _
  | clock t => exact .kept _

/-- What a step has done to an actor that is there after it. -/
theorem Move.actor_before (hm : Move u s l s') {id : ID} {a' : Actor σ}
    (ha' : s'.actor id = some a') :
    ∃ o, s.actor id = o ∧ ActorChange u s l s'.chans id o (some a') := by
  have hch := move_actor hm id
  rw [ha'] at hch
  exact ⟨_, rfl, hch⟩

/-- What a step does to an actor that is there before it. -/
theorem Move.actor_after (hm : Move u s l s') {id : ID} {a : Actor σ} (ha : s.actor id = some a) :
    ∃ o', s'.actor id = o' ∧ ActorChange u s l s'.chans id (some a) o' := by
  have hch := move_actor hm id
  rw [ha] at hch
  exact ⟨_, rfl, hch⟩

/-! ## What a change does to the channel and to the outputs left -/

theorem turnWith_room (a : Actor σ) (i : Input) (ch : Option ChanID) (queue : List Ticket) :
    (turnWith a i ch queue).room = (Rooms.step a.game a.room i).1 := rfl

theorem turnWith_todo (a : Actor σ) (i : Input) (ch : Option ChanID) (queue : List Ticket) :
    (turnWith a i ch queue).todo = (Rooms.step a.game a.room i).2.map (Op.ofOutput ch) := rfl

theorem reply_mem_ofOutput {outs : List Output} {ch ch' : Option ChanID} {res : CmdResult}
    (h : Op.reply ch' res ∈ outs.map (Op.ofOutput ch)) : ch' = ch ∧ Output.reply res ∈ outs := by
  obtain ⟨o, ho, heq⟩ := List.mem_map.mp h
  cases o with
  | reply r =>
    cases heq
    exact ⟨rfl, ho⟩
  | broadcast event => cases heq
  | afterFunc player generation => cases heq

theorem broadcast_mem_ofOutput {outs : List Output} {ch : Option ChanID} {event : RoomEvent}
    (h : Op.broadcast event ∈ outs.map (Op.ofOutput ch)) : Output.broadcast event ∈ outs := by
  obtain ⟨o, ho, heq⟩ := List.mem_map.mp h
  cases o with
  | broadcast ev =>
    cases heq
    exact ho
  | reply r => cases heq
  | afterFunc player generation => cases heq

theorem deliver_not_mem_ofOutput {outs : List Output} {ch : Option ChanID} {env : ServerEnvelope}
    {targets : List ConnID} : Op.deliver env targets ∉ outs.map (Op.ofOutput ch) := by
  intro h
  obtain ⟨o, ho, heq⟩ := List.mem_map.mp h
  cases o <;> cases heq

/-- An output that is still to be done was to be done before, but for the loop of a broadcast. -/
theorem Progress.mem {i : ℕ} {a a' : Actor σ} (hp : Progress s i a a') {op : Op}
    (h : op ∈ a'.todo) :
    op ∈ a.todo ∨ (∃ env targets, op = .deliver env targets) ∨ ∃ c, op = .waitClosed c := by
  cases hp with
  | broadcast event rest ht =>
    rw [ht]
    obtain hh | hh := List.mem_cons.mp h
    · exact Or.inr (Or.inl ⟨_, _, hh⟩)
    · exact Or.inl (List.mem_cons_of_mem _ hh)
  | completed env rest ht =>
    rw [ht]
    exact Or.inl (List.mem_cons_of_mem _ h)
  | delivered env targets rest todo c ht hc hd =>
    rw [ht]
    have hmem : op ∈ Op.waitClosed c :: .deliver env (targets.eraseIdx i) :: rest := by
      obtain hd | hd := hd
      · rw [← hd]
        exact List.mem_cons_of_mem _ h
      · rw [← hd]
        exact h
    obtain hh | hh := List.mem_cons.mp hmem
    · exact Or.inr (Or.inr ⟨_, hh⟩)
    · obtain hh | hh := List.mem_cons.mp hh
      · exact Or.inr (Or.inl ⟨_, _, hh⟩)
      · exact Or.inl (List.mem_cons_of_mem _ hh)
  | done op' rest timers ht hop =>
    rw [ht]
    exact Or.inl (List.mem_cons_of_mem _ h)

/-- The other way round: an output is done in its turn only. -/
theorem Progress.mem_or_head {i : ℕ} {a a' : Actor σ} (hp : Progress s i a a') {op : Op}
    (h : op ∈ a.todo) : op ∈ a'.todo ∨ ∃ rest, a.todo = op :: rest := by
  have hrest : ∀ op' rest, a.todo = op' :: rest → (∃ rest, a.todo = op :: rest) ∨ op ∈ rest := by
    intro op' rest ht
    rw [ht] at h ⊢
    obtain rfl | hin := List.mem_cons.mp h
    · exact Or.inl ⟨rest, rfl⟩
    · exact Or.inr hin
  cases hp with
  | broadcast event rest ht =>
    exact (hrest _ rest ht).symm.imp_left (List.mem_cons_of_mem _)
  | completed env rest ht => exact (hrest _ rest ht).symm
  | delivered env targets rest todo c ht hc hd =>
    refine (hrest _ rest ht).symm.imp_left fun hin => ?_
    obtain rfl | rfl := hd
    · exact List.mem_cons_of_mem _ hin
    · exact List.mem_cons_of_mem _ (List.mem_cons_of_mem _ hin)
  | done op' rest timers ht hplain => exact (hrest _ rest ht).symm

theorem Progress.reply_mem {i : ℕ} {a a' : Actor σ} (hp : Progress s i a a')
    {ch : Option ChanID} {res : CmdResult} (h : Op.reply ch res ∈ a'.todo) :
    Op.reply ch res ∈ a.todo := by
  obtain h | ⟨env, targets, h⟩ | ⟨c, h⟩ := hp.mem h
  · exact h
  · cases h
  · cases h

theorem Progress.broadcast_mem {i : ℕ} {a a' : Actor σ} (hp : Progress s i a a')
    {event : RoomEvent} (h : Op.broadcast event ∈ a'.todo) : Op.broadcast event ∈ a.todo := by
  obtain h | ⟨env, targets, h⟩ | ⟨c, h⟩ := hp.mem h
  · exact h
  · cases h
  · cases h

theorem Progress.room_eq {i : ℕ} {a a' : Actor σ} (hp : Progress s i a a') : a'.room = a.room := by
  cases hp <;> rfl

theorem Progress.game_eq {i : ℕ} {a a' : Actor σ} (hp : Progress s i a a') : a'.game = a.game := by
  cases hp <;> rfl

theorem Progress.queue_eq {i : ℕ} {a a' : Actor σ} (hp : Progress s i a a') :
    a'.queue = a.queue := by
  cases hp <;> rfl

/-- What the room of an actor handles with a move. -/
inductive Handles (s : Sys σ) (a : Actor σ) (id : ID) : Label → Input → Prop
  | command (t : Ticket) (rest : List Ticket) (hq : a.queue = t :: rest) :
      Handles s a id (.turn id) (.command s.now t.cmd)
  | tick : Handles s a id (.tick id) (.tick s.now)

/-- A room stays, and only a turn of its loop changes it. -/
theorem move_turn (hm : Move u s l s') {id : ID} {a : Actor σ} (ha : s.actor id = some a) :
    ∃ a', s'.actor id = some a' ∧
      (a'.room = a.room ∨ ∃ i, Handles s a id l i ∧ a.room.lifecycle ≠ .closed ∧
        a'.room = (Rooms.step a.game a.room i).1) := by
  obtain ⟨o', ho', hch⟩ := hm.actor_after ha
  cases hch with
  | kept => exact ⟨a, ho', Or.inl rfl⟩
  | pushed a t timers hp hn => exact ⟨_, ho', Or.inl rfl⟩
  | turned a t rest hl hq htodo hopen =>
    subst hl
    exact ⟨_, ho', Or.inr ⟨_, .command t rest hq, hopen, rfl⟩⟩
  | ticked a hl htodo hopen =>
    subst hl
    exact ⟨_, ho', Or.inr ⟨_, .tick, hopen, rfl⟩⟩
  | acted a a' i hl hp => exact ⟨a', ho', Or.inl hp.room_eq⟩
  | flagged a listed stopped timers => exact ⟨_, ho', Or.inl rfl⟩

end Actors
end RealtimeEngine.Transport
