import RealtimeEngine.Transport.Moves

/-! What one move can do to each part of a node: the fields of a connection,
the Hub, the session store, the waiting players, the actor of a room. Every
invariant below is read off these lemmas. -/
namespace RealtimeEngine.Transport
open Foundations Domain Rooms Storage Matchmaking
set_option autoImplicit false
set_option maxHeartbeats 250000

section Fields
variable {σ : Type} (s : Sys σ)

/-! ## Fields after an update -/

theorem setConn_conn (c d : ConnID) (x : Conn) :
    (s.setConn c x).conn d = if d = c then x else s.conn d :=
  Function.update_apply _ _ _ _

theorem setActor_actor (id id' : ID) (a : Actor σ) :
    (s.setActor id a).actor id' = if id' = id then some a else s.actor id' :=
  Function.update_apply _ _ _ _

theorem setConn_self (c : ConnID) (x : Conn) : (s.setConn c x).conn c = x :=
  Function.update_self _ _ _

theorem setActor_self (id : ID) (a : Actor σ) : (s.setActor id a).actor id = some a :=
  Function.update_self _ _ _

theorem setConn_field {α : Type} (f : Conn → α) (c d : ConnID) (x : Conn)
    (h : f x = f (s.conn c)) : f ((s.setConn c x).conn d) = f (s.conn d) := by
  rw [setConn_conn]
  by_cases hd : d = c
  · subst hd
    rw [if_pos rfl, h]
  · rw [if_neg hd]

@[simp] theorem goto_reader (c d : ConnID) (pc : Reader) :
    ((s.goto c pc).conn d).reader = if d = c then pc else (s.conn d).reader := by
  unfold Sys.goto
  rw [setConn_conn]
  split_ifs <;> rfl

theorem goto_reader_self (c : ConnID) (pc : Reader) : ((s.goto c pc).conn c).reader = pc := by
  rw [goto_reader, if_pos rfl]

/-- What does not depend on the reader's place and the pumps. -/
theorem goto_field {α : Type} (f : Conn → α) (c d : ConnID) (pc : Reader)
    (h : ∀ x pc pumping, f { x with reader := pc, pumping := pumping } = f x) :
    f ((s.goto c pc).conn d) = f (s.conn d) := setConn_field s f c d _ (h _ _ _)

@[simp] theorem goto_room (c d : ConnID) (pc : Reader) :
    ((s.goto c pc).conn d).room = (s.conn d).room := setConn_field s Conn.room c d _ rfl
@[simp] theorem goto_sent (c d : ConnID) (pc : Reader) :
    ((s.goto c pc).conn d).sent = (s.conn d).sent := setConn_field s Conn.sent c d _ rfl
@[simp] theorem goto_given (c d : ConnID) (pc : Reader) :
    ((s.goto c pc).conn d).given = (s.conn d).given := setConn_field s Conn.given c d _ rfl
@[simp] theorem goto_closer (c d : ConnID) (pc : Reader) :
    ((s.goto c pc).conn d).closer = (s.conn d).closer := setConn_field s Conn.closer c d _ rfl

@[simp] theorem gotoCloser_closer (c d : ConnID) (pc : Closer) :
    ((s.gotoCloser c pc).conn d).closer = if d = c then pc else (s.conn d).closer := by
  unfold Sys.gotoCloser
  rw [setConn_conn]
  split_ifs <;> rfl

@[simp] theorem gotoCloser_room (c d : ConnID) (pc : Closer) :
    ((s.gotoCloser c pc).conn d).room = (s.conn d).room := setConn_field s Conn.room c d _ rfl
@[simp] theorem gotoCloser_sent (c d : ConnID) (pc : Closer) :
    ((s.gotoCloser c pc).conn d).sent = (s.conn d).sent := setConn_field s Conn.sent c d _ rfl
@[simp] theorem gotoCloser_given (c d : ConnID) (pc : Closer) :
    ((s.gotoCloser c pc).conn d).given = (s.conn d).given := setConn_field s Conn.given c d _ rfl
@[simp] theorem gotoCloser_reader (c d : ConnID) (pc : Closer) :
    ((s.gotoCloser c pc).conn d).reader = (s.conn d).reader := setConn_field s Conn.reader c d _ rfl

/-- `Close` touches nothing of a connection but its closer. -/
theorem close_field {α : Type} (f : Conn → α) (c d : ConnID)
    (h : ∀ pc, f { s.conn c with closer := pc } = f (s.conn c)) :
    f ((s.close c).conn d) = f (s.conn d) := by
  unfold Sys.close
  split
  · exact setConn_field s f c d _ (h _)
  · rfl

/-- `enqueue` touches nothing of a connection but the channel, the history and the closer. -/
theorem enqueue_field {α : Type} (f : Conn → α) (c d : ConnID) (env : ServerEnvelope)
    (given : Option (ID × ℕ))
    (h : ∀ sent gs pc, f { s.conn c with sent := sent, given := gs, closer := pc } = f (s.conn c)) :
    f ((s.enqueue c env given).conn d) = f (s.conn d) := by
  unfold Sys.enqueue
  dsimp only
  split
  · exact setConn_field s f c d _ (h _ _ (s.conn c).closer)
  · exact close_field s f c d fun pc => h (s.conn c).sent (s.conn c).given pc

/-- An access touches nothing of a connection but its room, its channel and its closer. -/
theorem apply_field {α : Type} (f : Conn → α) (d : ConnID) (e : Effect σ)
    (h : ∀ x room sent gs pc,
      f { x with room := room, sent := sent, given := gs, closer := pc } = f x) :
    f ((s.apply e).conn d) = f (s.conn d) := by
  cases e with
  | setRoom c room => exact setConn_field s f c d _ (h (s.conn c) _ _ _ _)
  | enqueue c env given =>
    exact enqueue_field s f c d env given fun _ _ _ => h (s.conn c) (s.conn c).room _ _ _
  | submit room cmd =>
    unfold Sys.apply Sys.push
    dsimp only
    split <;> rfl
  | silent => rfl
  | register room player c => rfl
  | unregister room player c => rfl
  | saveSession sid rec ttl => rfl
  | pend player c gameType => rfl
  | unpend player => rfl
  | setQueue gameType queue => rfl
  | createRoom id gameType game => rfl

@[simp] theorem apply_reader (d : ConnID) (e : Effect σ) :
    ((s.apply e).conn d).reader = (s.conn d).reader :=
  apply_field s Conn.reader d e fun _ _ _ _ _ => rfl
theorem close_closer (c d : ConnID) :
    ((s.close c).conn d).closer = (s.conn d).closer ∨
      (s.conn d).closer = .off ∧ ((s.close c).conn d).closer = .start := by
  unfold Sys.close
  split
  · next ho =>
    rw [gotoCloser_closer]
    by_cases hd : d = c
    · subst hd
      rw [if_pos rfl]
      exact Or.inr ⟨ho, rfl⟩
    · rw [if_neg hd]
      exact Or.inl rfl
  · exact Or.inl rfl

theorem enqueue_closer (c d : ConnID) (env : ServerEnvelope) (given : Option (ID × ℕ)) :
    ((s.enqueue c env given).conn d).closer = (s.conn d).closer ∨
      (s.conn d).closer = .off ∧ ((s.enqueue c env given).conn d).closer = .start := by
  unfold Sys.enqueue
  dsimp only
  split
  · exact Or.inl (setConn_field s Conn.closer c d _ rfl)
  · exact close_closer s c d

theorem apply_closer (d : ConnID) (e : Effect σ) :
    ((s.apply e).conn d).closer = (s.conn d).closer ∨
      (s.conn d).closer = .off ∧ ((s.apply e).conn d).closer = .start := by
  cases e with
  | enqueue c env given => exact enqueue_closer s c d env given
  | setRoom c room => exact Or.inl (setConn_field s Conn.closer c d _ rfl)
  | submit room cmd =>
    unfold Sys.apply Sys.push
    dsimp only
    split <;> exact Or.inl rfl
  | silent => exact Or.inl rfl
  | register room player c => exact Or.inl rfl
  | unregister room player c => exact Or.inl rfl
  | saveSession sid rec ttl => exact Or.inl rfl
  | pend player c gameType => exact Or.inl rfl
  | unpend player => exact Or.inl rfl
  | setQueue gameType queue => exact Or.inl rfl
  | createRoom id gameType game => exact Or.inl rfl

/-! Everything beside the connections. -/

/-- `Close` changes nothing beside the connections. -/
theorem close_rest {α : Type} (f : Sys σ → α) (h : ∀ s c x, f (Sys.setConn s c x) = f s)
    (c : ConnID) : f (s.close c) = f s := by
  unfold Sys.close
  split
  · exact h s c _
  · rfl

theorem enqueue_rest {α : Type} (f : Sys σ → α) (h : ∀ s c x, f (Sys.setConn s c x) = f s)
    (c : ConnID) (env : ServerEnvelope) (given : Option (ID × ℕ)) :
    f (s.enqueue c env given) = f s := by
  unfold Sys.enqueue
  dsimp only
  split
  · exact h s c _
  · exact close_rest s f h c

theorem push_rest {α : Type} (f : Sys σ → α) (room : ID) (cmd : Command)
    (h : ∀ a n, f { s.setActor room a with chans := n } = f s) : f (s.push room cmd) = f s := by
  unfold Sys.push
  split
  · rfl
  · exact h _ _

@[simp] theorem apply_conns (e : Effect σ) : (s.apply e).conns = s.conns := by
  cases e <;> first
    | rfl
    | exact enqueue_rest s Sys.conns (fun _ _ _ => rfl) _ _ _
    | exact push_rest s Sys.conns _ _ fun _ _ => rfl

@[simp] theorem apply_replies (e : Effect σ) : (s.apply e).replies = s.replies := by
  cases e <;> first
    | rfl
    | exact enqueue_rest s Sys.replies (fun _ _ _ => rfl) _ _ _
    | exact push_rest s Sys.replies _ _ fun _ _ => rfl

theorem apply_hub (e : Effect σ) :
    (s.apply e).hub = match e with
      | .register room player c => s.hub.register room player c
      | .unregister room player c => s.hub.unregister room player c
      | _ => s.hub := by
  cases e <;> first
    | rfl
    | exact enqueue_rest s Sys.hub (fun _ _ _ => rfl) _ _ _
    | exact push_rest s Sys.hub _ _ fun _ _ => rfl

theorem apply_pending (e : Effect σ) :
    (s.apply e).pending = match e with
      | .pend player c _ => s.pending.insert player c
      | .unpend player => s.pending.erase player
      | _ => s.pending := by
  cases e <;> first
    | rfl
    | exact enqueue_rest s Sys.pending (fun _ _ _ => rfl) _ _ _
    | exact push_rest s Sys.pending _ _ fun _ _ => rfl

theorem apply_sessions (e : Effect σ) :
    (s.apply e).sessions = match e with
      | .saveSession sid rec ttl => s.sessions.saveSession s.now sid rec ttl
      | _ => s.sessions := by
  cases e <;> first
    | rfl
    | exact enqueue_rest s Sys.sessions (fun _ _ _ => rfl) _ _ _
    | exact push_rest s Sys.sessions _ _ fun _ _ => rfl

theorem apply_room (e : Effect σ) (d : ConnID) :
    ((s.apply e).conn d).room = match e with
      | .setRoom c room => if d = c then some room else (s.conn d).room
      | _ => (s.conn d).room := by
  cases e with
  | setRoom c room =>
    change ((s.setConn c _).conn d).room = _
    rw [setConn_conn]
    dsimp only
    split <;> rfl
  | enqueue c env given => exact enqueue_field s Conn.room c d env given fun _ _ _ => rfl
  | submit room cmd => exact push_rest s (fun s => (s.conn d).room) room cmd fun _ _ => rfl
  | silent => rfl
  | register room player c => rfl
  | unregister room player c => rfl
  | saveSession sid rec ttl => rfl
  | pend player c gameType => rfl
  | unpend player => rfl
  | setQueue gameType queue => rfl
  | createRoom id gameType game => rfl

/-- A message that is accepted is put on the channel of its own connection only. -/
theorem enqueue_sent (c d : ConnID) (env : ServerEnvelope) (given : Option (ID × ℕ)) :
    ((s.enqueue c env given).conn d).sent = (s.conn d).sent ∧
      ((s.enqueue c env given).conn d).given = (s.conn d).given ∨
    d = c ∧ ((s.enqueue c env given).conn d).sent = (s.conn d).sent ++ [env] ∧
      ((s.enqueue c env given).conn d).given = (s.conn d).given ++ given.toList := by
  unfold Sys.enqueue
  dsimp only
  split
  · rw [setConn_conn]
    by_cases hd : d = c
    · subst hd
      rw [if_pos rfl]
      exact Or.inr ⟨rfl, rfl, rfl⟩
    · rw [if_neg hd]
      exact Or.inl ⟨rfl, rfl⟩
  · exact Or.inl ⟨close_field s Conn.sent c d fun _ => rfl,
      close_field s Conn.given c d fun _ => rfl⟩

/-- A connection that is still open after an `enqueue` has the message on its channel. -/
theorem enqueue_open (c : ConnID) (env : ServerEnvelope) (given : Option (ID × ℕ))
    (ho : ((s.enqueue c env given).conn c).closer = .off) :
    ((s.enqueue c env given).conn c).sent = (s.conn c).sent ++ [env] := by
  unfold Sys.enqueue at ho ⊢
  dsimp only at ho ⊢
  split at ho
  · next hf =>
    rw [if_pos hf, setConn_self]
  · unfold Sys.close at ho
    split at ho
    · rw [gotoCloser_closer, if_pos rfl] at ho
      cases ho
    · next hc => exact absurd ho hc

theorem apply_sent (e : Effect σ) (d : ConnID) :
    ((s.apply e).conn d).sent = (s.conn d).sent ∧ ((s.apply e).conn d).given = (s.conn d).given ∨
    ∃ env given, e = .enqueue d env given ∧
      ((s.apply e).conn d).sent = (s.conn d).sent ++ [env] ∧
      ((s.apply e).conn d).given = (s.conn d).given ++ given.toList := by
  cases e with
  | enqueue c env given =>
    refine (enqueue_sent s c d env given).imp_right ?_
    rintro ⟨rfl, hs⟩
    exact ⟨env, given, rfl, hs⟩
  | setRoom c room =>
    exact Or.inl ⟨setConn_field s Conn.sent c d _ rfl, setConn_field s Conn.given c d _ rfl⟩
  | submit room cmd =>
    exact Or.inl ⟨push_rest s (fun s => (s.conn d).sent) room cmd fun _ _ => rfl,
      push_rest s (fun s => (s.conn d).given) room cmd fun _ _ => rfl⟩
  | silent => exact Or.inl ⟨rfl, rfl⟩
  | register room player c => exact Or.inl ⟨rfl, rfl⟩
  | unregister room player c => exact Or.inl ⟨rfl, rfl⟩
  | saveSession sid rec ttl => exact Or.inl ⟨rfl, rfl⟩
  | pend player c gameType => exact Or.inl ⟨rfl, rfl⟩
  | unpend player => exact Or.inl ⟨rfl, rfl⟩
  | setQueue gameType queue => exact Or.inl ⟨rfl, rfl⟩
  | createRoom id gameType game => exact Or.inl ⟨rfl, rfl⟩

end Fields

section Moves
variable {σ : Type} {u : Setup σ} {s s' : Sys σ} {l : Label}

/-! ## Connections -/

/-- A step of a connection's goroutine does what its reader does next. -/
theorem step_run_iff {c : ConnID} {choice : Choice} {pc : Reader} (hr : (s.conn c).reader = pc) :
    step u s (.run c choice) = some s' ↔
      ∃ next, pc.next u s c choice = some next ∧ s' = (s.apply next.1).goto c next.2 := by
  rw [step, hr, Option.map_eq_some_iff]
  exact exists_congr fun next => and_congr_right fun _ => eq_comm

/-- The outputs of a turn change of a connection only what `enqueue` does. -/
theorem act_field {α : Type} (f : Conn → α) {id : ID} {a : Actor σ} {i : ℕ}
    (ha : ActStep u s id a i s')
    (h : ∀ x sent gs pc, f { x with sent := sent, given := gs, closer := pc } = f x) (d : ConnID) :
    f (s'.conn d) = f (s.conn d) := by
  cases ha with
  | delivered env targets rest todo c ht hc hd =>
    exact enqueue_field (s.setActor id { a with todo := todo }) f c d env none
      fun _ _ _ => h (s.conn c) _ _ _
  | broadcast event rest ht => rfl
  | completed env rest ht => rfl
  | closed c rest ht => rfl
  | dropped res rest ht => rfl
  | replied ch res rest ht => rfl
  | armed player generation rest timers ht => rfl

/-- What a connection is given when it is accepted stays as it is. -/
theorem move_fixed {α : Type} (f : Conn → α)
    (h : ∀ x room sent drained pumping reader closer gs,
      f { x with room := room, sent := sent, drained := drained, pumping := pumping,
                 reader := reader, closer := closer, given := gs } = f x)
    (hm : Move u s l s') (d : ConnID) :
    f (s'.conn d) = f (s.conn d) ∨ ∃ sid, l = .dial sid ∧ d = s.conns := by
  have hset : ∀ (t : Sys σ) (c : ConnID) (x : Conn), f x = f (t.conn c) →
      f ((t.setConn c x).conn d) = f (t.conn d) := fun t c x hx => setConn_field t f c d x hx
  have happ : ∀ e : Effect σ, f ((s.apply e).conn d) = f (s.conn d) := fun e =>
    apply_field s f d e fun x room sent gs pc => h x room sent x.drained x.pumping x.reader pc gs
  cases hm with
  | dial sid =>
    by_cases hd : d = s.conns
    · exact Or.inr ⟨sid, rfl, hd⟩
    · left
      change f ((s.setConn s.conns _).conn d) = f (s.conn d)
      rw [setConn_conn, if_neg hd]
  | recv c m hp hi => exact Or.inl (hset s c _ (h (s.conn c) _ _ _ _ _ _ _))
  | hangup c hp =>
    exact Or.inl (close_field s f c d fun pc => h (s.conn c) _ _ _ _ _ pc _)
  | pump c hp => exact Or.inl (hset s c _ (h (s.conn c) _ _ _ _ _ _ _))
  | run c choice e pc hr =>
    exact Or.inl ((hset (s.apply e) c _ (h ((s.apply e).conn c) _ _ _ _ _ _ _)).trans (happ e))
  | close c choice e pc hr =>
    exact Or.inl ((hset (s.apply e) c _ (h ((s.apply e).conn c) _ _ _ _ _ _ _)).trans (happ e))
  | act id i a s' ha hact =>
    exact Or.inl (act_field f hact (fun x sent gs pc => h x _ _ _ _ _ _ _) d)
  | gc choice e w he => exact Or.inl (happ e)
  | turn id a t rest ha hq ht hl => exact Or.inl rfl
  | tick id a ha ht hl => exact Or.inl rfl
  | fire id i a timer ha => exact Or.inl rfl
  | flag l id a listed stopped timers ha hl => exact Or.inl rfl
  | sweepRooms rooms hi hl => exact Or.inl rfl
  | sweepSessions => exact Or.inl rfl
  | clock t => exact Or.inl rfl

theorem move_conns (hm : Move u s l s') :
    s'.conns = s.conns ∨ (∃ sid, l = .dial sid) ∧ s'.conns = s.conns + 1 := by
  cases hm with
  | dial sid => exact Or.inr ⟨⟨sid, rfl⟩, rfl⟩
  | hangup c hp => exact Or.inl (close_rest s Sys.conns (fun _ _ _ => rfl) c)
  | run c choice e pc hr => exact Or.inl (apply_conns s e)
  | close c choice e pc hr => exact Or.inl (apply_conns s e)
  | act id i a s' ha hact =>
    cases hact with
    | delivered env targets rest todo c ht hc hd =>
      exact Or.inl (enqueue_rest (s.setActor id { a with todo := todo }) Sys.conns
        (fun _ _ _ => rfl) c env none)
    | _ => exact Or.inl rfl
  | gc choice e w he => exact Or.inl (apply_conns s e)
  | _ => exact Or.inl rfl

theorem move_conns_le (hm : Move u s l s') : s.conns ≤ s'.conns := by
  obtain h | ⟨-, h⟩ := move_conns hm
  · exact Nat.le_of_eq h.symm
  · rw [h]
    exact Nat.le_succ _

theorem move_reader (hm : Move u s l s') (d : ConnID) :
    (s'.conn d).reader = (s.conn d).reader ∨
    (∃ sid, l = .dial sid ∧ d = s.conns ∧ (s'.conn d).reader = .load) ∨
    (∃ m, l = .recv d m ∧ (s.conn d).reader = .idle ∧
      (s'.conn d).reader = handleMessage s.now (s.conn d) m) ∨
    ∃ choice e, l = .run d choice ∧ ReaderStep u s d (s.conn d).reader e (s'.conn d).reader := by
  cases hm with
  | dial sid =>
    by_cases hd : d = s.conns
    · subst hd
      refine Or.inr (Or.inl ⟨sid, rfl, rfl, ?_⟩)
      change ((s.setConn s.conns _).conn s.conns).reader = _
      rw [setConn_self]
    · left
      change ((s.setConn s.conns _).conn d).reader = _
      rw [setConn_conn, if_neg hd]
  | recv c m hp hi =>
    rw [goto_reader]
    by_cases hd : d = c
    · subst hd
      rw [if_pos rfl]
      exact Or.inr (Or.inr (Or.inl ⟨m, rfl, hi, rfl⟩))
    · rw [if_neg hd]
      exact Or.inl rfl
  | hangup c hp => exact Or.inl (close_field s Conn.reader c d fun _ => rfl)
  | pump c hp => exact Or.inl (setConn_field s Conn.reader c d _ rfl)
  | run c choice e pc hr =>
    rw [goto_reader, apply_reader]
    by_cases hd : d = c
    · subst hd
      rw [if_pos rfl]
      exact Or.inr (Or.inr (Or.inr ⟨choice, e, rfl, hr⟩))
    · rw [if_neg hd]
      exact Or.inl rfl
  | close c choice e pc hr =>
    rw [gotoCloser_reader, apply_reader]
    exact Or.inl rfl
  | act id i a s' ha hact =>
    exact Or.inl (act_field Conn.reader hact (fun _ _ _ _ => rfl) d)
  | gc choice e w he => exact Or.inl (apply_reader s d e)
  | _ => exact Or.inl rfl

theorem act_closer {id : ID} {a : Actor σ} {i : ℕ} (ha : ActStep u s id a i s') (d : ConnID) :
    (s'.conn d).closer = (s.conn d).closer ∨
      (s.conn d).closer = .off ∧ (s'.conn d).closer = .start := by
  cases ha with
  | delivered env targets rest todo c ht hc hd =>
    exact enqueue_closer (s.setActor id { a with todo := todo }) c d env none
  | _ => exact Or.inl rfl

theorem move_closer (hm : Move u s l s') (d : ConnID) :
    (s'.conn d).closer = (s.conn d).closer ∨
    (∃ sid, l = .dial sid ∧ d = s.conns ∧ (s'.conn d).closer = .off) ∨
    ((s.conn d).closer = .off ∧ (s'.conn d).closer = .start) ∨
    ∃ choice e, l = .close d choice ∧ CloserStep u s d (s.conn d).closer e (s'.conn d).closer := by
  have hone : ∀ x : Conn, x.closer = (s.conn d).closer ∨
      (s.conn d).closer = .off ∧ x.closer = .start →
      x.closer = (s.conn d).closer ∨
      (∃ sid, l = .dial sid ∧ d = s.conns ∧ x.closer = .off) ∨
      ((s.conn d).closer = .off ∧ x.closer = .start) ∨
      ∃ choice e, l = .close d choice ∧ CloserStep u s d (s.conn d).closer e x.closer :=
    fun x hx => hx.imp (fun h => h) fun h => Or.inr (Or.inl h)
  cases hm with
  | dial sid =>
    by_cases hd : d = s.conns
    · subst hd
      refine Or.inr (Or.inl ⟨sid, rfl, rfl, ?_⟩)
      change ((s.setConn s.conns _).conn s.conns).closer = _
      rw [setConn_self]
    · left
      change ((s.setConn s.conns _).conn d).closer = _
      rw [setConn_conn, if_neg hd]
  | recv c m hp hi => exact Or.inl (goto_closer s c d _)
  | hangup c hp => exact hone _ (close_closer s c d)
  | pump c hp => exact Or.inl (setConn_field s Conn.closer c d _ rfl)
  | run c choice e pc hr =>
    apply hone
    rw [goto_closer]
    exact apply_closer s d e
  | close c choice e pc hr =>
    by_cases hd : d = c
    · subst hd
      rw [gotoCloser_closer, if_pos rfl]
      exact Or.inr (Or.inr (Or.inr ⟨choice, e, rfl, hr⟩))
    · apply hone
      rw [gotoCloser_closer, if_neg hd]
      exact apply_closer s d e
  | act id i a s' ha hact => exact hone _ (act_closer hact d)
  | gc choice e w he => exact hone _ (apply_closer s d e)
  | _ => exact Or.inl rfl

theorem close_step {c : ConnID} {choice : Choice} (hm : Move u s (.close c choice) s') :
    ∃ e, CloserStep u s c (s.conn c).closer e (s'.conn c).closer := by
  obtain ⟨e, pc, hr, hs'⟩ := hm.close_inv
  refine ⟨e, ?_⟩
  rw [hs', gotoCloser_closer, if_pos rfl]
  exact hr

/-! ## Shared tables -/

/-- A part of the node that only goroutines of connections and the sweep of the
session store write. -/
theorem move_table {α : Type} (f : Sys σ → α) (hconn : ∀ s c x, f (Sys.setConn s c x) = f s)
    (hactor : ∀ s id a, f (Sys.setActor s id a) = f s)
    (hrest : ∀ s conns replies now w, f { s with conns := conns, replies := replies, now := now,
                                                 sweeper := w } = f s)
    (hpush : ∀ s room cmd, f (Sys.push s room cmd) = f s) (hm : Move u s l s') :
    f s' = f s ∨
    (∃ c choice e pc, l = .run c choice ∧ ReaderStep u s c (s.conn c).reader e pc ∧
      f s' = f (s.apply e)) ∨
    (∃ c choice e pc, l = .close c choice ∧ CloserStep u s c (s.conn c).closer e pc ∧
      f s' = f (s.apply e)) ∨
    l = .sweepSessions ∧ f s' = f { s with sessions := s.sessions.sweep s.now } := by
  cases hm with
  | dial sid => exact Or.inl ((hrest _ (s.conns + 1) s.replies s.now s.sweeper).trans (hconn s _ _))
  | recv c m hp hi => exact Or.inl (hconn s c _)
  | hangup c hp => exact Or.inl (close_rest s f hconn c)
  | pump c hp => exact Or.inl (hconn s c _)
  | run c choice e pc hr =>
    exact Or.inr (Or.inl ⟨c, choice, e, pc, rfl, hr, hconn (s.apply e) c _⟩)
  | close c choice e pc hr =>
    exact Or.inr (Or.inr (Or.inl ⟨c, choice, e, pc, rfl, hr, hconn (s.apply e) c _⟩))
  | turn id a t rest ha hq ht hl => exact Or.inl (hactor s id _)
  | tick id a ha ht hl => exact Or.inl (hactor s id _)
  | act id i a s' ha hact =>
    left
    cases hact with
    | delivered env targets rest todo c ht hc hd =>
      exact (enqueue_rest _ f hconn c env none).trans (hactor s id _)
    | replied ch res rest ht =>
      exact (hrest (s.setActor id { a with todo := rest }) s.conns _ s.now s.sweeper).trans
        (hactor s id _)
    | broadcast event rest ht => exact hactor s id _
    | completed env rest ht => exact hactor s id _
    | closed c rest ht => exact hactor s id _
    | dropped res rest ht => exact hactor s id _
    | armed player generation rest timers ht => exact hactor s id _
  | fire id i a timer ha => exact Or.inl (hactor s id _)
  | flag l id a listed stopped timers ha hl => exact Or.inl (hactor s id _)
  | sweepRooms rooms hi hl => exact Or.inl (hrest s s.conns s.replies s.now _)
  | gc choice e w he =>
    left
    refine (hrest (s.apply e) (s.apply e).conns (s.apply e).replies (s.apply e).now w).trans ?_
    obtain rfl | ⟨room, rfl⟩ := he.effect
    · rfl
    · exact hpush s room .forceClose
  | sweepSessions => exact Or.inr (Or.inr (Or.inr ⟨rfl, rfl⟩))
  | clock t => exact Or.inl (hrest s s.conns s.replies t s.sweeper)

theorem move_hub (hm : Move u s l s') :
    s'.hub = s.hub ∨
    (∃ c choice k answer target, l = .run c choice ∧
      (s.conn c).reader = .tell .register k answer ∧ k.target c = some target ∧
      s'.hub = s.hub.register k.room (k.player (s.conn c).playerID) target) ∨
    ∃ c choice room, l = .close c choice ∧ (s.conn c).closer = .unregister room ∧
      s'.hub = s.hub.unregister room (s.conn c).playerID c := by
  obtain h | ⟨c, choice, e, pc, rfl, hr, h⟩ | ⟨c, choice, e, pc, rfl, hr, h⟩ | ⟨-, h⟩ :=
    move_table Sys.hub (fun _ _ _ => rfl) (fun _ _ _ => rfl) (fun _ _ _ _ _ => rfl)
      (fun s room cmd => push_rest s Sys.hub room cmd fun _ _ => rfl) hm
  · exact Or.inl h
  · rw [apply_hub] at h
    generalize hpc : (s.conn c).reader = r at hr
    cases hr with
    | registered k answer target ht =>
      exact Or.inr (Or.inl ⟨c, choice, k, answer, target, rfl, hpc, ht, h⟩)
    | _ => exact Or.inl h
  · rw [apply_hub] at h
    generalize hpc : (s.conn c).closer = r at hr
    cases hr with
    | unregistered room => exact Or.inr (Or.inr ⟨c, choice, room, rfl, hpc, h⟩)
    | _ => exact Or.inl h
  · exact Or.inl h

theorem move_pending (hm : Move u s l s') :
    s'.pending = s.pending ∨
    (∃ c choice gameType, l = .run c choice ∧ (s.conn c).reader = .pend gameType ∧
      s'.pending = s.pending.insert (s.conn c).playerID c) ∨
    ∃ p, s'.pending = s.pending.erase p := by
  obtain h | ⟨c, choice, e, pc, rfl, hr, h⟩ | ⟨c, choice, e, pc, rfl, hr, h⟩ | ⟨-, h⟩ :=
    move_table Sys.pending (fun _ _ _ => rfl) (fun _ _ _ => rfl) (fun _ _ _ _ _ => rfl)
      (fun s room cmd => push_rest s Sys.pending room cmd fun _ _ => rfl) hm
  · exact Or.inl h
  · rw [apply_pending] at h
    generalize hpc : (s.conn c).reader = r at hr
    cases hr with
    | pended gameType => exact Or.inr (Or.inl ⟨c, choice, gameType, rfl, hpc, h⟩)
    | cleared err => exact Or.inr (Or.inr ⟨_, h⟩)
    | popped room p rest conn hp => exact Or.inr (Or.inr ⟨p, h⟩)
    | _ => exact Or.inl h
  · rw [apply_pending] at h
    generalize hpc : (s.conn c).closer = r at hr
    cases hr with
    | unpended conn hp => exact Or.inr (Or.inr ⟨_, h⟩)
    | _ => exact Or.inl h
  · exact Or.inl h

theorem move_sessions (hm : Move u s l s') :
    s'.sessions = s.sessions ∨
    (∃ c choice k answer target, l = .run c choice ∧
      (s.conn c).reader = .tell .bind k answer ∧ k.target c = some target ∧
      s'.sessions = s.sessions.saveSession s.now (s.conn target).sessionID
        (bindRecord u k.room (s.conn target).playerID) u.sessionTTL) ∨
    (∃ c choice room ttl, l = .close c choice ∧ (s.conn c).closer = .bind room ∧
      s'.sessions = s.sessions.saveSession s.now (s.conn c).sessionID
        (bindRecord u room (s.conn c).playerID) ttl) ∨
    s'.sessions = s.sessions.sweep s.now := by
  obtain h | ⟨c, choice, e, pc, rfl, hr, h⟩ | ⟨c, choice, e, pc, rfl, hr, h⟩ | ⟨-, h⟩ :=
    move_table Sys.sessions (fun _ _ _ => rfl) (fun _ _ _ => rfl) (fun _ _ _ _ _ => rfl)
      (fun s room cmd => push_rest s Sys.sessions room cmd fun _ _ => rfl) hm
  · exact Or.inl h
  · rw [apply_sessions] at h
    generalize hpc : (s.conn c).reader = r at hr
    cases hr with
    | bound k answer target ht =>
      exact Or.inr (Or.inl ⟨c, choice, k, answer, target, rfl, hpc, ht, h⟩)
    | _ => exact Or.inl h
  · rw [apply_sessions] at h
    generalize hpc : (s.conn c).closer = r at hr
    cases hr with
    | bound room => exact Or.inr (Or.inr (Or.inl ⟨c, choice, room, _, rfl, hpc, h⟩))
    | _ => exact Or.inl h
  · exact Or.inr (Or.inr (Or.inr h))

theorem move_room (hm : Move u s l s') (d : ConnID) :
    (s'.conn d).room = (s.conn d).room ∨
    (∃ sid, l = .dial sid ∧ d = s.conns ∧ (s'.conn d).room = none) ∨
    ∃ c choice k answer, l = .run c choice ∧ (s.conn c).reader = .tell .setRoom k answer ∧
      k.target c = some d ∧ (s'.conn d).room = some k.room := by
  cases hm with
  | dial sid =>
    by_cases hd : d = s.conns
    · subst hd
      refine Or.inr (Or.inl ⟨sid, rfl, rfl, ?_⟩)
      change ((s.setConn s.conns _).conn s.conns).room = _
      rw [setConn_self]
    · left
      change ((s.setConn s.conns _).conn d).room = _
      rw [setConn_conn, if_neg hd]
  | recv c m hp hi => exact Or.inl (goto_room s c d _)
  | hangup c hp => exact Or.inl (close_field s Conn.room c d fun _ => rfl)
  | pump c hp => exact Or.inl (setConn_field s Conn.room c d _ rfl)
  | run c choice e pc hr =>
    rw [goto_room, apply_room]
    generalize hpc : (s.conn c).reader = r at hr
    cases hr with
    | setRoom k answer target ht =>
      dsimp only
      by_cases hd : d = target
      · subst hd
        rw [if_pos rfl]
        exact Or.inr (Or.inr ⟨c, choice, k, answer, rfl, hpc, ht, rfl⟩)
      · rw [if_neg hd]
        exact Or.inl rfl
    | _ => exact Or.inl rfl
  | close c choice e pc hr =>
    rw [gotoCloser_room, apply_room]
    generalize hpc : (s.conn c).closer = r at hr
    cases hr <;> exact Or.inl rfl
  | act id i a s' ha hact => exact Or.inl (act_field Conn.room hact (fun _ _ _ _ => rfl) d)
  | gc choice e w he =>
    left
    obtain rfl | ⟨room, rfl⟩ := he.effect
    · rfl
    · exact apply_room s (.submit room .forceClose) d
  | _ => exact Or.inl rfl

/-! ## Messages -/

/-- Who puts a message on the channel of a connection. -/
inductive Appends (s : Sys σ) : Label → ConnID → ServerEnvelope → Option (ID × ℕ) → Prop
  | delivered (id : ID) (i : ℕ) (a : Actor σ) (env : ServerEnvelope) (targets : List ConnID)
      (rest : List Op) (c : ConnID) (ha : s.actor id = some a)
      (ht : a.todo = .deliver env targets :: rest) (hc : targets[i]? = some c) :
      Appends s (.act id i) c env none
  | told (d : ConnID) (choice : Choice) (k : Call) (answer : Option CmdResult) (c : ConnID)
      (hr : (s.conn d).reader = .tell .send k answer) (ht : k.target d = some c) :
      Appends s (.run d choice) c (tellEnvelope s.now k answer) (tellGiven k answer)
  | noted (d : ConnID) (choice : Choice) (env : ServerEnvelope)
      (hr : (s.conn d).reader = .send env) : Appends s (.run d choice) d env none

theorem move_sent (hm : Move u s l s') (hn : s.conn s.conns = {}) (d : ConnID) :
    ((s'.conn d).sent = (s.conn d).sent ∧ (s'.conn d).given = (s.conn d).given) ∨
    ∃ env given, Appends s l d env given ∧ (s'.conn d).sent = (s.conn d).sent ++ [env] ∧
      (s'.conn d).given = (s.conn d).given ++ given.toList := by
  cases hm with
  | dial sid =>
    left
    by_cases hd : d = s.conns
    · subst hd
      rw [hn]
      change ((s.setConn s.conns _).conn s.conns).sent = _ ∧
        ((s.setConn s.conns _).conn s.conns).given = _
      rw [setConn_self]
      exact ⟨rfl, rfl⟩
    · change ((s.setConn s.conns _).conn d).sent = _ ∧ ((s.setConn s.conns _).conn d).given = _
      rw [setConn_conn, if_neg hd]
      exact ⟨rfl, rfl⟩
  | recv c m hp hi => exact Or.inl ⟨goto_sent s c d _, goto_given s c d _⟩
  | hangup c hp =>
    exact Or.inl ⟨close_field s Conn.sent c d fun _ => rfl, close_field s Conn.given c d fun _ => rfl⟩
  | pump c hp =>
    exact Or.inl ⟨setConn_field s Conn.sent c d _ rfl, setConn_field s Conn.given c d _ rfl⟩
  | run c choice e pc hr =>
    rw [goto_sent, goto_given]
    refine (apply_sent s e d).imp_right ?_
    rintro ⟨env, given, rfl, hs⟩
    refine ⟨env, given, ?_, hs⟩
    generalize hpc : (s.conn c).reader = r at hr
    cases hr with
    | told k answer target pc ht hp => exact .told c choice k answer d hpc ht
    | sent env pc hp => exact .noted d choice env hpc
  | close c choice e pc hr =>
    rw [gotoCloser_sent, gotoCloser_given]
    refine (apply_sent s e d).imp_right ?_
    rintro ⟨env, given, rfl, hs⟩
    generalize hpc : (s.conn c).closer = r at hr
    cases hr
  | act id i a s' ha hact =>
    cases hact with
    | delivered env targets rest todo c ht hc hd =>
      refine (enqueue_sent (s.setActor id { a with todo := todo }) c d env none).imp_right ?_
      rintro ⟨rfl, hs⟩
      exact ⟨env, none, .delivered id i a env targets rest d ha ht hc, hs⟩
    | _ => exact Or.inl ⟨rfl, rfl⟩
  | gc choice e w he =>
    refine (apply_sent s e d).imp_right ?_
    rintro ⟨env, given, rfl, hs⟩
    obtain he | ⟨room, he⟩ := he.effect <;> cases he
  | _ => exact Or.inl ⟨rfl, rfl⟩

theorem move_replies (hm : Move u s l s') :
    s'.replies = s.replies ∨
    ∃ id i a ch res rest, l = .act id i ∧ s.actor id = some a ∧
      a.todo = .reply (some ch) res :: rest ∧
      s'.replies = Function.update s.replies ch (some res) := by
  cases hm with
  | hangup c hp => exact Or.inl (close_rest s Sys.replies (fun _ _ _ => rfl) c)
  | run c choice e pc hr => exact Or.inl (apply_replies s e)
  | close c choice e pc hr => exact Or.inl (apply_replies s e)
  | act id i a s' ha hact =>
    cases hact with
    | delivered env targets rest todo c ht hc hd =>
      exact Or.inl (enqueue_rest (s.setActor id { a with todo := todo }) Sys.replies
        (fun _ _ _ => rfl) c env none)
    | replied ch res rest ht => exact Or.inr ⟨id, i, a, ch, res, rest, rfl, ha, ht, rfl⟩
    | _ => exact Or.inl rfl
  | gc choice e w he => exact Or.inl (apply_replies s e)
  | _ => exact Or.inl rfl

theorem apply_sweeper (s : Sys σ) (e : Effect σ) : (s.apply e).sweeper = s.sweeper := by
  cases e <;> first
    | rfl
    | exact enqueue_rest s Sys.sweeper (fun _ _ _ => rfl) _ _ _
    | exact push_rest s Sys.sweeper _ _ fun _ _ => rfl

/-- Only the sweep itself moves the sweep. -/
theorem move_sweeper (hm : Move u s l s') :
    s'.sweeper = s.sweeper ∨
    (∃ rooms, l = .sweepRooms rooms ∧ s.sweeper = .idle ∧ rooms.all s.listed = true ∧
      s' = { s with sweeper := .visit s.now rooms }) ∨
    ∃ choice e w, l = .gc choice ∧ SweepStep u s s.sweeper e w ∧
      s' = { s.apply e with sweeper := w } := by
  cases hm with
  | hangup c hp => exact Or.inl (close_rest s Sys.sweeper (fun _ _ _ => rfl) c)
  | run c choice e pc hr => exact Or.inl (apply_sweeper s e)
  | close c choice e pc hr => exact Or.inl (apply_sweeper s e)
  | act id i a s' ha hact =>
    left
    cases hact with
    | delivered env targets rest todo c ht hc hd =>
      exact enqueue_rest _ Sys.sweeper (fun _ _ _ => rfl) c env none
    | _ => rfl
  | sweepRooms rooms hi hl => exact Or.inr (Or.inl ⟨rooms, rfl, hi, hl, rfl⟩)
  | gc choice e w he => exact Or.inr (Or.inr ⟨choice, e, w, rfl, he, rfl⟩)
  | _ => exact Or.inl rfl

end Moves
end RealtimeEngine.Transport
