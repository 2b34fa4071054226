import RealtimeEngine.Transport.Memberships
import RealtimeEngine.Transport.Searches
import RealtimeEngine.Transport.Sweeping
import RealtimeEngine.Transport.Waiting

/-! Whether a room can take a player for connected who has no open connection in
the Hub. A `Join` or a `Reconnect` marks the player as connected before the
connection is registered, and `Close` looks at the pending entry and at the room
pointer only once, so it misses a room that is set up for it afterwards. As long
as a connection is still there when its pass comes to it, every connected player
is registered, about to be registered, or about to be disconnected. -/
namespace RealtimeEngine.Transport
open Foundations Domain Rooms Storage Matchmaking
set_option autoImplicit false
set_option maxHeartbeats 250000

section Ghosts
variable {σ : Type} {u : Setup σ} {s s' : Sys σ} {l : Label}

/-! ## Runs without a missed close -/

def Sys.active (s : Sys σ) (R : ID) : Bool :=
  (s.actor R).any fun a => decide (a.room.lifecycle = .active)

/-- A command that marks a player as connected. -/
def Ticket.connects (t : Ticket) : Bool :=
  match t.cmd with
  | .join _ | .reconnect _ => true
  | _ => false

def Call.connects : Call → Bool
  | .resume _ | .join _ _ _ => true
  | _ => false

/-- A pass finds the player it comes to still pending, the connection that is
registered is open and was in no other room, and the calls that mark a player as
connected, and `GetStatus`, are not given up at their deadline; the former do not
fail in an Active room either. -/
def seatsOpenly (s : Sys σ) : Label → Bool
  | .run d choice =>
    match (s.conn d).reader with
    | .await k ch => !k.connects || (decide (choice ≠ .timeout) &&
        ((s.replies ch).all (fun res => res.err.isNone) || !s.active k.room))
    | .status _ => decide (choice ≠ .timeout)
    | .seat R (p :: _) => (s.pending.lookup p).isSome || !s.active R
    | .tell .setRoom k _ => (k.target d).all fun c =>
        (s.conn c).room.all fun room => decide (room = k.room)
    | .tell .register k _ => (k.target d).all fun c => (s.conn c).isOpen
    | _ => true
  | _ => true

/-- The room is Active and takes the player for connected. -/
def Playing (s : Sys σ) (R : ID) (p : PlayerID) : Prop :=
  ∃ a slot, s.actor R = some a ∧ a.room.lifecycle = .active ∧
    a.room.players.lookup p = some slot ∧ slot.connected = true

/-- The body of `Close` has not unregistered the connection from the room yet. -/
def Closer.keeps (R : ID) : Closer → Prop
  | .off | .start | .dequeue _ | .getRoom => True
  | .unregister room => room = R
  | _ => False

/-- Why a player may be connected: they are registered, or on the way into the
Hub, or on the way out of the room. -/
inductive Covered (s : Sys σ) (R : ID) (p : PlayerID) : Prop
  | entry (c : ConnID) (h : s.hub.entry R p = some c)
  | forming (d : ConnID) (ps : Option (List PlayerID))
      (h : (s.conn d).reader.pass = some (R, ps)) (ho : Owed ps p)
  | resuming (d : ConnID) (hp : Plays s p d)
      (h : (∃ ch, (s.conn d).reader = .await (.resume R) ch) ∨
        ∃ answer, (s.conn d).reader = .tell .setRoom (.resume R) answer)
  | registering (d : ConnID) (k : Call) (answer : Option CmdResult)
      (h : (s.conn d).reader = .tell .register k answer) (hR : k.room = R)
      (hp : k.player (s.conn d).playerID = p)
  | closing (c : ConnID) (hp : Plays s p c) (h : (s.conn c).closer = .submit R)
  | dropping (a : Actor σ) (t : Ticket) (ha : s.actor R = some a) (ht : t ∈ a.queue)
      (hc : t.cmd = .disconnect p)

structure Hosted (s : Sys σ) : Prop where
  stops : StopsClosed s
  unanswered : Unanswered s
  entry : ∀ R p c, s.hub.entry R p = some c →
    (s.conn c).room = some R ∧ (s.conn c).closer.keeps R
  pointed : ∀ d k answer c, (s.conn d).reader = .tell .register k answer →
    k.target d = some c → (s.conn c).room = some k.room
  awaited : ∀ R a t, s.actor R = some a → a.room.lifecycle ≠ .closed → t ∈ a.queue →
    t.connects = true → ∃ d k ch, t.reply = some ch ∧ (s.conn d).reader = .await k ch
  covered : ∀ R p, Playing s R p → Covered s R p

/-! ## Connections and their rooms -/

theorem room_stays (hk : Known u s) (hm : Move u s l s') (hl : seatsOpenly s l = true)
    (c : ConnID) (R : ID) (h : (s.conn c).room = some R) : (s'.conn c).room = some R := by
  obtain hr | ⟨sid, -, rfl, -⟩ | ⟨d, choice, k, answer, rfl, hr, ht, hroom⟩ := move_room hm c
  · exact hr.trans h
  · rw [hk.fresh] at h
    cases h
  · simp only [seatsOpenly, hr, ht, Option.all_some, h, decide_eq_true_iff] at hl
    rw [hroom, ← hl]

theorem Hosted.pointed_move (hH : Hosted s) (hk : Known u s) (hm : Move u s l s')
    (hl : seatsOpenly s l = true) (d : ConnID) (k : Call) (answer : Option CmdResult) (c : ConnID)
    (hr' : (s'.conn d).reader = .tell .register k answer) (ht : k.target d = some c) :
    (s'.conn c).room = some k.room := by
  obtain hsame | ⟨choice, e, -, hs', hent⟩ := move_enters hm d (by rw [hr']; rfl)
  · rw [hsame] at hr'
    exact room_stays hk hm hl c k.room (hH.pointed d k answer c hr' ht)
  · rw [hr'] at hent
    generalize (s.conn d).reader = pc at hent
    cases hent with
    | setRoom _ _ target ht' =>
      rw [ht] at ht'
      cases ht'
      rw [hs', goto_room]
      change ((s.setConn c _).conn c).room = _
      rw [setConn_self]

/-- Until `Close` unregisters it, a registered connection points at its room. -/
theorem Closer.keeps_step {c : ConnID} {pc pc' : Closer} {e : Effect σ} {R : ID}
    (h : CloserStep u s c pc e pc') (hroom : (s.conn c).room = some R) (hk : pc.keeps R) :
    pc'.keeps R ∨ pc = .unregister R := by
  cases h with
  | searched hn => exact Or.inl trivial
  | unpended conn hp => exact Or.inl trivial
  | dequeued gameType => exact Or.inl trivial
  | roomless hn =>
    rw [hroom] at hn
    cases hn
  | roomed room hr =>
    rw [hroom] at hr
    cases hr
    exact Or.inl rfl
  | unregistered room =>
    obtain rfl : room = R := hk
    exact Or.inr rfl
  | _ => cases hk

theorem keeps_move (hm : Move u s l s') (c : ConnID) (hc : c < s.conns) (R : ID)
    (hroom : (s.conn c).room = some R) (hkeep : (s.conn c).closer.keeps R) :
    (s'.conn c).closer.keeps R ∨ ∃ choice, l = .close c choice ∧
      (s.conn c).closer = .unregister R := by
  obtain hcl | ⟨sid, -, rfl, -⟩ | ⟨-, hcl⟩ | ⟨choice, e, rfl, hstep⟩ := move_closer hm c
  · rw [hcl]
    exact Or.inl hkeep
  · exact absurd hc (Nat.lt_irrefl _)
  · rw [hcl]
    exact Or.inl trivial
  · exact (Closer.keeps_step hstep hroom hkeep).imp_right fun h => ⟨choice, rfl, h⟩

theorem close_unregisters {c : ConnID} {choice : Choice} {R : ID}
    (hm : Move u s (.close c choice) s') (hcl : (s.conn c).closer = .unregister R) :
    s'.hub = s.hub.unregister R (s.conn c).playerID c ∧ (s'.conn c).closer = .submit R := by
  obtain ⟨e, pc, hstep, rfl⟩ := hm.close_inv
  rw [hcl] at hstep
  cases hstep with
  | unregistered room =>
    rw [gotoCloser_closer, if_pos rfl]
    exact ⟨rfl, rfl⟩

/-- A registered connection still points at the room, or its `Close` takes the entry away. -/
theorem Hosted.entry_stays (hH : Hosted s) (hk : Known u s) (hm : Move u s l s')
    (hl : seatsOpenly s l = true) (R : ID) (p : PlayerID) (c : ConnID)
    (he : s.hub.entry R p = some c) (he' : s'.hub.entry R p = some c) :
    (s'.conn c).room = some R ∧ (s'.conn c).closer.keeps R := by
  obtain ⟨hroom, hkeep⟩ := hH.entry R p c he
  obtain ⟨hc, rfl⟩ := hk.hub R p c he
  refine ⟨room_stays hk hm hl c R hroom, ?_⟩
  obtain h | ⟨choice, rfl, hcl⟩ := keeps_move hm c hc R hroom hkeep
  · exact h
  · rw [(close_unregisters hm hcl).1, Hub.entry_unregister, if_pos ⟨rfl, rfl, he⟩] at he'
    cases he'

theorem Hosted.entry_move (hH : Hosted s) (hk : Known u s) (hm : Move u s l s')
    (hl : seatsOpenly s l = true) (R : ID) (p : PlayerID) (c : ConnID)
    (he' : s'.hub.entry R p = some c) :
    (s'.conn c).room = some R ∧ (s'.conn c).closer.keeps R := by
  obtain h | ⟨d, choice, k, answer, target, rfl, hr, ht, h⟩ | ⟨d, choice, room, rfl, hcl, h⟩ :=
    move_hub hm
  · have he := he'
    rw [h] at he
    exact hH.entry_stays hk hm hl R p c he he'
  · have he := he'
    rw [h, Hub.entry_register] at he
    split at he
    · next heq =>
      -- the pass registers an open connection whose pointer it has just set
      cases he
      have hroom := hH.pointed d k answer c hr ht
      rw [← heq.1] at hroom
      have hopen := hl
      simp only [seatsOpenly, hr, ht, Option.all_some] at hopen
      have hkeep : (s.conn c).closer.keeps R := by
        rw [(isOpen_iff _).mp hopen]
        trivial
      refine ⟨room_stays hk hm hl c R hroom, ?_⟩
      obtain hkeep' | ⟨choice', hl', -⟩ := keeps_move hm c (hk.target (by rw [hr]; rfl) ht).1 R
        hroom hkeep
      · exact hkeep'
      · cases hl'
    · exact hH.entry_stays hk hm hl R p c he he'
  · have he := he'
    rw [h] at he
    exact hH.entry_stays hk hm hl R p c (Hub.entry_of_unregister _ _ _ _ _ _ _ he) he'

/-! ## Commands that mark a player as connected -/

theorem command_connects (k : Call) (self : PlayerID) (reply : Option ChanID) :
    Ticket.connects { cmd := k.command self, reply := reply } = k.connects := by
  cases k <;> rfl

theorem closed_stays (hm : Move u s l s') (R : ID) (a a' : Actor σ) (ha : s.actor R = some a)
    (ha' : s'.actor R = some a') (hc : a.room.lifecycle = .closed) :
    a'.room.lifecycle = .closed := by
  obtain ⟨b, hb, hroom | ⟨i, -, hopen, -⟩⟩ := move_turn hm ha
  · rw [ha'] at hb
    cases hb
    rw [hroom]
    exact hc
  · exact absurd hc hopen

theorem stopped_closed (hs : StopsClosed s) (hm : Move u s l s') (R : ID) (a' : Actor σ)
    (ha' : s'.actor R = some a') (ho : a'.room.lifecycle ≠ .closed) : s.stopped R = false := by
  cases ha : s.actor R with
  | none =>
    unfold Sys.stopped
    rw [ha]
    rfl
  | some a => exact hs.running ha fun hc => ho (closed_stays hm R a a' ha ha' hc)

theorem Hosted.awaited_move (hH : Hosted s) (hk : Known u s) (hL : Linked s)
    (h : step u s l = some s') (hl : seatsOpenly s l = true) (R : ID) (a' : Actor σ) (t : Ticket)
    (ha' : s'.actor R = some a') (ho : a'.room.lifecycle ≠ .closed) (ht : t ∈ a'.queue)
    (hc : t.connects = true) :
    ∃ d k ch, t.reply = some ch ∧ (s'.conn d).reader = .await k ch := by
  have hm := step_move u s s' l h
  have hrunning := stopped_closed hH.stops hm R a' ha' ho
  obtain ⟨a, ha, hin⟩ | ⟨hp, -⟩ := move_queued hm R a' t ha' ht
  · obtain ⟨d, k, ch, hch, hr⟩ := hH.awaited R a t ha
      (fun hcl => ho (closed_stays hm R a a' ha ha' hcl)) hin hc
    obtain ⟨rfl, hcmd⟩ := hL.ticket R a t ch d k ha hin hch hr
    refine ⟨d, k, ch, hch, ?_⟩
    have hb : (s.conn d).reader ≠ .idle := by
      rw [hr]
      exact Reader.noConfusion
    obtain hsame | ⟨choice, rfl⟩ := busy_reader hm d (hk.busy d hb) hb
    · exact hsame.trans hr
    · -- the goroutine would go on with an answer the room has not given yet
      have hconn : k.connects = true := by
        cases t with
        | mk cmd reply =>
          cases hcmd
          rw [← command_connects k _ reply]
          exact hc
      simp only [seatsOpenly, hr, hconn, Bool.not_true, Bool.false_or, Bool.and_eq_true,
        decide_eq_true_iff] at hl
      obtain ⟨res, hres, -⟩ := await_goes h hr hl.1 hrunning
      rw [(hH.unanswered.waiting d k ch a t hr ha hin hch).1] at hres
      cases hres
  · cases hp with
    | call c choice k hr => exact ⟨c, k, s.chans, rfl, submit_goes h hr hrunning⟩
    | _ => cases hc

/-! ## How a player comes to be connected -/

theorem exit_disconnect {g : Game σ} {r r' : Room σ} {now : Time} {outs : List Output}
    {p : PlayerID} (he : Exit g r (.command now (.disconnect p)) r' outs)
    (ho : r.lifecycle ≠ .closed) (slot : PlayerSlot) (hs : r'.players.lookup p = some slot) :
    slot.connected = false := by
  cases he with
  | stopped _ hc => exact absurd hc ho
  | rejected _ _ e _ hr => cases hr
  | ignored _ q _ _ hc hoff =>
    obtain hc | hc := hc
    · cases hc
      exact hoff slot hs
    · cases hc
  | dropped _ q _ slot' _ hc hs' hb =>
    obtain hc | ⟨hc, -⟩ := hc
    · cases hc
      change (r.players.insert p _).lookup p = some slot at hs
      rw [Table.lookup_insert_ite, if_pos rfl] at hs
      cases hs
      rfl
    · cases hc

/-- A turn after which an Active room has the player connected: it was so before,
or the turn is a `Join` or the player's `Reconnect`. -/
theorem exit_playing {g : Game σ} {r r' : Room σ} {i : Input} {outs : List Output} {p : PlayerID}
    {slot' : PlayerSlot} (he : Exit g r i r' outs) (ho : r.lifecycle ≠ .closed)
    (ha : r'.lifecycle = .active) (hs' : r'.players.lookup p = some slot')
    (hc : slot'.connected = true) :
    (∃ now q, i = .command now (.join q)) ∨ (∃ now, i = .command now (.reconnect p)) ∨
    (∀ now, i ≠ .command now (.disconnect p)) ∧ r.lifecycle = .active ∧
      ∃ slot, r.players.lookup p = some slot ∧ slot.connected = true := by
  have hdrop : ∀ now, i ≠ .command now (.disconnect p) := by
    rintro now rfl
    rw [exit_disconnect he ho slot' hs'] at hc
    cases hc
  obtain hact | hinit := exit_active g r r' i outs he ha
  · have hch := exit_slot he p
    rw [hs'] at hch
    generalize hold : r.players.lookup p = o at hch
    cases hch with
    | kept => exact Or.inr (Or.inr ⟨hdrop, hact, slot', rfl, hc⟩)
    | seated now hi => exact Or.inl ⟨now, p, hi⟩
    | moved slot seat hw =>
      rw [hact] at hw
      cases hw
    | dropped => cases hc
    | back slot now hi => exact Or.inr (Or.inl ⟨now, hi⟩)
    | marked slot now a hi hl => exact Or.inr (Or.inr ⟨hdrop, hact, slot, rfl, hc⟩)
  · obtain ⟨players, hplayers⟩ := Option.isSome_iff_exists.mp hinit
    obtain ⟨now, q, hi, -⟩ := initCall_some g r i players hplayers
    exact Or.inl ⟨now, q, hi⟩

/-- The turn of a command. -/
def Takes (s : Sys σ) (l : Label) (R : ID) (a : Actor σ) (t : Ticket) : Prop :=
  l = .turn R ∧ s.actor R = some a ∧ a.room.lifecycle ≠ .closed ∧ a.queue.head? = some t

theorem playing_back (hm : Move u s l s') (R : ID) (p : PlayerID) (h : Playing s' R p) :
    (Playing s R p ∧ ∀ a t, Takes s l R a t → t.cmd ≠ .disconnect p) ∨
    ∃ a t, Takes s l R a t ∧ ((∃ q, t.cmd = .join q) ∨ t.cmd = .reconnect p) := by
  obtain ⟨a', slot', ha', hact, hs', hc⟩ := h
  by_cases hl : l = .turn R
  · subst hl
    obtain ⟨a, t, rest, ha, hq, ho, rfl⟩ := hm.turn_inv
    have htakes : Takes s (.turn R) R a t := ⟨rfl, ha, ho, by rw [hq]; rfl⟩
    rw [setActor_self] at ha'
    cases ha'
    obtain ⟨now, q, hi⟩ | ⟨now, hi⟩ | ⟨hne, hact', slot, hs, hconn⟩ :=
      exit_playing (step_exit a.game a.room (.command s.now t.cmd)) ho hact hs' hc
    · exact Or.inr ⟨a, t, htakes, Or.inl ⟨q, (Input.command.inj hi).2⟩⟩
    · exact Or.inr ⟨a, t, htakes, Or.inr (Input.command.inj hi).2⟩
    · refine Or.inl ⟨⟨a, slot, ha, hact', hs, hconn⟩, ?_⟩
      rintro b t' ⟨-, hb, -, ht'⟩
      rw [ha] at hb
      cases hb
      rw [hq] at ht'
      cases ht'
      exact fun hcmd => hne s.now (by rw [hcmd])
  · refine Or.inl ⟨?_, fun a t ht => absurd ht.1 hl⟩
    obtain ⟨o, ho, hch⟩ := hm.actor_before ha'
    cases hch with
    | kept => exact ⟨a', slot', ho, hact, hs', hc⟩
    | created c choice gameType players g hl hr hg => cases hact
    | pushed a t timers hp hn => exact ⟨a, slot', ho, hact, hs', hc⟩
    | turned a t rest hl' => exact absurd hl' hl
    | ticked a hl' ht hopen =>
      obtain ⟨now, q, hi⟩ | ⟨now, hi⟩ | ⟨-, hact', slot, hs, hconn⟩ :=
        exit_playing (step_exit a.game a.room (.tick s.now)) hopen hact hs' hc
      · cases hi
      · cases hi
      · exact ⟨a, slot, ho, hact', hs, hconn⟩
    | acted a a' i hl' hp =>
      rw [hp.room_eq] at hact hs'
      exact ⟨a, slot', ho, hact, hs', hc⟩
    | flagged a listed stopped timers => exact ⟨a, slot', ho, hact, hs', hc⟩

/-! ## Ways on -/

theorem Playing.active {R : ID} {p : PlayerID} (h : Playing s R p) : s.active R = true := by
  obtain ⟨a, slot, ha, hact, -⟩ := h
  unfold Sys.active
  rw [ha, Option.any_some, hact]
  rfl

theorem Playing.running {R : ID} {p : PlayerID} (hs : StopsClosed s) (h : Playing s R p) :
    s.stopped R = false := by
  obtain ⟨a, slot, ha, hact, -⟩ := h
  exact hs.running ha (by rw [hact]; exact Lifecycle.noConfusion)

/-- A call that marks a player as connected in an Active room goes on with its answer. -/
theorem call_succeeds {d : ConnID} {choice : Choice} {k : Call} {ch : ChanID}
    (h : step u s (.run d choice) = some s') (hl : seatsOpenly s (.run d choice) = true)
    (hr : (s.conn d).reader = .await k ch) (hk : k.connects = true) (ha : s.active k.room = true)
    (hst : s.stopped k.room = false) : ∃ res, (s'.conn d).reader = k.succeeded res := by
  simp only [seatsOpenly, hr, hk, ha, Bool.not_true, Bool.false_or, Bool.or_false,
    Bool.and_eq_true, decide_eq_true_iff] at hl
  obtain ⟨hc, hok⟩ := hl
  obtain ⟨res, hres, hr'⟩ := await_goes h hr hc hst
  rw [hres, Option.all_some, Option.isNone_iff_eq_none] at hok
  exact ⟨res, hr' hok⟩

/-- A pass keeps a player it owes a seat until it comes to register them. -/
theorem pass_goes {d : ConnID} {choice : Choice} {R : ID} {p : PlayerID}
    {ps : Option (List PlayerID)} (h : step u s (.run d choice) = some s')
    (hl : seatsOpenly s (.run d choice) = true) (ha : s.active R = true)
    (hst : s.stopped R = false) (hseat : ∀ a, s.actor R = some a → p ∈ a.room.seatOrder)
    (hps : (s.conn d).reader.pass = some (R, ps)) (ho : Owed ps p) :
    (∃ ps', (s'.conn d).reader.pass = some (R, ps') ∧ Owed ps' p) ∨
    ∃ k answer, (s'.conn d).reader = .tell .register k answer ∧ k.room = R ∧
      k.player (s.conn d).playerID = p := by
  obtain ⟨e, pc, hstep, hs'⟩ := (step_move u s s' _ h).run_inv
  have hr' : (s'.conn d).reader = pc := by
    rw [hs', goto_reader_self]
  generalize hr : (s.conn d).reader = r at hps hstep
  cases r with
  | submit k =>
    cases k with
    | join room q rest =>
      cases hps
      rw [submit_goes h hr hst]
      exact Or.inl ⟨none, rfl, trivial⟩
    | seat room q c rest =>
      cases hps
      rw [submit_goes h hr hst]
      exact Or.inl ⟨_, rfl, ho⟩
    | _ => cases hps
  | await k ch =>
    cases k with
    | join room q rest =>
      cases hps
      obtain ⟨res, hr'⟩ := call_succeeds h hl hr rfl ha hst
      rw [hr']
      exact Or.inl ⟨none, by cases rest <;> rfl, trivial⟩
    | seat room q c rest =>
      cases hps
      rw [hr']
      cases hstep with
      | failed => exact Or.inl ⟨_, rfl, ho⟩
      | succeeded => exact Or.inl ⟨_, rfl, ho⟩
    | _ => cases hps
  | tell stage k answer =>
    rw [hr']
    cases k with
    | seat room q c rest =>
      cases hstep with
      | setRoom _ _ target ht =>
        cases hps
        obtain hq | hrest := List.mem_cons.mp ho
        · exact Or.inr ⟨_, _, rfl, rfl, hq.symm⟩
        · exact Or.inl ⟨_, rfl, hrest⟩
      | registered _ _ target ht =>
        cases hps
        exact Or.inl ⟨_, rfl, ho⟩
      | bound _ _ target ht =>
        cases hps
        exact Or.inl ⟨_, rfl, ho⟩
      | told _ _ target _ ht hp =>
        cases hps
        rw [hp]
        split <;> exact Or.inl ⟨_, rfl, ho⟩
    | _ => cases stage <;> cases hps
  | status room =>
    cases hps
    simp only [seatsOpenly, hr, decide_eq_true_iff] at hl
    obtain ⟨a, hact, hr'⟩ := status_goes h hr hl hst
    rw [hr']
    exact Or.inl ⟨_, rfl, hseat a hact⟩
  | seat room players =>
    cases hps
    rw [hr']
    cases hstep with
    | finished => cases ho
    | skipped _ q rest hn =>
      simp only [seatsOpenly, hr, hn, ha, Option.isSome_none, Bool.not_true, Bool.or_false] at hl
      cases hl
    | popped _ q rest conn hp => exact Or.inl ⟨_, rfl, ho⟩
  | waitClosed c rest =>
    rw [hr']
    cases rest with
    | none => cases hps
    | some x =>
      cases hps
      cases hstep with
      | waited _ _ hd => exact Or.inl ⟨_, rfl, ho⟩
  | _ => cases hps

/-- A command stays queued until the room takes it. -/
theorem queued_stays (hm : Move u s l s') (R : ID) (a : Actor σ) (t : Ticket)
    (ha : s.actor R = some a) (ht : t ∈ a.queue) :
    (∃ a', s'.actor R = some a' ∧ t ∈ a'.queue) ∨ Takes s l R a t := by
  obtain ⟨o', ho', hch⟩ := hm.actor_after ha
  cases hch with
  | kept => exact Or.inl ⟨a, ho', ht⟩
  | pushed a t' timers hp hn => exact Or.inl ⟨_, ho', List.mem_append_left _ ht⟩
  | turned a t' rest hl hq htodo ho =>
    rw [hq] at ht
    obtain rfl | hin := List.mem_cons.mp ht
    · exact Or.inr ⟨hl, ha, ho, by rw [hq]; rfl⟩
    · exact Or.inl ⟨_, ho', hin⟩
  | ticked a hl htodo ho => exact Or.inl ⟨_, ho', ht⟩
  | acted a a' i hl hp => exact Or.inl ⟨_, ho', by rw [hp.queue_eq]; exact ht⟩
  | flagged a listed stopped timers => exact Or.inl ⟨_, ho', ht⟩

theorem close_drops {c : ConnID} {choice : Choice} {R : ID} (hm : Move u s (.close c choice) s')
    (hcl : (s.conn c).closer = .submit R) (hst : s.stopped R = false) :
    ∃ a' t, s'.actor R = some a' ∧ t ∈ a'.queue ∧ t.cmd = .disconnect (s.conn c).playerID := by
  obtain ⟨e, pc, hstep, rfl⟩ := hm.close_inv
  rw [hcl] at hstep
  cases hstep with
  | submitted room hacc =>
    obtain ⟨a, ha⟩ := accepts_actor s R hacc
    let t : Ticket := { cmd := .disconnect (s.conn c).playerID, reply := some s.chans }
    have hin : t ∈ a.queue ++ [t] := List.mem_append_right _ (List.mem_singleton.mpr rfl)
    refine ⟨{ a with queue := a.queue ++ [t] }, t, ?_, hin, rfl⟩
    change (s.push R (.disconnect (s.conn c).playerID)).actor R = _
    unfold Sys.push
    rw [ha]
    change (s.setActor R _).actor R = _
    rw [setActor_self]
  | refused room hstop =>
    rw [hst] at hstop
    cases hstop

theorem Covered.entry_move (hk : Known u s) (hm : Move u s l s') {R : ID} {p : PlayerID}
    {c : ConnID} (he : s.hub.entry R p = some c) : Covered s' R p := by
  obtain h | ⟨d, choice, k, answer, target, -, -, -, h⟩ | ⟨d, choice, room, rfl, hcl, h⟩ :=
    move_hub hm
  · exact .entry c (by rw [h]; exact he)
  · by_cases heq : R = k.room ∧ p = k.player (s.conn d).playerID
    · exact .entry target (by rw [h, Hub.entry_register, if_pos heq])
    · exact .entry c (by rw [h, Hub.entry_register, if_neg heq]; exact he)
  · by_cases heq : R = room ∧ p = (s.conn d).playerID ∧
        s.hub.entry room (s.conn d).playerID = some d
    · obtain ⟨rfl, rfl, he'⟩ := heq
      exact .closing d ((hk.hub _ _ d he').move hm) (close_unregisters hm hcl).2
    · exact .entry c (by rw [h, Hub.entry_unregister, if_neg heq]; exact he)

theorem register_entry {d : ConnID} {choice : Choice} {k : Call} {answer : Option CmdResult}
    (hm : Move u s (.run d choice) s') (hr : (s.conn d).reader = .tell .register k answer) :
    ∃ c, s'.hub.entry k.room (k.player (s.conn d).playerID) = some c := by
  obtain ⟨e, pc, hstep, rfl⟩ := hm.run_inv
  rw [hr] at hstep
  cases hstep with
  | registered _ _ target ht =>
    refine ⟨target, ?_⟩
    change (s.hub.register _ _ _).entry _ _ = _
    rw [Hub.entry_register, if_pos ⟨rfl, rfl⟩]

theorem resume_points {d : ConnID} {choice : Choice} {R : ID} {answer : Option CmdResult}
    (hm : Move u s (.run d choice) s')
    (hr : (s.conn d).reader = .tell .setRoom (.resume R) answer) :
    (s'.conn d).reader = .tell .register (.resume R) answer := by
  obtain ⟨e, pc, hstep, rfl⟩ := hm.run_inv
  rw [goto_reader_self]
  rw [hr] at hstep
  cases hstep with
  | setRoom _ _ target ht => rfl

theorem Covered.move (hH : Hosted s) (hS : Sound u s) (h : step u s l = some s')
    (hl : seatsOpenly s l = true) {R : ID} {p : PlayerID} (hplay : Playing s R p)
    (hd : ∀ a t, Takes s l R a t → t.cmd ≠ .disconnect p) (hcov : Covered s R p) :
    Covered s' R p := by
  have hm := step_move u s s' l h
  have hk := hS.known
  have hst := hplay.running hH.stops
  cases hcov with
  | entry c he => exact Covered.entry_move hk hm he
  | forming d ps hps ho =>
    have hb : (s.conn d).reader ≠ .idle := fun hi => by
      rw [hi] at hps
      cases hps
    obtain hsame | ⟨choice, rfl⟩ := busy_reader hm d (hk.busy d hb) hb
    · exact .forming d ps (by rw [hsame]; exact hps) ho
    · have hseat : ∀ a, s.actor R = some a → p ∈ a.room.seatOrder := by
        intro a ha
        obtain ⟨b, slot, hb, -, hs, -⟩ := hplay
        rw [ha] at hb
        cases hb
        exact (hS.seated.tables R a ha).mem_of_lookup hs
      obtain ⟨ps', hps', ho'⟩ | ⟨k, answer, hr', hR, hp⟩ :=
        pass_goes h hl hplay.active hst hseat hps ho
      · exact .forming d ps' hps' ho'
      · exact .registering d k answer hr' hR (by rw [move_player hm d (hk.busy d hb)]; exact hp)
  | resuming d hp hr =>
    have hp' := hp.move hm
    obtain ⟨ch, hr⟩ | ⟨answer, hr⟩ := hr
    · obtain hsame | ⟨choice, rfl⟩ := busy_reader hm d hp.1 (by rw [hr]; exact Reader.noConfusion)
      · exact .resuming d hp' (Or.inl ⟨ch, hsame.trans hr⟩)
      · obtain ⟨res, hr'⟩ := call_succeeds h hl hr rfl hplay.active hst
        exact .resuming d hp' (Or.inr ⟨some res, hr'⟩)
    · obtain hsame | ⟨choice, rfl⟩ := busy_reader hm d hp.1 (by rw [hr]; exact Reader.noConfusion)
      · exact .resuming d hp' (Or.inr ⟨answer, hsame.trans hr⟩)
      · exact .registering d (.resume R) answer (resume_points hm hr) rfl hp'.2
  | registering d k answer hr hR hp =>
    have hb : (s.conn d).reader ≠ .idle := by
      rw [hr]
      exact Reader.noConfusion
    obtain hsame | ⟨choice, rfl⟩ := busy_reader hm d (hk.busy d hb) hb
    · exact .registering d k answer (hsame.trans hr) hR
        (by rw [move_player hm d (hk.busy d hb)]; exact hp)
    · obtain ⟨c, he⟩ := register_entry hm hr
      rw [hR, hp] at he
      exact .entry c he
  | closing c hp hcl =>
    obtain hsame | ⟨choice, rfl⟩ := busy_closer hm c hp.1 (by rw [hcl]; exact Closer.noConfusion)
    · exact .closing c (hp.move hm) (hsame.trans hcl)
    · obtain ⟨a', t, ha', ht, hc⟩ := close_drops hm hcl hst
      rw [hp.2] at hc
      exact .dropping a' t ha' ht hc
  | dropping a t ha ht hc =>
    obtain ⟨a', ha', ht'⟩ | htakes := queued_stays hm R a t ha ht
    · exact .dropping a' t ha' ht' hc
    · exact absurd hc (hd a t htakes)

/-! ## The invariant -/

theorem Hosted.covered_move (hH : Hosted s) (hS : Sound u s) (h : step u s l = some s')
    (hl : seatsOpenly s l = true) (R : ID) (p : PlayerID) (hplay' : Playing s' R p) :
    Covered s' R p := by
  have hm := step_move u s s' l h
  obtain ⟨hplay, hd⟩ | ⟨a, t, ⟨rfl, ha, ho, ht⟩, hcmd⟩ := playing_back hm R p hplay'
  · exact Covered.move hH hS h hl hplay hd (hH.covered R p hplay)
  · have hin : t ∈ a.queue := List.mem_of_mem_head? ht
    have hconn : t.connects = true := by
      unfold Ticket.connects
      obtain ⟨q, hc⟩ | hc := hcmd <;> rw [hc]
    obtain ⟨d, k, ch, hch, hr⟩ := hH.awaited R a t ha ho hin hconn
    obtain ⟨hR, hk⟩ := hS.linked.ticket R a t ch d k ha hin hch hr
    have hb : (s.conn d).reader ≠ .idle := by
      rw [hr]
      exact Reader.noConfusion
    have hr' : (s'.conn d).reader = .await k ch := by
      obtain hsame | ⟨choice, hl'⟩ := busy_reader hm d (hS.known.busy d hb) hb
      · exact hsame.trans hr
      · cases hl'
    rw [hk] at hcmd
    -- the caller of the command the room has just handled still waits
    cases k with
    | join room q rest =>
      subst hR
      exact .forming d none (by rw [hr']; rfl) trivial
    | resume room =>
      subst hR
      obtain ⟨q, hc⟩ | hc := hcmd
      · cases hc
      · cases hc
        have hp : Plays s (s.conn d).playerID d := ⟨hS.known.busy d hb, rfl⟩
        exact .resuming d (hp.move hm) (Or.inl ⟨ch, hr'⟩)
    | _ => obtain ⟨q, hc⟩ | hc := hcmd <;> cases hc

theorem Hosted.step (hH : Hosted s) (hS : Sound u s) (h : step u s l = some s')
    (hl : seatsOpenly s l = true) : Hosted s' where
  stops := hH.stops.step h
  unanswered := hH.unanswered.move hS.linked (step_move u s s' l h)
  entry := hH.entry_move hS.known (step_move u s s' l h) hl
  pointed := hH.pointed_move hS.known (step_move u s s' l h) hl
  awaited := hH.awaited_move hS.known hS.linked h hl
  covered := hH.covered_move hS h hl

theorem hosted_start : Hosted ({} : Sys σ) where
  stops := fun R a ha => by cases ha
  unanswered := unanswered_start
  entry := fun R p c he => by cases he
  pointed := fun d k answer c hr => by cases hr
  awaited := fun R a t ha => by cases ha
  covered := by
    rintro R p ⟨a, slot, ha, -⟩
    cases ha

theorem quiet_resting {R : ID} (hq : s.quiet R = true) : s.resting = true := by
  unfold Sys.quiet at hq
  exact (Bool.and_eq_true_iff.mp hq).1

theorem quiet_queue {R : ID} (hq : s.quiet R = true) (a : Actor σ) (ha : s.actor R = some a) :
    a.queue = [] := by
  unfold Sys.quiet at hq
  have h := (Bool.and_eq_true_iff.mp hq).2
  rw [ha, Option.all_some, Bool.and_eq_true] at h
  exact List.isEmpty_iff.mp h.1

/-- In a run that misses no close, once no handler is in progress, whoever an
Active room takes for connected has an open connection in the Hub, and the Hub
has no closed one. -/
theorem no_ghost_seats (u : Setup σ) (ls : List Label) (s : Sys σ)
    (hc : Meets (step u) (fun t l => seatsOpenly t l = true) {} ls) (hr : run u ls = some s)
    (R : ID) (hq : s.quiet R = true) :
    (∀ p, Playing s R p → ∃ c, s.hub.entry R p = some c ∧ (s.conn c).isOpen = true) ∧
    ∀ p c, s.hub.entry R p = some c → (s.conn c).isOpen = true := by
  obtain ⟨hS, hH⟩ := run_step_invariant (fun t l => seatsOpenly t l = true) Hosted
    (fun t l t' hl hS hH h => hH.step hS h hl) hosted_start ls s hc hr
  have hopen : ∀ p c, s.hub.entry R p = some c → (s.conn c).isOpen = true := by
    intro p c he
    have hkeep := (hH.entry R p c he).2
    obtain hoff | hdone := (resting_conn (quiet_resting hq) c (hS.known.hub R p c he).1).2
    · exact (isOpen_iff _).mpr hoff
    · rw [hdone] at hkeep
      cases hkeep
  refine ⟨fun p hplay => ?_, hopen⟩
  have hidle : ∀ d, (s.conn d).reader = .idle := fun d => by
    by_contra hb
    exact hb (resting_conn (quiet_resting hq) d (hS.known.busy d hb)).1
  cases hH.covered R p hplay with
  | entry c he => exact ⟨c, he, hopen p c he⟩
  | forming d ps hps ho =>
    rw [hidle d] at hps
    cases hps
  | resuming d hp h =>
    rw [hidle d] at h
    obtain ⟨ch, h⟩ | ⟨answer, h⟩ := h <;> cases h
  | registering d k answer h =>
    rw [hidle d] at h
    cases h
  | closing c hp h =>
    obtain hoff | hdone := (resting_conn (quiet_resting hq) c hp.1).2
    · rw [hoff] at h
      cases h
    · rw [hdone] at h
      cases h
  | dropping a t ha ht =>
    rw [quiet_queue hq a ha] at ht
    cases ht

end Ghosts

/-! ## A close while the match is made -/

section Scenario
set_option maxRecDepth 100000

/-- Alice and bob are seated: the Hub has an open connection of each. -/
theorem seated_players_registered :
    ∃ s, run aliceAndBob seated = some s ∧ s.quiet "r" = true ∧ Playing s "r" "alice" ∧
      ∃ c, s.hub.entry "r" "alice" = some c ∧ (s.conn c).isOpen = true := by
  have hc : Meets (step aliceAndBob) (fun t l => seatsOpenly t l = true) {} seated := by
    decide +kernel
  have hend : ((run aliceAndBob seated).any fun s => s.quiet "r" &&
      (s.actor "r").any fun a => decide (a.room.lifecycle = .active) &&
        (a.room.players.lookup "alice").any fun slot => slot.connected) = true := by
    decide +kernel
  obtain ⟨s, hr, h⟩ := (Option.any_eq_true _ _).mp hend
  obtain ⟨hq, h⟩ := Bool.and_eq_true_iff.mp h
  obtain ⟨a, ha, h⟩ := (Option.any_eq_true _ _).mp h
  obtain ⟨hact, h⟩ := Bool.and_eq_true_iff.mp h
  obtain ⟨slot, hs, hconn⟩ := (Option.any_eq_true _ _).mp h
  have hplay : Playing s "r" "alice" := ⟨a, slot, ha, of_decide_eq_true hact, hs, hconn⟩
  exact ⟨s, hr, hq, hplay, (no_ghost_seats aliceAndBob _ s hc hr "r" hq).1 "alice" hplay⟩

/-- Bob's request has taken alice out of the queue when alice closes; the match
is made and seated without them. -/
def closesBeforeSeating : List Label :=
  queuesUp "a" 0 "tictactoe" ++ queuesUp "b" 1 "tictactoe" ++ .hangup 0 ::
    List.replicate 3 (.close 0 .go) ++ joinsTwo 1 "r" ++ runs 1 5 ++ turns "r" 1 ++ runs 1 6

/-- Alice closes while the pass that has taken their pending entry waits for its
`Snapshot`. -/
def closesWhileSeating : List Label :=
  queuesUp "a" 0 "tictactoe" ++ queuesUp "b" 1 "tictactoe" ++ joinsTwo 1 "r" ++ runs 1 4 ++
    .hangup 0 :: List.replicate 2 (.close 0 .go) ++ turns "r" 1 ++ runs 1 7 ++ turns "r" 1 ++
    runs 1 6

/-- Both times the room goes on with an alice who is gone; the second time the
closed connection stays in the Hub. -/
theorem closed_alice_plays_on :
    ((run aliceAndBob closesBeforeSeating).any fun s => s.quiet "r" &&
      decide ((s.conn 0).closer = .done) && decide (s.hub.entry "r" "alice" = none) &&
      (s.actor "r").any fun a => decide (a.room.lifecycle = .active) &&
        (a.room.players.lookup "alice").any fun slot => slot.connected) = true ∧
    ((run aliceAndBob closesWhileSeating).any fun s => s.quiet "r" &&
      decide ((s.conn 0).closer = .done) && decide (s.hub.entry "r" "alice" = some 0) &&
      (s.actor "r").any fun a => decide (a.room.lifecycle = .active) &&
        (a.room.players.lookup "alice").any fun slot => slot.connected) = true := by
  decide +kernel

end Scenario
end RealtimeEngine.Transport
