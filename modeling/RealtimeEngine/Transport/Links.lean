import RealtimeEngine.Room.Broadcasts
import RealtimeEngine.Transport.Known

/-! A reply channel ties one call to one command: the command a goroutine waits
for was its own, in the room it called, and what the room sends back reaches no
other goroutine. What a goroutine holds of a room, from the answer the actor
has not even sent yet to the message it is about to enqueue, is `holding`. -/
namespace RealtimeEngine.Transport
open Foundations Domain Rooms Storage Matchmaking
set_option autoImplicit false
set_option maxHeartbeats 250000

section Links
variable {σ : Type} {u : Setup σ} {s s' : Sys σ} {l : Label}

structure Linked (s : Sys σ) : Prop where
  ids : ∀ R a, s.actor R = some a → a.room.id = R
  queued : ∀ R a t ch, s.actor R = some a → t ∈ a.queue → t.reply = some ch → ch < s.chans
  replying : ∀ R a ch res, s.actor R = some a → .reply (some ch) res ∈ a.todo → ch < s.chans
  replied : ∀ ch res, s.replies ch = some res → ch < s.chans
  awaited : ∀ d k ch, (s.conn d).reader = .await k ch → ch < s.chans
  ticket : ∀ R a t ch d k, s.actor R = some a → t ∈ a.queue → t.reply = some ch →
    (s.conn d).reader = .await k ch → k.room = R ∧ t.cmd = k.command (s.conn d).playerID
  answer : ∀ R a ch res d k, s.actor R = some a → .reply (some ch) res ∈ a.todo →
    (s.conn d).reader = .await k ch → k.room = R
  event : ∀ R a ev, s.actor R = some a → .broadcast ev ∈ a.todo →
    ev.roomID = R ∧ ev.serverSeq = a.room.serverSeq
  message : ∀ R a env targets, s.actor R = some a → .deliver env targets ∈ a.todo →
    env.roomID = R ∧ env.serverSeq = a.room.serverSeq

theorem move_chans (hm : Move u s l s') : s.chans ≤ s'.chans := by
  have hpush : ∀ room cmd, s.chans ≤ (s.push room cmd).chans := by
    intro room cmd
    unfold Sys.push
    split
    · exact Nat.le_refl _
    · exact Nat.le_succ _
  have henq : ∀ (t : Sys σ) c env given, (t.enqueue c env given).chans = t.chans :=
    fun t c env given => enqueue_rest t Sys.chans (fun _ _ _ => rfl) c env given
  have happ : ∀ e : Effect σ, s.chans ≤ (s.apply e).chans := by
    intro e
    cases e with
    | submit room cmd => exact hpush room cmd
    | enqueue c env given => exact Nat.le_of_eq (henq s c env given).symm
    | _ => exact Nat.le_refl _
  cases hm with
  | hangup c hp => exact Nat.le_of_eq (close_rest s Sys.chans (fun _ _ _ => rfl) c).symm
  | run c choice e pc hr => exact happ e
  | close c choice e pc hr => exact happ e
  | act id i a s' ha hact =>
    cases hact with
    | delivered env targets rest todo c ht hc hd =>
      exact Nat.le_of_eq (henq (s.setActor id { a with todo := todo }) c env none).symm
    | _ => exact Nat.le_refl _
  | gc choice e w he => exact happ e
  | _ => exact Nat.le_refl _

theorem accepts_actor (s : Sys σ) (room : ID) (h : s.accepts room = true) :
    ∃ a, s.actor room = some a := by
  unfold Sys.accepts at h
  cases ha : s.actor room with
  | none =>
    rw [ha] at h
    cases h
  | some a => exact ⟨a, rfl⟩

/-- A goroutine comes to wait for an answer only by submitting its call, on a new channel. -/
theorem move_await (hm : Move u s l s') (d : ConnID) (k : Call) (ch : ChanID)
    (h : (s'.conn d).reader = .await k ch) :
    (s.conn d).reader = .await k ch ∨
    (∃ choice, l = .run d choice) ∧ (s.conn d).reader = .submit k ∧ ch = s.chans ∧
      s'.chans = s.chans + 1 := by
  obtain hr | ⟨choice, e, hl, hs', hent⟩ := move_enters hm d (by rw [h]; rfl)
  · exact Or.inl (hr.symm.trans h)
  · right
    rw [h] at hs' hent
    generalize hpc : (s.conn d).reader = pc at hent
    cases hent with
    | submitted k' ha =>
      obtain ⟨a, hsome⟩ := accepts_actor s k.room ha
      rw [hs']
      exact ⟨⟨choice, hl⟩, rfl, rfl, push_chans s _ _ a hsome⟩

/-- A player's connection keeps its player once it waits for a room. -/
theorem move_awaiting_player (hm : Move u s l s') (d : ConnID) (k : Call) (ch : ChanID)
    (h : (s'.conn d).reader = .await k ch) : (s'.conn d).playerID = (s.conn d).playerID := by
  obtain hp | ⟨sid, rfl, rfl⟩ := move_fixed Conn.playerID (fun _ _ _ _ _ _ _ _ => rfl) hm d
  · exact hp
  · obtain hr | ⟨⟨choice, hr⟩, -⟩ := move_await hm s.conns k ch h
    · rw [hm.dial_inv] at h
      change ((s.setConn s.conns _).conn s.conns).reader = _ at h
      rw [setConn_self] at h
      cases h
    · cases hr

/-- A `Close` waits for a room that it waited for, or for one it has just told. -/
theorem move_closer_await (hm : Move u s l s') {d : ConnID} {room : ID} {ch : ChanID}
    (h : (s'.conn d).closer = .await room ch) :
    (s'.conn d).playerID = (s.conn d).playerID ∧
    ((s.conn d).closer = .await room ch ∨
      ∃ choice, l = .close d choice ∧ (s.conn d).closer = .submit room ∧ ch = s.chans ∧
        s'.chans = s.chans + 1) := by
  have hplayer : (s'.conn d).playerID = (s.conn d).playerID := by
    obtain hp | ⟨sid, rfl, rfl⟩ := move_fixed Conn.playerID (fun _ _ _ _ _ _ _ _ => rfl) hm d
    · exact hp
    · rw [hm.dial_inv] at h
      change ((s.setConn s.conns _).conn s.conns).closer = _ at h
      rw [setConn_self] at h
      cases h
  refine ⟨hplayer, ?_⟩
  obtain heq | ⟨sid, -, -, hoff⟩ | ⟨-, hstart⟩ | ⟨choice, -, rfl, -⟩ := move_closer hm d
  · exact Or.inl (heq.symm.trans h)
  · cases hoff.symm.trans h
  · cases hstart.symm.trans h
  · right
    obtain ⟨e, pc, hstep, hs'⟩ := hm.close_inv
    have hpc : (s'.conn d).closer = pc := by
      rw [hs', gotoCloser_closer, if_pos rfl]
    rw [hpc] at h
    subst h
    generalize hc : (s.conn d).closer = r at hstep
    cases hstep with
    | submitted room hacc =>
      obtain ⟨a, ha⟩ := accepts_actor s room hacc
      rw [hs']
      exact ⟨choice, rfl, rfl, rfl, push_chans s room _ a ha⟩

/-- A command on the channel was there, or was put there by the move. -/
theorem move_queued (hm : Move u s l s') (R : ID) (a' : Actor σ) (t : Ticket)
    (ha' : s'.actor R = some a') (ht : t ∈ a'.queue) :
    (∃ a, s.actor R = some a ∧ t ∈ a.queue) ∨
    Pushes s l R t ∧ ∀ ch, t.reply = some ch → ch = s.chans ∧ s'.chans = s.chans + 1 := by
  obtain ⟨o, ho, hch⟩ := hm.actor_before ha'
  cases hch with
  | kept => exact Or.inl ⟨a', ho, ht⟩
  | created c choice gameType players g hl hr hg => cases ht
  | pushed a t' timers hp hc =>
    obtain hin | hin := List.mem_append.mp ht
    · exact Or.inl ⟨a, ho, hin⟩
    · rw [List.mem_singleton.mp hin]
      exact Or.inr ⟨hp, hc⟩
  | turned a t' rest hl hq htodo hopen =>
    refine Or.inl ⟨a, ho, ?_⟩
    rw [hq]
    exact List.mem_cons_of_mem _ ht
  | ticked a hl htodo hopen => exact Or.inl ⟨a, ho, ht⟩
  | acted a a' i hl hp => exact Or.inl ⟨a, ho, by cases hp <;> exact ht⟩
  | flagged a listed stopped timers => exact Or.inl ⟨a, ho, ht⟩

/-- An answer still to be sent was to be sent before, or the turn of its command made it. -/
theorem move_replying (hm : Move u s l s') (R : ID) (a' : Actor σ) (ch : ChanID) (res : CmdResult)
    (ha' : s'.actor R = some a') (h : .reply (some ch) res ∈ a'.todo) :
    (∃ a, s.actor R = some a ∧ .reply (some ch) res ∈ a.todo) ∨
    ∃ a t rest, l = .turn R ∧ s.actor R = some a ∧ a.queue = t :: rest ∧ t.reply = some ch ∧
      .reply res ∈ (Rooms.step a.game a.room (.command s.now t.cmd)).2 ∧
      a'.room = (Rooms.step a.game a.room (.command s.now t.cmd)).1 := by
  obtain ⟨o, ho, hch⟩ := hm.actor_before ha'
  cases hch with
  | kept => exact Or.inl ⟨a', ho, h⟩
  | created c choice gameType players g hl hr hg => cases h
  | pushed a t timers hp hc => exact Or.inl ⟨a, ho, h⟩
  | turned a t rest hl hq htodo hopen =>
    obtain ⟨hreply, hout⟩ := reply_mem_ofOutput h
    exact Or.inr ⟨a, t, rest, hl, ho, hq, hreply.symm, hout, rfl⟩
  | ticked a hl htodo hopen =>
    obtain ⟨hreply, -⟩ := reply_mem_ofOutput h
    cases hreply
  | acted a a' i hl hp => exact Or.inl ⟨a, ho, hp.reply_mem h⟩
  | flagged a listed stopped timers => exact Or.inl ⟨a, ho, h⟩

theorem Linked.ids_move (hk : Linked s) (hm : Move u s l s') (R : ID) (a' : Actor σ)
    (ha' : s'.actor R = some a') : a'.room.id = R := by
  obtain ⟨o, ho, hch⟩ := hm.actor_before ha'
  cases hch with
  | kept => exact hk.ids R a' ho
  | created c choice gameType players g hl hr hg => rfl
  | pushed a t timers hp hc => exact hk.ids R a ho
  | turned a t rest hl hq htodo hopen =>
    rw [turnWith_room, exit_id (step_exit a.game a.room _)]
    exact hk.ids R a ho
  | ticked a hl htodo hopen =>
    rw [turnWith_room, exit_id (step_exit a.game a.room _)]
    exact hk.ids R a ho
  | acted a a' i hl hp =>
    rw [← hk.ids R a ho]
    cases hp <;> rfl
  | flagged a listed stopped timers => exact hk.ids R a ho

theorem Linked.ticket_move (hk : Linked s) (hm : Move u s l s') (R : ID) (a' : Actor σ)
    (t : Ticket) (ch : ChanID) (d : ConnID) (k : Call) (ha' : s'.actor R = some a')
    (ht : t ∈ a'.queue) (hch : t.reply = some ch) (hr' : (s'.conn d).reader = .await k ch) :
    k.room = R ∧ t.cmd = k.command (s'.conn d).playerID := by
  rw [move_awaiting_player hm d k ch hr']
  obtain ⟨a, ha, hin⟩ | ⟨hp, hnew⟩ := move_queued hm R a' t ha' ht
  · obtain hr | ⟨-, -, rfl, -⟩ := move_await hm d k ch hr'
    · exact hk.ticket R a t ch d k ha hin hch hr
    · exact absurd (hk.queued R a t s.chans ha hin hch) (Nat.lt_irrefl _)
  · obtain ⟨rfl, -⟩ := hnew ch hch
    obtain hr | ⟨⟨choice, rfl⟩, hr, -, -⟩ := move_await hm d k s.chans hr'
    · exact absurd (hk.awaited d k s.chans hr) (Nat.lt_irrefl _)
    · cases hp with
      | call c choice k' hr2 =>
        rw [hr] at hr2
        cases hr2
        exact ⟨rfl, rfl⟩

theorem Linked.answer_move (hk : Linked s) (hm : Move u s l s') (R : ID) (a' : Actor σ)
    (ch : ChanID) (res : CmdResult) (d : ConnID) (k : Call) (ha' : s'.actor R = some a')
    (hop : .reply (some ch) res ∈ a'.todo) (hr' : (s'.conn d).reader = .await k ch) :
    k.room = R := by
  obtain hr | ⟨⟨choice, hl⟩, -, rfl, -⟩ := move_await hm d k ch hr'
  · obtain ⟨a, ha, hin⟩ | ⟨a, t, rest, -, ha, hq, hch, -, -⟩ :=
      move_replying hm R a' ch res ha' hop
    · exact hk.answer R a ch res d k ha hin hr
    · exact (hk.ticket R a t ch d k ha (by rw [hq]; exact List.mem_cons_self) hch hr).1
  · obtain ⟨a, ha, hin⟩ | ⟨a, t, rest, hl', -⟩ := move_replying hm R a' s.chans res ha' hop
    · exact absurd (hk.replying R a s.chans res ha hin) (Nat.lt_irrefl _)
    · rw [hl] at hl'
      cases hl'

theorem Linked.event_move (hk : Linked s) (hm : Move u s l s') (R : ID) (a' : Actor σ)
    (ev : RoomEvent) (ha' : s'.actor R = some a') (h : .broadcast ev ∈ a'.todo) :
    ev.roomID = R ∧ ev.serverSeq = a'.room.serverSeq := by
  obtain ⟨o, ho, hch⟩ := hm.actor_before ha'
  have hturn : ∀ a i ch queue, s.actor R = some a →
      .broadcast ev ∈ (turnWith a i ch queue).todo →
      ev.roomID = R ∧ ev.serverSeq = (turnWith a i ch queue).room.serverSeq := by
    intro a i ch queue ha hin
    have hb := exit_broadcast (step_exit a.game a.room i) (broadcast_mem_ofOutput hin)
    exact ⟨hb.1.trans (hk.ids R a ha), hb.2⟩
  cases hch with
  | kept => exact hk.event R a' ev ho h
  | created c choice gameType players g hl hr hg => cases h
  | pushed a t timers hp hc => exact hk.event R a ev ho h
  | turned a t rest hl hq htodo hopen => exact hturn a _ _ _ ho h
  | ticked a hl htodo hopen => exact hturn a _ _ _ ho h
  | acted a a' i hl hp =>
    have hb := hk.event R a ev ho (hp.broadcast_mem h)
    rw [hp.room_eq]
    exact hb
  | flagged a listed stopped timers => exact hk.event R a ev ho h

theorem Linked.message_move (hk : Linked s) (hm : Move u s l s') (R : ID) (a' : Actor σ)
    (env : ServerEnvelope) (targets : List ConnID) (ha' : s'.actor R = some a')
    (h : .deliver env targets ∈ a'.todo) :
    env.roomID = R ∧ env.serverSeq = a'.room.serverSeq := by
  obtain ⟨o, ho, hch⟩ := hm.actor_before ha'
  cases hch with
  | kept => exact hk.message R a' env targets ho h
  | created c choice gameType players g hl hr hg => cases h
  | pushed a t timers hp hc => exact hk.message R a env targets ho h
  | turned a t rest hl hq htodo hopen => exact absurd h deliver_not_mem_ofOutput
  | ticked a hl htodo hopen => exact absurd h deliver_not_mem_ofOutput
  | acted a a' i hl hp =>
    rw [hp.room_eq]
    obtain ⟨event, rest, ht, rfl, -⟩ | ⟨targets', hmem, -⟩ := hp.deliver_mem h
    · exact hk.event R a event ho (by rw [ht]; exact List.mem_cons_self)
    · exact hk.message R a env targets' ho hmem
  | flagged a listed stopped timers => exact hk.message R a env targets ho h

theorem Linked.move (hk : Linked s) (hm : Move u s l s') : Linked s' := by
  have hle := move_chans hm
  refine ⟨hk.ids_move hm, ?_, ?_, ?_, ?_, hk.ticket_move hm, hk.answer_move hm,
    hk.event_move hm, hk.message_move hm⟩
  · intro R a' t ch ha' ht hch
    obtain ⟨a, ha, hin⟩ | ⟨-, hnew⟩ := move_queued hm R a' t ha' ht
    · exact Nat.lt_of_lt_of_le (hk.queued R a t ch ha hin hch) hle
    · obtain ⟨rfl, hs⟩ := hnew ch hch
      rw [hs]
      exact Nat.lt_succ_self _
  · intro R a' ch res ha' hop
    refine Nat.lt_of_lt_of_le ?_ hle
    obtain ⟨a, ha, hin⟩ | ⟨a, t, rest, -, ha, hq, hch, -, -⟩ :=
      move_replying hm R a' ch res ha' hop
    · exact hk.replying R a ch res ha hin
    · exact hk.queued R a t ch ha (by rw [hq]; exact List.mem_cons_self) hch
  · intro ch res hr
    refine Nat.lt_of_lt_of_le ?_ hle
    obtain h | ⟨id, i, a, ch', res', rest, -, ha, ht, h⟩ := move_replies hm
    · rw [h] at hr
      exact hk.replied ch res hr
    · rw [h, Function.update_apply] at hr
      split at hr
      · next heq =>
        subst heq
        exact hk.replying id a ch res' ha (by rw [ht]; exact List.mem_cons_self)
      · exact hk.replied ch res hr
  · intro d k ch hr'
    obtain hr | ⟨-, -, rfl, hs⟩ := move_await hm d k ch hr'
    · exact Nat.lt_of_lt_of_le (hk.awaited d k ch hr) hle
    · rw [hs]
      exact Nat.lt_succ_self _

theorem linked_start : Linked ({} : Sys σ) where
  ids := fun R a h => by cases h
  queued := fun R a t ch h => by cases h
  replying := fun R a ch res h => by cases h
  replied := fun ch res h => by cases h
  awaited := fun d k ch h => by cases h
  ticket := fun R a t ch d k h => by cases h
  answer := fun R a ch res d k h => by cases h
  event := fun R a ev h => by cases h
  message := fun R a env targets h => by cases h

/-! ## What a goroutine holds of a room -/

/-- The answer an operation sends on the channel. -/
def Op.answerOn (ch : ChanID) : Op → Option CmdResult
  | .reply (some ch') res => if ch' = ch then some res else none
  | _ => none

/-- The successful answers on a channel, sent or still to be sent by the actor. -/
def answers (s : Sys σ) (id : ID) (ch : ChanID) : List CmdResult :=
  (((s.actor id).elim [] fun a => a.todo.filterMap (Op.answerOn ch)) ++
    (s.replies ch).toList).filter fun res => decide (res.err = none)

/-- The calls of a goroutine that are answered, with the answer. -/
def holding (s : Sys σ) (d : ConnID) : List (Call × Option CmdResult) :=
  match (s.conn d).reader with
  | .await k ch => (answers s k.room ch).map fun res => (k, some res)
  | .tell _ k answer => [(k, answer)]
  | _ => []

theorem answerOn_eq_some (ch : ChanID) (op : Op) (res : CmdResult) :
    op.answerOn ch = some res ↔ op = .reply (some ch) res := by
  constructor
  · intro h
    unfold Op.answerOn at h
    split at h
    · split at h
      · next heq =>
        cases h
        rw [heq]
      · cases h
    · cases h
  · rintro rfl
    exact if_pos rfl

theorem mem_answers (s : Sys σ) (id : ID) (ch : ChanID) (res : CmdResult) :
    res ∈ answers s id ch ↔
      ((∃ a, s.actor id = some a ∧ .reply (some ch) res ∈ a.todo) ∨ s.replies ch = some res) ∧
        res.err = none := by
  unfold answers
  rw [List.mem_filter, decide_eq_true_iff, List.mem_append, Option.mem_toList]
  have htodo : res ∈ ((s.actor id).elim [] fun a => a.todo.filterMap (Op.answerOn ch)) ↔
      ∃ a, s.actor id = some a ∧ Op.reply (some ch) res ∈ a.todo := by
    cases ha : s.actor id with
    | none => simp
    | some a =>
      simp only [Option.elim_some, List.mem_filterMap, answerOn_eq_some, exists_eq_right,
        Option.some.injEq, exists_eq_left']
  rw [htodo]

theorem mem_holding (s : Sys σ) (d : ConnID) (k : Call) (answer : Option CmdResult) :
    (k, answer) ∈ holding s d ↔
      (∃ ch res, (s.conn d).reader = .await k ch ∧ res ∈ answers s k.room ch ∧
        answer = some res) ∨
      ∃ stage, (s.conn d).reader = .tell stage k answer := by
  unfold holding
  split
  · next k' ch hr =>
    rw [List.mem_map]
    constructor
    · rintro ⟨res, hres, heq⟩
      cases heq
      exact Or.inl ⟨ch, res, hr, hres, rfl⟩
    · rintro (⟨ch', res, hr', hres, rfl⟩ | ⟨stage, hr'⟩)
      · rw [hr] at hr'
        cases hr'
        exact ⟨res, hres, rfl⟩
      · rw [hr] at hr'
        cases hr'
  · next stage k' answer' hr =>
    rw [List.mem_singleton]
    constructor
    · intro heq
      cases heq
      exact Or.inr ⟨stage, hr⟩
    · rintro (⟨ch', res, hr', -⟩ | ⟨stage', hr'⟩)
      · rw [hr] at hr'
        cases hr'
      · rw [hr] at hr'
        cases hr'
        rfl
  · next hna hnt =>
    constructor
    · intro h
      cases h
    · rintro (⟨ch, res, hr, -⟩ | ⟨stage, hr⟩)
      · exact absurd hr (hna k ch)
      · exact absurd hr (hnt stage k answer)

theorem call_of_holding {d : ConnID} {k : Call} {answer : Option CmdResult}
    (h : (k, answer) ∈ holding s d) : (s.conn d).reader.call = some k := by
  obtain ⟨ch, res, hr, -⟩ | ⟨stage, hr⟩ := (mem_holding s d k answer).mp h
  · rw [hr]
    rfl
  · rw [hr]
    rfl

/-- How a goroutine comes to have a message to enqueue. -/
theorem ReaderStep.to_tell {c : ConnID} {pc pc' : Reader} {e : Effect σ} {stage : Stage} {k : Call}
    {answer : Option CmdResult} (h : ReaderStep u s c pc e pc') (hpc : pc' = .tell stage k answer) :
    (∃ stage', pc = .tell stage' k answer ∧ stage ≠ .setRoom ∧
      (stage = .register → stage' = .setRoom)) ∨
    (∃ ch res, pc = .await k ch ∧ s.replies ch = some res ∧ res.err = none ∧ answer = some res ∧
      (k.initial = true ∨ stage = .send)) ∨
    (answer = none ∧ stage = .setRoom ∧ k.rest.isSome = true ∧
      (pc = .submit k ∨ ∃ ch, pc = .await k ch)) := by
  cases h with
  | refused k' hs =>
    cases k' with
    | seat room p conn rest =>
      cases hpc
      exact Or.inr (Or.inr ⟨rfl, rfl, rfl, Or.inl rfl⟩)
    | _ => cases hpc
  | failed k' ch err hs =>
    cases k' with
    | seat room p conn rest =>
      cases hpc
      exact Or.inr (Or.inr ⟨rfl, rfl, rfl, Or.inr ⟨ch, rfl⟩⟩)
    | _ => cases hpc
  | succeeded k' ch res hr he =>
    cases k' with
    | join room p rest => cases rest <;> cases hpc
    | act room a => cases hpc
    | resume room =>
      cases hpc
      exact Or.inr (Or.inl ⟨ch, res, rfl, hr, he, rfl, Or.inl rfl⟩)
    | seat room p conn rest =>
      cases hpc
      exact Or.inr (Or.inl ⟨ch, res, rfl, hr, he, rfl, Or.inl rfl⟩)
    | resync room =>
      cases hpc
      exact Or.inr (Or.inl ⟨ch, res, rfl, hr, he, rfl, Or.inr rfl⟩)
  | setRoom k' answer' target ht =>
    cases hpc
    exact Or.inl ⟨_, rfl, Stage.noConfusion, fun _ => rfl⟩
  | registered k' answer' target ht =>
    cases hpc
    exact Or.inl ⟨_, rfl, Stage.noConfusion, fun h => by cases h⟩
  | bound k' answer' target ht =>
    cases hpc
    exact Or.inl ⟨_, rfl, Stage.noConfusion, fun h => by cases h⟩
  | told k' answer' target pc ht hp =>
    rw [hp] at hpc
    split at hpc
    · generalize k'.rest = rest at hpc
      cases rest <;> cases hpc
    · cases hpc
  | sent env pc hp =>
    rw [hp] at hpc
    split at hpc <;> cases hpc
  | created gameType players id g hg hn => cases players <;> cases hpc
  | waited target rest hd => cases rest <;> cases hpc
  | _ => cases hpc

theorem move_tell (hm : Move u s l s') (d : ConnID) (stage : Stage) (k : Call)
    (answer : Option CmdResult) (h : (s'.conn d).reader = .tell stage k answer) :
    (s'.conn d).reader = (s.conn d).reader ∨
    ∃ choice e, l = .run d choice ∧
      ReaderStep u s d (s.conn d).reader e (.tell stage k answer) := by
  obtain hr | ⟨sid, -, -, hr⟩ | ⟨m, -, -, hr⟩ | ⟨choice, e, hl, hr⟩ := move_reader hm d
  · exact Or.inl hr
  · rw [h] at hr
    cases hr
  · rw [h] at hr
    have hcall : (handleMessage s.now (s.conn d) m).call = some k := by
      rw [← hr]
      rfl
    rw [(handleMessage_call _ _ _ _ hcall).1] at hr
    cases hr
  · rw [h] at hr
    exact Or.inr ⟨choice, e, hl, hr⟩

/-- Nothing is on a channel that was just made. -/
theorem Linked.new_channel (hk : Linked s) (hm : Move u s l s') {d : ConnID} {choice : Choice}
    (hl : l = .run d choice) (id : ID) (res : CmdResult) : res ∉ answers s' id s.chans := by
  intro h
  obtain ⟨⟨a', ha', hop⟩ | hrep, -⟩ := (mem_answers s' id s.chans res).mp h
  · obtain ⟨a, ha, hin⟩ | ⟨a, t, rest, hl', -⟩ := move_replying hm id a' s.chans res ha' hop
    · exact absurd (hk.replying id a s.chans res ha hin) (Nat.lt_irrefl _)
    · rw [hl] at hl'
      cases hl'
  · obtain h | ⟨id, i, a, ch', res', rest, hl', -⟩ := move_replies hm
    · rw [h] at hrep
      exact absurd (hk.replied s.chans res hrep) (Nat.lt_irrefl _)
    · rw [hl] at hl'
      cases hl'

/-- The turn that answers the call of a goroutine. -/
structure Answers (s s' : Sys σ) (l : Label) (d : ConnID) (k : Call) (res : CmdResult)
    (a : Actor σ) (t : Ticket) (rest : List Ticket) : Prop where
  label : l = .turn k.room
  actor : s.actor k.room = some a
  queue : a.queue = t :: rest
  cmd : t.cmd = k.command (s.conn d).playerID
  ok : res.err = none
  output : .reply res ∈ (Rooms.step a.game a.room (.command s.now t.cmd)).2
  room : (s'.actor k.room).map Actor.room =
    some (Rooms.step a.game a.room (.command s.now t.cmd)).1

/-- The snapshot in an answer has the version the room has after the turn. -/
theorem Answers.serverSeq {d c : ConnID} {k : Call} {res : CmdResult} {a : Actor σ} {t : Ticket}
    {rest : List Ticket} (h : Answers s s' l d k res a t rest) (ht : k.target d = some c) :
    ∃ a', s'.actor k.room = some a' ∧ res.serverSeq = a'.room.serverSeq := by
  obtain ⟨a', ha', hroom⟩ := Option.map_eq_some_iff.mp h.room
  refine ⟨a', ha', ?_⟩
  have hout := h.output
  rw [hroom]
  rw [h.cmd] at hout ⊢
  cases k with
  | resume room => exact (exit_reconnect_reply (step_exit a.game a.room _) hout h.ok).1
  | seat room p conn rest => exact exit_snapshot_reply (step_exit a.game a.room _) hout
  | resync room => exact exit_snapshot_reply (step_exit a.game a.room _) hout
  | join room p rest => cases ht
  | act room action => cases ht

/-- A room stays, and its version never goes back. -/
theorem move_serverSeq (hm : Move u s l s') {R : ID} {a : Actor σ} (ha : s.actor R = some a) :
    ∃ a', s'.actor R = some a' ∧ a.room.serverSeq ≤ a'.room.serverSeq := by
  obtain ⟨a', ha', hroom | ⟨i, -, -, hroom⟩⟩ := move_turn hm ha
  · exact ⟨a', ha', Nat.le_of_eq (by rw [hroom])⟩
  · refine ⟨a', ha', ?_⟩
    rw [hroom]
    exact exit_serverSeq_le (step_exit a.game a.room i)

/-- An answer on a channel somebody waits on was there, or the turn of its command made it. -/
theorem move_answers (hk : Linked s) (hm : Move u s l s') (d : ConnID) (k : Call) (ch : ChanID)
    (hr' : (s'.conn d).reader = .await k ch) (res : CmdResult)
    (h : res ∈ answers s' k.room ch) :
    (s.conn d).reader = .await k ch ∧
      (res ∈ answers s k.room ch ∨ ∃ a t rest, Answers s s' l d k res a t rest) := by
  obtain hr | ⟨⟨choice, hl⟩, -, rfl, -⟩ := move_await hm d k ch hr'
  swap
  · exact absurd h (hk.new_channel hm hl k.room res)
  refine ⟨hr, ?_⟩
  obtain ⟨hsrc, hok⟩ := (mem_answers s' k.room ch res).mp h
  obtain ⟨a', ha', hop⟩ | hrep := hsrc
  · obtain ⟨a, ha, hin⟩ | ⟨a, t, rest, hl, ha, hq, hch, hout, hroom⟩ :=
      move_replying hm k.room a' ch res ha' hop
    · exact Or.inl ((mem_answers s k.room ch res).mpr ⟨Or.inl ⟨a, ha, hin⟩, hok⟩)
    · have ht := hk.ticket k.room a t ch d k ha (by rw [hq]; exact List.mem_cons_self) hch hr
      refine Or.inr ⟨a, t, rest, hl, ha, hq, ht.2, hok, hout, ?_⟩
      rw [ha', Option.map_some, hroom]
  · left
    obtain h | ⟨id, i, a, ch', res', rest, -, ha, ht, h⟩ := move_replies hm
    · rw [h] at hrep
      exact (mem_answers s k.room ch res).mpr ⟨Or.inr hrep, hok⟩
    · rw [h, Function.update_apply] at hrep
      split at hrep
      · next heq =>
        cases hrep
        subst heq
        have hin : Op.reply (some ch) res ∈ a.todo := by
          rw [ht]
          exact List.mem_cons_self
        have hroom := hk.answer id a ch res d k ha hin hr
        subst hroom
        exact (mem_answers s k.room ch res).mpr ⟨Or.inl ⟨a, ha, hin⟩, hok⟩
      · exact (mem_answers s k.room ch res).mpr ⟨Or.inr hrep, hok⟩

/-- What a goroutine holds after a move, it held before, or the turn of its
command has just answered it, or its `Snapshot` failed. -/
theorem move_holding (hk : Linked s) (hm : Move u s l s') (d : ConnID) (k : Call)
    (answer : Option CmdResult) (h : (k, answer) ∈ holding s' d) :
    (k, answer) ∈ holding s d ∨
    (∃ a t rest res, answer = some res ∧ (s.conn d).reader.call = some k ∧
      Answers s s' l d k res a t rest) ∨
    answer = none ∧ k.rest.isSome = true ∧ (s'.conn d).reader = .tell .setRoom k none := by
  obtain ⟨ch, res, hr', hres, rfl⟩ | ⟨stage, hr'⟩ := (mem_holding s' d k answer).mp h
  · obtain ⟨hr, hold | ⟨a, t, rest, hans⟩⟩ := move_answers hk hm d k ch hr' res hres
    · exact Or.inl ((mem_holding s d k _).mpr (Or.inl ⟨ch, res, hr, hold, rfl⟩))
    · refine Or.inr (Or.inl ⟨a, t, rest, res, rfl, ?_, hans⟩)
      rw [hr]
      rfl
  · obtain hr | ⟨choice, e, hl, hr⟩ := move_tell hm d stage k answer hr'
    · rw [hr'] at hr
      exact Or.inl ((mem_holding s d k answer).mpr (Or.inr ⟨stage, hr.symm⟩))
    · obtain ⟨stage', hpc, -⟩ | ⟨ch, res, hpc, hrep, hok, rfl, -⟩ | ⟨rfl, rfl, hseat, -⟩ :=
        hr.to_tell rfl
      · exact Or.inl ((mem_holding s d k answer).mpr (Or.inr ⟨stage', hpc⟩))
      · left
        refine (mem_holding s d k _).mpr (Or.inl ⟨ch, res, hpc, ?_, rfl⟩)
        exact (mem_answers s k.room ch res).mpr ⟨Or.inr hrep, hok⟩
      · exact Or.inr (Or.inr ⟨rfl, hseat, hr'⟩)

end Links
end RealtimeEngine.Transport
