import RealtimeEngine.Transport.Seating

/-! When a goroutine that waits for a room goes on. A room that has stopped is
closed, and a command is answered only after the room has taken it, so a
goroutine that does not give up at its deadline stays at its call until the room
has handled it. -/
namespace RealtimeEngine.Transport
open Foundations Domain Rooms Storage Matchmaking
set_option autoImplicit false
set_option maxHeartbeats 250000

section Waiting
variable {σ : Type} {u : Setup σ} {s s' : Sys σ} {l : Label}

/-! ## Stopped rooms -/

/-- `stopped` is closed after the actor has left its loop. -/
def StopsClosed (s : Sys σ) : Prop :=
  ∀ R a, s.actor R = some a → a.stopped = true → a.room.lifecycle = .closed

/-- A flag of the way out of the manager's map. -/
structure ExitFlag (flag : Actor σ → Bool) : Prop where
  same : ∀ a b, a.listed = b.listed → a.stopped = b.stopped → flag a = flag b
  fresh : ∀ a, a.listed = true → a.stopped = false → flag a = false

theorem exitFlag_stopped : ExitFlag fun a : Actor σ => a.stopped where
  same := fun _ _ _ h => h
  fresh := fun _ _ h => h

theorem exitFlag_unlisted : ExitFlag fun a : Actor σ => !a.listed where
  same := fun a b h _ => by rw [h]
  fresh := fun a h _ => by rw [h]; rfl

/-- Only an actor that has left its loop has the flag. -/
def ClosedWhen (flag : Actor σ → Bool) (s : Sys σ) : Prop :=
  ∀ R a, s.actor R = some a → flag a = true → a.room.lifecycle = .closed

section Flag
variable {flag : Actor σ → Bool}

theorem ClosedWhen.set (hs : ClosedWhen flag s) (id : ID) (a' : Actor σ)
    (ha' : flag a' = true → a'.room.lifecycle = .closed) :
    ClosedWhen flag (s.setActor id a') := by
  intro R a ha
  rw [setActor_actor] at ha
  split at ha
  · cases ha
    exact ha'
  · exact hs R a ha

/-- A write that leaves the room and its place in the map. -/
theorem ClosedWhen.keep (hf : ExitFlag flag) (hs : ClosedWhen flag s) {id : ID} {a : Actor σ}
    (ha : s.actor id = some a) (a' : Actor σ) (hl : a'.listed = a.listed)
    (hst : a'.stopped = a.stopped) (hroom : a'.room = a.room) :
    ClosedWhen flag (s.setActor id a') := by
  refine hs.set id a' ?_
  rw [hf.same a' a hl hst, hroom]
  exact hs id a ha

theorem ClosedWhen.apply (hf : ExitFlag flag) (hs : ClosedWhen flag s) (e : Effect σ) :
    ClosedWhen flag (s.apply e) := by
  cases e with
  | createRoom id gameType game =>
    refine hs.set id _ fun h => ?_
    rw [hf.fresh _ rfl rfl] at h
    cases h
  | submit room cmd =>
    intro R a ha
    change (s.push room cmd).actor R = some a at ha
    unfold Sys.push at ha
    split at ha
    · exact hs R a ha
    · next b hb =>
      exact hs.keep hf hb { b with queue := b.queue ++ [{ cmd := cmd, reply := some s.chans }] }
        rfl rfl rfl R a ha
  | enqueue c env given =>
    intro R a ha
    rw [Sys.apply, enqueue_rest s (fun s => s.actor R) (fun _ _ _ => rfl)] at ha
    exact hs R a ha
  | _ => exact hs

theorem ClosedWhen.act (hf : ExitFlag flag) (hs : ClosedWhen flag s) {id : ID} {a : Actor σ}
    {i : ℕ} (ha : s.actor id = some a) (h : ActStep u s id a i s') : ClosedWhen flag s' := by
  have hset : ∀ todo timers completed, ClosedWhen flag
      (s.setActor id { a with todo := todo, timers := timers, completed := completed }) :=
    fun _ _ _ => hs.keep hf ha _ rfl rfl rfl
  cases h with
  | delivered env targets rest todo c ht hc hd =>
    intro R b hb
    rw [enqueue_rest (s.setActor id { a with todo := todo }) (fun s => s.actor R)
      (fun _ _ _ => rfl) c env none] at hb
    exact hset _ _ _ R b hb
  | _ => exact hset _ _ _

/-- Only `remove` and `stop` write such a flag, of an actor that has left its loop. -/
theorem ClosedWhen.step (hf : ExitFlag flag) (hs : ClosedWhen flag s)
    (h : step u s l = some s') : ClosedWhen flag s' := by
  have hturn : ∀ id a, s.actor id = some a → a.room.lifecycle ≠ .closed → ∀ i ch queue,
      ClosedWhen flag (s.setActor id (turnWith a i ch queue)) := by
    intro id a ha hopen i ch queue
    refine hs.set id _ fun hflag => ?_
    rw [hf.same (turnWith a i ch queue) a rfl rfl] at hflag
    exact absurd (hs id a ha hflag) hopen
  have hleft : ∀ a : Actor σ, a.left = true → a.room.lifecycle = .closed := fun a ha =>
    of_decide_eq_true (Bool.and_eq_true_iff.mp ha).2
  have hm := step_move u s s' l h
  cases hm with
  | hangup c hp =>
    intro R a ha
    rw [close_rest s (fun s => s.actor R) (fun _ _ _ => rfl) c] at ha
    exact hs R a ha
  | run c choice e pc hr => exact hs.apply hf e
  | close c choice e pc hr => exact hs.apply hf e
  | turn id a t rest ha hq ht hl => exact hturn id a ha hl _ _ _
  | tick id a ha ht hl => exact hturn id a ha hl _ _ _
  | act id i a s' ha hact => exact hs.act hf ha hact
  | fire id i a timer ha => exact hs.keep hf ha _ rfl rfl rfl
  | flag l id a listed stopped timers ha hl =>
    obtain rfl | rfl | ⟨i, rfl⟩ := hl
    · simp only [Transport.step, ha, Option.bind_some, roomStep] at h
      split at h
      · next hgone =>
        rw [← Option.some.inj h]
        exact hs.set id _ fun _ => hleft a hgone.1
      · cases h
    · simp only [Transport.step, ha, Option.bind_some, roomStep] at h
      split at h
      · next hgone =>
        rw [← Option.some.inj h]
        exact hs.set id _ fun _ => hleft a hgone.1
      · cases h
    · simp only [Transport.step, ha, Option.bind_some, roomStep] at h
      split at h
      · rw [← Option.some.inj h]
        exact hs.keep hf ha _ rfl rfl rfl
      · cases h
  | gc choice e w he => exact hs.apply hf e
  | _ => exact hs

end Flag

theorem StopsClosed.step (hs : StopsClosed s) (h : step u s l = some s') : StopsClosed s' :=
  ClosedWhen.step exitFlag_stopped hs h

theorem StopsClosed.running (hs : StopsClosed s) {R : ID} {a : Actor σ} (ha : s.actor R = some a)
    (ho : a.room.lifecycle ≠ .closed) : s.stopped R = false := by
  unfold Sys.stopped
  rw [ha, Option.any_some]
  exact Bool.eq_false_iff.mpr fun h => ho (hs R a ha h)

/-! ## Steps of a goroutine that does not give up -/

theorem submit_goes {d : ConnID} {choice : Choice} {k : Call}
    (h : step u s (.run d choice) = some s') (hr : (s.conn d).reader = .submit k)
    (hst : s.stopped k.room = false) : (s'.conn d).reader = .await k s.chans := by
  obtain ⟨next, hn, rfl⟩ := (step_run_iff hr).mp h
  rw [goto_reader_self]
  cases choice with
  | go =>
    simp only [Reader.next] at hn
    split at hn
    · cases hn
      rfl
    · cases hn
  | stopped =>
    simp only [Reader.next, hst] at hn
    cases hn
  | _ => cases hn

theorem await_goes {d : ConnID} {choice : Choice} {k : Call} {ch : ChanID}
    (h : step u s (.run d choice) = some s') (hr : (s.conn d).reader = .await k ch)
    (hc : choice ≠ .timeout) (hst : s.stopped k.room = false) :
    ∃ res, s.replies ch = some res ∧
      (res.err = none → (s'.conn d).reader = k.succeeded res) := by
  obtain ⟨next, hn, rfl⟩ := (step_run_iff hr).mp h
  rw [goto_reader_self]
  cases choice with
  | go =>
    simp only [Reader.next] at hn
    split at hn
    · cases hn
    · next res hres =>
      refine ⟨res, hres, fun hok => ?_⟩
      rw [hok] at hn
      cases hn
      rfl
  | timeout => exact absurd rfl hc
  | stopped =>
    simp only [Reader.next, hst] at hn
    cases hn
  | fresh id => cases hn

theorem status_goes {d : ConnID} {choice : Choice} {R : ID}
    (h : step u s (.run d choice) = some s') (hr : (s.conn d).reader = .status R)
    (hc : choice ≠ .timeout) (hst : s.stopped R = false) :
    ∃ a, s.actor R = some a ∧ (s'.conn d).reader = .seat R a.room.seatOrder := by
  obtain ⟨next, hn, rfl⟩ := (step_run_iff hr).mp h
  rw [goto_reader_self]
  cases choice with
  | go =>
    simp only [Reader.next] at hn
    split at hn
    · cases hn
    · next view hv =>
      cases hn
      obtain ⟨a, ha, -, rfl⟩ := status_some s R view hv
      exact ⟨a, ha, rfl⟩
  | timeout => exact absurd rfl hc
  | stopped =>
    simp only [Reader.next, hst] at hn
    cases hn
  | fresh id => cases hn

/-! ## Commands without an answer -/

/-- A command somebody waits for has no answer as long as it is queued. -/
structure Unanswered (s : Sys σ) : Prop where
  nodup : ∀ R a, s.actor R = some a → (a.queue.filterMap Ticket.reply).Nodup
  waiting : ∀ d k ch a t, (s.conn d).reader = .await k ch → s.actor k.room = some a →
    t ∈ a.queue → t.reply = some ch →
    s.replies ch = none ∧ ∀ res, .reply (some ch) res ∉ a.todo

theorem Unanswered.nodup_move (hU : Unanswered s) (hL : Linked s) (hm : Move u s l s') (R : ID)
    (a' : Actor σ) (ha' : s'.actor R = some a') : (a'.queue.filterMap Ticket.reply).Nodup := by
  obtain ⟨o, ho, hch⟩ := hm.actor_before ha'
  cases hch with
  | kept => exact hU.nodup R a' ho
  | created c choice gameType players g hl hr hg => exact List.nodup_nil
  | pushed a t timers hp hc =>
    have hold := hU.nodup R a ho
    rw [List.filterMap_append]
    refine hold.append ?_ ?_
    · cases t with
      | mk cmd reply => cases reply <;> simp
    · intro ch hin hnew
      obtain ⟨t₁, ht₁, hr₁⟩ := List.mem_filterMap.mp hin
      obtain ⟨t₂, ht₂, hr₂⟩ := List.mem_filterMap.mp hnew
      rw [List.mem_singleton.mp ht₂] at hr₂
      have hlt := hL.queued R a t₁ ch ho ht₁ hr₁
      rw [(hc ch hr₂).1] at hlt
      exact absurd hlt (Nat.lt_irrefl _)
  | turned a t rest hl hq ht hopen =>
    have hold := hU.nodup R a ho
    rw [hq] at hold
    exact hold.sublist ((List.sublist_cons_self t rest).filterMap _)
  | ticked a hl ht hopen => exact hU.nodup R a ho
  | acted a a' i hl hp =>
    rw [hp.queue_eq]
    exact hU.nodup R a ho
  | flagged a listed stopped timers => exact hU.nodup R a ho

/-- No turn but its own makes the answer to a command. -/
theorem Unanswered.todo_move (hU : Unanswered s) (hL : Linked s) (hm : Move u s l s') {d : ConnID}
    {k : Call} {ch : ChanID} (hr : (s.conn d).reader = .await k ch) (a' : Actor σ) (t : Ticket)
    (ha' : s'.actor k.room = some a') (ht : t ∈ a'.queue) (hch : t.reply = some ch) :
    ∃ a, s.actor k.room = some a ∧ t ∈ a.queue ∧ ∀ res, .reply (some ch) res ∉ a'.todo := by
  obtain ⟨o, ho, hchange⟩ := hm.actor_before ha'
  cases hchange with
  | kept => exact ⟨a', ho, ht, (hU.waiting d k ch a' t hr ho ht hch).2⟩
  | created c choice gameType players g hl hr hg => cases ht
  | pushed a t' timers hp hc =>
    obtain hin | hnew := List.mem_append.mp ht
    · exact ⟨a, ho, hin, (hU.waiting d k ch a t hr ho hin hch).2⟩
    · rw [List.mem_singleton.mp hnew] at hch
      have hlt := hL.awaited d k ch hr
      rw [(hc ch hch).1] at hlt
      exact absurd hlt (Nat.lt_irrefl _)
  | turned a t₀ rest hl hq htodo hopen =>
    have hin : t ∈ a.queue := by
      rw [hq]
      exact List.mem_cons_of_mem _ ht
    refine ⟨a, ho, hin, fun res hres => ?_⟩
    obtain ⟨heq, -⟩ := reply_mem_ofOutput hres
    -- the command taken and the one left would have the same channel
    have hnodup := hU.nodup k.room a ho
    rw [hq, List.filterMap_cons_some heq.symm] at hnodup
    exact (List.nodup_cons.mp hnodup).1 (List.mem_filterMap.mpr ⟨t, ht, hch⟩)
  | ticked a hl htodo hopen =>
    refine ⟨a, ho, ht, fun res hres => ?_⟩
    obtain ⟨heq, -⟩ := reply_mem_ofOutput hres
    cases heq
  | acted a a' i hl hp =>
    rw [hp.queue_eq] at ht
    exact ⟨a, ho, ht, fun res hres =>
      (hU.waiting d k ch a t hr ho ht hch).2 res (hp.reply_mem hres)⟩
  | flagged a listed stopped timers =>
    exact ⟨a, ho, ht, (hU.waiting d k ch a t hr ho ht hch).2⟩

theorem Unanswered.waiting_move (hU : Unanswered s) (hL : Linked s) (hm : Move u s l s')
    (d : ConnID) (k : Call) (ch : ChanID) (a' : Actor σ) (t : Ticket)
    (hr' : (s'.conn d).reader = .await k ch) (ha' : s'.actor k.room = some a') (ht : t ∈ a'.queue)
    (hch : t.reply = some ch) :
    s'.replies ch = none ∧ ∀ res, .reply (some ch) res ∉ a'.todo := by
  obtain hr | ⟨⟨choice, rfl⟩, -, rfl, -⟩ := move_await hm d k ch hr'
  · obtain ⟨a, ha, hin, htodo⟩ := hU.todo_move hL hm hr a' t ha' ht hch
    obtain ⟨hnone, hold⟩ := hU.waiting d k ch a t hr ha hin hch
    refine ⟨?_, htodo⟩
    obtain h | ⟨id, i, b, ch', res, rest, -, hb, htb, h⟩ := move_replies hm
    · rw [h]
      exact hnone
    · rw [h, Function.update_apply]
      split
      · next heq =>
        subst heq
        have hmem : Op.reply (some ch) res ∈ b.todo := by
          rw [htb]
          exact List.mem_cons_self
        obtain rfl := hL.answer id b ch res d k hb hmem hr
        rw [ha] at hb
        cases hb
        exact absurd hmem (hold res)
      · exact hnone
  · constructor
    · obtain h | ⟨id, i, b, ch', res, rest, hl, -⟩ := move_replies hm
      · rw [h]
        refine Option.eq_none_iff_forall_ne_some.mpr fun res hres => ?_
        exact absurd (hL.replied s.chans res hres) (Nat.lt_irrefl _)
      · cases hl
    · intro res hres
      obtain ⟨a, ha, hin⟩ | ⟨a, t₀, rest, hl, -⟩ := move_replying hm k.room a' s.chans res ha' hres
      · exact absurd (hL.replying k.room a s.chans res ha hin) (Nat.lt_irrefl _)
      · cases hl

theorem Unanswered.move (hU : Unanswered s) (hL : Linked s) (hm : Move u s l s') :
    Unanswered s' where
  nodup := hU.nodup_move hL hm
  waiting := hU.waiting_move hL hm

theorem unanswered_start : Unanswered ({} : Sys σ) where
  nodup := fun R a ha => by cases ha
  waiting := fun d k ch a t hr => by cases hr

end Waiting
end RealtimeEngine.Transport
