import RealtimeEngine.Transport.Ghosts
import RealtimeEngine.Transport.Ledger

/-! What one sweep of the garbage collection gets done. `GCSweepOnce` takes its time once
and goes through the rooms of the map one after the other; it waits for each `GetStatus`
and each `ForceClose`, and meanwhile rooms go on with their own commands. A room that was
due when the sweep began is closed when the sweep is over: a Finished room in any case, a
Waiting one if it takes no command before the sweep has looked at it. -/
namespace RealtimeEngine.Transport
open Foundations Domain Rooms Storage Matchmaking
set_option autoImplicit false
set_option maxHeartbeats 250000

section Collecting
variable {σ : Type} {u : Setup σ} {s s' : Sys σ} {l : Label} {R : ID} {a a' : Actor σ} {now : Time}

/-! ## Rooms that are due -/

/-- A Finished room keeps the time it finished at until it is closed. -/
theorem exit_finished {g : Game σ} {r r' : Room σ} {i : Input} {outs : List Output}
    (he : Exit g r i r' outs) (hf : r.lifecycle = .finished) :
    r'.lifecycle = .closed ∨ r'.lifecycle = .finished ∧ r'.finishedAt = r.finishedAt := by
  have hne : ∀ {x : Lifecycle}, r.lifecycle = x → x = .finished := fun h => h.symm.trans hf
  cases he with
  | rejoined now p slot hl => obtain hl | hl := hl <;> cases hne hl
  | seated now p hl => obtain hl | hl := hl <;> cases hne hl
  | initFailed now p e hl | started now p state hl | left now p slot hl | emptied now p slot hl =>
    cases hne hl
  | applied now a slot result h => cases hne h.active
  | forfeited now p generation slot result h => cases hne h.active
  | ticked now st result hl => cases hne hl
  | forceClosed now ho => exact Or.inl rfl
  | _ => exact Or.inr ⟨hf, rfl⟩

theorem exit_forceClose {g : Game σ} {r r' : Room σ} {now : Time} {outs : List Output}
    (he : Exit g r (.command now .forceClose) r' outs) : r'.lifecycle = .closed := by
  cases he with
  | stopped i hc => exact hc
  | rejected now cmd e ho hr => exact hr.elim
  | ignored now p cmd ho hc => obtain hc | hc := hc <;> cases hc
  | dropped now p cmd slot ho hc =>
    obtain hc | ⟨hc, -⟩ := hc <;> cases hc
  | forceClosed now ho => rfl

theorem exit_tick {g : Game σ} {r r' : Room σ} {now : Time} {outs : List Output}
    (he : Exit g r (.tick now) r' outs) (ha : r.lifecycle ≠ .active) : r' = r := by
  cases he with
  | stopped i hc => rfl
  | tickIgnored now ho => rfl
  | ticked now st result hl => exact absurd hl ha

theorem sweepable_lifecycle (h : sweepable u now (statusLocked a.room) = true) :
    a.room.lifecycle = .waiting ∨ a.room.lifecycle = .finished := by
  unfold sweepable statusLocked at h
  dsimp only at h
  cases hl : a.room.lifecycle with
  | waiting => exact Or.inl rfl
  | finished => exact Or.inr rfl
  | active => rw [hl] at h; cases h
  | closed => rw [hl] at h; cases h

/-! ## The sweep's duty -/

/-- The rooms the sweep has not looked at yet. -/
def Sweeper.ahead : Sweeper → List ID
  | .idle => []
  | .visit _ rooms | .submit _ _ rooms | .await _ _ _ rooms => rooms

/-- The time the sweep has read off its clock. -/
def Sweeper.began : Sweeper → Option Time
  | .idle => none
  | .visit now _ | .submit now _ _ | .await now _ _ _ => some now

/-- What the sweep that began at `now` has yet to do about room `R`: to look at it and find
it due, to submit its `ForceClose`, or to wait until the room has handled it. Only under
`W` may the room be one that is still Waiting when the sweep comes to it. -/
inductive Due (u : Setup σ) (R : ID) (now : Time) (W : Prop) : Sweeper → Actor σ → Prop
  | ahead (w : Sweeper) (a : Actor σ) (hb : w.began = some now) (ht : w.target ≠ some R)
      (hR : R ∈ w.ahead) (hs : sweepable u now (statusLocked a.room) = true)
      (hw : a.room.lifecycle = .waiting → W) : Due u R now W w a
  | chosen (rest : List ID) (a : Actor σ) : Due u R now W (.submit now R rest) a
  | sent (ch : ChanID) (rest : List ID) (a : Actor σ) (t : Ticket) (hq : t ∈ a.queue)
      (hr : t.reply = some ch) (hc : t.cmd = .forceClose) : Due u R now W (.await now R ch rest) a

/-- Room `R` is closed, or the sweep has yet to close it. -/
def Owes (u : Setup σ) (R : ID) (now : Time) (W : Prop) (s : Sys σ) : Prop :=
  ∃ a, s.actor R = some a ∧ (a.room.lifecycle = .closed ∨ Due u R now W s.sweeper a)

/-- A Waiting room takes no command before the sweep has decided about it. -/
def leftAlone (R : ID) (s : Sys σ) : Label → Bool
  | .turn id =>
    decide (id ≠ R) || decide (s.sweeper.target = some R) ||
      (s.actor R).all fun a => decide (a.room.lifecycle ≠ .waiting)
  | _ => true

/-- A command stays on the channel until the room handles it. -/
theorem change_ticket {chans : ℕ} {t : Ticket} (h : t ∈ a.queue)
    (hch : ActorChange u s l chans R (some a) (some a')) :
    t ∈ a'.queue ∨ a'.room = (Rooms.step a.game a.room (.command s.now t.cmd)).1 := by
  cases hch with
  | kept => exact Or.inl h
  | pushed _ t' timers hp hc => exact Or.inl (List.mem_append_left _ h)
  | turned _ t' rest hl hq ht ho =>
    rw [hq] at h
    obtain rfl | h := List.mem_cons.mp h
    · exact Or.inr rfl
    · exact Or.inl h
  | ticked _ hl ht ho => exact Or.inl h
  | acted _ _ i hl hp => exact Or.inl (hp.queue_eq ▸ h)
  | flagged _ listed stopped timers => exact Or.inl h

/-- A room that is due stays so until it is closed, unless it is a Waiting one that takes a
command. -/
theorem sweepable_stays {chans : ℕ} (hs : sweepable u now (statusLocked a.room) = true)
    (hturn : l = .turn R → a.room.lifecycle ≠ .waiting)
    (hch : ActorChange u s l chans R (some a) (some a')) :
    a'.room.lifecycle = .closed ∨
      sweepable u now (statusLocked a'.room) = true ∧ a'.room.lifecycle = a.room.lifecycle := by
  have hkeep : a'.room = a.room → a'.room.lifecycle = .closed ∨
      sweepable u now (statusLocked a'.room) = true ∧ a'.room.lifecycle = a.room.lifecycle := by
    intro hroom
    rw [hroom]
    exact Or.inr ⟨hs, rfl⟩
  cases hch with
  | kept => exact hkeep rfl
  | pushed _ t timers hp hc => exact hkeep rfl
  | turned _ t rest hl hq ht ho =>
    have hf : a.room.lifecycle = .finished := (sweepable_lifecycle hs).resolve_left (hturn hl)
    refine (exit_finished (step_exit a.game a.room (.command s.now t.cmd)) hf).imp_right ?_
    rintro ⟨hf', hat⟩
    refine ⟨?_, hf'.trans hf.symm⟩
    -- `sweepable` reads only the time the room finished at
    unfold sweepable statusLocked at hs ⊢
    rw [hf] at hs
    rw [turnWith_room, hf']
    dsimp only at hs ⊢
    rw [hat]
    exact hs
  | ticked _ hl ht ho =>
    refine hkeep (exit_tick (step_exit a.game a.room (.tick s.now)) ?_)
    intro hact
    obtain h | h := sweepable_lifecycle hs <;> cases h.symm.trans hact
  | acted _ _ i hl hp => exact hkeep hp.room_eq
  | flagged _ listed stopped timers => exact hkeep rfl

/-- What is left of the duty when the room takes a step and the sweep does not. -/
theorem Due.change {chans : ℕ} {W : Prop} (hd : Due u R now W s.sweeper a)
    (ha : s.actor R = some a) (hC : W → leftAlone R s l = true)
    (hch : ActorChange u s l chans R (some a) (some a')) :
    a'.room.lifecycle = .closed ∨ Due u R now W s.sweeper a' := by
  generalize hw : s.sweeper = w at hd
  cases hd with
  | chosen rest => exact Or.inr (.chosen rest a')
  | sent ch rest _ t hq hr hc =>
    obtain hin | hroom := change_ticket hq hch
    · exact Or.inr (.sent ch rest a' t hin hr hc)
    · left
      rw [hroom, hc]
      exact exit_forceClose (step_exit a.game a.room _)
  | ahead _ _ hb ht hR hs hwait =>
    refine (sweepable_stays hs ?_ hch).imp_right ?_
    · rintro rfl hwaiting
      have h := hC (hwait hwaiting)
      simp [leftAlone, hw, ht, ha, hwaiting] at h
    · rintro ⟨hs', hl'⟩
      exact .ahead w a' hb ht hR hs' (fun h => hwait (hl'.symm.trans h))

/-- What is left of the duty when the sweep takes a step. -/
theorem Due.next {W : Prop} {w w' : Sweeper} {e : Effect σ} (hd : Due u R now W w a)
    (ha : s.actor R = some a) (hstop : StopsClosed s)
    (hqueued : ∀ t ∈ a.queue, ∀ ch, t.reply = some ch → s.replies ch = none)
    (hn : SweepStep u s w e w') :
    ∃ a', (s.apply e).actor R = some a' ∧
      (a'.room.lifecycle = .closed ∨ Due u R now W w' a') := by
  have hclosed : s.stopped R = true → a.room.lifecycle = .closed := by
    intro h
    unfold Sys.stopped at h
    rw [ha, Option.any_some] at h
    exact hstop R a ha h
  cases hd with
  | chosen rest =>
    cases hn with
    | submitted _ _ _ hacc =>
      exact ⟨_, push_self s .forceClose ha,
        Or.inr (.sent s.chans rest _ _ List.mem_concat_self rfl rfl)⟩
    | refused _ _ _ hs => exact ⟨a, ha, Or.inl (hclosed hs)⟩
  | sent ch rest _ t hq hr hc =>
    cases hn with
    | answered _ _ _ _ hres =>
      rw [hqueued t hq ch hr] at hres
      cases hres
    | left _ _ _ _ hs => exact ⟨a, ha, Or.inl (hclosed hs)⟩
  | ahead _ _ hb ht hR hs hwait =>
    -- the room is not the one the sweep is at, or the sweep finds it due
    have hon : ∀ w₁, w₁.began = some now → w₁.target ≠ some R → R ∈ w₁.ahead →
        Due u R now W w₁ a := fun w₁ hb₁ ht₁ hR₁ => .ahead w₁ a hb₁ ht₁ hR₁ hs hwait
    cases hn with
    | ended => cases hR
    | looked now₁ room rest b hb₁ =>
      cases hb
      by_cases hroom : room = R
      · subst hroom
        obtain rfl := Option.some.inj (ha.symm.trans hb₁)
        rw [if_pos hs]
        exact ⟨a, ha, Or.inr (.chosen rest a)⟩
      · have hin : R ∈ rest := List.mem_of_ne_of_mem (Ne.symm hroom) hR
        refine ⟨a, ha, Or.inr ?_⟩
        split
        · exact hon _ rfl (fun h => hroom (Option.some.inj h)) hin
        · exact hon _ rfl (fun h => by cases h) hin
    | gone now₁ room rest hst =>
      by_cases hroom : room = R
      · subst hroom
        exact ⟨a, ha, Or.inl (hclosed hst)⟩
      · exact ⟨a, ha, Or.inr (hon _ hb (fun h => by cases h)
          (List.mem_of_ne_of_mem (Ne.symm hroom) hR))⟩
    | submitted now₁ room rest hacc =>
      have hroom : room ≠ R := fun h => ht (congrArg some h)
      exact ⟨a, (push_other s .forceClose (Ne.symm hroom)).trans ha, Or.inr (hon _ hb ht hR)⟩
    | refused | answered | left => exact ⟨a, ha, Or.inr (hon _ hb (fun h => by cases h) hR)⟩

/-- What the sweep relies on when it goes on: a room that has stopped is closed, and an
answer comes from a command that was handled. -/
def Answering (u : Setup σ) (s : Sys σ) : Prop := StopsClosed s ∧ ∃ b, Ledger u s b

theorem Answering.step (hA : Answering u s) (h : step u s l = some s') : Answering u s' := by
  obtain ⟨hstop, b, hL⟩ := hA
  exact ⟨hstop.step h, hL.move (step_move u s s' l h)⟩

theorem run_answering (u : Setup σ) (ls : List Label) (s : Sys σ) (hr : run u ls = some s) :
    Answering u s :=
  exec_invariant (Transport.step u) (fun _ _ => True) (Answering u)
    (fun _ _ _ _ hA h => hA.step h) {} s ⟨fun R a ha => (by cases ha), _, ledger_start⟩ ls
    (meets_of_forall _ _ (fun _ _ => trivial) _ _) hr

theorem Owes.step {W : Prop} (ho : Owes u R now W s) (hA : Answering u s)
    (hC : W → leftAlone R s l = true) (h : step u s l = some s') : Owes u R now W s' := by
  have hm := step_move u s s' l h
  obtain ⟨a, ha, hclosed | hd⟩ := ho
  · obtain ⟨a', ha', -⟩ := move_turn hm ha
    exact ⟨a', ha', Or.inl (closed_stays hm R a a' ha ha' hclosed)⟩
  obtain hw | ⟨rooms, -, hidle, -⟩ | ⟨choice, e, w, -, hstep, rfl⟩ := move_sweeper hm
  · obtain ⟨a', ho', hch⟩ := hm.actor_stays ha
    refine ⟨a', ho', ?_⟩
    rw [hw]
    exact hd.change ha hC hch
  · -- a sweep begins only when no sweep is going on
    exfalso
    rw [hidle] at hd
    cases hd with
    | ahead _ _ hb => cases hb
  · obtain ⟨hstop, b, hL⟩ := hA
    exact hd.next ha hstop (fun t ht ch hr => hL.queued_unanswered ha ht hr) hstep

/-- **A sweep collects what was due when it began.** Once the sweep that began at `s₀` is
over, every room of its list that was then Finished for longer than `FinishedLinger` is
closed, whatever the node did meanwhile; and so is every room that was then Waiting and
idle for longer than `WaitingTTL`, if it took no command before the sweep decided. A sweep
that the end of its context cuts short does not get there. -/
theorem sweep_collects (u : Setup σ) (before : List Label) (s₀ : Sys σ) (rooms : List ID)
    (ls : List Label) (s : Sys σ) (hr : run u before = some s₀)
    (hx : exec (step u) s₀ (.sweepRooms rooms :: ls) = some s) (R : ID) (a : Actor σ)
    (hR : R ∈ rooms) (ha : s₀.actor R = some a)
    (hdue : sweepable u s₀.now (statusLocked a.room) = true)
    (hwait : a.room.lifecycle = .waiting →
      Meets (step u) (fun s l => leftAlone R s l = true) s₀ (.sweepRooms rooms :: ls))
    (hover : s.sweeper = .idle) : ∃ a', s.actor R = some a' ∧ a'.room.lifecycle = .closed := by
  obtain ⟨s₁, hs₁, hx'⟩ := Option.bind_eq_some_iff.mp hx
  have hA := run_answering u before s₀ hr
  -- the first step makes the list; from then on the duty is kept until it is done
  have hfirst : s₁ = { s₀ with sweeper := .visit s₀.now rooms } := by
    simp only [step] at hs₁
    split at hs₁
    · split at hs₁
      · cases hs₁
        rfl
      · cases hs₁
    · cases hs₁
  have howes : Owes u R s₀.now (a.room.lifecycle = .waiting) s₁ := by
    rw [hfirst]
    exact ⟨a, ha, Or.inr (.ahead _ a rfl (fun h => by cases h) hR hdue id)⟩
  have hmeets : Meets (step u)
      (fun s l => a.room.lifecycle = .waiting → leftAlone R s l = true) s₁ ls := by
    by_cases hw : a.room.lifecycle = .waiting
    · exact meets_mono (step u) _ _ (fun s l h _ => h) s₁ ls ((hwait hw).2 s₁ hs₁)
    · exact meets_of_forall (step u) _ (fun s l h => absurd h hw) s₁ ls
  obtain ⟨-, a', ha', hclosed | hd⟩ := exec_invariant (step u) _
    (fun s => Answering u s ∧ Owes u R s₀.now (a.room.lifecycle = .waiting) s)
    (fun s l s' hC hP h => ⟨hP.1.step h, hP.2.step hP.1 hC h⟩)
    s₁ s ⟨hA.step hs₁, howes⟩ ls hmeets hx'
  · exact ⟨a', ha', hclosed⟩
  · rw [hover] at hd
    cases hd with
    | ahead _ _ hb => cases hb

/-- One sweep over room `r`, which handles the `ForceClose`. -/
def sweepOfR : List Label :=
  .sweepRooms ["r"] :: ([.gc .go, .gc .go] ++ turns "r" 3 ++ [.gc .go, .gc .go])

set_option maxRecDepth 100000 in
/-- Alice has joined room `r` and nobody else comes. The sweep closes it. -/
theorem half_joined_collected : ∃ s₀ a s a',
    run impatient (halfJoined ++ [.clock 2]) = some s₀ ∧ s₀.actor "r" = some a ∧
    a.room.lifecycle = .waiting ∧ exec (step impatient) s₀ sweepOfR = some s ∧
    s.actor "r" = some a' ∧ a'.room.lifecycle = .closed := by
  have hend : ((run impatient (halfJoined ++ [.clock 2])).any fun s₀ =>
      (s₀.actor "r").any fun a => decide (a.room.lifecycle = .waiting) &&
        (sweepable impatient s₀.now (statusLocked a.room) &&
        (decide (Meets (step impatient) (fun s l => leftAlone "r" s l = true) s₀ sweepOfR) &&
        (exec (step impatient) s₀ sweepOfR).any fun s => s.sweeper.began.isNone))) = true := by
    decide +kernel
  obtain ⟨s₀, hr, h⟩ := (Option.any_eq_true _ _).mp hend
  obtain ⟨a, ha, h⟩ := (Option.any_eq_true _ _).mp h
  simp only [Bool.and_eq_true, decide_eq_true_iff] at h
  obtain ⟨hwait, hdue, hmeets, hlast⟩ := h
  obtain ⟨s, hx, hidle⟩ := (Option.any_eq_true _ _).mp hlast
  have hover : s.sweeper = .idle := by
    cases hw : s.sweeper with
    | idle => rfl
    | _ => rw [hw] at hidle; cases hidle
  obtain ⟨a', ha', hclosed⟩ := sweep_collects impatient _ s₀ ["r"] _ s hr hx "r" a
    List.mem_cons_self ha hdue (fun _ => hmeets) hover
  exact ⟨s₀, a, s, a', hr, ha, hwait, hx, ha', hclosed⟩

end Collecting
end RealtimeEngine.Transport
