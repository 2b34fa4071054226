import RealtimeEngine.Room.Starting
import RealtimeEngine.Transport.Connected

/-! Whether the garbage collection of rooms can end a game. `GCSweepOnce` asks a
room for its status and, when it finds the room abandoned, submits a
`ForceClose`; the room may handle other commands in between. A room that is not
Active becomes Active only by a Join that calls `Init`, so the sweep is harmless
as long as no such Join is handled between its decision and its `ForceClose`. -/
namespace RealtimeEngine.Transport
open Foundations Domain Rooms Storage Matchmaking
set_option autoImplicit false
set_option maxHeartbeats 250000

section Sweeping
variable {σ : Type} {u : Setup σ} {s s' : Sys σ} {l : Label}

/-- The room that the sweep has decided to close. -/
def Sweeper.target : Sweeper → Option ID
  | .submit _ room _ | .await _ room _ _ => some room
  | _ => none

def Ticket.closes (t : Ticket) : Bool :=
  match t.cmd with
  | .forceClose => true
  | _ => false

/-- The sweep is about to close the room, or its `ForceClose` is on the room's channel. -/
def Sys.sweeping (s : Sys σ) (id : ID) : Bool :=
  decide (s.sweeper.target = some id) || (s.actor id).any fun a => a.queue.any Ticket.closes

/-- No room calls `Init` while the sweep is closing it. -/
def startsUnswept (s : Sys σ) : Label → Bool
  | .turn id =>
    (s.actor id).all fun a =>
      match a.queue with
      | [] => true
      | t :: _ => (initCall a.game a.room (.command s.now t.cmd)).isNone || !s.sweeping id
  | _ => true

/-! ## Becoming active -/

theorem exit_active (g : Game σ) (r r' : Room σ) (i : Input) (outs : List Output)
    (he : Exit g r i r' outs) (ha : r'.lifecycle = .active) :
    r.lifecycle = .active ∨ (initCall g r i).isSome = true := by
  cases he with
  | started now p state hl hs hm hw =>
    rw [initCall_join g r now p ⟨hl, hs, hm, hw⟩]
    exact Or.inr rfl
  | initFailed now p e hl =>
    have hw : r.lifecycle = .active := ha
    exact Or.inl hw
  | emptied | forceClosed | forfeited => cases ha
  | applied now a slot result hadm => exact Or.inl hadm.active
  | ticked now st result hl => exact Or.inl hl
  | _ => exact Or.inl ha

/-! ## Steps of the sweep -/

/-- The sweep takes aim at a room that is not Active, or submits its `ForceClose`. -/
theorem SweepStep.aims {w w' : Sweeper} {e : Effect σ} (h : SweepStep u s w e w') :
    e = .silent ∧ w'.target = none ∨
    e = .silent ∧ (∃ id a, w'.target = some id ∧ s.actor id = some a ∧
      a.room.lifecycle ≠ .active) ∨
    ∃ id, w.target = some id ∧ w'.target = some id ∧ e = .submit id .forceClose := by
  cases h with
  | looked now room rest a ha =>
    by_cases hs : sweepable u now (statusLocked a.room) = true
    · rw [if_pos hs]
      refine Or.inr (Or.inl ⟨rfl, room, a, rfl, ha, ?_⟩)
      intro hact
      simp [sweepable, statusLocked, hact] at hs
    · rw [if_neg hs]
      exact Or.inl ⟨rfl, rfl⟩
  | submitted now room rest => exact Or.inr (Or.inr ⟨room, rfl, rfl, rfl⟩)
  | _ => exact Or.inl ⟨rfl, rfl⟩

theorem move_target (hm : Move u s l s') (id : ID) (ht : s'.sweeper.target = some id) :
    s.sweeper.target = some id ∨
    ∃ a, s.actor id = some a ∧ s'.actor id = some a ∧ a.room.lifecycle ≠ .active := by
  obtain hs | ⟨rooms, -, -, -, rfl⟩ | ⟨choice, e, w, -, hstep, rfl⟩ := move_sweeper hm
  · rw [hs] at ht
    exact Or.inl ht
  · cases ht
  · obtain ⟨-, hw⟩ | ⟨rfl, id', a, hw, ha, hact⟩ | ⟨id', hw, hw', -⟩ := hstep.aims
    · cases hw.symm.trans ht
    · cases hw.symm.trans ht
      exact Or.inr ⟨a, ha, ha, hact⟩
    · cases hw'.symm.trans ht
      exact Or.inl hw

/-- A `ForceClose` is pushed by the sweep that has taken aim at the room. -/
theorem Pushes.closes_target {id : ID} {t : Ticket} (hp : Pushes s l id t) (hc : t.closes = true) :
    s.sweeper.target = some id := by
  cases hp with
  | call c choice k hr => cases k <;> cases hc
  | drop c choice room hcl => cases hc
  | grace i player generation => cases hc
  | sweep choice now room rest hw =>
    rw [hw]
    rfl

/-! ## Runs in which no game starts under the sweep -/

/-- No room that the sweep is closing is Active. -/
def Spared (s : Sys σ) : Prop :=
  ∀ id a, s.actor id = some a → s.sweeping id = true → a.room.lifecycle ≠ .active

theorem Spared.target (hs : Spared s) (id : ID) (a : Actor σ) (ha : s.actor id = some a)
    (ht : s.sweeper.target = some id) : a.room.lifecycle ≠ .active :=
  hs id a ha (by simp [Sys.sweeping, ht])

theorem Spared.queued (hs : Spared s) (id : ID) (a : Actor σ) (ha : s.actor id = some a)
    (hq : a.queue.any Ticket.closes = true) : a.room.lifecycle ≠ .active :=
  hs id a ha (by simp [Sys.sweeping, ha, hq])

/-- A turn or a tick leaves the sweep where it is and the channel no longer than it was. -/
theorem sweeping_back (hm : Move u s l s') (id : ID) (hl : l = .turn id ∨ l = .tick id)
    (a a' : Actor σ) (ha : s.actor id = some a) (ha' : s'.actor id = some a')
    (hq : ∀ t ∈ a'.queue, t ∈ a.queue) (h : s'.sweeping id = true) : s.sweeping id = true := by
  have hw : s'.sweeper = s.sweeper := by
    obtain hw | ⟨rooms, rfl, -⟩ | ⟨choice, e, w, rfl, -⟩ := move_sweeper hm
    · exact hw
    · obtain hl | hl := hl <;> cases hl
    · obtain hl | hl := hl <;> cases hl
  rw [Sys.sweeping, ha', Option.any_some, Bool.or_eq_true, hw] at h
  rw [Sys.sweeping, ha, Option.any_some, Bool.or_eq_true]
  obtain h | h := h
  · exact Or.inl h
  · obtain ⟨t, ht, hc⟩ := List.any_eq_true.mp h
    exact Or.inr (List.any_eq_true.mpr ⟨t, hq t ht, hc⟩)

theorem Spared.step (hs : Spared s) (hl : startsUnswept s l = true)
    (h : step u s l = some s') : Spared s' := by
  intro id a' ha' hsw
  -- a room that keeps its lifecycle is closed by the old decision or by one about it as it is
  have hkeep : ∀ a, s.actor id = some a → a'.room = a.room →
      (a'.queue.any Ticket.closes = true → a.queue.any Ticket.closes = true ∨
        s.sweeper.target = some id) → a'.room.lifecycle ≠ .active := by
    intro a ha hroom hqueue
    rw [hroom]
    rw [Sys.sweeping, ha', Option.any_some, Bool.or_eq_true, decide_eq_true_iff] at hsw
    rcases hsw with ht | hq
    · obtain ht | ⟨b, hb, -, hact⟩ := move_target (step_move u s s' l h) id ht
      · exact hs.target id a ha ht
      · rw [ha] at hb
        cases hb
        exact hact
    · obtain hq | ht := hqueue hq
      · exact hs.queued id a ha hq
      · exact hs.target id a ha ht
  obtain ⟨o, ho, hch⟩ := (step_move u s s' l h).actor_before ha'
  cases hch with
  | kept => exact hkeep a' ho rfl Or.inl
  | created c choice gameType players g hrun hr hg => exact fun hact => by cases hact
  | pushed a t timers hp hn =>
    refine hkeep a ho rfl ?_
    intro hq
    rw [List.any_append, Bool.or_eq_true] at hq
    obtain hq | hq := hq
    · exact Or.inl hq
    · have hc : t.closes = true := by simpa using hq
      exact Or.inr (hp.closes_target hc)
  | acted a b i hact hp =>
    refine hkeep a ho hp.room_eq ?_
    have hq : a'.queue = a.queue := by cases hp <;> rfl
    rw [hq]
    exact Or.inl
  | flagged a listed stopped timers => exact hkeep a ho rfl Or.inl
  | ticked a htick ht hlc =>
    intro hact
    have hold := sweeping_back (step_move u s s' l h) id (Or.inr htick) a _ ho ha'
      (fun t ht => ht) hsw
    obtain hact | hi := exit_active _ _ _ _ _ (step_exit a.game a.room (.tick s.now)) hact
    · exact hs id a ho hold hact
    · cases hi
  | turned a t rest hturn hq ht hlc =>
    intro hact
    have hold := sweeping_back (step_move u s s' l h) id (Or.inl hturn) a _ ho ha'
      (fun t ht => by rw [hq]; exact List.mem_cons_of_mem _ ht) hsw
    obtain hact | hi :=
      exit_active _ _ _ _ _ (step_exit a.game a.room (.command s.now t.cmd)) hact
    · exact hs id a ho hold hact
    · subst hturn
      simp [startsUnswept, ho, hq, hold, Option.isSome_iff_ne_none.mp hi] at hl

/-- As long as no room calls `Init` between its answer to the sweep's `GetStatus`, if the
sweep closes a room with that status, and the `ForceClose`, no room is Active when it
handles one. -/
theorem sweep_spares_active (u : Setup σ) (ls : List Label) (s : Sys σ)
    (hc : Meets (Transport.step u) (fun s l => startsUnswept s l = true) {} ls)
    (hr : run u ls = some s) (id : ID) (a : Actor σ) (t : Ticket) (rest : List Ticket)
    (ha : s.actor id = some a) (hq : a.queue = t :: rest) (ht : t.cmd = .forceClose) :
    a.room.lifecycle ≠ .active := by
  obtain ⟨-, hs⟩ := run_step_invariant (fun s l => startsUnswept s l = true) Spared
    (fun s l s' hl _ hs h => hs.step hl h) (fun id a ha => by cases ha) ls s hc hr
  exact hs.queued id a ha (by simp [hq, Ticket.closes, ht])

end Sweeping

/-! ## A sweep while a match is joined -/

section Scenario
set_option maxRecDepth 100000

/-- Rooms are abandoned after one unit of time. -/
def impatient : Setup GameState := { aliceAndBob with waitingTTL := 1 }

/-- Bob's request has filled the queue, and alice has joined room `r`. -/
def halfJoined : List Label :=
  [.dial "a", .run 0 .go, .dial "b", .run 1 .go, .recv 0 findMatch] ++ runs 0 2 ++
  [.recv 1 findMatch] ++ runs 1 2 ++ [.run 1 (.fresh "r"), .run 1 .go] ++ turns "r" 3 ++ runs 1 1

/-- Time passes, and the sweep finds room `r` abandoned. -/
def condemned : List Label := [.clock 2, .sweepRooms ["r"], .gc .go]

/-- The `ForceClose` comes before bob's Join: room `r` is still Waiting. -/
theorem sweep_before_start :
    Meets (step impatient) (fun s l => startsUnswept s l = true) {}
      (halfJoined ++ condemned ++ [.gc .go, .run 1 .go]) ∧
    ∃ s a t rest, run impatient (halfJoined ++ condemned ++ [.gc .go, .run 1 .go]) = some s ∧
      s.actor "r" = some a ∧ a.queue = t :: rest ∧ t.cmd = .forceClose ∧
      a.room.lifecycle ≠ .active := by
  have hc : Meets (step impatient) (fun s l => startsUnswept s l = true) {}
      (halfJoined ++ condemned ++ [.gc .go, .run 1 .go]) := by decide +kernel
  have hend : ((run impatient (halfJoined ++ condemned ++ [.gc .go, .run 1 .go])).any fun s =>
      (s.actor "r").any fun a => a.queue.head?.any Ticket.closes) = true := by decide +kernel
  obtain ⟨s, hr, h⟩ := (Option.any_eq_true _ _).mp hend
  obtain ⟨a, ha, h⟩ := (Option.any_eq_true _ _).mp h
  obtain ⟨t, hhead, ht⟩ := (Option.any_eq_true _ _).mp h
  obtain ⟨rest, hq⟩ := List.head?_eq_some_iff.mp hhead
  have hcmd : t.cmd = .forceClose := by
    unfold Ticket.closes at ht
    split at ht
    · assumption
    · cases ht
  exact ⟨hc, s, a, t, rest, hr, ha, hq, hcmd,
    sweep_spares_active impatient _ s hc hr "r" a t rest ha hq hcmd⟩

/-- Bob's Join comes between the sweep's look at room `r` and its `ForceClose`:
the game that has just started is closed. -/
theorem sweep_kills_started_game :
    ((run impatient (halfJoined ++ condemned ++ runs 1 1 ++ turns "r" 5 ++ [.gc .go])).any fun s =>
      (s.actor "r").any fun a => decide (a.room.lifecycle = .active) &&
        a.queue.head?.any Ticket.closes) = true ∧
    ((run impatient (halfJoined ++ condemned ++ runs 1 1 ++ turns "r" 5 ++
        [.gc .go, .turn "r"])).any fun s =>
      (s.actor "r").any fun a => decide (a.room.lifecycle = .closed)) = true := by
  decide +kernel

end Scenario
end RealtimeEngine.Transport
