import RealtimeEngine.Room.Coherence
import RealtimeEngine.Room.Slots

/-! Grace timers. A room with its timers in flight: a turn may create one, and
any of them may be delivered at any later time, in any order. Commands come
from the public methods only, so a `CmdGraceExpired` is always a timer's. -/
namespace RealtimeEngine.Rooms
open Foundations Domain
set_option autoImplicit false
set_option maxHeartbeats 250000

/-! ## The timed room -/

/-- The public methods of a room. -/
inductive Request
  | join (player : PlayerID)
  | leave (player : PlayerID)
  | submitAction (a : Action)
  | disconnect (player : PlayerID)
  | reconnect (player : PlayerID)
  | forceClose
  | snapshot

def Request.toCommand : Request → Command
  | join p => .join p
  | leave p => .leave p
  | submitAction a => .action a
  | disconnect p => .disconnect p
  | reconnect p => .reconnect p
  | forceClose => .forceClose
  | snapshot => .snapshot

/-- A timer in flight; `born` is the index of the turn that created it. -/
structure Timer where
  player : PlayerID
  generation : ℕ
  born : ℕ

structure Timed (σ : Type) where
  room : Room σ
  timers : List Timer
  turn : ℕ

inductive TimedInput
  | request (now : Time) (req : Request)
  | tick (now : Time)
  | fire (k : ℕ) (now : Time)

def timerOf (born : ℕ) : Output → Option Timer
  | .afterFunc p generation => some ⟨p, generation, born⟩
  | _ => none

section Timers
variable {σ : Type}

def newTimed (σ : Type) (id : ID) (gameType : String) (now : Time) : Timed σ :=
  ⟨newRoom σ id gameType now, [], 0⟩

/-- What the actor receives; a timer that is not in flight cannot fire. -/
def Timed.input (s : Timed σ) : TimedInput → Option Input
  | .request now req => some (.command now req.toCommand)
  | .tick now => some (.tick now)
  | .fire k now => s.timers[k]?.map fun t => .command now (.graceExpired t.player t.generation)

def Timed.remaining (s : Timed σ) : TimedInput → List Timer
  | .fire k _ => s.timers.eraseIdx k
  | _ => s.timers

def timedStep (g : Game σ) (s : Timed σ) (i : TimedInput) : Timed σ × List Output :=
  match s.input i with
  | none => ({ s with turn := s.turn + 1 }, [])
  | some j =>
    let x := step g s.room j
    ({ room := x.1, timers := s.remaining i ++ x.2.filterMap (timerOf s.turn),
       turn := s.turn + 1 }, x.2)

theorem mem_timerOf (born : ℕ) (outs : List Output) (t : Timer)
    (ht : t ∈ outs.filterMap (timerOf born)) :
    t.born = born ∧ .afterFunc t.player t.generation ∈ outs := by
  obtain ⟨o, ho, heq⟩ := List.mem_filterMap.mp ht
  cases o with
  | broadcast ev => cases heq
  | reply res => cases heq
  | afterFunc p k =>
    cases heq
    exact ⟨rfl, ho⟩

/-- A turn of the timed room is a turn of the room, or delivers nothing. -/
theorem timedStep_cases (g : Game σ) (s : Timed σ) (i : TimedInput) :
    (s.input i = none ∧ timedStep g s i = ({ s with turn := s.turn + 1 }, [])) ∨
    ∃ j, s.input i = some j ∧
      (timedStep g s i).1.room = (step g s.room j).1 ∧
      (timedStep g s i).1.timers =
        s.remaining i ++ (step g s.room j).2.filterMap (timerOf s.turn) ∧
      (timedStep g s i).2 = (step g s.room j).2 := by
  unfold timedStep
  cases hi : s.input i with
  | none => exact Or.inl ⟨rfl, rfl⟩
  | some j => exact Or.inr ⟨j, rfl, rfl, rfl, rfl⟩

theorem timedStep_turn (g : Game σ) (s : Timed σ) (i : TimedInput) :
    (timedStep g s i).1.turn = s.turn + 1 := by
  unfold timedStep
  split <;> rfl

theorem final_turn (g : Game σ) (id : ID) (gameType : String) (now : Time)
    (is : List TimedInput) :
    (final (timedStep g) (newTimed σ id gameType now) is).turn = is.length := by
  induction is using List.reverseRecOn with
  | nil => rfl
  | append_singleton is i ih =>
    rw [final_concat, timedStep_turn, ih, List.length_append, List.length_singleton]

theorem remaining_subset (s : Timed σ) (i : TimedInput) : s.remaining i ⊆ s.timers := by
  cases i with
  | fire k now => exact List.eraseIdx_subset
  | request now req => exact fun t ht => ht
  | tick now => exact fun t ht => ht

/-- What holds of the room before and after each of its turns holds of the timed room. -/
theorem timed_room_invariant (g : Game σ) (P : Room σ → Prop)
    (hstep : ∀ r i, P r → P (step g r i).1) (s : Timed σ) (hs : P s.room)
    (is : List TimedInput) : P (final (timedStep g) s is).room := by
  refine final_invariant (timedStep g) (fun s => P s.room) ?_ s hs is
  intro s i h
  rcases timedStep_cases g s i with ⟨-, heq⟩ | ⟨j, -, hroom, -⟩
  · rw [heq]
    exact h
  · rw [hroom]
    exact hstep s.room j h

/-! ## Forfeit soundness -/

/-- The timer was created by a `Disconnect` or `Leave` of its player, and since
then the player's slot stayed disconnected and no `Reconnect` was handled. -/
def Unbroken (g : Game σ) (s₀ : Timed σ) (is : List TimedInput) (t : Timer) : Prop :=
  ∃ js i ks, is = js ++ i :: ks ∧ js.length = t.born ∧
    (∃ now, i = .request now (.disconnect t.player) ∨ i = .request now (.leave t.player)) ∧
    .afterFunc t.player t.generation ∈ (timedStep g (final (timedStep g) s₀ js) i).2 ∧
    (∀ now, .request now (.reconnect t.player) ∉ ks) ∧
    ∀ ks₁ ks₂, ks = ks₁ ++ ks₂ → ∃ slot,
      (final (timedStep g) s₀ (js ++ i :: ks₁)).room.players.lookup t.player = some slot ∧
      slot.connected = false

theorem Unbroken.extend {g : Game σ} {s₀ : Timed σ} {is : List TimedInput} {t : Timer}
    (h : Unbroken g s₀ is t) (i : TimedInput)
    (hr : ∀ now, i ≠ .request now (.reconnect t.player)) (slot : PlayerSlot)
    (hs : (final (timedStep g) s₀ (is ++ [i])).room.players.lookup t.player = some slot)
    (hc : slot.connected = false) : Unbroken g s₀ (is ++ [i]) t := by
  obtain ⟨js, i₀, ks, rfl, hborn, hi₀, hout, hno, hdown⟩ := h
  refine ⟨js, i₀, ks ++ [i], by rw [List.append_assoc, List.cons_append], hborn, hi₀, hout, ?_, ?_⟩
  · intro now hin
    rcases List.mem_append.mp hin with hin | hin
    · exact hno now hin
    · exact hr now (List.mem_singleton.mp hin).symm
  · intro ks₁ ks₂ hsplit
    cases ks₂ using List.reverseRecOn with
    | nil =>
      rw [List.append_nil] at hsplit
      refine ⟨slot, ?_, hc⟩
      rw [← hsplit, ← hs, List.append_assoc, List.cons_append]
    | append_singleton ks₂ x =>
      rw [← List.append_assoc] at hsplit
      exact hdown ks₁ ks₂ (List.append_inj_left' hsplit rfl)

/-- How far the slot of a timer's player has moved since the timer was set. -/
structure TimerSound (g : Game σ) (s₀ : Timed σ) (is : List TimedInput) (r : Room σ) (t : Timer) :
    Prop where
  started : r.lifecycle ≠ .waiting
  slot : ∃ slot, r.players.lookup t.player = some slot ∧ t.generation ≤ slot.generation ∧
    (r.lifecycle ≠ .closed → slot.connected = false → slot.generation = t.generation →
      Unbroken g s₀ is t)

/-- Out of `Waiting` a slot survives, its generation never falls, and a slot
that is disconnected at an unchanged generation has not been reconnected. -/
theorem slotChange_started {r : Room σ} {i : Input} {outs : List Output} {p : PlayerID}
    {s : PlayerSlot} {s' : Option PlayerSlot} (hw : r.lifecycle ≠ .waiting)
    (h : SlotChange r i outs p (some s) s') :
    ∃ slot', s' = some slot' ∧ s.generation ≤ slot'.generation ∧
      (slot'.connected = false → slot'.generation = s.generation → s.connected = false ∧
        (r.lifecycle ≠ .closed → ∀ now, i ≠ .command now (.reconnect p))) := by
  cases h with
  | kept _ hr =>
    refine ⟨s, rfl, le_refl _, ?_⟩
    intro hc _
    refine ⟨hc, ?_⟩
    intro ho now hi
    rcases hr now hi with h | h
    · exact ho h
    · cases h
  | removed _ _ _ hwait => exact absurd hwait hw
  | moved _ _ hwait => exact absurd hwait hw
  | dropped _ now cmd hi hc hb ht =>
    refine ⟨_, rfl, Nat.le_succ _, ?_⟩
    intro _ hgen
    exact absurd hgen (Nat.succ_ne_self _)
  | back _ now hi =>
    refine ⟨_, rfl, le_refl _, ?_⟩
    intro hc
    cases hc
  | marked _ now a hi hl =>
    refine ⟨_, rfl, le_refl _, ?_⟩
    intro hc _
    refine ⟨hc, ?_⟩
    intro _ now' hi'
    rw [hi] at hi'
    cases hi'

theorem open_before {g : Game σ} {r : Room σ} {j : Input}
    (h : (step g r j).1.lifecycle ≠ .closed) : r.lifecycle ≠ .closed := by
  intro hc
  rw [step_closed g r j hc] at h
  exact h hc

theorem TimerSound.step {g : Game σ} {s₀ : Timed σ} {is : List TimedInput} {t : Timer}
    {i : TimedInput} {j : Input}
    (h : TimerSound g s₀ is (final (timedStep g) s₀ is).room t)
    (hj : (final (timedStep g) s₀ is).input i = some j)
    (hroom : (final (timedStep g) s₀ (is ++ [i])).room =
      (step g (final (timedStep g) s₀ is).room j).1) :
    TimerSound g s₀ (is ++ [i]) (final (timedStep g) s₀ (is ++ [i])).room t := by
  obtain ⟨slot, hs, hle, hun⟩ := h.slot
  have he := step_exit g (final (timedStep g) s₀ is).room j
  have hchange := exit_slot he t.player
  rw [hs] at hchange
  obtain ⟨slot', hs', hle', hback⟩ := slotChange_started h.started hchange
  rw [← hroom] at hs'
  refine ⟨?_, slot', hs', Nat.le_trans hle hle', ?_⟩
  · rw [hroom]
    exact (exit_seatOrder_grows he h.started).2
  · intro hopen hc hgen
    rw [hroom] at hopen
    have hopen' := open_before hopen
    have hsame : slot.generation = t.generation := by omega
    obtain ⟨hc₀, hno⟩ := hback hc (by omega)
    refine (hun hopen' hc₀ hsame).extend i ?_ slot' hs' hc
    rintro now rfl
    exact hno hopen' now (Option.some.inj hj).symm

/-- The input that set a timer is a `Disconnect` or `Leave` of its player. -/
theorem drops_request (s : Timed σ) (i : TimedInput) (now : Time) (cmd : Command) (r : Room σ)
    (p : PlayerID) (hj : s.input i = some (.command now cmd)) (hd : Drops r p cmd) :
    i = .request now (.disconnect p) ∨ i = .request now (.leave p) := by
  cases i with
  | tick now' => cases hj
  | fire k now' =>
    obtain ⟨t, -, ht⟩ := Option.map_eq_some_iff.mp hj
    rw [Input.command.injEq] at ht
    rcases hd with hd | ⟨hd, -⟩ <;>
    · rw [hd] at ht
      cases ht.2
  | request now' req =>
    obtain ⟨rfl, hcmd⟩ := Input.command.inj (Option.some.inj hj)
    rcases hd with hd | ⟨hd, -⟩
    · rw [hd] at hcmd
      cases req <;> cases hcmd
      exact Or.inl rfl
    · rw [hd] at hcmd
      cases req <;> cases hcmd
      exact Or.inr rfl

theorem timerSound_new {g : Game σ} {s₀ : Timed σ} {is : List TimedInput} {t : Timer}
    {i : TimedInput} {j : Input} (hturn : (final (timedStep g) s₀ is).turn = is.length)
    (hj : (final (timedStep g) s₀ is).input i = some j)
    (hroom : (final (timedStep g) s₀ (is ++ [i])).room =
      (step g (final (timedStep g) s₀ is).room j).1)
    (hout : (timedStep g (final (timedStep g) s₀ is) i).2 =
      (step g (final (timedStep g) s₀ is).room j).2)
    (ht : t ∈ (step g (final (timedStep g) s₀ is).room j).2.filterMap
      (timerOf (final (timedStep g) s₀ is).turn)) :
    TimerSound g s₀ (is ++ [i]) (final (timedStep g) s₀ (is ++ [i])).room t := by
  obtain ⟨hborn, hafter⟩ := mem_timerOf _ _ t ht
  obtain ⟨now, cmd, slot, rfl, hd, -, hact, hs, hc, hgen⟩ :=
    exit_afterFunc (step_exit g (final (timedStep g) s₀ is).room j) t.player t.generation hafter
  rw [← hroom] at hs hact
  refine ⟨?_, slot, hs, hgen.ge, ?_⟩
  · rw [hact]
    exact Lifecycle.noConfusion
  · intro _ _ _
    refine ⟨is, i, [], rfl, (hborn.trans hturn).symm, ⟨now, drops_request _ i now cmd _ _ hj hd⟩,
      by rw [hout]; exact hafter, fun _ => List.not_mem_nil, ?_⟩
    intro ks₁ ks₂ hsplit
    obtain ⟨rfl, rfl⟩ := List.append_eq_nil_iff.mp hsplit.symm
    exact ⟨slot, hs, hc⟩

theorem run_timersSound (g : Game σ) (id : ID) (gameType : String) (now : Time)
    (is : List TimedInput) :
    ∀ t ∈ (final (timedStep g) (newTimed σ id gameType now) is).timers,
      TimerSound g (newTimed σ id gameType now) is
        (final (timedStep g) (newTimed σ id gameType now) is).room t := by
  induction is using List.reverseRecOn with
  | nil =>
    intro t ht
    cases ht
  | append_singleton is i ih =>
    intro t ht
    have hfin := final_concat (timedStep g) (newTimed σ id gameType now) is i
    rcases timedStep_cases g (final (timedStep g) (newTimed σ id gameType now) is) i with
      ⟨hnone, heq⟩ | ⟨j, hj, hroom, htimers, hout⟩
    · rw [heq] at hfin
      rw [hfin] at ht
      have h := ih t ht
      obtain ⟨slot, hs, hle, hun⟩ := h.slot
      rw [hfin]
      refine ⟨h.started, slot, hs, hle, ?_⟩
      intro ho hc hgen
      refine (hun ho hc hgen).extend i ?_ slot ?_ hc
      · rintro now' rfl
        cases hnone
      · rw [hfin]
        exact hs
    · rw [← hfin] at hroom htimers
      rw [htimers, List.mem_append] at ht
      rcases ht with ht | ht
      · exact (ih t (remaining_subset _ i ht)).step hj hroom
      · exact timerSound_new (final_turn g id gameType now is) hj hroom hout ht

theorem fire_input (s : Timed σ) (k : ℕ) (now : Time) (t : Timer) (ht : s.timers[k]? = some t) :
    s.input (.fire k now) = some (.command now (.graceExpired t.player t.generation)) := by
  unfold Timed.input
  dsimp only
  rw [ht]
  rfl

/-- **Forfeit soundness.** Whatever the order and delay of the deliveries, a
timer that changes the room when it is handled was set by a `Disconnect` or
`Leave` after which its player was disconnected at every point of the run, with
no `Reconnect` in between. -/
theorem forfeit_sound (g : Game σ) (id : ID) (gameType : String) (now : Time)
    (is : List TimedInput) (k : ℕ) (now' : Time) (t : Timer)
    (ht : (final (timedStep g) (newTimed σ id gameType now) is).timers[k]? = some t)
    (hchange :
      let r := (final (timedStep g) (newTimed σ id gameType now) is).room
      let r' := (timedStep g (final (timedStep g) (newTimed σ id gameType now) is)
        (.fire k now')).1.room
      r'.state ≠ r.state ∨ r'.serverSeq ≠ r.serverSeq ∨ r'.lifecycle ≠ r.lifecycle) :
    Unbroken g (newTimed σ id gameType now) is t := by
  have hsound := run_timersSound g id gameType now is t (List.mem_of_getElem? ht)
  generalize hfin : final (timedStep g) (newTimed σ id gameType now) is = s at *
  have hroom : (timedStep g s (.fire k now')).1.room =
      (step g s.room (.command now' (.graceExpired t.player t.generation))).1 := by
    unfold timedStep
    rw [fire_input s k now' t ht]
  dsimp only at hchange
  rw [hroom] at hchange
  obtain ⟨slot, hs, -, hun⟩ := hsound.slot
  have he := step_exit g s.room (.command now' (.graceExpired t.player t.generation))
  generalize hstep : step g s.room (.command now' (.graceExpired t.player t.generation)) = x at *
  obtain ⟨r', outs⟩ := x
  dsimp only at he hchange
  cases he with
  | forfeited _ _ _ slot' result hf =>
    have hsame : slot' = slot := Option.some.inj (hf.seated.symm.trans hs)
    subst hsame
    refine hun ?_ hf.dropped hf.current
    rw [hf.active]
    exact Lifecycle.noConfusion
  | stopped | rejected | graceIgnored => simp at hchange
  | ignored _ _ _ _ hc => rcases hc with hc | hc <;> cases hc
  | dropped _ _ _ _ _ hc => rcases hc with hc | ⟨hc, -⟩ <;> cases hc

theorem forfeit_sound_drop :
    Unbroken TicTacToe.game (newTimed GameState "r" "tictactoe" 0)
      [.request 0 (.join "alice"), .request 0 (.join "bob"), .request 0 (.disconnect "alice")]
      ⟨"alice", 1, 2⟩ :=
  forfeit_sound TicTacToe.game "r" "tictactoe" 0 _ 0 0 _ rfl (Or.inr (Or.inr (by decide)))

/-! ## Every disconnected player of an active room has a timer -/

/-- Each disconnected slot of an active room has a timer of its generation in flight. -/
def Guarded (s : Timed σ) : Prop :=
  s.room.lifecycle = .active → ∀ p slot, s.room.players.lookup p = some slot →
    slot.connected = false → ∃ t ∈ s.timers, t.player = p ∧ t.generation = slot.generation

/-- A `Join` that starts the game finds everyone who is already seated connected. -/
def StartsConnected (g : Game σ) (s : Timed σ) (i : TimedInput) : Prop :=
  ∀ now p, i = .request now (.join p) → s.room.lifecycle = .waiting →
    s.room.players.lookup p = none → g.minPlayers ≤ s.room.seatOrder.length + 1 →
    ∀ q slot, s.room.players.lookup q = some slot → slot.connected = true

variable {v : View σ} {live : σ → Prop} {g : Game σ}

/-- Either the slot was disconnected at this generation already, or this turn set its timer. -/
theorem slotChange_disconnected {r : Room σ} {i : Input} {outs : List Output} {p : PlayerID}
    {s : Option PlayerSlot} {slot' : PlayerSlot} (ha : r.lifecycle = .active)
    (h : SlotChange r i outs p s (some slot')) (hc : slot'.connected = false) :
    (∃ slot, s = some slot ∧ slot.connected = false ∧ slot.generation = slot'.generation) ∨
      .afterFunc p slot'.generation ∈ outs := by
  have hw : r.lifecycle ≠ .waiting := by
    rw [ha]
    exact Lifecycle.noConfusion
  cases h with
  | kept => exact Or.inl ⟨slot', rfl, hc, rfl⟩
  | seated => cases hc
  | moved _ _ hwait => exact absurd hwait hw
  | dropped s now cmd hi hd hb ht => exact Or.inr (ht ha)
  | back => cases hc
  | marked s => exact Or.inl ⟨s, rfl, hc, rfl⟩

theorem mem_filterMap_timerOf (born : ℕ) (outs : List Output) (p : PlayerID) (k : ℕ)
    (h : .afterFunc p k ∈ outs) : ⟨p, k, born⟩ ∈ outs.filterMap (timerOf born) :=
  List.mem_filterMap.mpr ⟨_, h, rfl⟩

/-- A timer of the current generation that reaches an active room while its
player is disconnected ends the game. -/
theorem matching_timer_finishes (hd : Duel v live g) {r : Room σ} (h : Coherent v live g r)
    (ha : r.lifecycle = .active) (now : Time) {p : PlayerID} {slot : PlayerSlot}
    (hs : r.players.lookup p = some slot) (hc : slot.connected = false) :
    (step g r (.command now (.graceExpired p slot.generation))).1.lifecycle = .finished := by
  obtain ⟨st, res, st', -, hrun, -⟩ := abandon_succeeds hd h ha hs
  have hf : Forfeits g r p slot.generation slot res := ⟨ha, hs, hc, rfl, hrun⟩
  have he := step_exit g r (.command now (.graceExpired p slot.generation))
  generalize step g r (.command now (.graceExpired p slot.generation)) = x at *
  obtain ⟨r', outs⟩ := x
  dsimp only at he ⊢
  cases he with
  | forfeited => rfl
  | graceIgnored _ _ _ _ hno => exact absurd hf (hno slot res)
  | stopped _ hcl =>
    rw [ha] at hcl
    cases hcl
  | ignored _ _ _ _ hcmd => rcases hcmd with hcmd | hcmd <;> cases hcmd
  | dropped _ _ _ _ _ hcmd => rcases hcmd with hcmd | ⟨hcmd, -⟩ <;> cases hcmd
  | rejected _ _ _ _ hr => exact hr.elim

/-- A timer that a turn took out of flight is the one it delivered. -/
theorem mem_remaining (s : Timed σ) (i : TimedInput) (t : Timer) (ht : t ∈ s.timers) :
    t ∈ s.remaining i ∨ ∃ k now, i = .fire k now ∧ s.timers[k]? = some t := by
  cases i with
  | request now req => exact Or.inl ht
  | tick now => exact Or.inl ht
  | fire k now =>
    obtain ⟨n, hn, rfl⟩ := List.mem_iff_getElem.mp ht
    by_cases hk : n = k
    · subst hk
      exact Or.inr ⟨n, now, rfl, List.getElem?_eq_getElem hn⟩
    · exact Or.inl (List.mem_eraseIdx_iff_getElem.mpr ⟨n, hn, hk, rfl⟩)

theorem timedStep_guarded_active (hd : Duel v live g) (s : Timed σ) (i : TimedInput)
    (hc : Coherent v live g s.room) (hg : Guarded s) (ha : s.room.lifecycle = .active) :
    Guarded (timedStep g s i).1 := by
  rcases timedStep_cases g s i with ⟨-, heq⟩ | ⟨j, hj, hroom, htimers, -⟩
  · rw [heq]
    exact hg
  · intro ha' p slot' hs' hdown
    rw [hroom] at ha' hs'
    have hchange := exit_slot (step_exit g s.room j) p
    rw [hs'] at hchange
    rw [htimers]
    rcases slotChange_disconnected ha hchange hdown with ⟨slot, hs, hdown₀, hgen⟩ | hset
    · obtain ⟨t, ht, rfl, hgt⟩ := hg ha p slot hs hdown₀
      rcases mem_remaining s i t ht with hin | ⟨k, now, rfl, hk⟩
      · exact ⟨t, List.mem_append_left _ hin, rfl, hgt.trans hgen⟩
      · rw [fire_input s k now t hk, Option.some.injEq] at hj
        subst hj
        rw [hgt, matching_timer_finishes hd hc ha now hs hdown₀] at ha'
        cases ha'
    · exact ⟨_, List.mem_append_right _ (mem_filterMap_timerOf _ _ _ _ hset), rfl, rfl⟩

/-- The only turn that makes a room active is the `Join` that fills it. -/
theorem exit_becomes_active {r r' : Room σ} {i : Input} {outs : List Output}
    (he : Exit g r i r' outs) (hn : r.lifecycle ≠ .active) (ha : r'.lifecycle = .active) :
    ∃ now p, i = .command now (.join p) ∧ r.lifecycle = .waiting ∧ r.players.lookup p = none ∧
      g.minPlayers ≤ r.seatOrder.length + 1 ∧
      r'.players = r.players.insert p { seat := r.seatOrder.length, connected := true } := by
  cases he with
  | stopped | rejected | rejoined | seated | initFailed | ignored | left | dropped | reconnected
  | graceIgnored | snapshot | tickIgnored => exact absurd ha hn
  | emptied | forceClosed | forfeited => cases ha
  | applied _ _ _ _ h => exact absurd h.active hn
  | ticked _ _ _ hl => exact absurd hl hn
  | started now p state hl hs hm hw hi => exact ⟨now, p, rfl, hl, hs, hw, rfl⟩

theorem timedStep_guarded (hd : Duel v live g) (s : Timed σ) (i : TimedInput)
    (hc : Coherent v live g s.room) (hg : Guarded s) (hs : StartsConnected g s i) :
    Guarded (timedStep g s i).1 := by
  by_cases ha : s.room.lifecycle = .active
  · exact timedStep_guarded_active hd s i hc hg ha
  · rcases timedStep_cases g s i with ⟨-, heq⟩ | ⟨j, hj, hroom, -⟩
    · rw [heq]
      exact hg
    · intro ha' p slot hslot hdown
      rw [hroom] at ha' hslot
      obtain ⟨now, q, rfl, hw, hq, hmin, hins⟩ :=
        exit_becomes_active (step_exit g s.room j) ha ha'
      have hi : i = .request now (.join q) := by
        cases i with
        | tick now' => cases hj
        | fire k now' =>
          obtain ⟨t, -, ht⟩ := Option.map_eq_some_iff.mp hj
          cases ht
        | request now' req =>
          obtain ⟨rfl, hcmd⟩ := Input.command.inj (Option.some.inj hj)
          cases req <;> cases hcmd
          rfl
      rw [hins, Table.lookup_insert_ite] at hslot
      by_cases hp : p = q
      · rw [if_pos hp, Option.some.injEq] at hslot
        subst hslot
        cases hdown
      · rw [if_neg hp] at hslot
        rw [hs now q hi hw hq hmin p slot hslot] at hdown
        cases hdown

theorem step_join_starts (hd : Duel v live g) {r : Room σ} (h : Coherent v live g r) (now : Time)
    (p : PlayerID) (hw : r.lifecycle = .waiting) (hs : r.players.lookup p = none)
    (hmin : g.minPlayers ≤ r.seatOrder.length + 1) :
    (step g r (.command now (.join p))).1.lifecycle = .active ∧
    (step g r (.command now (.join p))).1.players =
      r.players.insert p { seat := r.seatOrder.length, connected := true } ∧
    ∀ q k, .afterFunc q k ∉ (step g r (.command now (.join p))).2 := by
  have hmax : r.seatOrder.length < g.maxPlayers := by
    have hlen := (h.waiting hw).2.2
    rw [hd.minPlayers] at hlen
    rw [hd.maxPlayers]
    exact hlen
  obtain ⟨st, hok, -⟩ := init_succeeds hd p hmax hmin none
  have heq : step g r (.command now (.join p)) =
      (start (touch now r) p (some st),
        [playerEvent (seatPlayer (touch now r) p) .playerJoined p,
         startedEvent g (start (touch now r) p (some st)),
         snapshotReply g (start (touch now r) p (some st)) r.seatOrder.length]) := by
    have hlen : (seatPlayer (touch now r) p).seatOrder.length = r.seatOrder.length + 1 := by
      rw [seatPlayer_seatOrder, List.length_append, List.length_singleton, touch_seatOrder]
    unfold step handle handleJoin
    rw [if_neg (by rw [hw]; exact Lifecycle.noConfusion)]
    dsimp only
    rw [if_neg (by rw [touch_lifecycle, hw]; simp), touch_players, hs]
    dsimp only
    rw [if_neg (by rw [touch_seatOrder]; omega), if_pos ⟨hw, by rw [hlen]; exact hmin⟩]
    rw [show g.init (seatPlayer (touch now r) p).seatOrder none = .ok (some st) from hok]
    rfl
  rw [heq]
  refine ⟨rfl, rfl, ?_⟩
  intro q k hin
  simp [playerEvent, startedEvent, snapshotReply] at hin

/-- A start over a disconnected player leaves that player without a timer. -/
theorem start_unguarded (hd : Duel v live g) (s : Timed σ) (hc : Coherent v live g s.room)
    (ht : s.timers = []) (now : Time) (p : PlayerID) (hw : s.room.lifecycle = .waiting)
    (hs : s.room.players.lookup p = none) (hmin : g.minPlayers ≤ s.room.seatOrder.length + 1)
    (q : PlayerID) (slot : PlayerSlot) (hq : s.room.players.lookup q = some slot)
    (hdown : slot.connected = false) :
    ¬ Guarded (timedStep g s (.request now (.join p))).1 := by
  obtain ⟨hact, hplayers, hno⟩ := step_join_starts hd hc now p hw hs hmin
  intro hg
  have hne : q ≠ p := by
    rintro rfl
    rw [hq] at hs
    cases hs
  have hq' : (timedStep g s (.request now (.join p))).1.room.players.lookup q = some slot := by
    change (step g s.room (.command now (.join p))).1.players.lookup q = some slot
    rw [hplayers, Table.lookup_insert_ite, if_neg hne]
    exact hq
  obtain ⟨t, hin, -⟩ := hg hact q slot hq' hdown
  change t ∈ s.timers ++ (step g s.room (.command now (.join p))).2.filterMap (timerOf s.turn) at hin
  rw [ht, List.nil_append] at hin
  exact hno _ _ (mem_timerOf _ _ t hin).2

theorem guarded_iff (hd : Duel v live g) (id : ID) (gameType : String) (now : Time)
    (is : List TimedInput) :
    Along (timedStep g) (StartsConnected g) (newTimed σ id gameType now) is ↔
      ∀ js ks, is = js ++ ks →
        Guarded (final (timedStep g) (newTimed σ id gameType now) js) := by
  have hcoh : ∀ js, Coherent v live g
      (final (timedStep g) (newTimed σ id gameType now) js).room := fun js =>
    timed_room_invariant g (Coherent v live g)
      (fun r i h => exit_coherent hd (step_exit g r i) h) _ (newRoom_coherent hd id gameType now) js
  constructor
  · rintro hal js ks rfl
    have hjs := ((along_append _ _ _ js ks).mp hal).1
    have h := final_invariant_along (timedStep g) (StartsConnected g)
      (fun s => Coherent v live g s.room ∧ Guarded s) ?_ _ ⟨hcoh [], ?_⟩ js hjs
    · exact h.2
    · intro s i hstart hs
      refine ⟨?_, timedStep_guarded hd s i hs.1 hs.2 hstart⟩
      rcases timedStep_cases g s i with ⟨-, heq⟩ | ⟨j, -, hroom, -⟩
      · rw [heq]
        exact hs.1
      · rw [hroom]
        exact exit_coherent hd (step_exit g s.room j) hs.1
    · intro ha
      cases ha
  · intro hall
    induction is using List.reverseRecOn with
    | nil => trivial
    | append_singleton is i ih =>
      refine (along_concat _ _ _ is i).mpr ⟨?_, ?_⟩
      · apply ih
        rintro js ks rfl
        exact hall js (ks ++ [i]) (List.append_assoc js ks [i])
      · intro now' p hi hw hs hmin q slot hq
        by_contra hdown
        subst hi
        have hnil : (final (timedStep g) (newTimed σ id gameType now) is).timers = [] := by
          apply List.eq_nil_iff_forall_not_mem.mpr
          intro t ht
          exact (run_timersSound g id gameType now is t ht).started hw
        refine start_unguarded hd _ (hcoh is) hnil now' p hw hs hmin q slot hq
          (Bool.eq_false_iff.mpr hdown) ?_
        rw [← final_concat]
        exact hall _ [] (List.append_nil _).symm

end Timers

/-! ## The registered games -/

/-- **Every disconnected player of an active room has its timer in flight**, in
every state of a run, exactly when no `Join` of the run starts the game while
a seated player is disconnected. -/
theorem disconnected_guarded_iff (gameType : String) (g : Game GameState)
    (hg : registry gameType = some g) (id : ID) (now : Time) (is : List TimedInput) :
    (∀ js ks, is = js ++ ks →
      Guarded (final (timedStep g) (newTimed GameState id gameType now) js)) ↔
    Along (timedStep g) (StartsConnected g) (newTimed GameState id gameType now) is := by
  obtain ⟨live, hd⟩ := registry_duel gameType g hg
  exact (guarded_iff hd id gameType now is).symm

/-- The first player drops out while the room still waits for the second. -/
def earlyDropRun : List TimedInput :=
  [.request 0 (.join "alice"), .request 0 (.disconnect "alice"), .request 0 (.join "bob")]

/-- The room is active, its first player is disconnected, and no timer is in flight. -/
theorem early_drop_unguarded :
    ¬ Guarded (final (timedStep TicTacToe.game) (newTimed GameState "r" "tictactoe" 0)
      earlyDropRun) ∧
    (final (timedStep TicTacToe.game) (newTimed GameState "r" "tictactoe" 0)
      earlyDropRun).room.lifecycle = .active ∧
    (final (timedStep TicTacToe.game) (newTimed GameState "r" "tictactoe" 0)
      earlyDropRun).timers.length = 0 := by
  refine ⟨?_, by decide, by decide⟩
  intro h
  have hlen : (final (timedStep TicTacToe.game) (newTimed GameState "r" "tictactoe" 0)
      earlyDropRun).timers.length = 0 := by decide
  have hslot : ∃ slot, (final (timedStep TicTacToe.game) (newTimed GameState "r" "tictactoe" 0)
      earlyDropRun).room.players.lookup "alice" = some slot ∧ slot.connected = false :=
    ⟨_, rfl, rfl⟩
  obtain ⟨slot, hs, hdown⟩ := hslot
  obtain ⟨t, ht, -⟩ := h (by decide) "alice" slot hs hdown
  rw [List.length_eq_zero_iff.mp hlen] at ht
  cases ht

/-- With both players connected at the start, a later drop is guarded. -/
theorem late_drop_guarded :
    Guarded (final (timedStep TicTacToe.game) (newTimed GameState "r" "tictactoe" 0)
      [.request 0 (.join "alice"), .request 0 (.join "bob"),
       .request 0 (.disconnect "alice")]) := by
  refine (disconnected_guarded_iff "tictactoe" TicTacToe.game rfl "r" 0 _).mpr ?_ _ []
    (List.append_nil _).symm
  refine ⟨?_, ?_, ?_, trivial⟩
  · intro now p hi _ _ hmin
    exact absurd hmin (by decide)
  · intro now p hi hw _ _ q slot hq
    have hq' : (if q = "alice" then some { seat := 0, connected := true } else none) = some slot := by
      rw [← hq]
      exact (Table.lookup_insert_ite (∅ : Table PlayerID PlayerSlot) q "alice"
        { seat := 0, connected := true }).symm
    split at hq'
    · cases hq'
      rfl
    · cases hq'
  · intro now p hi
    cases hi

end RealtimeEngine.Rooms
