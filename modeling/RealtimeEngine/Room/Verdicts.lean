import RealtimeEngine.Domain.Play
import RealtimeEngine.Room.Broadcasts

/-! Who decides that a game is over. The room becomes `Finished` by the verdict
of the game after an action and after a tick; after a grace timer it becomes
`Finished` whatever `OnPlayerAbandoned` says. -/
namespace RealtimeEngine.Rooms
open Foundations Domain
set_option autoImplicit false
set_option maxHeartbeats 250000

section Verdicts
variable {σ : Type}

/-- The results of a game say of the new state what `IsTerminal` says of it, and
a game does not start in a state that is over. -/
structure Truthful (g : Game σ) : Prop where
  init : ∀ players config st, g.init players config = .ok st → g.isTerminal st = false
  apply : ∀ st a res, g.isTerminal st = false → g.applyAction st a = .ok res →
    res.terminal = g.isTerminal res.newState
  tick : ∀ st now res, g.isTerminal (some st) = false → g.tick st now = (res, true) →
    res.terminal = g.isTerminal res.newState
  abandon : ∀ st p res, g.isTerminal st = false → g.onPlayerAbandoned st p = .ok res →
    res.terminal = g.isTerminal res.newState

/-- What the game returns for the turn. -/
def gameResult (g : Game σ) (r : Room σ) : Input → Option (Result σ)
  | .command _ (.action a) => (g.applyAction r.state a).toOption
  | .command _ (.graceExpired p _) => (g.onPlayerAbandoned r.state p).toOption
  | .tick now => r.state.bind fun st => if (g.tick st now).2 then some (g.tick st now).1 else none
  | _ => none

/-- A room that is under way is `Finished` exactly when its game is over. -/
def Decided (g : Game σ) (r : Room σ) : Prop :=
  r.lifecycle = .active ∨ r.lifecycle = .finished →
    (r.lifecycle = .finished ↔ g.isTerminal r.state = true)

/-- Every diff of the turn carries the game's own verdict. -/
def FlagsResult (g : Game σ) (r : Room σ) (i : Input) : Prop :=
  ∀ ev, .broadcast ev ∈ (step g r i).2 → ev.kind = .stateDiff →
    ∃ result, gameResult g r i = some result ∧ ev.terminal = result.terminal

/-- If the turn makes a player forfeit, the game agrees that this ends it. -/
def Concludes (g : Game σ) (r : Room σ) : Input → Prop
  | .command _ (.graceExpired p generation) =>
    ∀ slot result, Forfeits g r p generation slot result → result.terminal = true
  | _ => True

/-! ## One turn -/

theorem decided_of_not_started (g : Game σ) (r : Room σ) (ha : r.lifecycle ≠ .active)
    (hf : r.lifecycle ≠ .finished) : Decided g r := by
  rintro (h | h)
  · exact absurd h ha
  · exact absurd h hf

theorem decided_of_waiting (g : Game σ) (r : Room σ) (hl : r.lifecycle = .waiting) :
    Decided g r := by
  apply decided_of_not_started
  · rw [hl]
    exact Lifecycle.noConfusion
  · rw [hl]
    exact Lifecycle.noConfusion

theorem Decided.congr {g : Game σ} {r r' : Room σ} (h : Decided g r)
    (hl : r'.lifecycle = r.lifecycle) (hs : r'.state = r.state) : Decided g r' := by
  unfold Decided
  rw [hl, hs]
  exact h

theorem Decided.ongoing {g : Game σ} {r : Room σ} (h : Decided g r)
    (ha : r.lifecycle = .active) : g.isTerminal r.state = false := by
  by_contra hne
  have hf := (h (Or.inl ha)).mpr (by simpa using hne)
  rw [ha] at hf
  cases hf

/-- A room that takes over a result of its game together with its verdict. -/
theorem decided_settle (g : Game σ) (now : Time) (r : Room σ) (result : Result σ)
    (ha : r.lifecycle = .active) (hs : r.state = result.newState)
    (ht : result.terminal = g.isTerminal result.newState) :
    Decided g (settle now result.terminal r) := by
  intro _
  rw [settle_lifecycle, settle_state, hs, ← ht]
  cases result.terminal with
  | true => simp
  | false => simp [ha]

theorem exit_decided {g : Game σ} (hg : Truthful g) {r r' : Room σ} {i : Input}
    {outs : List Output} (he : Exit g r i r' outs) (h : Decided g r) (hc : Concludes g r i) :
    Decided g r' := by
  cases he with
  | stopped | tickIgnored | rejected | rejoined | seated | ignored | dropped | reconnected
  | graceIgnored | snapshot => exact h.congr rfl rfl
  | initFailed now p e hl => exact decided_of_waiting g _ hl
  | started now p state hl hs hm hw hi =>
    intro _
    have hopen := hg.init _ _ _ hi
    change Lifecycle.active = .finished ↔ g.isTerminal state = true
    rw [hopen]
    decide
  | left now p slot hl => exact decided_of_waiting g _ hl
  | emptied | forceClosed =>
    exact decided_of_not_started g _ Lifecycle.noConfusion Lifecycle.noConfusion
  | applied now a slot result ha =>
    exact decided_settle g now _ result ha.active rfl
      (hg.apply r.state a result (h.ongoing ha.active) ha.applied)
  | ticked now st result hl hs ht =>
    have hopen := h.ongoing hl
    rw [hs] at hopen
    exact decided_settle g now _ result hl rfl (hg.tick st now result hopen ht)
  | forfeited now p k slot result hf =>
    intro _
    have ht := hg.abandon r.state p result (h.ongoing hf.active) hf.abandoned
    rw [hc slot result hf] at ht
    change Lifecycle.finished = .finished ↔ g.isTerminal result.newState = true
    rw [← ht]
    decide

/-- A state diff is the first output of a turn that raises the version. -/
theorem exit_diff_first {g : Game σ} {r r' : Room σ} {i : Input} {outs : List Output}
    (he : Exit g r i r' outs) (ev : RoomEvent) (hev : .broadcast ev ∈ outs)
    (hk : ev.kind = .stateDiff) :
    r'.serverSeq = r.serverSeq + 1 ∧ ∃ rest, outs = .broadcast ev :: rest := by
  have hdiff : Output.isDiff (.broadcast ev) = true := decide_eq_true hk
  obtain ⟨-, hnone⟩ | ⟨hv, d, rest, rfl, -, hrest⟩ := exit_diff he
  · rw [hnone _ hev] at hdiff
    cases hdiff
  · obtain rfl | hin := List.mem_cons.mp hev
    · exact ⟨hv, rest, rfl⟩
    · rw [hrest _ hin] at hdiff
      cases hdiff

/-- The flag of a diff is the game's, or the turn is a forfeit and the flag is set. -/
theorem exit_flag {g : Game σ} {r r' : Room σ} {i : Input} {outs : List Output}
    (he : Exit g r i r' outs) (ev : RoomEvent) (hev : .broadcast ev ∈ outs)
    (hk : ev.kind = .stateDiff) :
    ∃ result, gameResult g r i = some result ∧ (ev.terminal = result.terminal ∨
      ev.terminal = true ∧ ∃ now p generation slot,
        i = .command now (.graceExpired p generation) ∧ Forfeits g r p generation slot result) := by
  obtain ⟨hv, rest, hout⟩ := exit_diff_first he ev hev hk
  cases he with
  | applied now a slot result ha =>
    cases hout
    refine ⟨result, ?_, Or.inl rfl⟩
    simp [gameResult, ha.applied, Except.toOption]
  | ticked now st result hl hs ht =>
    cases hout
    refine ⟨result, ?_, Or.inl rfl⟩
    simp [gameResult, hs, ht]
  | forfeited now p k slot result hf =>
    cases hout
    refine ⟨result, ?_, Or.inr ⟨rfl, now, p, k, slot, rfl, hf⟩⟩
    simp [gameResult, hf.abandoned, Except.toOption]
  | _ => exact absurd hv (Nat.ne_of_lt (Nat.lt_succ_self _))

/-- A forfeit is announced as the end of the game. -/
theorem forfeit_flagged {g : Game σ} {r r' : Room σ} {now : Time} {p : PlayerID} {k : ℕ}
    {outs : List Output} (he : Exit g r (.command now (.graceExpired p k)) r' outs)
    {slot : PlayerSlot} {result : Result σ} (hf : Forfeits g r p k slot result) :
    ∃ ev, .broadcast ev ∈ outs ∧ ev.kind = .stateDiff ∧ ev.terminal = true := by
  cases he with
  | stopped i hc =>
    rw [hf.active] at hc
    cases hc
  | rejected now cmd e ho hr => cases hr
  | ignored now q cmd ho hc => obtain hc | hc := hc <;> cases hc
  | dropped now q cmd slot' ho hc => obtain hc | ⟨hc, -⟩ := hc <;> cases hc
  | graceIgnored now p k ho hi => exact absurd hf (hi slot result)
  | forfeited => exact ⟨_, List.mem_cons_self, rfl, rfl⟩

theorem flagsResult_iff (g : Game σ) (r : Room σ) (i : Input) :
    FlagsResult g r i ↔ Concludes g r i := by
  have he := step_exit g r i
  constructor
  · intro hflags
    cases i with
    | tick now => trivial
    | command now cmd =>
      cases cmd with
      | graceExpired p k =>
        intro slot result hf
        obtain ⟨ev, hev, hk, ht⟩ := forfeit_flagged he hf
        obtain ⟨result', hres, hflag⟩ := hflags ev hev hk
        simp only [gameResult, hf.abandoned, Except.toOption, Option.some.injEq] at hres
        rw [hres, ← hflag, ht]
      | _ => trivial
  · intro hc ev hev hk
    obtain ⟨result, hres, ht | ⟨ht, now, p, k, slot, rfl, hf⟩⟩ := exit_flag he ev hev hk
    · exact ⟨result, hres, ht⟩
    · exact ⟨result, hres, ht.trans (hc slot result hf).symm⟩

/-! ## Whole runs -/

theorem final_decided (g : Game σ) (hg : Truthful g) (id : ID) (gameType : String) (t₀ : Time)
    (is : List Input) (hc : Along (step g) (Concludes g) (newRoom σ id gameType t₀) is) :
    Decided g (final (step g) (newRoom σ id gameType t₀) is) := by
  refine final_invariant_along (step g) (Concludes g) (Decided g) ?_ _ ?_ is hc
  · intro r i hci hr
    exact exit_decided hg (step_exit g r i) hr hci
  · exact decided_of_not_started g _ Lifecycle.noConfusion Lifecycle.noConfusion

/-- **The game alone decides when it is over, except for a forfeit.** For every
truthful game and every run of a room, the room is `Finished` exactly when its
game is over and every diff carries the game's verdict, at all times, exactly
when every result of `OnPlayerAbandoned` that the room acts on is terminal. -/
theorem game_decides_iff (g : Game σ) (hg : Truthful g) (id : ID) (gameType : String) (t₀ : Time)
    (is : List Input) :
    ((∀ js ks, is = js ++ ks → Decided g (final (step g) (newRoom σ id gameType t₀) js)) ∧
      ∀ js i ks, is = js ++ i :: ks →
        FlagsResult g (final (step g) (newRoom σ id gameType t₀) js) i) ↔
    ∀ js i ks, is = js ++ i :: ks →
      Concludes g (final (step g) (newRoom σ id gameType t₀) js) i := by
  constructor
  · rintro ⟨-, hflags⟩ js i ks heq
    exact (flagsResult_iff g _ i).mp (hflags js i ks heq)
  · intro hc
    refine ⟨?_, fun js i ks heq => (flagsResult_iff g _ i).mpr (hc js i ks heq)⟩
    rintro js ks rfl
    have halong := (along_iff (step g) (Concludes g) (newRoom σ id gameType t₀) (js ++ ks)).mpr hc
    exact final_decided g hg id gameType t₀ js ((along_append (step g) _ _ js ks).mp halong).1

end Verdicts

/-! ## Two games -/

theorem asState_ok (st : Option GameState) (s : TicTacToe.State)
    (h : TicTacToe.asState st = .ok s) : st = some (.ticTacToe s) := by
  unfold TicTacToe.asState at h
  split at h
  · cases h
    rfl
  · cases h

theorem ticTacToe_truthful : Truthful TicTacToe.game where
  init := by
    intro players config st h
    have h' : TicTacToe.init players config = .ok st := h
    unfold TicTacToe.init at h'
    split at h'
    · cases h'
      rfl
    · cases h'
  apply := by
    intro st a res hopen h
    have h' : TicTacToe.applyAction st a = .ok res := h
    unfold TicTacToe.applyAction at h'
    split at h'
    · cases h'
    · next s hs =>
      rw [asState_ok st s hs] at hopen
      split at h'
      · cases h'
      · next mv hmv =>
        cases h'
        unfold TicTacToe.play
        dsimp only
        split
        · rfl
        · split
          · rfl
          · exact hopen.symm
  tick := by
    intro st now res _ h
    cases congrArg Prod.snd h
  abandon := by
    intro st p res hopen h
    have h' : TicTacToe.onPlayerAbandoned st p = .ok res := h
    unfold TicTacToe.onPlayerAbandoned at h'
    split at h'
    · cases h'
    · next s hs =>
      rw [asState_ok st s hs] at hopen
      have hd : s.done = false := hopen
      rw [if_neg (by simp [hd])] at h'
      split at h'
      · cases h'
      · cases h'
        rfl

/-- Two players join, one drops out, and the grace timer of that drop arrives. -/
def abandonRun : List Input :=
  [.command 0 (.join "alice"), .command 0 (.join "bob"), .command 1 (.disconnect "bob"),
   .command 2 (.graceExpired "bob" 1)]

/-- In tic-tac-toe the player who stays wins. -/
theorem ticTacToe_decides_abandonRun :
    Decided TicTacToe.game
      (final (step TicTacToe.game) (newRoom GameState "r" "tictactoe" 0) abandonRun) ∧
    (final (step TicTacToe.game) (newRoom GameState "r" "tictactoe" 0) abandonRun).lifecycle =
      .finished := by
  refine ⟨((game_decides_iff TicTacToe.game ticTacToe_truthful "r" "tictactoe" 0 abandonRun).mpr
    ((along_iff _ _ _ _).mp ?_)).1 abandonRun [] rfl, by decide⟩
  refine ⟨trivial, trivial, trivial, ?_, trivial⟩
  intro slot result hf
  cases hf.abandoned
  rfl

/-- A game for two that goes on when a player is gone. -/
def patient : Game Unit where
  init := fun _ _ => .ok (some ())
  validate := fun _ _ => .ok ()
  applyAction := fun st _ => .ok { newState := st }
  tick := fun st _ => ({ newState := some st }, false)
  snapshot := fun _ => .ok none
  isTerminal := fun _ => false
  onPlayerAbandoned := fun st _ => .ok { newState := st }
  minPlayers := 2
  maxPlayers := 2

/-- The room ends the game of `patient` and says that the game ended it. -/
theorem room_overrules_patient_game :
    Truthful patient ∧
    (let r := final (step patient) (newRoom Unit "r" "patient" 0) abandonRun
     r.lifecycle = .finished ∧ patient.isTerminal r.state = false) ∧
    let r := final (step patient) (newRoom Unit "r" "patient" 0) (abandonRun.take 3)
    (∃ ev, .broadcast ev ∈ (step patient r (.command 2 (.graceExpired "bob" 1))).2 ∧
      ev.kind = .stateDiff ∧ ev.terminal = true) ∧
    ∃ result, gameResult patient r (.command 2 (.graceExpired "bob" 1)) = some result ∧
      result.terminal = false := by
  refine ⟨⟨fun _ _ _ _ => rfl, ?_, ?_, ?_⟩, ⟨by decide, rfl⟩, ⟨_, List.mem_cons_self, rfl, rfl⟩,
    ⟨_, rfl, rfl⟩⟩
  · intro st a res _ h
    cases h
    rfl
  · intro st now res _ h
    cases h
  · intro st p res _ h
    cases h
    rfl

end RealtimeEngine.Rooms
