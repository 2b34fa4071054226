import RealtimeEngine.Domain.PingPong
import RealtimeEngine.Domain.TicTacToe

/-! The laws the room relies on and the interface does not state: a duel is a
game of exactly two players whose results report the terminal flag and the
winner that the new state holds. Both registered games are duels. -/
namespace RealtimeEngine.Domain
open Foundations
set_option autoImplicit false
set_option maxHeartbeats 250000

/-! ## The laws -/

/-- What a result says about the state it carries. -/
structure Reports {σ : Type} (v : View σ) (live : σ → Prop) (g : Game σ) (st : σ)
    (res : Result σ) (st' : σ) : Prop where
  newState : res.newState = some st'
  players : v.players st' = v.players st
  winner : res.winner = v.winner st'
  terminal : res.terminal = g.isTerminal (some st')
  ongoing : res.terminal = false → live st'
  decided : res.terminal = true → (v.winner st' = none ↔ v.drawn st' = true)

/-- `live` are the states of the game that are not over. -/
structure Duel {σ : Type} (v : View σ) (live : σ → Prop) (g : Game σ) : Prop where
  minPlayers : g.minPlayers = 2
  maxPlayers : g.maxPlayers = 2
  init : ∀ a b config, ∃ st, g.init [a, b] config = .ok (some st) ∧
    v.players st = [a, b] ∧ live st
  live_open : ∀ st, live st → g.isTerminal (some st) = false
  apply : ∀ st a res, live st → g.applyAction (some st) a = .ok res →
    ∃ st', Reports v live g st res st'
  tick : ∀ st now res, live st → g.tick st now = (res, true) →
    res.terminal = false ∧ ∃ st', Reports v live g st res st'
  abandon : ∀ st p, live st → p ∈ v.players st →
    ∃ res st', g.onPlayerAbandoned (some st) p = .ok res ∧ Reports v live g st res st' ∧
      res.terminal = true ∧ ∀ q ∈ v.players st, q ≠ p → res.winner = some q

/-! ## Two seats -/

theorem ofFn_two (players : Fin 2 → PlayerID) : List.ofFn players = [players 0, players 1] := rfl

theorem find_seat (players : Fin 2 → PlayerID) (p : PlayerID) :
    ([0, 1] : List (Fin 2)).find? (fun i => players i = p) =
      if players 0 = p then some 0 else if players 1 = p then some 1 else none := by
  rw [List.find?_cons, List.find?_cons, List.find?_nil]
  by_cases h0 : players 0 = p
  · simp [h0]
  · by_cases h1 : players 1 = p <;> simp [h0, h1]

/-- A seated player has a seat, and the other seat holds the other player. -/
theorem seat_of_member (players : Fin 2 → PlayerID) (p : PlayerID) (hp : p ∈ List.ofFn players) :
    ∃ i : Fin 2, ([0, 1] : List (Fin 2)).find? (fun i => players i = p) = some i ∧
      ∀ q ∈ List.ofFn players, q ≠ p → players (1 - i) = q := by
  rw [ofFn_two, List.mem_pair] at hp
  rw [find_seat, ofFn_two]
  by_cases h0 : players 0 = p
  · refine ⟨0, if_pos h0, ?_⟩
    intro q hq hne
    rcases List.mem_pair.mp hq with rfl | rfl
    · exact absurd h0 hne
    · rfl
  · have h1 : players 1 = p := by
      rcases hp with hp | hp
      · exact absurd hp.symm h0
      · exact hp.symm
    refine ⟨1, by rw [if_neg h0, if_pos h1], ?_⟩
    intro q hq hne
    rcases List.mem_pair.mp hq with rfl | rfl
    · rfl
    · exact absurd h1 hne

/-! ## Tic-tac-toe -/

namespace TicTacToe

def Live (st : GameState) : Prop :=
  ∃ s : State, st = .ticTacToe s ∧ s.done = false ∧ s.draw = false ∧ s.winner = none

theorem play_reports (s : State) (mv : MovePayload) (hd : s.done = false) (hr : s.draw = false)
    (hw : s.winner = none) :
    ∃ st', Reports gameView Live game (.ticTacToe s) (play s mv) st' := by
  unfold play
  dsimp only
  split
  · next winSeat hwin =>
    refine ⟨_, rfl, rfl, rfl, rfl, fun h => Bool.noConfusion h, ?_⟩
    intro _
    simp [gameView, GameState.winner, GameState.drawn, hr]
  · next hwin =>
    split
    · refine ⟨_, rfl, rfl, hw.symm, rfl, fun h => Bool.noConfusion h, ?_⟩
      intro _
      simp [gameView, GameState.winner, GameState.drawn, hw]
    · refine ⟨_, rfl, rfl, hw.symm, hd.symm, ?_, fun h => Bool.noConfusion h⟩
      intro _
      exact ⟨_, rfl, hd, hr, hw⟩

theorem applyAction_reports (st : GameState) (a : Action) (res : Result GameState)
    (hl : Live st) (h : game.applyAction (some st) a = .ok res) :
    ∃ st', Reports gameView Live game st res st' := by
  obtain ⟨s, rfl, hd, hr, hw⟩ := hl
  have h' : applyAction (some (.ticTacToe s)) a = .ok res := h
  unfold applyAction asState at h'
  dsimp only at h'
  split at h'
  · cases h'
  · next mv _ =>
    cases h'
    exact play_reports s mv hd hr hw

theorem onPlayerAbandoned_reports (st : GameState) (p : PlayerID) (hl : Live st)
    (hp : p ∈ gameView.players st) :
    ∃ res st', game.onPlayerAbandoned (some st) p = .ok res ∧
      Reports gameView Live game st res st' ∧ res.terminal = true ∧
      ∀ q ∈ gameView.players st, q ≠ p → res.winner = some q := by
  obtain ⟨s, rfl, hd, hr, hw⟩ := hl
  obtain ⟨i, hi, hother⟩ := seat_of_member s.players p hp
  have hrun : onPlayerAbandoned (some (.ticTacToe s)) p = .ok (abandon s i) := by
    unfold onPlayerAbandoned asState State.seatOf
    dsimp only
    rw [if_neg (by simp [hd]), hi]
  refine ⟨abandon s i, .ticTacToe { s with done := true, winner := some (s.players (1 - i)) },
    hrun, ⟨rfl, rfl, rfl, rfl, fun h => Bool.noConfusion h, ?_⟩, rfl, ?_⟩
  · intro _
    simp [gameView, GameState.winner, GameState.drawn, hr]
  · intro q hq hne
    change some (s.players (1 - i)) = some q
    rw [hother q hq hne]

theorem duel : Duel gameView Live game where
  minPlayers := rfl
  maxPlayers := rfl
  init := fun _ _ _ => ⟨_, rfl, rfl, _, rfl, rfl, rfl, rfl⟩
  live_open := by
    rintro st ⟨s, rfl, hd, -, -⟩
    exact hd
  apply := applyAction_reports
  tick := fun _ _ _ _ h => by
    have := congrArg Prod.snd h
    exact Bool.noConfusion this
  abandon := onPlayerAbandoned_reports

end TicTacToe

/-! ## Ping-pong -/

namespace PingPong

def Live (st : GameState) : Prop :=
  ∃ s : State, st = .pingPong s ∧ s.done = false ∧ s.winner = none

theorem win_reports (s : State) (winnerSeat : Fin 2) (reason : String) (events : List Event) :
    Reports gameView Live game (.pingPong s) (winResult (win s winnerSeat reason) events)
      (.pingPong (win s winnerSeat reason)) := by
  refine ⟨rfl, rfl, rfl, rfl, fun h => Bool.noConfusion h, ?_⟩
  intro _
  simp [gameView, GameState.winner, GameState.drawn, win]

theorem applyAction_reports (st : GameState) (a : Action) (res : Result GameState)
    (hl : Live st) (h : game.applyAction (some st) a = .ok res) :
    ∃ st', Reports gameView Live game st res st' := by
  obtain ⟨s, rfl, hd, hw⟩ := hl
  have h' : applyAction (some (.pingPong s)) a = .ok res := h
  unfold applyAction asState at h'
  dsimp only at h'
  split at h'
  · cases h'
  · next seat _ =>
    cases h'
    unfold buzz
    dsimp only
    split
    · exact ⟨_, win_reports s seat _ _⟩
    · exact ⟨_, win_reports s (1 - seat) _ _⟩

theorem advance_same (s : State) (now : Time) :
    (advance s now).1.players = s.players ∧ (advance s now).1.done = s.done ∧
      (advance s now).1.winner = s.winner := by
  unfold advance
  dsimp only
  split_ifs <;> exact ⟨rfl, rfl, rfl⟩

theorem tick_reports (st : GameState) (now : Time) (res : Result GameState)
    (hl : Live st) (h : game.tick st now = (res, true)) :
    res.terminal = false ∧ ∃ st', Reports gameView Live game st res st' := by
  obtain ⟨s, rfl, hd, hw⟩ := hl
  obtain ⟨hps, hds, hws⟩ := advance_same s now
  have h' : tick (.pingPong s) now = (res, true) := h
  unfold tick asState at h'
  dsimp only at h'
  rw [if_neg (by simp [hd])] at h'
  split at h'
  · cases h'
  · next next hadv =>
    cases h'
    rw [hadv] at hps hds hws
    dsimp only at hps hds hws
    rw [hd] at hds
    rw [hw] at hws
    refine ⟨rfl, .pingPong next, rfl, ?_, hws.symm, hds.symm, ?_, fun h => Bool.noConfusion h⟩
    · change List.ofFn next.players = List.ofFn s.players
      rw [hps]
    · intro _
      exact ⟨next, rfl, hds, hws⟩

theorem onPlayerAbandoned_reports (st : GameState) (p : PlayerID) (hl : Live st)
    (hp : p ∈ gameView.players st) :
    ∃ res st', game.onPlayerAbandoned (some st) p = .ok res ∧
      Reports gameView Live game st res st' ∧ res.terminal = true ∧
      ∀ q ∈ gameView.players st, q ≠ p → res.winner = some q := by
  obtain ⟨s, rfl, hd, hw⟩ := hl
  obtain ⟨i, hi, hother⟩ := seat_of_member s.players p hp
  refine ⟨_, _, ?_, win_reports s (1 - i) "opponent_abandoned"
    [{ type := "player_abandoned" }, { type := "player_won" }], rfl, ?_⟩
  · change onPlayerAbandoned (some (.pingPong s)) p = _
    unfold onPlayerAbandoned asState State.seatOf
    dsimp only
    rw [if_neg (by simp [hd]), hi]
  · intro q hq hne
    change some (s.players (1 - i)) = some q
    rw [hother q hq hne]

theorem duel : Duel gameView Live game where
  minPlayers := rfl
  maxPlayers := rfl
  init := fun _ _ _ => ⟨_, rfl, rfl, _, rfl, rfl, rfl⟩
  live_open := by
    rintro st ⟨s, rfl, hd, -⟩
    exact hd
  apply := applyAction_reports
  tick := tick_reports
  abandon := onPlayerAbandoned_reports

end PingPong

/-! ## The registry -/

/-- `game.Registry` as `app.Build` fills it. -/
def registry : String → Option (Game GameState)
  | "tictactoe" => some TicTacToe.game
  | "pingpong" => some PingPong.game
  | _ => none

theorem registry_duel (gameType : String) (g : Game GameState) (h : registry gameType = some g) :
    ∃ live, Duel gameView live g := by
  unfold registry at h
  split at h
  · cases h
    exact ⟨_, TicTacToe.duel⟩
  · cases h
    exact ⟨_, PingPong.duel⟩
  · cases h

end RealtimeEngine.Domain
