import RealtimeEngine.Matchmaking.Matchmaker
import RealtimeEngine.Room.Starting

/-! From a full queue to a room (`CreateRoom` in `manager.go`): the players of a
match join a new room in queue order. Which of them the game is started with is
decided by the first Join that satisfies `MinPlayers`. -/
namespace RealtimeEngine.Matchmaking
open Foundations Domain Rooms
set_option autoImplicit false
set_option maxHeartbeats 250000

/-- The player of a Join. -/
def joiner : Input → Option PlayerID
  | .command _ (.join player) => some player
  | _ => none

def isTick : Input → Bool
  | .tick _ => true
  | _ => false

/-- An output that is not the reply with an error. -/
def succeeds : Output → Bool
  | .reply res => res.err.isNone
  | _ => true

section Creation
variable {σ : Type}

/-- The turns of a room while `CreateRoom` seats `players` and returns without an
error: nobody else knows the room, so between the Joins there are only ticks. -/
structure Creates (g : Game σ) (r : Room σ) (players : List PlayerID) (is : List Input) :
    Prop where
  joins : is.filterMap joiner = players
  ticks : ∀ i ∈ is, joiner i = none → isTick i = true
  answers : ∀ o ∈ trace (step g) r is, succeeds o.2 = true

/-! ## Every answered Join takes the next seat -/

theorem exit_tick (g : Game σ) (r r' : Room σ) (now : Time) (outs : List Output)
    (he : Exit g r (.tick now) r' outs) (ho : r.lifecycle ≠ .closed) :
    r'.seatOrder = r.seatOrder ∧ r'.lifecycle ≠ .closed := by
  cases he with
  | stopped _ hc => exact absurd hc ho
  | tickIgnored => exact ⟨rfl, ho⟩
  | ticked _ st result hl =>
    refine ⟨settle_seatOrder _ _ _, ?_⟩
    rw [settle_lifecycle]
    split
    · exact fun h => Lifecycle.noConfusion h
    · exact ho

theorem exit_join (g : Game σ) (r r' : Room σ) (now : Time) (p : PlayerID) (outs : List Output)
    (he : Exit g r (.command now (.join p)) r' outs) (ht : SeatTable g r)
    (ho : r.lifecycle ≠ .closed) (hp : p ∉ r.seatOrder) (hr : ∀ o ∈ outs, succeeds o = true) :
    r'.seatOrder = r.seatOrder ++ [p] ∧ r'.lifecycle ≠ .closed := by
  cases he with
  | stopped _ hc => exact absurd hc ho
  | rejected _ _ e =>
    have hf := hr (failReply e) (by simp)
    cases hf
  | initFailed _ _ e =>
    have hf := hr (failReply e) (by simp)
    cases hf
  | rejoined _ _ slot hl hs => exact absurd (ht.mem_of_lookup hs) hp
  | seated => exact ⟨rfl, ho⟩
  | started => exact ⟨rfl, fun h => Lifecycle.noConfusion h⟩
  | ignored _ q _ _ hc => rcases hc with hc | hc <;> cases hc
  | dropped _ q _ slot _ hc =>
    rcases hc with hc | ⟨hc, -⟩
    · cases hc
    · cases hc

theorem Creates.tail (g : Game σ) (r : Room σ) (players : List PlayerID) (i : Input)
    (is : List Input) (hc : Creates g r players (i :: is)) :
    Creates g (step g r i).1 (is.filterMap joiner) is where
  joins := rfl
  ticks := fun j hj => hc.ticks j (List.mem_cons_of_mem i hj)
  answers := by
    intro o ho
    exact hc.answers o (by simp [trace, ho])

theorem creates_seatOrder (g : Game σ) (players : List PlayerID) (is : List Input) (r : Room σ)
    (hc : Creates g r players is) (ht : SeatTable g r) (ho : r.lifecycle ≠ .closed)
    (hn : (r.seatOrder ++ players).Nodup) :
    (final (step g) r is).seatOrder = r.seatOrder ++ players ∧
      (final (step g) r is).lifecycle ≠ .closed := by
  induction is generalizing r players with
  | nil =>
    have hnil : players = [] := hc.joins.symm
    rw [hnil, List.append_nil]
    exact ⟨rfl, ho⟩
  | cons i is ih =>
    have htail := hc.tail
    have ht' := exit_seatTable (step_exit g r i) ht
    cases hj : joiner i with
    | none =>
      have htick := hc.ticks i (List.mem_cons_self ..) hj
      obtain ⟨now, rfl⟩ : ∃ now, i = .tick now := by
        cases i with
        | command now cmd => cases htick
        | tick now => exact ⟨now, rfl⟩
      have hplayers : is.filterMap joiner = players := by
        simpa [hj] using hc.joins
      obtain ⟨hseat, hopen⟩ := exit_tick g r _ now _ (step_exit g r (.tick now)) ho
      rw [hplayers] at htail
      have h := ih players _ htail ht' hopen (by rwa [hseat])
      rwa [hseat] at h
    | some p =>
      obtain ⟨now, rfl⟩ : ∃ now, i = .command now (.join p) := by
        unfold joiner at hj
        split at hj
        next now q =>
          obtain rfl := Option.some.inj hj
          exact ⟨now, rfl⟩
        next => cases hj
      have hplayers : players = p :: is.filterMap joiner := by
        have h := hc.joins
        rw [List.filterMap_cons, hj] at h
        exact h.symm
      have hp : p ∉ r.seatOrder := by
        intro hmem
        rw [hplayers] at hn
        exact (List.nodup_append.mp hn).2.2 p hmem p (by simp) rfl
      obtain ⟨hseat, hopen⟩ := exit_join g r _ now p _ (step_exit g r (.command now (.join p)))
        ht ho hp (fun o ho' => hc.answers (.command now (.join p), o) (by
          simp only [trace]
          exact List.mem_append_left _ (List.mem_map_of_mem ho')))
      have hn' : ((step g r (.command now (.join p))).1.seatOrder ++
          is.filterMap joiner).Nodup := by
        rw [hseat, List.append_assoc, List.singleton_append, ← hplayers]
        exact hn
      have h := ih _ _ htail ht' hopen hn'
      rwa [hseat, List.append_assoc, List.singleton_append, ← hplayers] at h

/-- Whom `CreateRoom` starts the game with. -/
theorem creates_initCalls (g : Game σ) (hmin : 1 ≤ g.minPlayers) (hok : Accepts g)
    (players : List PlayerID) (hle : g.minPlayers ≤ players.length) (hn : players.Nodup)
    (id : ID) (gameType : String) (now : Time) (is : List Input)
    (hc : Creates g (newRoom σ id gameType now) players is) :
    initCalls g (newRoom σ id gameType now) is = [players.take g.minPlayers] := by
  have hs := final_started g hmin hok id gameType now is
  obtain ⟨hseat, hopen⟩ := creates_seatOrder g players is _ hc
    (newRoom_seatTable g id gameType now) (fun h => Lifecycle.noConfusion h) (by simpa [newRoom])
  have hseat' : (final (step g) (newRoom σ id gameType now) is).seatOrder = players := by
    simpa [newRoom] using hseat
  have hplaying : (final (step g) (newRoom σ id gameType now) is).lifecycle = .active ∨
      (final (step g) (newRoom σ id gameType now) is).lifecycle = .finished := by
    cases hl : (final (step g) (newRoom σ id gameType now) is).lifecycle with
    | waiting =>
      have hlt := (hs.waiting hl).2
      rw [hseat'] at hlt
      omega
    | active => exact Or.inl rfl
    | finished => exact Or.inr rfl
    | closed => exact absurd hl hopen
  have hcalls := (hs.playing hplaying).1
  rwa [hseat'] at hcalls

/-- A match is started with all its players exactly when the game's bounds agree, and the
state it is started in is the one that `Init` returned for the players it was called with. -/
theorem init_gets_match_iff (games : String → Option (Game σ)) (gameType : String) (g : Game σ)
    (hgame : games gameType = some g) (hmin : 1 ≤ g.minPlayers)
    (hle : g.minPlayers ≤ g.maxPlayers) (hok : Accepts g) :
    (∀ rs player players id now is,
      (enqueue g.maxPlayers (queuesAfter games rs gameType) player).2 = some players →
      Creates g (newRoom σ id gameType now) players is →
      (initCalls g (newRoom σ id gameType now) is = [players] ↔ g.minPlayers = g.maxPlayers)) ∧
    (g.minPlayers = g.maxPlayers → ∀ id now is,
      (final (step g) (newRoom σ id gameType now) is).lifecycle = .active →
      initCalls g (newRoom σ id gameType now) is =
        [(final (step g) (newRoom σ id gameType now) is).seatOrder]) ∧
    ∀ id now is i players,
      initCall g (final (step g) (newRoom σ id gameType now) is) i = some players →
      ∃ st, g.init players none = .ok st ∧
        (final (step g) (newRoom σ id gameType now) (is ++ [i])).state = st ∧
        (final (step g) (newRoom σ id gameType now) (is ++ [i])).lifecycle = .active := by
  have hmax : 1 ≤ g.maxPlayers := hmin.trans hle
  refine ⟨?_, ?_, ?_⟩
  · intro rs player players id now is hm hc
    have ho := orderly_after games rs gameType g hgame hmax
    obtain ⟨hlen, hn⟩ := enqueue_group _ _ _ ho player players hm
    have hcalls := creates_initCalls g hmin hok players (by omega) hn id gameType now is hc
    rw [hcalls, List.singleton_inj, List.take_eq_self_iff]
    omega
  · intro heq id now is ha
    have hs := final_started g hmin hok id gameType now is
    obtain ⟨hcalls, hlen⟩ := hs.playing (Or.inl ha)
    have hcap := hs.table.capacity
    rw [hcalls, List.take_of_length_le (by omega)]
  · intro id now is i players hc
    have hs := final_started g hmin hok id gameType now is
    obtain ⟨-, -, now', p, st, -, -, hst, hstep⟩ := hs.inits hok hc
    rw [final_concat, hstep]
    exact ⟨st, hst, rfl, rfl⟩

end Creation

/-! ## Bounds that agree, and bounds that do not -/

theorem ticTacToe_accepts : Accepts TicTacToe.game := by
  intro players _ hlo hhi
  have hl : players.length = 2 := Nat.le_antisymm hhi hlo
  obtain ⟨a, b, rfl⟩ := List.length_eq_two.mp hl
  obtain ⟨st, hst, -⟩ := TicTacToe.duel.init a b none
  exact ⟨some st, hst⟩

/-- The room of a match of alice and bob, with a tick between their Joins. -/
def twoJoins : List Input :=
  [.command 0 (.join "alice"), .tick 1, .command 2 (.join "bob")]

theorem match_of_two_started_whole :
    initCalls TicTacToe.game (newRoom GameState "r" "tictactoe" 0) twoJoins =
      [["alice", "bob"]] := by
  have hc : Creates TicTacToe.game (newRoom GameState "r" "tictactoe" 0) ["alice", "bob"]
      twoJoins := ⟨by decide, by decide, by decide⟩
  exact ((init_gets_match_iff registry "tictactoe" TicTacToe.game rfl (by decide) (by decide)
    ticTacToe_accepts).1 [.enqueue "tictactoe" "alice"] "bob" ["alice", "bob"] "r" 0 twoJoins
    (by decide) hc).mpr rfl

/-- A game for two or three whose state is the list of its players. -/
def party : Game (List PlayerID) where
  init := fun players _ => .ok (some players)
  validate := fun _ _ => .ok ()
  applyAction := fun st _ => .ok { newState := st }
  tick := fun st _ => ({ newState := some st }, false)
  snapshot := fun _ => .ok none
  isTerminal := fun _ => false
  onPlayerAbandoned := fun st _ => .ok { newState := st, terminal := true }
  minPlayers := 2
  maxPlayers := 3

def threeJoins : List Input :=
  [.command 0 (.join "alice"), .command 0 (.join "bob"), .command 0 (.join "carol")]

theorem third_player_left_out :
    Accepts party ∧
    (enqueue party.maxPlayers
        (queuesAfter (fun _ => some party) [.enqueue "party" "alice", .enqueue "party" "bob"]
          "party") "carol").2 = some ["alice", "bob", "carol"] ∧
    Creates party (newRoom _ "r" "party" 0) ["alice", "bob", "carol"] threeJoins ∧
    initCalls party (newRoom _ "r" "party" 0) threeJoins = [["alice", "bob"]] ∧
    (final (step party) (newRoom _ "r" "party" 0) threeJoins).lifecycle = .active ∧
    (final (step party) (newRoom _ "r" "party" 0) threeJoins).state = some ["alice", "bob"] ∧
    (final (step party) (newRoom _ "r" "party" 0) threeJoins).seatOrder =
      ["alice", "bob", "carol"] := by
  refine ⟨fun players _ _ _ => ⟨some players, rfl⟩, by decide, ⟨by decide, by decide, by decide⟩,
    by decide, by decide, by decide, by decide⟩

end RealtimeEngine.Matchmaking
