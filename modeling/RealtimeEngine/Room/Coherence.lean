import RealtimeEngine.Domain.Duel
import RealtimeEngine.Room.Seats

/-! The room's lifecycle and the state of the game it hosts. The room never
looks into the state, so the two agree only because every handler moves them
together; the laws of a duel are what makes each of its silent error branches
unreachable. -/
namespace RealtimeEngine.Rooms
open Foundations Domain
set_option autoImplicit false
set_option maxHeartbeats 250000

section Coherence
variable {σ : Type}

/-! ## The lifecycle only moves forward -/

theorem exit_rank {g : Game σ} {r r' : Room σ} {i : Input} {outs : List Output}
    (he : Exit g r i r' outs) : r.lifecycle.rank ≤ r'.lifecycle.rank := by
  cases he with
  | stopped | rejected | rejoined | seated | initFailed | ignored | left | dropped | reconnected
  | graceIgnored | snapshot | tickIgnored => exact le_refl _
  | started _ _ _ hl | emptied _ _ _ hl =>
    rw [hl]
    exact Nat.zero_le _
  | applied now a slot result h =>
    rw [settle_lifecycle, h.active]
    split
    · decide
    · change Lifecycle.rank .active ≤ r.lifecycle.rank
      rw [h.active]
  | ticked now st result hl =>
    rw [settle_lifecycle, hl]
    split
    · decide
    · change Lifecycle.rank .active ≤ r.lifecycle.rank
      rw [hl]
  | forfeited now p k slot result h =>
    rw [h.active]
    exact Nat.le_succ 1
  | forceClosed =>
    change r.lifecycle.rank ≤ 3
    cases r.lifecycle <;> decide

theorem final_rank (g : Game σ) (r : Room σ) (is : List Input) :
    r.lifecycle.rank ≤ (final (step g) r is).lifecycle.rank :=
  final_invariant (step g) (fun r' => r.lifecycle.rank ≤ r'.lifecycle.rank)
    (fun r' i h => Nat.le_trans h (exit_rank (step_exit g r' i))) r (le_refl _) is

theorem step_closed (g : Game σ) (r : Room σ) (i : Input) (hc : r.lifecycle = .closed) :
    step g r i = (r, []) := if_pos hc

/-! ## Room and game agree -/

/-- The state a started room holds: its players are the room's seats. -/
structure Hosts (v : View σ) (g : Game σ) (r : Room σ) (st : σ) : Prop where
  state : r.state = some st
  players : v.players st = r.seatOrder
  full : r.seatOrder.length = 2

structure Coherent (v : View σ) (live : σ → Prop) (g : Game σ) (r : Room σ) : Prop where
  table : SeatTable g r
  waiting : r.lifecycle = .waiting →
    r.state = none ∧ r.serverSeq = 0 ∧ r.seatOrder.length < g.minPlayers
  active : r.lifecycle = .active → ∃ st, Hosts v g r st ∧ live st
  finished : r.lifecycle = .finished → ∃ st, Hosts v g r st ∧ g.isTerminal (some st) = true

variable {v : View σ} {live : σ → Prop} {g : Game σ}

theorem newRoom_coherent (hd : Duel v live g) (id : ID) (gameType : String) (now : Time) :
    Coherent v live g (newRoom σ id gameType now) := by
  refine ⟨newRoom_seatTable g id gameType now, ?_, ?_, ?_⟩
  · intro _
    refine ⟨rfl, rfl, ?_⟩
    rw [hd.minPlayers]
    exact Nat.zero_lt_two
  · intro h
    cases h
  · intro h
    cases h

/-- A turn that leaves the lifecycle, the state, the seats and the version alone. -/
theorem Coherent.congr {r r' : Room σ} (h : Coherent v live g r) (ht : SeatTable g r')
    (hl : r'.lifecycle = r.lifecycle) (hs : r'.state = r.state)
    (ho : r'.seatOrder = r.seatOrder) (hv : r'.serverSeq = r.serverSeq) :
    Coherent v live g r' := by
  have hosts : ∀ st, Hosts v g r st → Hosts v g r' st := by
    intro st hst
    exact ⟨hs.trans hst.state, hst.players.trans ho.symm, by rw [ho]; exact hst.full⟩
  refine ⟨ht, ?_, ?_, ?_⟩
  · rw [hl, hs, hv, ho]
    exact h.waiting
  · intro ha
    obtain ⟨st, hst, hlive⟩ := h.active (hl.symm.trans ha)
    exact ⟨st, hosts st hst, hlive⟩
  · intro hf
    obtain ⟨st, hst, hterm⟩ := h.finished (hl.symm.trans hf)
    exact ⟨st, hosts st hst, hterm⟩

/-- A room that is closed has nothing left to agree on. -/
theorem coherent_closed {r : Room σ} (ht : SeatTable g r) (hc : r.lifecycle = .closed) :
    Coherent v live g r := by
  refine ⟨ht, ?_, ?_, ?_⟩ <;>
  · intro h
    rw [hc] at h
    cases h

/-- The room after a result of the game, which reports the state it carries. -/
theorem Coherent.settled {r r' : Room σ} {st st' : σ} {res : Result σ} (ht : SeatTable g r')
    (hst : Hosts v g r st) (hr : Reports v live g st res st')
    (hs : r'.state = res.newState) (ho : r'.seatOrder = r.seatOrder)
    (hl : r'.lifecycle = if res.terminal then .finished else .active) :
    Coherent v live g r' := by
  have hosts : Hosts v g r' st' :=
    ⟨hs.trans hr.newState, hr.players.trans (hst.players.trans ho.symm), by rw [ho]; exact hst.full⟩
  cases hterm : res.terminal with
  | false =>
    rw [hterm] at hl
    refine ⟨ht, ?_, fun _ => ⟨st', hosts, hr.ongoing hterm⟩, ?_⟩ <;>
    · intro h
      rw [hl] at h
      cases h
  | true =>
    rw [hterm] at hl
    refine ⟨ht, ?_, ?_, fun _ => ⟨st', hosts, hr.terminal.symm.trans hterm⟩⟩ <;>
    · intro h
      rw [hl] at h
      cases h

/-! ## The calls that cannot fail -/

/-- The seats that `Init` is called on are exactly two. -/
theorem start_seats (hd : Duel v live g) {r : Room σ} (p : PlayerID)
    (hm : r.seatOrder.length < g.maxPlayers) (hw : g.minPlayers ≤ r.seatOrder.length + 1) :
    ∃ q, r.seatOrder = [q] ∧ r.seatOrder ++ [p] = [q, p] := by
  rw [hd.maxPlayers] at hm
  rw [hd.minPlayers] at hw
  obtain ⟨q, hq⟩ := List.length_eq_one_iff.mp (show r.seatOrder.length = 1 by omega)
  exact ⟨q, hq, by rw [hq]; rfl⟩

theorem init_succeeds (hd : Duel v live g) {r : Room σ} (p : PlayerID)
    (hm : r.seatOrder.length < g.maxPlayers) (hw : g.minPlayers ≤ r.seatOrder.length + 1)
    (config : RawMessage) :
    ∃ st, g.init (r.seatOrder ++ [p]) config = .ok (some st) ∧
      v.players st = r.seatOrder ++ [p] ∧ live st := by
  obtain ⟨q, -, hqp⟩ := start_seats hd p hm hw
  rw [hqp]
  exact hd.init q p config

theorem abandon_succeeds (hd : Duel v live g) {r : Room σ} (h : Coherent v live g r)
    (ha : r.lifecycle = .active) {p : PlayerID} {slot : PlayerSlot}
    (hs : r.players.lookup p = some slot) :
    ∃ st res st', Hosts v g r st ∧ g.onPlayerAbandoned r.state p = .ok res ∧
      Reports v live g st res st' ∧ res.terminal = true ∧
      ∀ q ∈ r.seatOrder, q ≠ p → res.winner = some q := by
  obtain ⟨st, hst, hlive⟩ := h.active ha
  have hp : p ∈ v.players st := by
    rw [hst.players]
    exact h.table.mem_of_lookup hs
  obtain ⟨res, st', hrun, hrep, hterm, hwin⟩ := hd.abandon st p hlive hp
  refine ⟨st, res, st', hst, ?_, hrep, hterm, ?_⟩
  · rw [hst.state]
    exact hrun
  · rw [← hst.players]
    exact hwin

/-! ## Every exit keeps the agreement -/

theorem exit_coherent (hd : Duel v live g) {r r' : Room σ} {i : Input} {outs : List Output}
    (he : Exit g r i r' outs) (h : Coherent v live g r) : Coherent v live g r' := by
  have ht := exit_seatTable he h.table
  cases he with
  | stopped | tickIgnored => exact h
  | rejected | rejoined | ignored | dropped | reconnected | graceIgnored | snapshot =>
    exact h.congr ht rfl rfl rfl rfl
  | seated now p hl hs hm hw =>
    rcases hl with hl | hl
    · refine ⟨ht, ?_, ?_, ?_⟩
      · intro _
        obtain ⟨hnil, hzero, -⟩ := h.waiting hl
        refine ⟨hnil, hzero, ?_⟩
        rw [seatPlayer_seatOrder, List.length_append, List.length_singleton]
        exact hw hl
      · intro ha
        cases hl.symm.trans ha
      · intro hf
        cases hl.symm.trans hf
    · obtain ⟨st, hst, -⟩ := h.active hl
      have hfull := hst.full
      rw [hd.maxPlayers] at hm
      omega
  | initFailed now p e hl hs hm hw hi =>
    obtain ⟨st, hok, -⟩ := init_succeeds hd p hm hw none
    rw [hi] at hok
    cases hok
  | started now p state hl hs hm hw hi =>
    obtain ⟨st, hok, hplayers, hlive⟩ := init_succeeds hd p hm hw none
    rw [hi, Except.ok.injEq] at hok
    subst hok
    obtain ⟨q, -, hqp⟩ := start_seats hd p hm hw
    refine ⟨ht, ?_, ?_, ?_⟩
    · intro hw'
      cases hw'
    · intro _
      refine ⟨st, ⟨rfl, hplayers, ?_⟩, hlive⟩
      change (r.seatOrder ++ [p]).length = 2
      rw [hqp]
      rfl
    · intro hf
      cases hf
  | left now p slot hl hs =>
    refine ⟨ht, ?_, ?_, ?_⟩
    · intro _
      obtain ⟨hnil, hzero, hlen⟩ := h.waiting hl
      exact ⟨hnil, hzero, Nat.lt_of_le_of_lt List.length_erase_le hlen⟩
    · intro ha
      cases hl.symm.trans ha
    · intro hf
      cases hl.symm.trans hf
  | emptied | forceClosed => exact coherent_closed ht rfl
  | applied now a slot result ha =>
    obtain ⟨st, hst, hlive⟩ := h.active ha.active
    have happ := ha.applied
    rw [hst.state] at happ
    obtain ⟨st', hrep⟩ := hd.apply st a result hlive happ
    refine Coherent.settled ht hst hrep ?_ (settle_seatOrder _ _ _) ?_
    · rw [settle_state]
      rfl
    · rw [settle_lifecycle]
      exact congrArg _ ha.active
  | ticked now st result hl hs htick =>
    obtain ⟨st₀, hst, hlive⟩ := h.active hl
    have hsame : st₀ = st := Option.some.inj (hst.state.symm.trans hs)
    subst hsame
    obtain ⟨-, st', hrep⟩ := hd.tick st₀ now result hlive htick
    refine Coherent.settled ht hst hrep ?_ (settle_seatOrder _ _ _) ?_
    · rw [settle_state]
      rfl
    · rw [settle_lifecycle]
      exact congrArg _ hl
  | forfeited now p k slot result hf =>
    obtain ⟨st, res, st', hst, hrun, hrep, hterm, -⟩ := abandon_succeeds hd h hf.active hf.seated
    rw [hf.abandoned, Except.ok.injEq] at hrun
    subst hrun
    refine Coherent.settled ht hst hrep rfl rfl ?_
    rw [hterm]
    rfl

theorem final_coherent (hd : Duel v live g) (id : ID) (gameType : String) (now : Time)
    (is : List Input) : Coherent v live g (final (step g) (newRoom σ id gameType now) is) :=
  final_invariant (step g) (Coherent v live g)
    (fun r i h => exit_coherent hd (step_exit g r i) h) _ (newRoom_coherent hd id gameType now) is

end Coherence

/-! ## The registered games -/

/-- The seat a game state assigns to a player. -/
def seatOf : GameState → PlayerID → Option (Fin 2)
  | .ticTacToe s, p => s.seatOf p
  | .pingPong s, p => s.seatOf p

/-- With two distinct players the first seat that holds one of them is its position. -/
theorem find_seat_idxOf (players : Fin 2 → PlayerID) (hn : (List.ofFn players).Nodup)
    (p : PlayerID) (hp : p ∈ List.ofFn players) :
    (([0, 1] : List (Fin 2)).find? fun i => players i = p).map Fin.val =
      some ((List.ofFn players).idxOf p) := by
  rw [ofFn_two] at hn hp ⊢
  have hne : players 0 ≠ players 1 := by simpa using hn
  rw [find_seat]
  rcases List.mem_pair.mp hp with rfl | rfl
  · rw [if_pos rfl, List.idxOf_cons_self]
    rfl
  · rw [if_neg hne, if_pos rfl, List.idxOf_cons_ne _ hne, List.idxOf_cons_self]
    rfl

theorem seatOf_idxOf (st : GameState) (hn : st.players.Nodup) (p : PlayerID) (hp : p ∈ st.players) :
    (seatOf st p).map Fin.val = some (st.players.idxOf p) := by
  cases st with
  | ticTacToe s => exact find_seat_idxOf s.players hn p hp
  | pingPong s => exact find_seat_idxOf s.players hn p hp

/-- **Room and game agree in every reachable state.** -/
theorem room_game_coherent (gameType : String) (g : Game GameState)
    (hg : registry gameType = some g) (id : ID) (now : Time) (is : List Input) :
    let r := final (step g) (newRoom GameState id gameType now) is
    (∀ js, r.lifecycle.rank ≤ (final (step g) r js).lifecycle.rank) ∧
    (r.lifecycle = .closed → ∀ i, step g r i = (r, [])) ∧
    (r.lifecycle = .waiting →
      r.state = none ∧ r.serverSeq = 0 ∧ r.seatOrder.length < g.minPlayers) ∧
    (r.lifecycle = .active → ∃ st, r.state = some st ∧ g.isTerminal (some st) = false) ∧
    (r.lifecycle = .finished → ∃ st, r.state = some st ∧ g.isTerminal (some st) = true) ∧
    (r.lifecycle = .active ∨ r.lifecycle = .finished → ∃ st, r.state = some st ∧
      st.players = r.seatOrder ∧ ∀ p slot, r.players.lookup p = some slot →
        (seatOf st p).map Fin.val = some slot.seat) ∧
    (∀ p, r.lifecycle = .waiting → r.players.lookup p = none →
      r.seatOrder.length < g.maxPlayers → g.minPlayers ≤ r.seatOrder.length + 1 →
      ∃ st, g.init (r.seatOrder ++ [p]) none = .ok (some st)) ∧
    (∀ p slot, r.lifecycle = .active → r.players.lookup p = some slot →
      ∃ res, g.onPlayerAbandoned r.state p = .ok res) := by
  intro r
  obtain ⟨live, hd⟩ := registry_duel gameType g hg
  have h : Coherent gameView live g r := final_coherent hd id gameType now is
  have hseat : ∀ st, Hosts gameView g r st → ∀ p slot, r.players.lookup p = some slot →
      (seatOf st p).map Fin.val = some slot.seat := by
    intro st hst p slot hs
    have hplayers : st.players = r.seatOrder := hst.players
    rw [h.table.seat p slot hs, ← hplayers]
    refine seatOf_idxOf st ?_ p ?_
    · rw [hplayers]
      exact h.table.nodup
    · rw [hplayers]
      exact h.table.mem_of_lookup hs
  refine ⟨final_rank g r, fun hc i => step_closed g r i hc, h.waiting, ?_, ?_, ?_, ?_, ?_⟩
  · intro ha
    obtain ⟨st, hst, hlive⟩ := h.active ha
    exact ⟨st, hst.state, hd.live_open st hlive⟩
  · intro hf
    obtain ⟨st, hst, hterm⟩ := h.finished hf
    exact ⟨st, hst.state, hterm⟩
  · rintro (ha | hf)
    · obtain ⟨st, hst, -⟩ := h.active ha
      exact ⟨st, hst.state, hst.players, hseat st hst⟩
    · obtain ⟨st, hst, -⟩ := h.finished hf
      exact ⟨st, hst.state, hst.players, hseat st hst⟩
  · intro p _ _ hm hw
    obtain ⟨st, hok, -⟩ := init_succeeds hd p hm hw none
    exact ⟨st, hok⟩
  · intro p slot ha hs
    obtain ⟨st, res, st', -, hrun, -⟩ := abandon_succeeds hd h ha hs
    exact ⟨res, hrun⟩

theorem room_game_coherent_ticTacToe :
    (final (step TicTacToe.game) (newRoom GameState "r" "tictactoe" 0)
      [.command 0 (.join "alice"), .command 0 (.join "bob")]).lifecycle = .active ∧
    ∃ st, (final (step TicTacToe.game) (newRoom GameState "r" "tictactoe" 0)
      [.command 0 (.join "alice"), .command 0 (.join "bob")]).state = some st ∧
      TicTacToe.game.isTerminal (some st) = false := by
  refine ⟨by decide, ?_⟩
  exact (room_game_coherent "tictactoe" TicTacToe.game rfl "r" 0
    [.command 0 (.join "alice"), .command 0 (.join "bob")]).2.2.2.1 (by decide)

end RealtimeEngine.Rooms
