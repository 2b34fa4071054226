import RealtimeEngine.Room.Seats

/-! With which players a room starts its game. `initCalls` lists the arguments
of every call of `Init` in the life of a room; in a room whose game accepts its
players there is one, made by the Join that reaches `MinPlayers`. -/
namespace RealtimeEngine.Rooms
open Foundations Domain
set_option autoImplicit false
set_option maxHeartbeats 250000

section Starting
variable {σ : Type}

/-- The players that a turn of the room passes to `Init`, if it calls it. -/
def initCall (g : Game σ) (r : Room σ) : Input → Option (List PlayerID)
  | .command _ (.join player) =>
    if r.lifecycle = .waiting ∧ r.players.lookup player = none ∧
        r.seatOrder.length < g.maxPlayers ∧ g.minPlayers ≤ r.seatOrder.length + 1 then
      some (r.seatOrder ++ [player])
    else none
  | _ => none

def initCalls (g : Game σ) : Room σ → List Input → List (List PlayerID)
  | _, [] => []
  | r, i :: is => (initCall g r i).toList ++ initCalls g (step g r i).1 is

theorem initCalls_concat (g : Game σ) (r : Room σ) (is : List Input) (i : Input) :
    initCalls g r (is ++ [i]) =
      initCalls g r is ++ (initCall g (final (step g) r is) i).toList := by
  induction is generalizing r with
  | nil => simp [initCalls]
  | cons j is ih => simp [initCalls, ih]

/-- `Init` accepts every list of players that the bounds allow. -/
def Accepts (g : Game σ) : Prop :=
  ∀ players : List PlayerID, players.Nodup → g.minPlayers ≤ players.length →
    players.length ≤ g.maxPlayers → ∃ st, g.init players none = .ok st

/-- What must hold for the Join of `p` to call `Init`. -/
structure Completes (g : Game σ) (r : Room σ) (p : PlayerID) : Prop where
  waiting : r.lifecycle = .waiting
  unseated : r.players.lookup p = none
  free : r.seatOrder.length < g.maxPlayers
  enough : g.minPlayers ≤ r.seatOrder.length + 1

theorem initCall_join (g : Game σ) (r : Room σ) (now : Time) (p : PlayerID)
    (h : Completes g r p) : initCall g r (.command now (.join p)) = some (r.seatOrder ++ [p]) :=
  if_pos ⟨h.waiting, h.unseated, h.free, h.enough⟩

theorem initCall_some (g : Game σ) (r : Room σ) (i : Input) (players : List PlayerID)
    (hc : initCall g r i = some players) :
    ∃ now p, i = .command now (.join p) ∧ players = r.seatOrder ++ [p] ∧ Completes g r p := by
  unfold initCall at hc
  split at hc
  next now p =>
    split at hc
    next hguard =>
      obtain ⟨hw, hs, hm, hn⟩ := hguard
      exact ⟨now, p, rfl, (Option.some.inj hc).symm, ⟨hw, hs, hm, hn⟩⟩
    next => cases hc
  next => cases hc

/-- The game is started with what `Init` returns. -/
theorem step_completes (g : Game σ) (r : Room σ) (now : Time) (p : PlayerID) (st : Option σ)
    (h : Completes g r p) (hok : g.init (r.seatOrder ++ [p]) none = .ok st) :
    (step g r (.command now (.join p))).1 = start (touch now r) p st := by
  have hm := Nat.not_le.mpr h.free
  simp [step, handle, handleJoin, h.waiting, h.unseated, hm, h.enough, hok, start]

/-- What `Init` was called with when the room is in a lifecycle. -/
structure Started (g : Game σ) (r : Room σ) (calls : List (List PlayerID)) : Prop where
  table : SeatTable g r
  waiting : r.lifecycle = .waiting → calls = [] ∧ r.seatOrder.length < g.minPlayers
  playing : r.lifecycle = .active ∨ r.lifecycle = .finished →
    calls = [r.seatOrder.take g.minPlayers] ∧ g.minPlayers ≤ r.seatOrder.length

theorem newRoom_started (g : Game σ) (hmin : 1 ≤ g.minPlayers) (id : ID) (gameType : String)
    (now : Time) : Started g (newRoom σ id gameType now) [] where
  table := newRoom_seatTable g id gameType now
  waiting := fun _ => ⟨rfl, hmin⟩
  playing := by
    rintro (h | h)
    · exact Lifecycle.noConfusion h
    · exact Lifecycle.noConfusion h

theorem Started.congr (g : Game σ) (r r' : Room σ) (calls : List (List PlayerID))
    (hs : Started g r calls) (ht : SeatTable g r') (ho : r'.seatOrder = r.seatOrder)
    (hl : r'.lifecycle = r.lifecycle ∨ r.lifecycle = .active ∧ r'.lifecycle = .finished ∨
      r'.lifecycle = .closed) : Started g r' calls where
  table := ht
  waiting := by
    intro hw
    rw [ho]
    rcases hl with hl | ⟨-, hl⟩ | hl
    · exact hs.waiting (hl ▸ hw)
    · exact absurd (hw.symm.trans hl) (by decide)
    · exact absurd (hw.symm.trans hl) (by decide)
  playing := by
    intro hp
    rw [ho]
    rcases hl with hl | ⟨ha, -⟩ | hl
    · exact hs.playing (hl ▸ hp)
    · exact hs.playing (Or.inl ha)
    · rw [hl] at hp
      exact absurd hp (by decide)

/-- A `Join` that takes a seat without completing the players `Init` needs. -/
theorem Started.seat (g : Game σ) (r : Room σ) (calls : List (List PlayerID)) (now : Time)
    (p : PlayerID) (hs : Started g r calls) (ht : SeatTable g (seatPlayer (touch now r) p))
    (hw : r.lifecycle = .waiting → r.seatOrder.length + 1 < g.minPlayers) :
    Started g (seatPlayer (touch now r) p) calls := by
  refine ⟨ht, ?_, ?_⟩
  · intro hwait
    have hlt := hw hwait
    refine ⟨(hs.waiting hwait).1, ?_⟩
    simpa using hlt
  · intro hp
    obtain ⟨hcalls, hle⟩ := hs.playing hp
    have htake : (r.seatOrder ++ [p]).take g.minPlayers = r.seatOrder.take g.minPlayers :=
      List.take_append_of_le_length hle
    refine ⟨?_, ?_⟩
    · rw [hcalls, seatPlayer_seatOrder, touch_seatOrder, htake]
    · simp
      omega

/-- The turns that do not call `Init`. -/
theorem Started.quiet (g : Game σ) (r : Room σ) (calls : List (List PlayerID)) (i : Input)
    (hs : Started g r calls) (hc : initCall g r i = none) : Started g (step g r i).1 calls := by
  have ht := exit_seatTable (step_exit g r i) hs.table
  have he := step_exit g r i
  generalize step g r i = x at he ht ⊢
  obtain ⟨r', outs⟩ := x
  dsimp only at he ht ⊢
  cases he with
  | stopped | tickIgnored | rejected | rejoined | ignored | graceIgnored | snapshot | dropped
  | reconnected => exact hs.congr g r _ calls ht rfl (Or.inl rfl)
  | seated now p hl hn hm hw => exact hs.seat g r calls now p ht hw
  | initFailed now p e hl hn hm hw | started now p state hl hn hm hw =>
    rw [initCall_join g r now p ⟨hl, hn, hm, hw⟩] at hc
    cases hc
  | left now p slot hl =>
    refine ⟨ht, ?_, ?_⟩
    · intro _
      obtain ⟨hcalls, hlt⟩ := hs.waiting hl
      have hle : (r.seatOrder.erase p).length ≤ r.seatOrder.length := List.length_erase_le
      refine ⟨hcalls, ?_⟩
      change (r.seatOrder.erase p).length < g.minPlayers
      omega
    · intro hp
      have hp' : r.lifecycle = .active ∨ r.lifecycle = .finished := hp
      rw [hl] at hp'
      exact absurd hp' (by decide)
  | emptied now p slot hl =>
    refine ⟨ht, ?_, ?_⟩
    · exact fun h => Lifecycle.noConfusion h
    · rintro (h | h)
      · exact Lifecycle.noConfusion h
      · exact Lifecycle.noConfusion h
  | forceClosed => exact hs.congr g r _ calls ht rfl (Or.inr (Or.inr rfl))
  | applied now a slot result ha =>
    refine hs.congr g r _ calls ht (settle_seatOrder _ _ _) ?_
    rw [settle_lifecycle]
    split
    · exact Or.inr (Or.inl ⟨ha.active, rfl⟩)
    · exact Or.inl rfl
  | ticked now st result hl =>
    refine hs.congr g r _ calls ht (settle_seatOrder _ _ _) ?_
    rw [settle_lifecycle]
    split
    · exact Or.inr (Or.inl ⟨hl, rfl⟩)
    · exact Or.inl rfl
  | forfeited now p generation slot result hf =>
    exact hs.congr g r _ calls ht rfl (Or.inr (Or.inl ⟨hf.active, rfl⟩))

/-- The Join that calls `Init` has just enough players, and what `Init` returns for them is
the room's state. -/
theorem Started.inits {g : Game σ} (hok : Accepts g) {r : Room σ} {calls : List (List PlayerID)}
    (hs : Started g r calls) {i : Input} {players : List PlayerID}
    (hc : initCall g r i = some players) :
    players.length = g.minPlayers ∧ calls = [] ∧ ∃ now p st, i = .command now (.join p) ∧
      players = r.seatOrder ++ [p] ∧ g.init players none = .ok st ∧
      (step g r i).1 = start (touch now r) p st := by
  obtain ⟨now, p, rfl, rfl, hp⟩ := initCall_some g r i players hc
  have hseat : p ∉ r.seatOrder := fun hmem => by
    have hin := (hs.table.keys p).mpr hmem
    rw [← AList.lookup_isSome, hp.unseated] at hin
    cases hin
  obtain ⟨hcalls, hlt⟩ := hs.waiting hp.waiting
  have hlen : (r.seatOrder ++ [p]).length = g.minPlayers := by
    have hle := hp.enough
    simp
    omega
  have hmax : (r.seatOrder ++ [p]).length ≤ g.maxPlayers := by
    have hle := hp.free
    simp
    omega
  have hnodup : (r.seatOrder ++ [p]).Nodup := by simpa using hs.table.nodup.concat hseat
  obtain ⟨st, hst⟩ := hok (r.seatOrder ++ [p]) hnodup (by omega) hmax
  exact ⟨hlen, hcalls, now, p, st, rfl, rfl, hst, step_completes g r now p st hp hst⟩

theorem Started.step (g : Game σ) (hok : Accepts g) (r : Room σ) (calls : List (List PlayerID))
    (i : Input) (hs : Started g r calls) :
    Started g (step g r i).1 (calls ++ (initCall g r i).toList) := by
  cases hc : initCall g r i with
  | none => simpa using hs.quiet g r calls i hc
  | some players =>
    obtain ⟨hlen, rfl, now, p, st, rfl, rfl, -, hstep⟩ := hs.inits hok hc
    have ht := exit_seatTable (step_exit g r (.command now (.join p))) hs.table
    rw [hstep] at ht ⊢
    refine ⟨ht, fun h => Lifecycle.noConfusion h, fun _ => ⟨?_, Nat.le_of_eq hlen.symm⟩⟩
    change [r.seatOrder ++ [p]] = [(r.seatOrder ++ [p]).take g.minPlayers]
    rw [← hlen, List.take_length]

/-- In every state a room can reach, the game was started with the first `MinPlayers` seats. -/
theorem final_started (g : Game σ) (hmin : 1 ≤ g.minPlayers) (hok : Accepts g) (id : ID)
    (gameType : String) (now : Time) (is : List Input) :
    Started g (final (Rooms.step g) (newRoom σ id gameType now) is)
      (initCalls g (newRoom σ id gameType now) is) := by
  induction is using List.reverseRecOn with
  | nil => exact newRoom_started g hmin id gameType now
  | append_singleton is i ih =>
    rw [final_concat, initCalls_concat]
    exact ih.step g hok _ _ i

end Starting
end RealtimeEngine.Rooms
