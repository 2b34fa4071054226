import RealtimeEngine.Domain.Play

/-! A snapshot is the whole state. The seat to move and the winner are sent as
names, and no winner as the empty name, so a client can read the state back as
long as the names tell the seats apart. -/
namespace RealtimeEngine.Domain.TicTacToe
open Foundations
set_option autoImplicit false
set_option maxHeartbeats 250000

/-! ## Reading a snapshot -/

def Seat.ofMark (mark : String) : Seat :=
  if mark = "X" then .x else if mark = "O" then .o else .empty

theorem Seat.ofMark_mark (s : Seat) : Seat.ofMark s.mark = s := by
  cases s <;> decide

def WireState.decode (w : WireState) : State where
  board := fun i => Seat.ofMark (w.board i)
  players := w.players
  turn := if w.turn = w.players 0 then 0 else 1
  moveCount := w.moveCount
  done := w.done
  draw := w.draw
  winner := if w.winner = "" then none else some w.winner

/-- The names tell the seats apart, and a winner has one. -/
structure Told (st : State) : Prop where
  distinct : st.players 0 ≠ st.players 1
  named : ∀ seat, st.players seat ≠ ""
  winner : st.winner ≠ some ""

theorem Told.turn {st : State} (h : Told st) :
    (if st.players st.turn = st.players 0 then 0 else 1) = st.turn := by
  obtain ht | ht := Fin.exists_fin_two.mp ⟨st.turn, rfl⟩
  · rw [ht, if_pos rfl]
  · rw [ht, if_neg h.distinct.symm]

theorem Told.winner_getD {st : State} (h : Told st) :
    (if st.winner.getD "" = "" then none else some (st.winner.getD "")) = st.winner := by
  have hw := h.winner
  cases hp : st.winner with
  | none => rfl
  | some p =>
    rw [hp, Ne, Option.some.injEq] at hw
    rw [Option.getD_some, if_neg hw]

theorem Told.decode_toWire {st : State} (h : Told st) : st.toWire.decode = st := by
  have hboard : (fun i => Seat.ofMark (st.toWire.board i)) = st.board :=
    funext fun i => Seat.ofMark_mark (st.board i)
  unfold WireState.decode
  rw [hboard]
  change State.mk _ _ (if st.players st.turn = st.players 0 then 0 else 1) _ _ _
    (if st.winner.getD "" = "" then none else some (st.winner.getD "")) = st
  rw [h.turn, h.winner_getD]
  rfl

/-! ## Reachable states -/

/-- A winner is always one of the players. -/
theorem Told.called {st st' : State} {c : Call} (h : Told st) (hc : Called st c st') : Told st' := by
  have hname : ∀ seat, some (st.players seat) ≠ some "" := fun seat heq =>
    h.named seat (Option.some.inj heq)
  cases hc with
  | rejected | settled => exact h
  | forfeited p seat hd => exact ⟨h.distinct, h.named, hname _⟩
  | moved action mv st' d hl hp =>
    cases hp with
    | won w hw => exact ⟨h.distinct, h.named, hname w⟩
    | drawn | passed => exact ⟨h.distinct, h.named, h.winner⟩

/-- A state of a game between two different players with names. -/
def Reached (st : State) : Prop :=
  ∃ a b config s₀ cs, a ≠ b ∧ a ≠ "" ∧ b ≠ "" ∧ init [a, b] config = .ok s₀ ∧
    final respond s₀ cs = some (.ticTacToe st)

theorem Reached.told {st : State} (h : Reached st) : Told st := by
  obtain ⟨a, b, config, s₀, cs, hab, ha, hb, h₀, hfinal⟩ := h
  have hstart : ∀ st, s₀ = some (.ticTacToe st) → Told st := by
    cases h₀
    rintro _ ⟨⟩
    refine ⟨hab, ?_, fun hw => by cases hw⟩
    intro seat
    obtain rfl | rfl := Fin.exists_fin_two.mp ⟨seat, rfl⟩
    · exact ha
    · exact hb
  obtain ⟨st', hst', ht⟩ := final_called Told a b config s₀ h₀ hstart
    (fun _ _ _ ht hc => ht.called hc) cs
  rw [hfinal] at hst'
  cases hst'
  exact ht

/-- **A snapshot determines the state.** In a game between two different players
with names every state is read back from its snapshot, so two states with one
snapshot answer every action, and every sequence of calls, alike. -/
theorem snapshot_determines_state (st st' : State) (h : Reached st) (h' : Reached st') :
    st.toWire.decode = st ∧
    (st.toWire = st'.toWire →
      (∀ action, applyAction (some (.ticTacToe st)) action =
        applyAction (some (.ticTacToe st')) action) ∧
      ∀ cs, trace respond (some (.ticTacToe st)) cs = trace respond (some (.ticTacToe st')) cs) := by
  refine ⟨h.told.decode_toWire, ?_⟩
  intro hwire
  have heq : st = st' := by
    rw [← h.told.decode_toWire, hwire, h'.told.decode_toWire]
  subst heq
  exact ⟨fun _ => rfl, fun _ => rfl⟩

/-- The state after the first move of a game. -/
theorem opening_snapshot_decodes : ∃ st, Reached st ∧ st.board 4 = .x ∧ st.toWire.decode = st := by
  have hopening : ∃ st, Reached st ∧ st.board 4 = .x :=
    ⟨_, ⟨"alice", "bob", none, _, [.applyAction (moveTo "alice" 1 1)], by decide, by decide,
      by decide, rfl, rfl⟩, rfl⟩
  obtain ⟨st, hst, hx⟩ := hopening
  exact ⟨st, hst, hx, (snapshot_determines_state st st hst hst).1⟩

end RealtimeEngine.Domain.TicTacToe
