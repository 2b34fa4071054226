import RealtimeEngine.Domain.Play

/-! A client that keeps its own copy of the board. It starts from a snapshot and
applies the diffs of later moves as they are broadcast; the encoder of the diff
and the encoder of the snapshot are two, and they agree. The diff of a forfeit
has no cell to report but carries one, the empty mark at the origin. -/
namespace RealtimeEngine.Domain.TicTacToe
open Foundations
set_option autoImplicit false
set_option maxHeartbeats 250000

/-! ## Diffs as a client reads them -/

/-- The cell of a diff, as coordinates and mark. -/
def cellOf (diff : Json) : Option (ℤ × ℤ × String) := do
  let cell ← diff.field "cell"
  let x ← cell.intAt "x"
  let y ← cell.intAt "y"
  let mark ← cell.strAt "mark"
  return (x, y, mark)

def patchBoard (board : Fin 9 → String) (diff : Json) : Fin 9 → String :=
  match cellOf diff with
  | none => board
  | some (x, y, mark) => fun i => if (i.val : ℤ) = 3 * y + x then mark else board i

/-- One move's diff applied to a snapshot. -/
def patch (w : WireState) (diff : Json) : WireState where
  board := patchBoard w.board diff
  players := w.players
  turn := (diff.strAt "turn").getD w.turn
  moveCount := w.moveCount + 1
  done := (diff.boolAt "terminal").getD false
  draw := (diff.boolAt "draw").getD false
  winner := (diff.strAt "winner").getD ""

/-- The bytes of a diff that is not JSON change nothing; a move has none such. -/
def patchRaw (w : WireState) (diff : RawMessage) : WireState :=
  match diff with
  | none => w
  | some doc => patch w doc

/-- A run of moves that all succeed, with their diffs. -/
def moves : Option GameState → List Action → Except Err (Option GameState × List RawMessage)
  | s, [] => .ok (s, [])
  | s, action :: rest =>
    match applyAction s action with
    | .error e => .error e
    | .ok result =>
      match moves result.newState rest with
      | .error e => .error e
      | .ok (s', diffs) => .ok (s', result.diff :: diffs)

/-! ## One move -/

theorem cellOf_encode (d : DiffPayload) :
    cellOf d.encode = some (d.cell.x, d.cell.y, d.cell.mark) := by
  simp [cellOf, DiffPayload.encode, Json.field, Json.intAt, Json.strAt, List.lookup_cons]

@[simp] theorem strAt_turn (d : DiffPayload) :
    d.encode.strAt "turn" = if d.turn = "" then none else some d.turn := by
  by_cases h : d.turn = "" <;>
    simp [DiffPayload.encode, Json.strAt, Json.field, List.lookup_append, List.lookup_cons, h]

@[simp] theorem strAt_winner (d : DiffPayload) :
    d.encode.strAt "winner" = if d.winner = "" then none else some d.winner := by
  by_cases h : d.winner = "" <;>
    simp [DiffPayload.encode, Json.strAt, Json.field, List.lookup_append, List.lookup_cons, h]

@[simp] theorem boolAt_terminal (d : DiffPayload) :
    d.encode.boolAt "terminal" = if d.terminal then some true else none := by
  cases h : d.terminal <;>
    simp [DiffPayload.encode, Json.boolAt, Json.field, List.lookup_append, List.lookup_cons, h]

@[simp] theorem boolAt_draw (d : DiffPayload) :
    d.encode.boolAt "draw" = if d.draw then some true else none := by
  cases h : d.draw <;>
    simp [DiffPayload.encode, Json.boolAt, Json.field, List.lookup_append, List.lookup_cons, h]

theorem idx_eq (mv : MovePayload) : (mv.idx.val : ℤ) = 3 * (mv.y.val : ℤ) + mv.x.val := by
  change ((mv.y.val * 3 + mv.x.val : ℕ) : ℤ) = _
  omega

theorem patchBoard_marked (st : State) (mv : MovePayload) (d : DiffPayload)
    (hd : d.cell = st.cellDiff mv) :
    patchBoard st.toWire.board d.encode = (st.marked mv).toWire.board := by
  funext i
  have hidx : (i.val : ℤ) = 3 * (mv.y.val : ℤ) + mv.x.val ↔ i = mv.idx := by
    rw [← idx_eq, Fin.ext_iff]
    omega
  simp only [patchBoard, cellOf_encode, hd, State.cellDiff, hidx]
  by_cases hi : i = mv.idx
  · subst hi
    simp [State.toWire, State.marked]
  · simp [State.toWire, State.marked, hi]

/-- The snapshot after a move is the snapshot before it, patched with the move's diff. -/
theorem patch_plays {st st' : State} {action : Action} {mv : MovePayload} {d : DiffPayload}
    (h : Lawful st) (hn : ∀ seat, st.players seat ≠ "") (hl : Legal st action mv)
    (hp : Plays st mv st' d) : patch st.toWire d.encode = st'.toWire := by
  obtain ⟨hdraw, hwinner⟩ := h.undecided hl.ongoing
  cases hp with
  | won w hw =>
    unfold patch
    rw [patchBoard_marked st mv _ rfl]
    simp [State.toWire, State.marked, hn w, hdraw]
  | drawn hw hf =>
    unfold patch
    rw [patchBoard_marked st mv _ rfl]
    simp [State.toWire, State.marked, hwinner]
  | passed hw hf =>
    unfold patch
    rw [patchBoard_marked st mv _ rfl]
    simp [State.toWire, State.marked, hn (1 - st.turn), hdraw, hwinner, hl.ongoing]

/-! ## Runs of moves -/

/-- A state of a game between two named players. -/
structure Named (st : State) : Prop where
  lawful : Lawful st
  named : ∀ seat, st.players seat ≠ ""

/-- A run of moves from a state of such a game ends in one, and its diffs are documents
that lead there. -/
theorem moves_patch (actions : List Action) (st : State) (h : Named st) (s : Option GameState)
    (diffs : List RawMessage) (hm : moves (some (.ticTacToe st)) actions = .ok (s, diffs)) :
    ∃ st', s = some (.ticTacToe st') ∧ Named st' ∧ (∀ diff ∈ diffs, diff.isSome = true) ∧
      diffs.foldl patchRaw st.toWire = st'.toWire := by
  induction actions generalizing st diffs with
  | nil =>
    cases hm
    exact ⟨st, rfl, h, fun diff hd => (by cases hd), rfl⟩
  | cons action rest ih =>
    unfold moves at hm
    split at hm
    · cases hm
    · next result hok =>
      split at hm
      · cases hm
      · next s' tail htail =>
        cases hm
        obtain ⟨mv, st₁, d, hl, hp, hnew, hdiff⟩ := applyAction_ok st action result hok
        have h₁ : Named st₁ := by
          refine ⟨h.lawful.called (.moved action mv st₁ d hl hp), ?_⟩
          rw [hp.players]
          exact h.named
        rw [hnew] at htail
        obtain ⟨st', hs, hst', hdocs, hfold⟩ := ih st₁ h₁ tail htail
        rw [hdiff]
        refine ⟨st', hs, hst', List.forall_mem_cons.mpr ⟨rfl, hdocs⟩, ?_⟩
        rw [List.foldl_cons]
        change tail.foldl patchRaw (patch st.toWire d.encode) = _
        rw [patch_plays h.lawful h.named hl hp]
        exact hfold

/-- **A client can follow a game by its diffs.** Between two players with names,
the diffs of moves are documents, and the snapshot after any moves, patched with the
diffs of any further moves in order, is the snapshot after them. -/
theorem diffs_rebuild_snapshot (a b : PlayerID) (ha : a ≠ "") (hb : b ≠ "")
    (config : RawMessage) (s₀ sk sn : Option GameState) (before after : List Action)
    (earlier diffs : List RawMessage) (h₀ : init [a, b] config = .ok s₀)
    (hk : moves s₀ before = .ok (sk, earlier)) (hn : moves sk after = .ok (sn, diffs)) :
    ∃ stk stn, sk = some (.ticTacToe stk) ∧ sn = some (.ticTacToe stn) ∧
      (∀ diff ∈ diffs, diff.isSome = true) ∧ diffs.foldl patchRaw stk.toWire = stn.toWire := by
  cases h₀
  have hstart : Named { board := fun _ => .empty, players := ![a, b], turn := 0, moveCount := 0,
                        done := false, draw := false, winner := none } := by
    refine ⟨init_lawful a b, ?_⟩
    intro seat
    obtain rfl | rfl := Fin.exists_fin_two.mp ⟨seat, rfl⟩
    · exact ha
    · exact hb
  obtain ⟨stk, rfl, hnamed, -⟩ := moves_patch before _ hstart sk earlier hk
  obtain ⟨stn, rfl, -, hdocs, hfold⟩ := moves_patch after stk hnamed sn diffs hn
  exact ⟨stk, stn, rfl, rfl, hdocs, hfold⟩

/-- A snapshot taken after the first move of a game, and the two moves after it. -/
theorem two_moves_rebuilt : ∃ s₀ sk sn earlier diffs, init ["alice", "bob"] none = .ok s₀ ∧
    moves s₀ [moveTo "alice" 0 0] = .ok (sk, earlier) ∧
    moves sk [moveTo "bob" 1 1, moveTo "alice" 2 0] = .ok (sn, diffs) ∧ diffs.length = 2 ∧
    ∃ stk stn, sk = some (.ticTacToe stk) ∧ sn = some (.ticTacToe stn) ∧
      (∀ diff ∈ diffs, diff.isSome = true) ∧ diffs.foldl patchRaw stk.toWire = stn.toWire :=
  ⟨_, _, _, _, _, rfl, rfl, rfl, rfl, diffs_rebuild_snapshot "alice" "bob" (by decide) (by decide)
    none _ _ _ [moveTo "alice" 0 0] [moveTo "bob" 1 1, moveTo "alice" 2 0] _ _ rfl rfl rfl⟩

/-! ## The cell of a diff -/

/-- The snapshot of the new state has the mark that the diff reports. -/
def CellAgrees (diff : Json) (st' : State) : Prop :=
  ∀ x y mark, cellOf diff = some (x, y, mark) →
    ∃ i : Fin 9, (i.val : ℤ) = 3 * y + x ∧ st'.toWire.board i = mark

/-- The diff reports a cell only if the call has changed it. -/
def CellChanged (diff : Json) (st st' : State) : Prop :=
  ∀ x y mark, cellOf diff = some (x, y, mark) →
    ∃ i : Fin 9, (i.val : ℤ) = 3 * y + x ∧ st'.toWire.board i ≠ st.toWire.board i

theorem Plays.cell {st st' : State} {mv : MovePayload} {d : DiffPayload} (hp : Plays st mv st' d) :
    d.cell = st.cellDiff mv := by
  cases hp <;> rfl

theorem Seat.mark_eq_empty (s : Seat) : s.mark = "" ↔ s = .empty := by
  cases s <;> decide

/-- A move reports the cell it has marked. -/
theorem Plays.reports {st st' : State} {action : Action} {mv : MovePayload} {d : DiffPayload}
    (hl : Legal st action mv) (hp : Plays st mv st' d) :
    CellAgrees d.encode st' ∧ CellChanged d.encode st st' := by
  have hcell : cellOf d.encode = some ((mv.x.val : ℤ), (mv.y.val : ℤ), (markOf st.turn).mark) := by
    rw [cellOf_encode, hp.cell]
    rfl
  have hmark : st'.toWire.board mv.idx = (markOf st.turn).mark := by
    change (st'.board mv.idx).mark = _
    rw [hp.board, Function.update_self]
  constructor
  · intro x y mark h
    rw [hcell] at h
    cases h
    exact ⟨mv.idx, idx_eq mv, hmark⟩
  · intro x y mark h
    rw [hcell] at h
    cases h
    refine ⟨mv.idx, idx_eq mv, ?_⟩
    have hfree : st.toWire.board mv.idx = "" := (Seat.mark_eq_empty _).mpr hl.free
    rw [hmark, hfree, Ne, Seat.mark_eq_empty]
    exact markOf_ne_empty st.turn

/-- The zero cell of a forfeit is at the origin, and nothing has changed there. -/
theorem abandon_reports (st : State) (w : String) :
    let d : DiffPayload := { terminal := true, winner := w, reason := "opponent_abandoned" }
    let st' := { st with done := true, winner := some w }
    (CellAgrees d.encode st' ↔ st.board 0 = .empty) ∧ ¬ CellChanged d.encode st st' := by
  intro d st'
  have hcell : cellOf d.encode = some (0, 0, "") := cellOf_encode d
  have horigin : ∀ i : Fin 9, (i.val : ℤ) = 3 * 0 + 0 → i = 0 := by
    intro i hi
    apply Fin.ext
    change i.val = 0
    omega
  refine ⟨⟨?_, ?_⟩, ?_⟩
  · intro h
    obtain ⟨i, hi, hmark⟩ := h 0 0 "" hcell
    rw [horigin i hi] at hmark
    exact (Seat.mark_eq_empty _).mp hmark
  · intro hempty x y mark h
    rw [hcell] at h
    cases h
    exact ⟨0, rfl, (Seat.mark_eq_empty _).mpr hempty⟩
  · intro h
    obtain ⟨i, -, hchanged⟩ := h 0 0 "" hcell
    exact hchanged rfl

/-- **A diff reports the right cell exactly if it is the diff of a move.** In any
game, the cell that a diff carries was changed by the call only if the call is a
move. The diff of a forfeit reports the empty mark at the origin, which is what
the new snapshot has only if nobody has played there. -/
theorem diff_cell_iff (a b : PlayerID) (config : RawMessage) (s₀ : Option GameState)
    (h₀ : init [a, b] config = .ok s₀) (cs : List Call) (c : Call) (result : Result GameState)
    (diff : Json) (hrun : c.run (final respond s₀ cs) = .ok result)
    (hdiff : result.diff = some diff) :
    ∃ st st', final respond s₀ cs = some (.ticTacToe st) ∧
      result.newState = some (.ticTacToe st') ∧
      (CellAgrees diff st' ↔ (∃ action, c = .applyAction action) ∨ st.board 0 = .empty) ∧
      (CellChanged diff st st' ↔ ∃ action, c = .applyAction action) := by
  obtain ⟨st, hst, -⟩ := final_lawful a b config s₀ h₀ cs
  rw [hst] at hrun
  cases c with
  | applyAction action =>
    obtain ⟨mv, st', d, hl, hp, hnew, hd⟩ := applyAction_ok st action result hrun
    rw [hd] at hdiff
    cases hdiff
    obtain ⟨hagrees, hchanged⟩ := hp.reports hl
    exact ⟨st, st', hst, hnew, iff_of_true hagrees (Or.inl ⟨action, rfl⟩),
      iff_of_true hchanged ⟨action, rfl⟩⟩
  | onPlayerAbandoned p =>
    have hmove : ¬ ∃ action, Call.onPlayerAbandoned p = .applyAction action := by
      rintro ⟨action, h⟩
      cases h
    obtain ⟨-, rfl⟩ | ⟨seat, -, rfl⟩ := onPlayerAbandoned_ok st p result hrun
    · cases hdiff
    · cases hdiff
      obtain ⟨hagrees, hchanged⟩ := abandon_reports st (st.players (1 - seat))
      refine ⟨st, _, hst, rfl, hagrees.trans ?_, iff_of_false hchanged hmove⟩
      exact (or_iff_right hmove).symm

/-- The first move of a game. -/
theorem opening_reports_cell : ∃ s₀ st result diff, init ["alice", "bob"] none = .ok s₀ ∧
    applyAction s₀ (moveTo "alice" 1 2) = .ok result ∧ result.diff = some diff ∧
    cellOf diff = some (1, 2, "X") ∧ result.newState = some (.ticTacToe st) ∧
    CellAgrees diff st := by
  refine ⟨_, _, _, _, rfl, rfl, rfl, rfl, rfl, ?_⟩
  obtain ⟨_, st', -, hnew, hagrees, -⟩ := diff_cell_iff "alice" "bob" none _ rfl []
    (.applyAction (moveTo "alice" 1 2)) _ _ rfl rfl
  cases hnew
  exact hagrees.mpr (Or.inl ⟨_, rfl⟩)

/-- alice has played at the origin when bob gives up: the diff says that the cell is empty. -/
theorem forfeit_reports_empty_origin : ∃ s₀ s result diff st', init ["alice", "bob"] none = .ok s₀ ∧
    final respond s₀ [.applyAction (moveTo "alice" 0 0)] = s ∧
    onPlayerAbandoned s "bob" = .ok result ∧ result.diff = some diff ∧
    result.newState = some (.ticTacToe st') ∧ cellOf diff = some (0, 0, "") ∧
    st'.toWire.board 0 = "X" ∧ ¬ CellAgrees diff st' := by
  refine ⟨_, _, _, _, _, rfl, rfl, rfl, rfl, rfl, rfl, rfl, ?_⟩
  intro h
  obtain ⟨i, hi, hmark⟩ := h 0 0 "" rfl
  have hzero : i = 0 := by
    apply Fin.ext
    change i.val = 0
    omega
  rw [hzero] at hmark
  revert hmark
  decide

end RealtimeEngine.Domain.TicTacToe
