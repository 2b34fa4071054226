import RealtimeEngine.Room.Coherence
import RealtimeEngine.Room.Versions

/-! How a game ends. An action, a tick and an expired grace timer can each
finish a room; the terminal diff is broadcast once, by the turn that leaves
`Active`, and the winner it names is the one the state keeps from then on. -/
namespace RealtimeEngine.Rooms
open Foundations Domain
set_option autoImplicit false
set_option maxHeartbeats 250000

def isTerminalDiff : Input × Output → Bool
  | (_, .broadcast ev) => ev.kind = .stateDiff && ev.terminal
  | _ => false

theorem isDiff_of_terminal {e : Input × Output} (h : isTerminalDiff e = true) :
    isDiff e = true := by
  obtain ⟨i, o⟩ := e
  cases o with
  | broadcast ev => exact (Bool.and_eq_true_iff.mp h).1
  | reply res => cases h
  | afterFunc p k => cases h

theorem not_terminal_of_not_diff {e : Input × Output} (h : isDiff e = false) :
    isTerminalDiff e = false := by
  by_contra hne
  rw [isDiff_of_terminal (by simpa using hne)] at h
  cases h

/-- Two seats, two players: the other one. -/
theorem exists_rival (l : List PlayerID) (hn : l.Nodup) (hlen : l.length = 2) (p : PlayerID)
    (hp : p ∈ l) : ∃ q ∈ l, q ≠ p ∧ ∀ q' ∈ l, q' = p ∨ q' = q := by
  obtain ⟨a, b, rfl⟩ := List.length_eq_two.mp hlen
  have hab : a ≠ b := by simpa using hn
  rcases List.mem_pair.mp hp with rfl | rfl
  · refine ⟨b, by simp, hab.symm, ?_⟩
    intro q' hq'
    exact List.mem_pair.mp hq'
  · refine ⟨a, by simp, hab, ?_⟩
    intro q' hq'
    exact (List.mem_pair.mp hq').symm

section Termination
variable {σ : Type}

/-! ## The deciding turn -/

/-- The input `i` ended the game in state `st` with the diff `ev`. -/
structure Decision (v : View σ) (r : Room σ) (i : Input) (ev : RoomEvent) (st : σ) : Prop where
  terminal : isTerminalDiff (i, .broadcast ev) = true
  state : r.state = some st
  winner : v.winner st = ev.winner
  draw : ev.winner = none ↔ v.drawn st = true
  forfeit : ∀ now p k, i = .command now (.graceExpired p k) → p ∈ r.seatOrder ∧
    ∃ q ∈ r.seatOrder, q ≠ p ∧ ev.winner = some q ∧ ∀ q' ∈ r.seatOrder, q' = p ∨ q' = q

/-- The decision stands somewhere in the history, alone, and with no diff after it. -/
structure Over (v : View σ) (g : Game σ) (r : Room σ) (h : List (Input × Output)) : Prop where
  lifecycle : r.lifecycle = .finished ∨ r.lifecycle = .closed
  decided : ∃ pre i ev post st, h = pre ++ (i, .broadcast ev) :: post ∧ Decision v r i ev st ∧
    (∀ e ∈ pre, isTerminalDiff e = false) ∧ (∀ e ∈ post, isDiff e = false) ∧
    ∀ e ∈ post, ∀ y, snapshotOf e = some y → y.2 = snapshotBytes g r

/-- Nothing decided yet, and no finished game. -/
structure Open (r : Room σ) (h : List (Input × Output)) : Prop where
  lifecycle : r.lifecycle ≠ .finished
  undecided : ∀ e ∈ h, isTerminalDiff e = false

variable {v : View σ} {live : σ → Prop} {g : Game σ}

theorem no_diff_of_same_version {r r' : Room σ} {b : List (Input × Output)}
    (t : Turn.Effect g r r' b) (hv : r'.serverSeq = r.serverSeq) : ∀ e ∈ b, isDiff e = false := by
  have hlen : (diffSeqs b).length = 0 := by
    have := t.count
    omega
  intro e he
  have hnone := List.filterMap_eq_nil_iff.mp (List.length_eq_zero_iff.mp hlen) e he
  rw [← diffSeq_isSome, hnone]
  rfl

/-- The decision a game result brings about. -/
theorem decision_of_reports {r' : Room σ} {st st' : σ} {res : Result σ} {i : Input}
    {ev : RoomEvent} (hr : Reports v live g st res st') (hterm : res.terminal = true)
    (hs : r'.state = res.newState) (hk : ev.kind = .stateDiff) (ht : ev.terminal = true)
    (hw : ev.winner = res.winner)
    (hf : ∀ now p k, i = .command now (.graceExpired p k) → p ∈ r'.seatOrder ∧
      ∃ q ∈ r'.seatOrder, q ≠ p ∧ ev.winner = some q ∧ ∀ q' ∈ r'.seatOrder, q' = p ∨ q' = q) :
    Decision v r' i ev st' := by
  have hwin : v.winner st' = ev.winner := by rw [hw, hr.winner]
  refine ⟨?_, hs.trans hr.newState, hwin, ?_, hf⟩
  · simp [isTerminalDiff, hk, ht]
  · rw [← hwin]
    exact hr.decided hterm

/-- A turn of an open room keeps it open, or is the deciding one. -/
theorem exit_open (hd : Duel v live g) {r r' : Room σ} {i : Input} {outs : List Output}
    (he : Exit g r i r' outs) (hc : Coherent v live g r) (hl : r.lifecycle ≠ .finished) :
    r'.lifecycle ≠ .finished ∧ (∀ e ∈ outs.map (fun o => (i, o)), isTerminalDiff e = false) ∨
    r'.lifecycle = .finished ∧ ∃ ev rest st, outs = .broadcast ev :: rest ∧
      Decision v r' i ev st ∧ (∀ o ∈ rest, isDiff (i, o) = false) ∧
      ∀ o ∈ rest, snapshotOf (i, o) = none := by
  have hsame : r'.serverSeq = r.serverSeq →
      ∀ e ∈ outs.map (fun o => (i, o)), isTerminalDiff e = false := fun hv e hin =>
    not_terminal_of_not_diff (no_diff_of_same_version (exit_turn he).effect hv e hin)
  cases he with
  | stopped | rejected | rejoined | seated | initFailed | ignored | left | dropped | reconnected
  | graceIgnored | snapshot | tickIgnored => exact Or.inl ⟨hl, hsame rfl⟩
  | started | emptied | forceClosed => exact Or.inl ⟨Lifecycle.noConfusion, hsame rfl⟩
  | applied now a slot result ha =>
    obtain ⟨st, hst, hlive⟩ := hc.active ha.active
    have happ := ha.applied
    rw [hst.state] at happ
    obtain ⟨st', hrep⟩ := hd.apply st a result hlive happ
    cases hterm : result.terminal with
    | false =>
      refine Or.inl ⟨hl, forall_entry _ _ _ ?_⟩
      exact List.forall_mem_cons.mpr ⟨rfl, List.forall_mem_singleton.mpr rfl⟩
    | true =>
      refine Or.inr ⟨rfl, _, _, st', rfl, ?_, List.forall_mem_singleton.mpr rfl,
        List.forall_mem_singleton.mpr rfl⟩
      exact decision_of_reports hrep hterm rfl rfl rfl rfl fun now p k hi => by cases hi
  | ticked now st result hlt hs htick =>
    obtain ⟨st₀, hst, hlive⟩ := hc.active hlt
    have hst₀ : st₀ = st := Option.some.inj (hst.state.symm.trans hs)
    subst hst₀
    obtain ⟨hterm, -⟩ := hd.tick st₀ now result hlive htick
    refine Or.inl ⟨?_, forall_entry _ _ _ ?_⟩
    · rw [settle_lifecycle, hterm]
      exact hl
    · rw [hterm]
      exact List.forall_mem_singleton.mpr rfl
  | forfeited now p k slot result hf =>
    obtain ⟨st, res, st', hst, hrun, hrep, hterm, hwin⟩ := abandon_succeeds hd hc hf.active hf.seated
    rw [hf.abandoned, Except.ok.injEq] at hrun
    subst hrun
    refine Or.inr ⟨rfl, _, [], st', rfl, ?_, List.forall_mem_nil _, List.forall_mem_nil _⟩
    refine decision_of_reports hrep hterm rfl rfl rfl rfl ?_
    intro now' p' k' hi
    cases hi
    have hp : p ∈ r.seatOrder := hc.table.mem_of_lookup hf.seated
    obtain ⟨q, hq, hne, honly⟩ := exists_rival r.seatOrder hc.table.nodup hst.full p hp
    exact ⟨hp, q, hq, hne, hwin q hq hne, honly⟩

/-- A turn of a room whose game is over changes neither the state nor the seats. -/
theorem exit_over {r r' : Room σ} {i : Input} {outs : List Output} (he : Exit g r i r' outs)
    (hl : r.lifecycle = .finished ∨ r.lifecycle = .closed) :
    (r'.lifecycle = .finished ∨ r'.lifecycle = .closed) ∧ r'.state = r.state ∧
      r'.seatOrder = r.seatOrder ∧ r'.serverSeq = r.serverSeq := by
  have hno : ∀ l, l ≠ .finished → l ≠ .closed → r.lifecycle ≠ l := by
    rintro l hf hc rfl
    rcases hl with h | h
    · exact hf h
    · exact hc h
  cases he with
  | stopped | rejected | rejoined | ignored | dropped | reconnected | graceIgnored | snapshot
  | tickIgnored => exact ⟨hl, rfl, rfl, rfl⟩
  | forceClosed => exact ⟨Or.inr rfl, rfl, rfl, rfl⟩
  | seated _ _ hw =>
    rcases hw with hw | hw <;> exact absurd hw (hno _ Lifecycle.noConfusion Lifecycle.noConfusion)
  | initFailed _ _ _ hw | started _ _ _ hw | left _ _ _ hw | emptied _ _ _ hw | ticked _ _ _ hw =>
    exact absurd hw (hno _ Lifecycle.noConfusion Lifecycle.noConfusion)
  | applied _ _ _ _ ha | forfeited _ _ _ _ _ ha =>
    exact absurd ha.active (hno _ Lifecycle.noConfusion Lifecycle.noConfusion)

/-! ## Whole runs -/

theorem Decision.congr {r r' : Room σ} {i : Input} {ev : RoomEvent} {st : σ}
    (h : Decision v r i ev st) (hs : r'.state = r.state) (ho : r'.seatOrder = r.seatOrder) :
    Decision v r' i ev st := by
  refine ⟨h.terminal, hs.trans h.state, h.winner, h.draw, ?_⟩
  rw [ho]
  exact h.forfeit

theorem step_over (r : Room σ) (h : List (Input × Output)) (i : Input) (ho : Over v g r h) :
    Over v g (step g r i).1 (h ++ (step g r i).2.map fun o => (i, o)) := by
  have he := step_exit g r i
  obtain ⟨hl', hs, hso, hv⟩ := exit_over he ho.lifecycle
  have heff := (exit_turn he).effect
  obtain ⟨pre, j, ev, post, st, hsplit, hdec, hpre, hpost, hsnap⟩ := ho.decided
  have hbytes := snapshotBytes_congr g hs
  refine ⟨hl', pre, j, ev, post ++ (step g r i).2.map (fun o => (i, o)), st, ?_,
    hdec.congr hs hso, hpre, ?_, ?_⟩
  · rw [hsplit, List.append_assoc, List.cons_append]
  · intro e he'
    rcases List.mem_append.mp he' with he' | he'
    · exact hpost e he'
    · exact no_diff_of_same_version heff hv e he'
  · intro e he' y hy
    rcases List.mem_append.mp he' with he' | he'
    · rw [hbytes]
      exact hsnap e he' y hy
    · rw [heff.snapshots e he' y hy]

theorem step_open (hd : Duel v live g) (r : Room σ) (h : List (Input × Output)) (i : Input)
    (hc : Coherent v live g r) (ho : Open r h) :
    Open (step g r i).1 (h ++ (step g r i).2.map fun o => (i, o)) ∨
    (step g r i).1.lifecycle = .finished ∧
      Over v g (step g r i).1 (h ++ (step g r i).2.map fun o => (i, o)) := by
  rcases exit_open hd (step_exit g r i) hc ho.lifecycle with
    ⟨hl, hn⟩ | ⟨hl, ev, rest, st, houts, hdec, hrest, hsnap⟩
  · refine Or.inl ⟨hl, ?_⟩
    intro e he
    rcases List.mem_append.mp he with he | he
    · exact ho.undecided e he
    · exact hn e he
  · refine Or.inr ⟨hl, Or.inl hl, h, i, ev, rest.map (fun o => (i, o)), st, ?_, hdec,
      ho.undecided, forall_entry i rest _ hrest, ?_⟩
    · rw [houts, List.map_cons]
    · intro e he y hy
      rw [forall_entry i rest (fun e => snapshotOf e = none) hsnap e he] at hy
      cases hy

theorem run_open_or_over (hd : Duel v live g) (id : ID) (gameType : String) (now : Time)
    (is : List Input) :
    Open (final (step g) (newRoom σ id gameType now) is)
      (trace (step g) (newRoom σ id gameType now) is) ∨
    Over v g (final (step g) (newRoom σ id gameType now) is)
      (trace (step g) (newRoom σ id gameType now) is) := by
  have h := trace_invariant (step g)
    (fun r h => Coherent v live g r ∧ (Open r h ∨ Over v g r h)) ?_ _
    ⟨newRoom_coherent hd id gameType now, Or.inl ⟨Lifecycle.noConfusion, ?_⟩⟩ is
  · exact h.2
  · rintro r h i ⟨hc, ho | ho⟩
    · exact ⟨exit_coherent hd (step_exit g r i) hc, (step_open hd r h i hc ho).imp_right And.right⟩
    · exact ⟨exit_coherent hd (step_exit g r i) hc, Or.inr (step_over r h i ho)⟩
  · intro e he
    cases he

theorem Over.mem {r : Room σ} {h : List (Input × Output)} (ho : Over v g r h) :
    ∃ e ∈ h, isTerminalDiff e = true := by
  obtain ⟨pre, i, ev, post, st, hsplit, hdec, -⟩ := ho.decided
  refine ⟨_, ?_, hdec.terminal⟩
  rw [hsplit]
  exact List.mem_append_right pre List.mem_cons_self

/-- A terminal diff was broadcast by a turn that left the room finished. -/
theorem finished_of_terminal (hd : Duel v live g) (id : ID) (gameType : String) (now : Time)
    (is : List Input)
    (h : ∃ e ∈ trace (step g) (newRoom σ id gameType now) is, isTerminalDiff e = true) :
    ∃ js ks, is = js ++ ks ∧
      (final (step g) (newRoom σ id gameType now) js).lifecycle = .finished := by
  induction is using List.reverseRecOn with
  | nil =>
    obtain ⟨e, he, -⟩ := h
    cases he
  | append_singleton is i ih =>
    rcases run_open_or_over hd id gameType now is with ho | ho
    · have hc := final_coherent hd id gameType now is
      obtain ⟨e, he, hterm⟩ := h
      rw [trace_concat] at he
      rcases step_open hd _ _ i hc ho with hopen | ⟨hfin, -⟩
      · rw [hopen.undecided e he] at hterm
        cases hterm
      · refine ⟨is ++ [i], [], (List.append_nil _).symm, ?_⟩
        rw [final_concat]
        exact hfin
    · obtain ⟨js, ks, hsplit, hfin⟩ := ih ho.mem
      exact ⟨js, ks ++ [i], by rw [hsplit, List.append_assoc], hfin⟩

theorem terminal_of_finished (hd : Duel v live g) (id : ID) (gameType : String) (now : Time)
    (js ks : List Input)
    (hf : (final (step g) (newRoom σ id gameType now) js).lifecycle = .finished) :
    ∃ e ∈ trace (step g) (newRoom σ id gameType now) (js ++ ks), isTerminalDiff e = true := by
  rcases run_open_or_over hd id gameType now js with ho | ho
  · exact absurd hf ho.lifecycle
  · obtain ⟨e, he, hterm⟩ := ho.mem
    refine ⟨e, ?_, hterm⟩
    rw [trace_append]
    exact List.mem_append_left _ he

theorem countP_terminal_eq_zero {h : List (Input × Output)}
    (hn : ∀ e ∈ h, isTerminalDiff e = false) : h.countP isTerminalDiff = 0 := by
  apply List.countP_eq_zero.mpr
  intro e he
  rw [hn e he]
  exact Bool.noConfusion

theorem Over.countP_terminal {r : Room σ} {h : List (Input × Output)} (ho : Over v g r h) :
    h.countP isTerminalDiff = 1 := by
  obtain ⟨pre, i, ev, post, st, heq, hdec, hpre, hpost, -⟩ := ho.decided
  have h0 := countP_terminal_eq_zero hpre
  have h1 := countP_terminal_eq_zero fun e he => not_terminal_of_not_diff (hpost e he)
  rw [heq, List.countP_append, List.countP_cons, h0, h1, hdec.terminal]
  rfl

/-- The one terminal entry of a history that is over. -/
theorem Over.unique {r : Room σ} {h : List (Input × Output)} (ho : Over v g r h)
    (pre : List (Input × Output)) (i : Input) (ev : RoomEvent) (post : List (Input × Output))
    (hsplit : h = pre ++ (i, .broadcast ev) :: post)
    (hterm : isTerminalDiff (i, .broadcast ev) = true) :
    (∃ st, Decision v r i ev st) ∧ (∀ e ∈ pre, isTerminalDiff e = false) ∧
      (∀ e ∈ post, isDiff e = false) ∧
      ∀ e ∈ post, ∀ y, snapshotOf e = some y → y.2 = snapshotBytes g r := by
  obtain ⟨pre', i', ev', post', st, hsplit', hdec, hpre, hpost, hsnap⟩ := ho.decided
  have hbefore : (i, Output.broadcast ev) ∉ pre' := by
    intro hmem
    rw [hpre _ hmem] at hterm
    cases hterm
  have hafter : (i, Output.broadcast ev) ∉ post' := by
    intro hmem
    rw [not_terminal_of_not_diff (hpost _ hmem)] at hterm
    cases hterm
  obtain ⟨rfl, hentry, rfl⟩ :=
    (List.append_cons_inj_of_notMem hbefore hafter).mp (hsplit'.symm.trans hsplit)
  cases hentry
  exact ⟨⟨st, hdec⟩, hpre, hpost, hsnap⟩

end Termination

/-! ## The registered games -/

theorem registry_snapshot (gameType : String) (g : Game GameState)
    (hg : registry gameType = some g) : g.snapshot = GameState.marshal := by
  unfold registry at hg
  split at hg
  · cases hg
    rfl
  · cases hg
    rfl
  · cases hg

theorem marshal_eq_snapshotBytes (gameType : String) (g : Game GameState)
    (hg : registry gameType = some g) (r : Room GameState) (st : GameState)
    (hs : r.state = some st) : st.marshal = .ok (snapshotBytes g r) := by
  unfold snapshotBytes
  rw [hs]
  dsimp only
  rw [registry_snapshot gameType g hg]
  cases st <;> rfl

/-- **A game ends exactly once.** At most one broadcast diff is terminal and no
diff follows it; it is broadcast exactly in the runs in which the room was
finished at some point; and the winner it names is the one kept by the state
the room holds ever after and by every later snapshot, absent exactly for a
draw, and the other player when a grace timer ended the game. -/
theorem terminates_exactly_once (gameType : String) (g : Game GameState)
    (hg : registry gameType = some g) (id : ID) (now : Time) (is : List Input) :
    let h := trace (step g) (newRoom GameState id gameType now) is
    let r := final (step g) (newRoom GameState id gameType now) is
    h.countP isTerminalDiff ≤ 1 ∧
    (∀ pre e post, h = pre ++ e :: post → isTerminalDiff e = true →
      ∀ e' ∈ post, isDiff e' = false) ∧
    ((∃ e ∈ h, isTerminalDiff e = true) ↔ ∃ js ks, is = js ++ ks ∧
      (final (step g) (newRoom GameState id gameType now) js).lifecycle = .finished) ∧
    (r.lifecycle = .finished → ∃ e ∈ h, isTerminalDiff e = true) ∧
    ∀ pre i ev post, h = pre ++ (i, .broadcast ev) :: post →
      isTerminalDiff (i, .broadcast ev) = true →
      ∃ st, r.state = some st ∧ st.winner = ev.winner ∧
        (ev.winner = none ↔ st.drawn = true) ∧
        (∀ now' p k, i = .command now' (.graceExpired p k) → p ∈ r.seatOrder ∧
          ∃ q ∈ r.seatOrder, q ≠ p ∧ ev.winner = some q ∧ ∀ q' ∈ r.seatOrder, q' = p ∨ q' = q) ∧
        ∀ e ∈ post, ∀ n x, snapshotOf e = some (n, x) → st.marshal = .ok x := by
  intro h r
  obtain ⟨live, hd⟩ := registry_duel gameType g hg
  have hover : ∀ e ∈ h, isTerminalDiff e = true → Over gameView g r h := by
    intro e he hterm
    rcases run_open_or_over hd id gameType now is with ho | ho
    · rw [ho.undecided e he] at hterm
      cases hterm
    · exact ho
  have hiff : (∃ e ∈ h, isTerminalDiff e = true) ↔ ∃ js ks, is = js ++ ks ∧
      (final (step g) (newRoom GameState id gameType now) js).lifecycle = .finished := by
    constructor
    · exact finished_of_terminal hd id gameType now is
    · rintro ⟨js, ks, rfl, hf⟩
      exact terminal_of_finished hd id gameType now js ks hf
  have hsplit : ∀ pre e post, h = pre ++ e :: post → isTerminalDiff e = true →
      ∃ i ev, e = (i, .broadcast ev) ∧ Over gameView g r h := by
    rintro pre ⟨i, o⟩ post heq hterm
    cases o with
    | broadcast ev =>
      refine ⟨i, ev, rfl, hover _ ?_ hterm⟩
      rw [heq]
      exact List.mem_append_right pre List.mem_cons_self
    | reply res => cases hterm
    | afterFunc p k => cases hterm
  refine ⟨?_, ?_, hiff, ?_, ?_⟩
  · rcases run_open_or_over hd id gameType now is with ho | ho
    · exact (countP_terminal_eq_zero ho.undecided).trans_le (Nat.zero_le 1)
    · exact Nat.le_of_eq ho.countP_terminal
  · intro pre e post heq hterm
    obtain ⟨i, ev, rfl, ho⟩ := hsplit pre e post heq hterm
    exact (ho.unique pre i ev post heq hterm).2.2.1
  · intro hf
    exact hiff.mpr ⟨is, [], (List.append_nil is).symm, hf⟩
  · intro pre i ev post heq hterm
    obtain ⟨-, -, -, ho⟩ := hsplit pre _ post heq hterm
    obtain ⟨⟨st, hdec⟩, -, -, hsnap⟩ := ho.unique pre i ev post heq hterm
    refine ⟨st, hdec.state, hdec.winner, hdec.draw, hdec.forfeit, ?_⟩
    intro e he n x hx
    have hbytes := hsnap e he (n, x) hx
    dsimp only at hbytes
    rw [hbytes]
    exact marshal_eq_snapshotBytes gameType g hg r st hdec.state

/-- A false start in ping-pong: the other player wins, and says so. -/
theorem terminates_exactly_once_pingPong :
    (trace (step PingPong.game) (newRoom GameState "r" "pingpong" 0)
      [.command 0 (.join "alice"), .command 0 (.join "bob"),
       .command 0 (.action { type := PingPong.actionBuzz, playerID := "alice", seq := 1,
                             timestamp := 0, payload := none })]).countP isTerminalDiff ≤ 1 ∧
    (final (step PingPong.game) (newRoom GameState "r" "pingpong" 0)
      [.command 0 (.join "alice"), .command 0 (.join "bob"),
       .command 0 (.action { type := PingPong.actionBuzz, playerID := "alice", seq := 1,
                             timestamp := 0, payload := none })]).lifecycle = .finished :=
  ⟨(terminates_exactly_once "pingpong" PingPong.game rfl "r" 0
    [.command 0 (.join "alice"), .command 0 (.join "bob"),
     .command 0 (.action { type := PingPong.actionBuzz, playerID := "alice", seq := 1,
                           timestamp := 0, payload := none })]).1, by decide⟩

end RealtimeEngine.Rooms
