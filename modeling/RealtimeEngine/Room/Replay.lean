import RealtimeEngine.Domain.Calls
import RealtimeEngine.Room.Broadcasts
import RealtimeEngine.Room.Seats

/-! A room adds nothing to its game. Whatever commands and ticks a room gets, the
state it holds is the one that the game by itself reaches from `Init` by a log
of its own calls; the state diffs it broadcasts are the results in that log, in
order; and every snapshot it hands out is the state of the version it claims. -/
namespace RealtimeEngine.Rooms
open Foundations Domain
set_option autoImplicit false
set_option maxHeartbeats 250000

/-! ## What a room announces of a log -/

/-- The call of the game that an input may lead to. -/
def Input.call : Input → Option GameCall
  | .command _ (.action a) => some (.action a)
  | .command _ (.graceExpired player _) => some (.abandoned player)
  | .tick now => some (.tick now)
  | _ => none

/-- The `Subject` of the diff of a call. -/
def subjectOf : GameCall → PlayerID
  | .action a => a.playerID
  | .tick _ => ""
  | .abandoned player => player

/-- A forfeit is announced as terminal whatever the game says. -/
def forfeits : GameCall → Bool
  | .abandoned _ => true
  | _ => false

section Announce
variable {σ : Type}

/-- The state diff that announces a result as version `n` of the room. -/
def diffOf (id : ID) (n : ℕ) (c : GameCall) (result : Result σ) : RoomEvent where
  roomID := id
  kind := .stateDiff
  serverSeq := n
  diff := result.diff
  events := result.events
  terminal := forfeits c || result.terminal
  winner := result.winner
  subject := subjectOf c

/-- The diffs of a whole log, each beside the call it came from. -/
def announce (id : ID) (log : List (GameCall × Result σ)) : List (Option GameCall × RoomEvent) :=
  log.mapIdx fun n e => (some e.1, diffOf id (n + 1) e.1 e.2)

def diffEntry : Input × Output → Option (Option GameCall × RoomEvent)
  | (i, .broadcast ev) => if ev.kind = .stateDiff then some (i.call, ev) else none
  | _ => none

/-- The state diffs of a trace, each beside the call its input asks for. -/
def diffEntries (h : List (Input × Output)) : List (Option GameCall × RoomEvent) :=
  h.filterMap diffEntry

theorem announce_concat (id : ID) (log : List (GameCall × Result σ)) (e : GameCall × Result σ) :
    announce id (log ++ [e]) =
      announce id log ++ [(some e.1, diffOf id (log.length + 1) e.1 e.2)] :=
  List.mapIdx_concat

theorem announce_getElem? (id : ID) (log : List (GameCall × Result σ)) (n : ℕ) :
    (announce id log)[n]? =
      log[n]?.map fun e => (some e.1, diffOf id (n + 1) e.1 e.2) :=
  List.getElem?_mapIdx

theorem diffEntry_eq_none {e : Input × Output} (h : isDiff e = false) : diffEntry e = none := by
  obtain ⟨i, o⟩ := e
  cases o with
  | broadcast ev => exact if_neg (of_decide_eq_false h)
  | reply res => rfl
  | afterFunc p k => rfl

theorem diffEntries_append (h h' : List (Input × Output)) :
    diffEntries (h ++ h') = diffEntries h ++ diffEntries h' :=
  List.filterMap_append

theorem diffEntries_eq_nil {h : List (Input × Output)} (hn : ∀ e ∈ h, isDiff e = false) :
    diffEntries h = [] :=
  List.filterMap_eq_nil_iff.mpr fun e he => diffEntry_eq_none (hn e he)

theorem snapshotBytes_eq (g : Game σ) (r : Room σ) : snapshotBytes g r = stateBytes g r.state := by
  unfold snapshotBytes stateBytes
  cases r.state <;> rfl

/-! ## What a turn does to the game -/

/-- A turn leaves the game alone, starts it, or makes one call of it and
announces the result first. -/
inductive GameTurn (g : Game σ) (r : Room σ) (i : Input) (r' : Room σ) (outs : List Output) : Prop
  | quiet (hs : r'.state = r.state) (hv : r'.serverSeq = r.serverSeq)
      (hl : r'.lifecycle = .active → r.lifecycle = .active)
      (hn : ∀ o ∈ outs, isStart (i, o) = false)
  | started (hw : r.lifecycle = .waiting) (hl : r'.lifecycle = .active)
      (hi : g.init r'.seatOrder none = .ok r'.state) (hv : r'.serverSeq = r.serverSeq)
  | called (c : GameCall) (result : Result σ) (rest : List Output) (hl : r.lifecycle = .active)
      (hc : i.call = some c) (hr : c.run g r.state = some result)
      (hs : r'.state = result.newState) (hv : r'.serverSeq = r.serverSeq + 1)
      (ho : outs = .broadcast (diffOf r.id (r.serverSeq + 1) c result) :: rest)

theorem Admitted.run {g : Game σ} {r : Room σ} {a : Action} {slot : PlayerSlot} {result : Result σ}
    (h : Admitted g r a slot result) : (GameCall.action a).run g r.state = some result := by
  simp [GameCall.run, h.valid, h.applied, Except.toOption]

theorem Forfeits.run {g : Game σ} {r : Room σ} {p : PlayerID} {k : ℕ} {slot : PlayerSlot}
    {result : Result σ} (h : Forfeits g r p k slot result) :
    (GameCall.abandoned p).run g r.state = some result := by
  simp [GameCall.run, h.abandoned, Except.toOption]

/-- A room becomes Active only by announcing it. -/
theorem exit_activates {g : Game σ} {r r' : Room σ} {i : Input} {outs : List Output}
    (he : Exit g r i r' outs) (hl : r'.lifecycle = .active) :
    r.lifecycle = .active ∨ ∃ o ∈ outs, isStart (i, o) = true := by
  cases he with
  | started now p state hw hs hm hn hi =>
    exact Or.inr ⟨_, List.mem_cons_of_mem _ List.mem_cons_self, rfl⟩
  | applied now a slot result h => exact Or.inl h.active
  | ticked now st result h => exact Or.inl h
  | forfeited | forceClosed | emptied => cases hl
  | _ => exact Or.inl hl

theorem exit_gameTurn {g : Game σ} {r r' : Room σ} {i : Input} {outs : List Output}
    (he : Exit g r i r' outs) : GameTurn g r i r' outs := by
  have ht := exit_turn he
  generalize hh : (outs.map fun o => (i, o)) = h at ht
  cases ht with
  | quiet h hv hs hl hp =>
    have hn : ∀ o ∈ outs, isStart (i, o) = false := by
      intro o ho
      refine (hp (i, o) ?_).notStart
      rw [← hh]
      exact List.mem_map_of_mem ho
    refine .quiet hs hv (fun hact => ?_) hn
    obtain hact | ⟨o, ho, hstart⟩ := exit_activates he hact
    · exact hact
    · rw [hn o ho] at hstart
      cases hstart
  | start e s h hv hw hl =>
    cases he with
    | started now p state hl' hs hm hw' hi => exact .started hw rfl hi rfl
    | applied now a slot result ha => exact absurd (hw.symm.trans ha.active) Lifecycle.noConfusion
    | ticked now st result hact => exact absurd (hw.symm.trans hact) Lifecycle.noConfusion
    | forfeited | forceClosed | emptied => cases hl
    | _ => exact absurd (hw.symm.trans hl) Lifecycle.noConfusion
  | diff d h hv hl =>
    cases he with
    | applied now a slot result ha =>
      refine .called (.action a) result _ hl rfl ha.run ?_ hv rfl
      rw [settle_state]
      rfl
    | forfeited now p k slot result hf =>
      exact .called (.abandoned p) result [] hl rfl hf.run rfl rfl rfl
    | ticked now st result hact hs ht =>
      refine .called (.tick now) result [] hl rfl ?_ ?_ hv rfl
      · simp [GameCall.run, hs, ht]
      · rw [settle_state]
        rfl
    | _ => exact absurd hv (Nat.ne_of_lt (Nat.lt_succ_self _))

/-! ## Whole runs -/

/-- Before the start there is nothing of a game to be seen. -/
structure Unstarted (r : Room σ) (h : List (Input × Output)) : Prop where
  state : r.state = none
  seq : r.serverSeq = 0
  idle : r.lifecycle ≠ .active
  diffs : diffEntries h = []
  starts : ∀ e ∈ h, isStart e = false
  blank : ∀ e ∈ h, ∀ y, snapshotOf e = some y → y = (0, none)

/-- The room and everything it has sent are explained by a log of its game. -/
structure Replayed (g : Game σ) (r : Room σ) (h : List (Input × Output)) (players : List PlayerID)
    (s₀ : Option σ) (log : List (GameCall × Result σ)) : Prop where
  played : GameLog g players s₀ log
  seats : players <+: r.seatOrder
  begun : r.lifecycle ≠ .waiting
  state : r.state = stateAfter Result.newState s₀ log
  seq : r.serverSeq = log.length
  diffs : diffEntries h = announce r.id log
  snapshots : ∀ y ∈ handedOut h, y.1 ≤ log.length ∧ y.2 = stateBytes g (versionState s₀ log y.1)
  shown : ∀ e ∈ h, ∀ y, snapshotOf e = some y →
    y = (0, none) ∨ y.1 ≤ log.length ∧ y.2 = stateBytes g (versionState s₀ log y.1)

theorem versionState_length (s₀ : Option σ) (log : List (GameCall × Result σ)) :
    versionState s₀ log log.length = stateAfter Result.newState s₀ log := by
  rw [versionState, List.take_length]

theorem versionState_concat (s₀ : Option σ) (log : List (GameCall × Result σ))
    (e : GameCall × Result σ) {n : ℕ} (hn : n ≤ log.length) :
    versionState s₀ (log ++ [e]) n = versionState s₀ log n := by
  rw [versionState, List.take_append_of_le_length hn, versionState]

section Steps
variable {g : Game σ} {r r' : Room σ} {i : Input} {outs : List Output}
  {h : List (Input × Output)}

theorem diffEntries_turn (he : Exit g r i r' outs) (hv : r'.serverSeq = r.serverSeq) :
    diffEntries (outs.map fun o => (i, o)) = [] := by
  refine diffEntries_eq_nil (forall_entry i outs (fun e => isDiff e = false) fun o ho => ?_)
  rw [isDiff_entry]
  obtain ⟨-, hall⟩ | ⟨hv', -⟩ := exit_diff he
  · exact hall o ho
  · omega

/-- A snapshot that a turn hands out is of the room as the turn leaves it. -/
theorem handedOut_turn (he : Exit g r i r' outs) (y : ℕ × RawMessage)
    (hy : ∃ e ∈ outs.map (fun o => (i, o)), snapshotOf e = some y) :
    y = (r'.serverSeq, stateBytes g r'.state) := by
  obtain ⟨e, hin, hsnap⟩ := hy
  rw [← snapshotBytes_eq]
  exact (exit_turn he).effect.snapshots e hin y hsnap

theorem Unstarted.quiet (hu : Unstarted r h) (he : Exit g r i r' outs)
    (hs : r'.state = r.state) (hv : r'.serverSeq = r.serverSeq)
    (hl : r'.lifecycle = .active → r.lifecycle = .active)
    (hn : ∀ o ∈ outs, isStart (i, o) = false) :
    Unstarted r' (h ++ outs.map fun o => (i, o)) where
  state := hs.trans hu.state
  seq := hv.trans hu.seq
  idle := fun hact => hu.idle (hl hact)
  diffs := by rw [diffEntries_append, hu.diffs, diffEntries_turn he hv, List.append_nil]
  starts := by
    intro e hin
    obtain hin | hin := List.mem_append.mp hin
    · exact hu.starts e hin
    · exact forall_entry i outs (fun e => isStart e = false) hn e hin
  blank := by
    intro e hin y hy
    obtain hin | hin := List.mem_append.mp hin
    · exact hu.blank e hin y hy
    · rw [handedOut_turn he y ⟨e, hin, hy⟩, hv, hs, hu.seq, hu.state]
      rfl

theorem Unstarted.started (hu : Unstarted r h) (he : Exit g r i r' outs)
    (hl : r'.lifecycle = .active) (hi : g.init r'.seatOrder none = .ok r'.state)
    (hv : r'.serverSeq = r.serverSeq) :
    Replayed g r' (h ++ outs.map fun o => (i, o)) r'.seatOrder r'.state [] where
  played := ⟨hi, trivial⟩
  seats := List.prefix_refl _
  begun := by
    rw [hl]
    exact Lifecycle.noConfusion
  state := rfl
  seq := hv.trans hu.seq
  diffs := by
    rw [diffEntries_append, hu.diffs, diffEntries_turn he hv]
    rfl
  snapshots := by
    intro y hy
    obtain hy | hy := mem_handedOut_append h _ y hy
    · rw [handedOut_unstarted h hu.starts] at hy
      cases hy
    · rw [handedOut_turn he y hy, hv, hu.seq]
      exact ⟨le_refl _, rfl⟩
  shown := by
    intro e hin y hy
    obtain hin | hin := List.mem_append.mp hin
    · exact Or.inl (hu.blank e hin y hy)
    · rw [handedOut_turn he y ⟨e, hin, hy⟩, hv, hu.seq]
      exact Or.inr ⟨le_refl _, rfl⟩

theorem Replayed.quiet {players : List PlayerID} {s₀ : Option σ}
    {log : List (GameCall × Result σ)} (hr : Replayed g r h players s₀ log)
    (he : Exit g r i r' outs) (hs : r'.state = r.state) (hv : r'.serverSeq = r.serverSeq) :
    Replayed g r' (h ++ outs.map fun o => (i, o)) players s₀ log := by
  obtain ⟨hseats, hbegun⟩ := exit_seatOrder_grows he hr.begun
  have hstate := hs.trans hr.state
  have hseq := hv.trans hr.seq
  have hnew : ∀ y, (∃ e ∈ outs.map (fun o => (i, o)), snapshotOf e = some y) →
      y.1 ≤ log.length ∧ y.2 = stateBytes g (versionState s₀ log y.1) := by
    intro y hy
    rw [handedOut_turn he y hy, hseq, hstate, versionState_length]
    exact ⟨le_refl _, rfl⟩
  refine ⟨hr.played, hr.seats.trans hseats, hbegun, hstate, hseq, ?_, ?_, ?_⟩
  · rw [diffEntries_append, hr.diffs, diffEntries_turn he hv, List.append_nil, exit_id he]
  · intro y hy
    obtain hy | hy := mem_handedOut_append h _ y hy
    · exact hr.snapshots y hy
    · exact hnew y hy
  · intro e hin y hy
    obtain hin | hin := List.mem_append.mp hin
    · exact hr.shown e hin y hy
    · exact Or.inr (hnew y ⟨e, hin, hy⟩)

theorem Replayed.called {players : List PlayerID} {s₀ : Option σ}
    {log : List (GameCall × Result σ)} (hr : Replayed g r h players s₀ log)
    (he : Exit g r i r' outs) (c : GameCall) (result : Result σ) (rest : List Output)
    (hc : i.call = some c) (hrun : c.run g r.state = some result)
    (hs : r'.state = result.newState) (hv : r'.serverSeq = r.serverSeq + 1)
    (ho : outs = .broadcast (diffOf r.id (r.serverSeq + 1) c result) :: rest) :
    Replayed g r' (h ++ outs.map fun o => (i, o)) players s₀ (log ++ [(c, result)]) := by
  obtain ⟨hseats, hbegun⟩ := exit_seatOrder_grows he hr.begun
  have hstate : r'.state = stateAfter Result.newState s₀ (log ++ [(c, result)]) := by
    rw [stateAfter_concat]
    exact hs
  have hseq : r'.serverSeq = (log ++ [(c, result)]).length := by
    rw [hv, hr.seq, List.length_append, List.length_singleton]
  have hold : ∀ y : ℕ × RawMessage,
      y.1 ≤ log.length ∧ y.2 = stateBytes g (versionState s₀ log y.1) →
      y.1 ≤ (log ++ [(c, result)]).length ∧
        y.2 = stateBytes g (versionState s₀ (log ++ [(c, result)]) y.1) := by
    rintro y ⟨hle, hbytes⟩
    rw [versionState_concat s₀ log _ hle, List.length_append]
    exact ⟨Nat.le_add_right_of_le hle, hbytes⟩
  have hnew : ∀ y, (∃ e ∈ outs.map (fun o => (i, o)), snapshotOf e = some y) →
      y.1 ≤ (log ++ [(c, result)]).length ∧
        y.2 = stateBytes g (versionState s₀ (log ++ [(c, result)]) y.1) := by
    intro y hy
    rw [handedOut_turn he y hy, hseq, hstate, versionState_length]
    exact ⟨le_refl _, rfl⟩
  refine ⟨⟨hr.played.init, ?_⟩, hr.seats.trans hseats, hbegun, hstate, hseq, ?_, ?_, ?_⟩
  · rw [replays_concat, ← hr.state]
    exact ⟨hr.played.replays, hrun⟩
  · -- the diff comes first, and it is the only one
    have hrest : ∀ o ∈ rest, isDiff (i, o) = false := by
      intro o hin
      rw [isDiff_entry]
      obtain ⟨hv', -⟩ | ⟨-, d, rest', hout, -, hall⟩ := exit_diff he
      · omega
      · rw [ho] at hout
        obtain ⟨-, rfl⟩ := List.cons.inj hout
        exact hall o hin
    have hnew : diffEntries (outs.map fun o => (i, o)) =
        [(some c, diffOf r.id (log.length + 1) c result)] := by
      rw [ho, List.map_cons, diffEntries, List.filterMap_cons]
      have hnil := diffEntries_eq_nil (forall_entry i rest (fun e => isDiff e = false) hrest)
      rw [diffEntries] at hnil
      rw [hnil, hr.seq, ← hc]
      rfl
    rw [diffEntries_append, hr.diffs, hnew, exit_id he, announce_concat]
  · intro y hy
    obtain hy | hy := mem_handedOut_append h _ y hy
    · exact hold y (hr.snapshots y hy)
    · exact hnew y hy
  · intro e hin y hy
    obtain hin | hin := List.mem_append.mp hin
    · exact (hr.shown e hin y hy).imp_right (hold y)
    · exact Or.inr (hnew y ⟨e, hin, hy⟩)

end Steps

theorem run_replayed (g : Game σ) (id : ID) (gameType : String) (t₀ : Time) (is : List Input) :
    Unstarted (final (step g) (newRoom σ id gameType t₀) is)
      (trace (step g) (newRoom σ id gameType t₀) is) ∨
    ∃ players s₀ log, Replayed g (final (step g) (newRoom σ id gameType t₀) is)
      (trace (step g) (newRoom σ id gameType t₀) is) players s₀ log := by
  refine trace_invariant (step g)
    (fun r h => Unstarted r h ∨ ∃ players s₀ log, Replayed g r h players s₀ log) ?_ _ ?_ is
  · intro r h i hinv
    have he := step_exit g r i
    obtain hu | ⟨players, s₀, log, hr⟩ := hinv
    · cases exit_gameTurn he with
      | quiet hs hv hl hn => exact Or.inl (hu.quiet he hs hv hl hn)
      | started hw hl hi hv => exact Or.inr ⟨_, _, _, hu.started he hl hi hv⟩
      | called c result rest hl => exact absurd hl hu.idle
    · right
      cases exit_gameTurn he with
      | quiet hs hv hl hn => exact ⟨players, s₀, log, hr.quiet he hs hv⟩
      | started hw => exact absurd hw hr.begun
      | called c result rest hl hc hrun hs hv ho =>
        exact ⟨players, s₀, _, hr.called he c result rest hc hrun hs hv ho⟩
  · refine Or.inl ⟨rfl, rfl, Lifecycle.noConfusion, rfl, ?_, ?_⟩
    · exact fun e he => by cases he
    · exact fun e he => by cases he

theorem final_id (g : Game σ) (r : Room σ) (is : List Input) :
    (final (step g) r is).id = r.id :=
  final_invariant (step g) (fun r' => r'.id = r.id)
    (fun r' i hr => (exit_id (step_exit g r' i)).trans hr) r rfl is

theorem exit_gameType {g : Game σ} {r r' : Room σ} {i : Input} {outs : List Output}
    (he : Exit g r i r' outs) : r'.gameType = r.gameType := by
  have hsettle : ∀ now t (r : Room σ), (settle now t r).gameType = r.gameType := by
    intro now t r
    cases t <;> rfl
  cases he with
  | applied now a slot result h => exact hsettle now _ _
  | ticked now st result hl => exact hsettle now _ _
  | _ => rfl

theorem final_gameType (g : Game σ) (r : Room σ) (is : List Input) :
    (final (step g) r is).gameType = r.gameType :=
  final_invariant (step g) (fun r' => r'.gameType = r.gameType)
    (fun r' i hr => (exit_gameType (step_exit g r' i)).trans hr) r rfl is

/-- **A room replays its game.** In every run of a room the game was not started
and nothing of it was shown; or there is a log of the game by itself, from what
`Init` returned for the players seated at the time, such that the room's state
and version are those the log leaves, its state diffs are the results in the log
in order, each caused by an input that asks for that call, and every snapshot
handed out since the start is of the state of the version it carries. What is answered
before the start is blank: no document, at version zero. -/
theorem room_replays_game (g : Game σ) (id : ID) (gameType : String) (t₀ : Time)
    (is : List Input) :
    let r := final (step g) (newRoom σ id gameType t₀) is
    let h := trace (step g) (newRoom σ id gameType t₀) is
    (r.state = none ∧ r.serverSeq = 0 ∧ diffEntries h = [] ∧ handedOut h = [] ∧
      ∀ e ∈ h, ∀ y, snapshotOf e = some y → y = (0, none)) ∨
    ∃ players s₀ log, GameLog g players s₀ log ∧ players <+: r.seatOrder ∧
      r.state = stateAfter Result.newState s₀ log ∧ r.serverSeq = log.length ∧
      diffEntries h = announce id log ∧
      (∀ y ∈ handedOut h, y.1 ≤ log.length ∧ y.2 = stateBytes g (versionState s₀ log y.1)) ∧
      ∀ e ∈ h, ∀ y, snapshotOf e = some y →
        y = (0, none) ∨ y.1 ≤ log.length ∧ y.2 = stateBytes g (versionState s₀ log y.1) := by
  intro r h
  obtain hu | ⟨players, s₀, log, hr⟩ := run_replayed g id gameType t₀ is
  · exact Or.inl ⟨hu.state, hu.seq, hu.diffs, handedOut_unstarted _ hu.starts, hu.blank⟩
  · refine Or.inr ⟨players, s₀, log, hr.played, hr.seats, hr.state, hr.seq, ?_, hr.snapshots,
      hr.shown⟩
    have hdiffs := hr.diffs
    rw [final_id] at hdiffs
    exact hdiffs

end Announce
end RealtimeEngine.Rooms
