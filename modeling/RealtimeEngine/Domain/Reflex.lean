import Mathlib.Algebra.Order.Group.Int
import RealtimeEngine.Domain.Duel
import RealtimeEngine.Foundations.Runs

/-! Whole reflex duels: any sequence of `Tick` and `ApplyAction`, with timestamps
in any order. Until somebody buzzes the state is a function of the ticks so far,
so the duel is won by the history of ticks that the first buzz finds. -/
namespace RealtimeEngine.Domain.PingPong
open Foundations
set_option autoImplicit false
set_option maxHeartbeats 250000

/-! ## Calls -/

inductive Call
  | tick (now : Time)
  | applyAction (action : Action)

/-- A caller takes the new state of a tick that reports a change, and of an action that succeeds. -/
def respond (s : Option GameState) : Call → Option GameState × List (Result GameState)
  | .tick now =>
    match s with
    | none => (none, [])
    | some st =>
      match tick st now with
      | (_, false) => (some st, [])
      | (result, true) => (result.newState, [result])
  | .applyAction action =>
    match applyAction s action with
    | .error _ => (s, [])
    | .ok result => (result.newState, [result])

def Call.now : Call → Option Time
  | tick now => some now
  | applyAction _ => none

/-- The timestamps of the ticks, in order. -/
def ticksOf (cs : List Call) : List Time := cs.filterMap Call.now

/-- A buzz of one of the two players. -/
def validBuzz (a b : PlayerID) : Call → Bool
  | .tick _ => false
  | .applyAction action =>
    decide (action.type = actionBuzz ∧ (action.playerID = a ∨ action.playerID = b))

/-! ## Before the first buzz -/

/-- `ArmAt` after these ticks. -/
def deadline (D : ℤ) : List Time → Time
  | [] => 0
  | t₀ :: _ => t₀ + D

/-- One of the ticks came at the deadline or later. -/
def signalled (D : ℤ) : List Time → Bool
  | [] => false
  | t₀ :: ts => (t₀ :: ts).any fun t => decide (t₀ + D ≤ t)

theorem signalled_iff (D : ℤ) (ts : List Time) :
    signalled D ts = true ↔ ∃ t₀ rest, ts = t₀ :: rest ∧ ∃ t ∈ ts, t₀ + D ≤ t := by
  cases ts with
  | nil => exact iff_of_false (fun h => by cases h) fun ⟨_, _, h, _⟩ => by cases h
  | cons t₀ rest =>
    unfold signalled
    rw [List.any_eq_true]
    constructor
    · rintro ⟨t, ht, hle⟩
      exact ⟨t₀, rest, rfl, t, ht, of_decide_eq_true hle⟩
    · rintro ⟨t₁, rest', h, t, ht, hle⟩
      cases h
      exact ⟨t, ht, decide_eq_true hle⟩

theorem signalled_concat (D : ℤ) (t₀ : Time) (ts : List Time) (now : Time) :
    signalled D (t₀ :: (ts ++ [now])) = (signalled D (t₀ :: ts) || decide (t₀ + D ≤ now)) := by
  change (t₀ :: ts ++ [now]).any (fun t => decide (t₀ + D ≤ t)) =
    ((t₀ :: ts).any (fun t => decide (t₀ + D ≤ t)) || _)
  rw [List.any_append]
  simp only [List.any_cons, List.any_nil, Bool.or_false]

/-- The duel that has seen these ticks and no buzz. -/
def waiting (a b : PlayerID) (D : ℤ) (ts : List Time) : State where
  players := ![a, b]
  armDelay := D
  armAt := deadline D ts
  phase := if signalled D ts then .armed else .countdown
  done := false
  winner := none
  reason := ""

theorem init_waiting (a b : PlayerID) (config : RawMessage) :
    init [a, b] config = .ok (some (.pingPong (waiting a b (armDelayOf config) []))) := rfl

def tickResult (next : State) : Result GameState where
  newState := some (.pingPong next)
  diff := some next.toWire.encode
  events := if next.phase = .armed then [{ type := "armed" }] else []

/-- The first tick sets the deadline, and the first one that is not before it arms the duel. -/
def changes (D : ℤ) (ts : List Time) (now : Time) : Bool :=
  ts.isEmpty || (!signalled D ts && signalled D (ts ++ [now]))

theorem advance_waiting (a b : PlayerID) {D : ℤ} (hD : 0 < D) (ts : List Time)
    (hz : ts ≠ [] → deadline D ts ≠ 0) (now : Time) :
    advance (waiting a b D ts) now = (waiting a b D (ts ++ [now]), changes D ts now) := by
  cases ts with
  | nil =>
    have hlate : ¬ now + D ≤ now := not_le.mpr (lt_add_of_pos_right now hD)
    simp [advance, waiting, deadline, signalled, changes, hlate]
  | cons t₀ ts =>
    have hset : t₀ + D ≠ 0 := hz (List.cons_ne_nil _ _)
    have hconcat := signalled_concat D t₀ ts now
    unfold advance changes
    cases hs : signalled D (t₀ :: ts) with
    | true =>
      rw [hs, Bool.true_or] at hconcat
      simp [waiting, deadline, hset, hs, hconcat]
    | false =>
      rw [hs, Bool.false_or] at hconcat
      by_cases hdue : t₀ + D ≤ now
      · rw [decide_eq_true hdue] at hconcat
        simp [waiting, deadline, hset, hs, hconcat, hdue]
      · rw [decide_eq_false hdue] at hconcat
        simp [waiting, deadline, hset, hs, hconcat, hdue]

/-- A tick that reports no change has made none. -/
theorem advance_quiet (st : State) (now : Time) (h : (advance st now).2 = false) :
    (advance st now).1 = st := by
  unfold advance at h ⊢
  by_cases hz : st.armAt = 0
  · simp only [hz, decide_true, if_true] at h
    split at h <;> cases h
  · simp only [hz, decide_false, Bool.false_eq_true, if_false] at h ⊢
    split at h
    · cases h
    · next hdue => rw [if_neg hdue]

theorem respond_tick (a b : PlayerID) {D : ℤ} (hD : 0 < D) (ts : List Time)
    (hz : ts ≠ [] → deadline D ts ≠ 0) (now : Time) :
    respond (some (.pingPong (waiting a b D ts))) (.tick now) =
      (some (.pingPong (waiting a b D (ts ++ [now]))),
        if changes D ts now then [tickResult (waiting a b D (ts ++ [now]))] else []) := by
  have hadv := advance_waiting a b hD ts hz now
  have hquiet : changes D ts now = false → waiting a b D (ts ++ [now]) = waiting a b D ts := by
    have h := advance_quiet (waiting a b D ts) now
    rw [hadv] at h
    exact h
  have hopen : (waiting a b D ts).done = false := rfl
  unfold respond tick asState
  dsimp only
  rw [hopen, if_neg Bool.false_ne_true, hadv]
  cases hc : changes D ts now with
  | true => rfl
  | false =>
    dsimp only
    rw [hquiet hc, if_neg Bool.false_ne_true]

/-! ## Actions -/

def opponent (a b p : PlayerID) : PlayerID := if p = a then b else a

/-- The duel that player `p` has ended by buzzing after these ticks. -/
def decided (a b : PlayerID) (D : ℤ) (ts : List Time) (p : PlayerID) : State :=
  { waiting a b D ts with
    phase := .done, done := true,
    winner := some (if signalled D ts then p else opponent a b p),
    reason := if signalled D ts then "first_buzz" else "false_start" }

theorem seatOf_waiting (a b : PlayerID) (D : ℤ) (ts : List Time) (p : PlayerID) :
    (waiting a b D ts).seatOf p =
      if a = p then some 0 else if b = p then some 1 else none :=
  find_seat _ p

theorem applyAction_buzz (a b : PlayerID) (D : ℤ) (ts : List Time) (action : Action)
    (hv : validBuzz a b (.applyAction action) = true) :
    applyAction (some (.pingPong (waiting a b D ts))) action =
      .ok (winResult (decided a b D ts action.playerID) [{ type := "player_won" }]) := by
  obtain ⟨htype, hplayer⟩ := of_decide_eq_true hv
  have hopen : (waiting a b D ts).done = false := rfl
  unfold applyAction asState legalBuzz
  dsimp only
  rw [hopen, if_neg Bool.false_ne_true, if_neg (not_not.mpr htype), seatOf_waiting]
  by_cases ha : a = action.playerID
  · rw [if_pos ha]
    cases hs : signalled D ts <;> simp [buzz, win, decided, waiting, opponent, hs, ha]
  · have hb : b = action.playerID := hplayer.elim (fun h => absurd h.symm ha) Eq.symm
    rw [if_neg ha, if_pos hb]
    cases hs : signalled D ts <;> simp [buzz, win, decided, waiting, opponent, hs, hb, Ne.symm ha]

theorem applyAction_refused (a b : PlayerID) (D : ℤ) (ts : List Time) (action : Action)
    (hv : validBuzz a b (.applyAction action) = false) :
    ∃ e, applyAction (some (.pingPong (waiting a b D ts))) action = .error e := by
  have hn := of_decide_eq_false hv
  have hopen : (waiting a b D ts).done = false := rfl
  unfold applyAction asState legalBuzz
  dsimp only
  rw [hopen, if_neg Bool.false_ne_true, seatOf_waiting]
  by_cases htype : action.type = actionBuzz
  · have ha : a ≠ action.playerID := fun h => hn ⟨htype, Or.inl h.symm⟩
    have hb : b ≠ action.playerID := fun h => hn ⟨htype, Or.inr h.symm⟩
    rw [if_neg (not_not.mpr htype), if_neg ha, if_neg hb]
    exact ⟨_, rfl⟩
  · rw [if_pos htype]
    exact ⟨_, rfl⟩

theorem respond_done (st : State) (hd : st.done = true) (c : Call) :
    respond (some (.pingPong st)) c = (some (.pingPong st), []) := by
  cases c with
  | tick now =>
    unfold respond tick asState
    dsimp only
    rw [if_pos hd]
  | applyAction action =>
    unfold respond applyAction asState legalBuzz
    dsimp only
    rw [if_pos hd]

/-! ## Runs -/

theorem deadline_append (D : ℤ) (ts us : List Time) (h : ts ≠ []) :
    deadline D (ts ++ us) = deadline D ts := by
  cases ts with
  | nil => exact absurd rfl h
  | cons t₀ ts => rfl

theorem ticksOf_append (cs ds : List Call) : ticksOf (cs ++ ds) = ticksOf cs ++ ticksOf ds :=
  List.filterMap_append

/-- The deadline that the first tick sets is not the zero time, which stands for none. -/
def Timely (D : ℤ) (cs : List Call) : Prop := ticksOf cs ≠ [] → deadline D (ticksOf cs) ≠ 0

theorem Timely.before {D : ℤ} {cs ds : List Call} (h : Timely D (cs ++ ds)) : Timely D cs := by
  unfold Timely at h ⊢
  rw [ticksOf_append] at h
  intro hne
  rw [← deadline_append D _ (ticksOf ds) hne]
  refine h fun hnil => ?_
  exact hne (List.append_eq_nil_iff.mp hnil).1

/-- Without a valid buzz the state is that of the ticks. -/
theorem final_waiting (a b : PlayerID) {D : ℤ} (hD : 0 < D) (cs : List Call) (ht : Timely D cs)
    (hopen : ∀ c ∈ cs, validBuzz a b c = false) :
    final respond (some (.pingPong (waiting a b D []))) cs =
      some (.pingPong (waiting a b D (ticksOf cs))) := by
  induction cs using List.reverseRecOn with
  | nil => rfl
  | append_singleton cs c ih =>
    have hcs := ih ht.before fun d hd => hopen d (List.mem_append_left _ hd)
    rw [final_concat, hcs, ticksOf_append]
    cases c with
    | tick now =>
      rw [respond_tick a b hD _ ht.before]
      rfl
    | applyAction action =>
      obtain ⟨e, he⟩ := applyAction_refused a b D (ticksOf cs) action
        (hopen _ List.mem_concat_self)
      unfold respond
      dsimp only
      rw [he]
      change _ = some (GameState.pingPong (waiting a b D (ticksOf cs ++ [])))
      rw [List.append_nil]

/-! ## Counting -/

/-- The ticks that reported a change, among the outputs of a run. -/
def changedTicks (os : List (Call × Result GameState)) : ℕ := os.countP fun o => o.1.now.isSome

/-- The outputs of a run that carry the armed event. -/
def armedEvents (os : List (Call × Result GameState)) : ℕ :=
  os.countP fun o => o.2.events.any fun e => e.type == "armed"

theorem changedTicks_append (os os' : List (Call × Result GameState)) :
    changedTicks (os ++ os') = changedTicks os + changedTicks os' := List.countP_append

theorem armedEvents_append (os os' : List (Call × Result GameState)) :
    armedEvents (os ++ os') = armedEvents os + armedEvents os' := List.countP_append

theorem signalled_first {D : ℤ} (hD : 0 < D) (now : Time) : signalled D [now] = false := by
  have hlate : ¬ now + D ≤ now := not_le.mpr (lt_add_of_pos_right now hD)
  simp [signalled, hlate]

/-- What the next tick adds to the two counts. -/
theorem changes_counts {D : ℤ} (hD : 0 < D) (ts : List Time) (now : Time) :
    (!ts.isEmpty).toNat + (signalled D ts).toNat + (changes D ts now).toNat =
        1 + (signalled D (ts ++ [now])).toNat ∧
      (signalled D ts).toNat + (changes D ts now && signalled D (ts ++ [now])).toNat =
        (signalled D (ts ++ [now])).toNat := by
  unfold changes
  cases ts with
  | nil =>
    rw [List.nil_append, signalled_first hD]
    exact ⟨rfl, rfl⟩
  | cons t₀ ts =>
    rw [List.cons_append, signalled_concat]
    cases signalled D (t₀ :: ts) <;> cases decide (t₀ + D ≤ now) <;> exact ⟨rfl, rfl⟩

theorem tickResult_armed (a b : PlayerID) (D : ℤ) (ts : List Time) :
    ((tickResult (waiting a b D ts)).events.any fun e => e.type == "armed") = signalled D ts := by
  unfold tickResult
  cases hs : signalled D ts <;> simp [waiting, hs]

theorem tick_counts (a b : PlayerID) (D : ℤ) (ts : List Time) (now : Time) :
    let os := (if changes D ts now then [tickResult (waiting a b D (ts ++ [now]))] else []).map
      fun o => (Call.tick now, o)
    changedTicks os = (changes D ts now).toNat ∧
      armedEvents os = (changes D ts now && signalled D (ts ++ [now])).toNat := by
  intro os
  unfold os changedTicks armedEvents
  cases changes D ts now with
  | false => exact ⟨rfl, rfl⟩
  | true =>
    refine ⟨rfl, ?_⟩
    rw [if_pos rfl, List.map_singleton, List.countP_singleton, tickResult_armed, Bool.true_and]
    cases signalled D (ts ++ [now]) <;> rfl

/-- Until the first buzz there is one change for the first tick and one for the signal. -/
theorem counts_waiting (a b : PlayerID) {D : ℤ} (hD : 0 < D) (cs : List Call) (ht : Timely D cs)
    (hopen : ∀ c ∈ cs, validBuzz a b c = false) :
    let os := trace respond (some (.pingPong (waiting a b D []))) cs
    changedTicks os = (!(ticksOf cs).isEmpty).toNat + (signalled D (ticksOf cs)).toNat ∧
      armedEvents os = (signalled D (ticksOf cs)).toNat := by
  intro os
  induction cs using List.reverseRecOn with
  | nil => exact ⟨rfl, rfl⟩
  | append_singleton cs c ih =>
    have hcs : ∀ d ∈ cs, validBuzz a b d = false := fun d hd => hopen d (List.mem_append_left _ hd)
    obtain ⟨hchanged, harmed⟩ := ih ht.before hcs
    have hos : os = trace respond (some (.pingPong (waiting a b D []))) cs ++
        (respond (some (.pingPong (waiting a b D (ticksOf cs)))) c).2.map fun o => (c, o) := by
      rw [← final_waiting a b hD cs ht.before hcs]
      exact trace_concat respond _ cs c
    rw [hos, changedTicks_append, armedEvents_append, hchanged, harmed, ticksOf_append]
    cases c with
    | tick now =>
      obtain ⟨hone, hevent⟩ := tick_counts a b D (ticksOf cs) now
      have hsome : (ticksOf cs ++ [now]).isEmpty = false := by
        cases ticksOf cs <;> rfl
      rw [respond_tick a b hD _ ht.before]
      change _ + changedTicks _ = (!(ticksOf cs ++ [now]).isEmpty).toNat + _ ∧ _ + armedEvents _ = _
      rw [hone, hevent, hsome]
      exact changes_counts hD _ now
    | applyAction action =>
      obtain ⟨e, he⟩ := applyAction_refused a b D (ticksOf cs) action
        (hopen _ List.mem_concat_self)
      have hnone : ticksOf [.applyAction action] = [] := rfl
      unfold respond
      dsimp only
      rw [he, hnone, List.append_nil]
      exact ⟨rfl, rfl⟩

/-! ## From the first buzz on -/

theorem run_done (st : State) (hd : st.done = true) (cs : List Call) :
    final respond (some (.pingPong st)) cs = some (.pingPong st) ∧
      trace respond (some (.pingPong st)) cs = [] := by
  induction cs with
  | nil => exact ⟨rfl, rfl⟩
  | cons c cs ih =>
    rw [final_cons, trace, respond_done st hd]
    exact ih

/-- A run has no valid buzz, or a first one. -/
theorem first_buzz (a b : PlayerID) (cs : List Call) :
    (∀ c ∈ cs, validBuzz a b c = false) ∨
      ∃ pre action post, cs = pre ++ .applyAction action :: post ∧
        validBuzz a b (.applyAction action) = true ∧ ∀ c ∈ pre, validBuzz a b c = false := by
  cases hfind : cs.find? (validBuzz a b) with
  | none =>
    left
    intro c hc
    exact Bool.eq_false_of_not_eq_true (List.find?_eq_none.mp hfind c hc)
  | some c =>
    obtain ⟨hv, pre, post, hsplit, hpre⟩ := List.find?_eq_some_iff_append.mp hfind
    have hpre' : ∀ d ∈ pre, validBuzz a b d = false := by
      intro d hd
      have h := hpre d hd
      rwa [Bool.not_eq_true'] at h
    cases c with
    | tick now => cases hv
    | applyAction action => exact Or.inr ⟨pre, action, post, hsplit, hv, hpre'⟩

/-- The first buzz decides the duel for good. -/
theorem run_decided (a b : PlayerID) {D : ℤ} (hD : 0 < D) (pre : List Call) (action : Action)
    (post : List Call) (ht : Timely D (pre ++ .applyAction action :: post))
    (hv : validBuzz a b (.applyAction action) = true) (hpre : ∀ c ∈ pre, validBuzz a b c = false) :
    let s₀ := some (GameState.pingPong (waiting a b D []))
    let st := decided a b D (ticksOf pre) action.playerID
    final respond s₀ (pre ++ .applyAction action :: post) = some (.pingPong st) ∧
      trace respond s₀ (pre ++ .applyAction action :: post) =
        trace respond s₀ pre ++ [(.applyAction action, winResult st [{ type := "player_won" }])] := by
  intro s₀ st
  have hfinal := final_waiting a b hD pre ht.before hpre
  have hbuzz : respond (some (.pingPong (waiting a b D (ticksOf pre)))) (.applyAction action) =
      (some (.pingPong st), [winResult st [{ type := "player_won" }]]) := by
    unfold respond
    dsimp only
    rw [applyAction_buzz a b D (ticksOf pre) action hv]
    rfl
  obtain ⟨hlast, hquiet⟩ := run_done st rfl post
  constructor
  · rw [final_append, hfinal, final_cons, hbuzz]
    exact hlast
  · rw [trace_append, hfinal, trace, hbuzz, hquiet]
    rfl

/-- Ticks after the zero time and a positive delay have a deadline after the zero time. -/
theorem timely_of_pos {D : ℤ} (hD : 0 < D) (cs : List Call) (hts : ∀ t, .tick t ∈ cs → 0 < t) :
    Timely D cs := by
  intro hne hzero
  cases hticks : ticksOf cs with
  | nil => exact hne hticks
  | cons t₀ rest =>
    have hmem : t₀ ∈ ticksOf cs := by
      rw [hticks]
      exact List.mem_cons_self
    obtain ⟨c, hc, hnow⟩ := List.mem_filterMap.mp hmem
    have ht₀ : 0 < t₀ := by
      cases c with
      | tick now =>
        cases hnow
        exact hts t₀ hc
      | applyAction action => cases hnow
    rw [hticks] at hzero
    exact absurd hzero (ne_of_gt (add_pos ht₀ hD))

theorem changes_bounded (a b : PlayerID) {D : ℤ} (hD : 0 < D) (cs : List Call)
    (ht : Timely D cs) :
    changedTicks (trace respond (some (.pingPong (waiting a b D []))) cs) ≤ 2 ∧
      armedEvents (trace respond (some (.pingPong (waiting a b D []))) cs) ≤ 1 := by
  have hopen : ∀ ds, Timely D ds → (∀ c ∈ ds, validBuzz a b c = false) →
      changedTicks (trace respond (some (.pingPong (waiting a b D []))) ds) ≤ 2 ∧
        armedEvents (trace respond (some (.pingPong (waiting a b D []))) ds) ≤ 1 := by
    intro ds hds hnone
    obtain ⟨hchanged, harmed⟩ := counts_waiting a b hD ds hds hnone
    have hfirst := (!(ticksOf ds).isEmpty).toNat_le
    have hsignal := (signalled D (ticksOf ds)).toNat_le
    rw [hchanged, harmed]
    exact ⟨Nat.add_le_add hfirst hsignal, hsignal⟩
  obtain hnone | ⟨pre, action, post, rfl, hv, hpre⟩ := first_buzz a b cs
  · exact hopen cs ht hnone
  · -- the buzz itself is no tick and is not the signal
    rw [(run_decided a b hD pre action post ht hv hpre).2, changedTicks_append, armedEvents_append]
    exact hopen pre ht.before hpre

theorem opponent_ne {a b : PlayerID} (hab : a ≠ b) (p : PlayerID) : opponent a b p ≠ p := by
  unfold opponent
  split
  · next h =>
    rw [h]
    exact hab.symm
  · next h => exact Ne.symm h

theorem decided_winner {a b : PlayerID} (hab : a ≠ b) (D : ℤ) (ts : List Time) (p : PlayerID) :
    (decided a b D ts p).winner = some p ↔ signalled D ts = true := by
  change some (if signalled D ts then p else opponent a b p) = some p ↔ _
  rw [Option.some.injEq]
  cases signalled D ts with
  | true => exact iff_of_true rfl rfl
  | false => exact iff_of_false (opponent_ne hab p) Bool.false_ne_true

/-- At every point the duel is open, or over in all its fields. -/
theorem final_together (a b : PlayerID) {D : ℤ} (hD : 0 < D) (cs : List Call) (ht : Timely D cs) :
    ∃ st, final respond (some (.pingPong (waiting a b D []))) cs = some (.pingPong st) ∧
      (st.done = true ↔ st.phase = .done) ∧ (st.done = true ↔ st.winner ≠ none) := by
  obtain hnone | ⟨pre, action, post, rfl, hv, hpre⟩ := first_buzz a b cs
  · refine ⟨_, final_waiting a b hD cs ht hnone, iff_of_false Bool.false_ne_true ?_,
      iff_of_false Bool.false_ne_true (not_not.mpr rfl)⟩
    unfold waiting
    dsimp only
    split <;> exact Phase.noConfusion
  · refine ⟨_, (run_decided a b hD pre action post ht hv hpre).1, iff_of_true rfl rfl,
      iff_of_true rfl ?_⟩
    exact Option.some_ne_none _

/-- **The reflex duel.** For two different players, a positive arm delay and any
run of ticks after the zero time, in any order, and actions: at most two ticks
report a change and at most one emits the armed event. The first valid buzz ends
the duel; the buzzer wins exactly if an earlier tick came no earlier than the
first tick and the delay, and otherwise the opponent wins by a false start. The
flag, the phase and the winner say together that it is over, and then nothing
changes any more. -/
theorem duel_outcome (a b : PlayerID) (hab : a ≠ b) (config : RawMessage) (st₀ : State)
    (h₀ : init [a, b] config = .ok (some (.pingPong st₀))) (hD : 0 < st₀.armDelay)
    (cs : List Call) (hts : ∀ t, .tick t ∈ cs → 0 < t) :
    let s₀ := some (GameState.pingPong st₀)
    (changedTicks (trace respond s₀ cs) ≤ 2 ∧ armedEvents (trace respond s₀ cs) ≤ 1) ∧
    (∀ pre action post, cs = pre ++ .applyAction action :: post →
      validBuzz a b (.applyAction action) = true → (∀ c ∈ pre, validBuzz a b c = false) →
      let inTime := ∃ t₀ rest, ticksOf pre = t₀ :: rest ∧
        ∃ t ∈ ticksOf pre, t₀ + st₀.armDelay ≤ t
      ∃ result st, applyAction (final respond s₀ pre) action = .ok result ∧
        result.terminal = true ∧ result.winner = st.winner ∧
        result.newState = some (.pingPong st) ∧ st.done = true ∧
        (st.winner = some action.playerID ↔ inTime) ∧
        (¬ inTime → st.winner = some (opponent a b action.playerID) ∧ st.reason = "false_start")) ∧
    ∀ pre post, cs = pre ++ post → ∃ st, final respond s₀ pre = some (.pingPong st) ∧
      (st.done = true ↔ st.phase = .done) ∧ (st.done = true ↔ st.winner ≠ none) ∧
      (st.done = true → final respond s₀ cs = final respond s₀ pre) := by
  intro s₀
  cases h₀
  have ht := timely_of_pos hD cs hts
  refine ⟨changes_bounded a b hD cs ht, ?_, ?_⟩
  · rintro pre action post rfl hv hpre inTime
    have hinTime : signalled (armDelayOf config) (ticksOf pre) = true ↔ inTime := signalled_iff _ _
    have happly := applyAction_buzz a b (armDelayOf config) (ticksOf pre) action hv
    rw [← final_waiting a b hD pre ht.before hpre] at happly
    refine ⟨_, _, happly, rfl, rfl, rfl, rfl, (decided_winner hab _ _ _).trans hinTime, ?_⟩
    intro hlate
    rw [← hinTime, Bool.not_eq_true] at hlate
    unfold decided
    simp only [hlate, Bool.false_eq_true, if_false, and_self]
  · rintro pre post rfl
    obtain ⟨st, hst, hphase, hwinner⟩ := final_together a b hD pre ht.before
    refine ⟨st, hst, hphase, hwinner, ?_⟩
    intro hdone
    change final respond (some (.pingPong (waiting a b _ []))) _ =
      final respond (some (.pingPong (waiting a b _ []))) _
    rw [final_append, hst]
    exact (run_done st hdone post).1

def buzzOf (player : PlayerID) : Action where
  type := actionBuzz
  playerID := player
  seq := 1
  timestamp := 0
  payload := none

/-- alice buzzes after the two seconds of the default delay. -/
theorem alice_buzzes_in_time : ∃ st₀ result,
    init ["alice", "bob"] none = .ok (some (.pingPong st₀)) ∧
    applyAction (final respond (some (.pingPong st₀)) [.tick 1, .tick 2000000001])
      (buzzOf "alice") = .ok result ∧ result.winner = some "alice" := by
  have hts : ∀ t, .tick t ∈ [Call.tick 1, .tick 2000000001, .applyAction (buzzOf "alice")] →
      0 < t := by
    intro t ht
    simp only [List.mem_cons, Call.tick.injEq, reduceCtorEq, List.not_mem_nil, or_false] at ht
    obtain rfl | rfl := ht
    · decide
    · decide
  obtain ⟨-, hbuzz, -⟩ := duel_outcome "alice" "bob" (by decide) none _ rfl (by decide) _ hts
  obtain ⟨result, st, happly, -, hwinner, -, -, hiff, -⟩ := hbuzz [.tick 1, .tick 2000000001]
    (buzzOf "alice") [] rfl (by decide) (by decide)
  refine ⟨_, result, rfl, happly, ?_⟩
  rw [hwinner]
  exact hiff.mpr ⟨1, [2000000001], rfl, 2000000001, by decide, by decide⟩

/-! ## The configured delay -/

theorem durationMillis_exact (m : ℤ) (hpos : 0 < m) (hm : m * millisecond < 2 ^ 63) :
    durationMillis m = m * millisecond := by
  have hnonneg : 0 < m * millisecond := Int.mul_pos hpos (by decide)
  unfold durationMillis
  apply Int.bmod_eq_of_le
  · omega
  · omega

theorem durationMillis_lt (m : ℤ) : durationMillis m < 2 ^ 63 := by
  unfold durationMillis
  have h := Int.bmod_lt (x := m * millisecond) (m := 2 ^ 64) (by decide)
  omega

def phaseAfter (s₀ : Option GameState) (ts : List Time) : Option Phase :=
  match final respond s₀ (ts.map .tick) with
  | some (.pingPong st) => some st.phase
  | _ => none

/-- No tick arms the duel before the time of the first tick plus `wait`. The
deadline must not be the zero time, which stands for no deadline. -/
def Respects (s₀ : Option GameState) (wait : ℤ) : Prop :=
  ∀ pre t t₀, (pre ++ [t]).head? = some t₀ → t₀ + wait ≠ 0 → phaseAfter s₀ pre ≠ some .armed →
    phaseAfter s₀ (pre ++ [t]) = some .armed → t₀ + wait ≤ t

theorem ticksOf_map (ts : List Time) : ticksOf (ts.map .tick) = ts := by
  unfold ticksOf
  rw [List.filterMap_map]
  exact List.filterMap_some

theorem phaseAfter_waiting (a b : PlayerID) {D : ℤ} (hD : 0 < D) (ts : List Time)
    (hz : ts ≠ [] → deadline D ts ≠ 0) :
    phaseAfter (some (.pingPong (waiting a b D []))) ts =
      some (if signalled D ts then .armed else .countdown) := by
  have ht : Timely D (ts.map .tick) := by
    unfold Timely
    rw [ticksOf_map]
    exact hz
  have hopen : ∀ c ∈ ts.map Call.tick, validBuzz a b c = false := by
    intro c hc
    obtain ⟨t, -, rfl⟩ := List.mem_map.mp hc
    rfl
  unfold phaseAfter
  rw [final_waiting a b hD _ ht hopen, ticksOf_map]
  rfl

theorem waiting_respects (a b : PlayerID) {D : ℤ} (hD : 0 < D) :
    Respects (some (.pingPong (waiting a b D []))) D := by
  intro pre t t₀ hhead hne hbefore hafter
  cases pre with
  | nil =>
    obtain rfl : t = t₀ := Option.some.inj hhead
    rw [List.nil_append, phaseAfter_waiting a b hD [t] fun _ => hne, signalled_first hD] at hafter
    cases hafter
  | cons t₁ pre =>
    obtain rfl : t₁ = t₀ := Option.some.inj hhead
    rw [phaseAfter_waiting a b hD (t₁ :: pre) fun _ => hne] at hbefore
    rw [List.cons_append, phaseAfter_waiting a b hD (t₁ :: (pre ++ [t])) fun _ => hne,
      signalled_concat] at hafter
    cases hs : signalled D (t₁ :: pre) with
    | true =>
      rw [hs] at hbefore
      exact absurd rfl hbefore
    | false =>
      rw [hs, Bool.false_or] at hafter
      by_contra hlate
      rw [decide_eq_false hlate] at hafter
      cases hafter

/-- **The configured delay is respected exactly if it fits 64 bits in nanoseconds.** For a
positive `armDelayMillis`, the delay is positive and no tick arms the duel before
the first tick and the configured milliseconds, if and only if the product with
a million does not overflow. -/
theorem armDelay_respected_iff (a b : PlayerID) (config : RawMessage) (m : ℤ)
    (hm : (Json.structFields config).bind (Json.intField "armDelayMillis") = some m)
    (hpos : 0 < m) :
    ∃ st, init [a, b] config = .ok (some (.pingPong st)) ∧
      (0 < st.armDelay ∧ Respects (some (.pingPong st)) (m * millisecond) ↔
        m * millisecond < 2 ^ 63) := by
  have hdelay : armDelayOf config = durationMillis m := by
    unfold armDelayOf
    rw [hm]
    exact if_pos hpos
  refine ⟨_, init_waiting a b config, ?_⟩
  rw [hdelay]
  constructor
  · rintro ⟨hD, hrespects⟩
    by_contra hbig
    have hD' : 0 < durationMillis m := hD
    have hwrapped := durationMillis_lt m
    have hdeadline : ∀ ts : List Time, deadline (durationMillis m) (1 :: ts) ≠ 0 := by
      intro ts
      change 1 + durationMillis m ≠ 0
      omega
    -- a second tick at the end of the wrapped delay arms the duel
    have hlate : 1 + m * millisecond ≤ 1 + durationMillis m := by
      refine hrespects [1] (1 + durationMillis m) 1 rfl (by omega) ?_ ?_
      · rw [phaseAfter_waiting a b hD' [1] fun _ => hdeadline _, signalled_first hD']
        exact fun h => by cases h
      · rw [List.cons_append, phaseAfter_waiting a b hD' _ fun _ => hdeadline _, signalled_concat,
          decide_eq_true (le_refl _), Bool.or_true]
        rfl
    omega
  · intro hfits
    have hexact := durationMillis_exact m hpos hfits
    have hD : 0 < m * millisecond := Int.mul_pos hpos (by decide)
    rw [hexact]
    exact ⟨hD, waiting_respects a b hD⟩

/-- Half a second. -/
theorem half_second_respected : ∃ st,
    init ["alice", "bob"] (some (.obj [("armDelayMillis", .int 500)])) =
      .ok (some (.pingPong st)) ∧
    0 < st.armDelay ∧ Respects (some (.pingPong st)) (500 * millisecond) := by
  obtain ⟨st, hinit, hiff⟩ := armDelay_respected_iff "alice" "bob"
    (some (.obj [("armDelayMillis", .int 500)])) 500 rfl (by decide)
  exact ⟨st, hinit, hiff.mpr (by decide)⟩

/-- Three hundred years in milliseconds wrap to a negative delay: the first tick
arms the duel. -/
theorem long_delay_arms_at_once : ∃ st,
    init ["alice", "bob"] (some (.obj [("armDelayMillis", .int 9467280000000)])) =
      .ok (some (.pingPong st)) ∧
    st.armDelay < 0 ∧ phaseAfter (some (.pingPong st)) [1] = some .armed ∧
    ¬ Respects (some (.pingPong st)) (9467280000000 * millisecond) := by
  refine ⟨_, rfl, by decide, by decide, ?_⟩
  intro h
  have hlate := h [] 1 1 rfl (by decide) (by decide) (by decide)
  revert hlate
  decide

end RealtimeEngine.Domain.PingPong
