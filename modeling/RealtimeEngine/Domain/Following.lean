import RealtimeEngine.Domain.Calls
import RealtimeEngine.Domain.Duel
import RealtimeEngine.Domain.Patches

/-! How a client brings a snapshot up to date with a diff, for each of the two
games. The reflex duel sends its whole wire state as the diff. The diff of a move
of tic-tac-toe leaves out what is empty, and the one of a forfeit has a cell to be
left alone. After any call of any log the client has the document that a new
snapshot would be. -/
namespace RealtimeEngine.Domain
open Foundations
set_option autoImplicit false
set_option maxHeartbeats 250000

/-- The strings of an array of strings. -/
def strings : Json → Option (List String)
  | .arr elems => elems.mapM fun e =>
    match e with
    | .str s => some s
    | _ => none
  | _ => none

theorem strings_arr (xs : List String) : strings (.arr (xs.map .str)) = some xs := by
  unfold strings
  induction xs with
  | nil => rfl
  | cons x xs ih =>
    dsimp only at ih ⊢
    rw [List.map_cons, List.mapM_cons, ih]
    rfl

section Follows
variable {σ : Type}

/-- In every log of the game, the document of a version absorbs the diff of the
next call to the document of the next version. -/
def Follows (g : Game σ) (absorb : Json → RawMessage → Json) : Prop :=
  ∀ players s₀ log, GameLog g players s₀ log → ∀ n e, log[n]? = some e →
    ∀ doc, stateBytes g (versionState s₀ log n) = some doc →
      stateBytes g (versionState s₀ log (n + 1)) = some (absorb doc e.2.diff)

/-- It is enough that one call does, in the states that calls lead to. -/
theorem Follows.of_call {g : Game σ} {absorb : Json → RawMessage → Json} (P : Option σ → Prop)
    (hinit : ∀ players s₀, g.init players none = .ok s₀ → P s₀)
    (hcall : ∀ s c result, P s → GameCall.run g s c = some result → P result.newState ∧
      ∀ doc, stateBytes g s = some doc →
        stateBytes g result.newState = some (absorb doc result.diff)) :
    Follows g absorb := by
  intro players s₀ log hlog n e he doc hdoc
  have hP : P (versionState s₀ log n) :=
    (hlog.replays.take n).invariant P (fun s c result hs hr => (hcall s c result hs hr).1)
      (hinit players s₀ hlog.init)
  have hnext : versionState s₀ log (n + 1) = e.2.newState := by
    rw [versionState, List.take_add_one, he, Option.toList_some, stateAfter_concat]
  rw [hnext]
  exact (hcall _ e.1 e.2 hP (hlog.replays.entry he)).2 doc hdoc

end Follows
end RealtimeEngine.Domain

/-! ## Tic-tac-toe -/

namespace RealtimeEngine.Domain.TicTacToe
open Foundations

/-- Arrays of fixed length take what is there and leave the rest empty. -/
def WireState.ofJson (doc : Json) : Option WireState := do
  let board ← (doc.field "board").bind strings
  let players ← (doc.field "players").bind strings
  let turn ← doc.strAt "turn"
  let moveCount ← doc.intAt "moveCount"
  let done ← doc.boolAt "done"
  return { board := fun i => board.getD i.val "", players := fun i => players.getD i.val "",
           turn := turn, moveCount := moveCount.toNat, done := done,
           draw := (doc.boolAt "draw").getD false, winner := (doc.strAt "winner").getD "" }

/-- Only the diff of a forfeit has a reason, and its cell means nothing. A diff
that ends the game leaves the turn where it was; any other names who is next. -/
def absorbWire (w : WireState) (diff : Json) : WireState :=
  if (diff.strAt "reason").isSome then
    { w with done := (diff.boolAt "terminal").getD false, winner := (diff.strAt "winner").getD "" }
  else
    { patch w diff with
      turn := if (diff.boolAt "terminal").getD false then w.turn
        else (diff.strAt "turn").getD "" }

def absorb (doc : Json) : RawMessage → Json
  | none => doc
  | some diff =>
    match WireState.ofJson doc with
    | none => doc
    | some w => (absorbWire w diff).encode

theorem strings_ofFn {n : ℕ} (f : Fin n → String) :
    strings (.arr (List.ofFn fun i => .str (f i))) = some (List.ofFn f) := by
  rw [← strings_arr, List.map_ofFn]
  rfl

theorem getD_ofFn {n : ℕ} (f : Fin n → String) (i : Fin n) : (List.ofFn f).getD i.val "" = f i := by
  simp [List.getD_eq_getElem?_getD]

/-- What an omitted field is read as. -/
@[simp] theorem getD_omitted (s : String) : (if s = "" then none else some s).getD "" = s := by
  split
  · next h => exact h.symm
  · rfl

/-- A wire state is read back from its document. -/
theorem WireState.ofJson_encode (w : WireState) : WireState.ofJson w.encode = some w := by
  have hdraw : (w.encode.boolAt "draw").getD false = w.draw := by
    cases h : w.draw <;>
      simp [Json.boolAt, Json.field, WireState.encode, List.lookup_append, List.lookup_cons, h]
  have hwinner : (w.encode.strAt "winner").getD "" = w.winner := by
    by_cases h : w.winner = "" <;>
      simp [Json.strAt, Json.field, WireState.encode, List.lookup_append, List.lookup_cons, h]
  have hboard : (w.encode.field "board").bind strings = some (List.ofFn w.board) :=
    strings_ofFn w.board
  have hplayers : (w.encode.field "players").bind strings = some (List.ofFn w.players) :=
    strings_ofFn w.players
  have hturn : w.encode.strAt "turn" = some w.turn := rfl
  have hcount : w.encode.intAt "moveCount" = some (w.moveCount : ℤ) := rfl
  have hdone : w.encode.boolAt "done" = some w.done := rfl
  unfold WireState.ofJson
  rw [hboard, hplayers, hturn, hcount, hdone, hdraw, hwinner]
  simp only [Option.bind_eq_bind, Option.bind_some, getD_ofFn, Int.toNat_natCast]
  rfl

@[simp] theorem strAt_reason (d : DiffPayload) :
    d.encode.strAt "reason" = if d.reason = "" then none else some d.reason := by
  by_cases h : d.reason = "" <;>
    simp [DiffPayload.encode, Json.strAt, Json.field, List.lookup_append, List.lookup_cons, h]

theorem absorbWire_plays {st st' : State} {action : Action} {mv : MovePayload} {d : DiffPayload}
    (h : Lawful st) (hl : Legal st action mv) (hp : Plays st mv st' d) :
    absorbWire st.toWire d.encode = st'.toWire := by
  obtain ⟨hdraw, hwinner⟩ := h.undecided hl.ongoing
  cases hp with
  | won w hw =>
    unfold absorbWire patch
    rw [patchBoard_marked st mv _ rfl]
    simp [State.toWire, State.marked, hdraw]
  | drawn hw hf =>
    unfold absorbWire patch
    rw [patchBoard_marked st mv _ rfl]
    simp [State.toWire, State.marked, hwinner]
  | passed hw hf =>
    unfold absorbWire patch
    rw [patchBoard_marked st mv _ rfl]
    simp [State.toWire, State.marked, hdraw, hwinner, hl.ongoing]

theorem absorb_encode (st st' : State) (d : DiffPayload)
    (h : absorbWire st.toWire d.encode = st'.toWire) :
    absorb st.toWire.encode (some d.encode) = st'.toWire.encode := by
  unfold absorb
  rw [WireState.ofJson_encode]
  exact congrArg WireState.encode h

/-- A state the game's calls lead to. -/
def Valid (s : Option GameState) : Prop := ∃ st, s = some (.ticTacToe st) ∧ Lawful st

theorem follows : Follows game absorb := by
  refine Follows.of_call Valid ?_ ?_
  · intro players s₀ h
    change init players none = .ok s₀ at h
    unfold init at h
    split at h
    · next a b =>
      cases h
      exact ⟨_, rfl, init_lawful a b⟩
    · cases h
  · rintro _ c result ⟨st, rfl, hst⟩ hrun
    cases c with
    | tick now => cases hrun
    | action a =>
      obtain ⟨mv, st', d, hl, hp, hnew, hdiff⟩ := applyAction_ok st a result (run_action hrun).2
      rw [hnew, hdiff]
      refine ⟨⟨st', rfl, hst.called (.moved a mv st' d hl hp)⟩, ?_⟩
      rintro _ ⟨⟩
      exact congrArg some (absorb_encode st st' d (absorbWire_plays hst hl hp)).symm
    | abandoned p =>
      obtain ⟨hd, rfl⟩ | ⟨seat, hd, rfl⟩ := onPlayerAbandoned_ok st p result (run_abandoned hrun)
      · exact ⟨⟨st, rfl, hst⟩, fun doc hdoc => hdoc⟩
      · refine ⟨⟨_, rfl, hst.called (.forfeited p seat hd)⟩, ?_⟩
        rintro _ ⟨⟩
        refine congrArg some (absorb_encode st _ _ ?_).symm
        simp [absorbWire, State.toWire]

end RealtimeEngine.Domain.TicTacToe

/-! ## Ping-pong -/

namespace RealtimeEngine.Domain.PingPong
open Foundations

/-- Every diff is a whole wire state. -/
def absorb (doc : Json) (diff : RawMessage) : Json := diff.getD doc

/-- The result of a call leaves a state that its diff is the document of, or leaves the state. -/
theorem run_diff (st : State) (c : GameCall) (result : Result GameState)
    (h : GameCall.run game (some (.pingPong st)) c = some result) :
    ∃ st', result.newState = some (.pingPong st') ∧
      (result.diff = some st'.toWire.encode ∨ result.diff = none ∧ st' = st) := by
  cases c with
  | action a =>
    have hok := (run_action h).2
    change applyAction (some (.pingPong st)) a = .ok result at hok
    unfold applyAction asState at hok
    dsimp only at hok
    split at hok
    · cases hok
    · cases hok
      exact ⟨_, rfl, Or.inl rfl⟩
  | tick now =>
    obtain ⟨_, ⟨⟩, ht⟩ := run_tick h
    change tick (.pingPong st) now = (result, true) at ht
    unfold tick asState at ht
    dsimp only at ht
    split at ht
    · cases ht
    · split at ht
      · cases ht
      · cases ht
        exact ⟨_, rfl, Or.inl rfl⟩
  | abandoned p =>
    have hok := run_abandoned h
    change onPlayerAbandoned (some (.pingPong st)) p = .ok result at hok
    unfold onPlayerAbandoned asState at hok
    dsimp only at hok
    split at hok
    · cases hok
      exact ⟨st, rfl, Or.inr ⟨rfl, rfl⟩⟩
    · split at hok
      · cases hok
      · cases hok
        exact ⟨_, rfl, Or.inl rfl⟩

theorem follows : Follows game absorb := by
  refine Follows.of_call (fun s => ∃ st, s = some (.pingPong st)) ?_ ?_
  · intro players s₀ h
    change init players none = .ok s₀ at h
    unfold init at h
    split at h
    · cases h
      exact ⟨_, rfl⟩
    · cases h
  · rintro _ c result ⟨st, rfl⟩ hrun
    obtain ⟨st', hnew, hdiff⟩ := run_diff st c result hrun
    rw [hnew]
    refine ⟨⟨st', rfl⟩, ?_⟩
    rintro _ ⟨⟩
    obtain hdiff | ⟨hdiff, rfl⟩ := hdiff
    · rw [hdiff]
      rfl
    · rw [hdiff]
      rfl

end RealtimeEngine.Domain.PingPong

/-! ## The registered games -/

namespace RealtimeEngine.Domain
open Foundations

def absorbOf : String → Json → RawMessage → Json
  | "tictactoe" => TicTacToe.absorb
  | "pingpong" => PingPong.absorb
  | _ => fun doc _ => doc

theorem registry_follows (gameType : String) (g : Game GameState)
    (h : registry gameType = some g) : Follows g (absorbOf gameType) := by
  unfold registry at h
  split at h
  · cases h
    exact TicTacToe.follows
  · cases h
    exact PingPong.follows
  · cases h

end RealtimeEngine.Domain
