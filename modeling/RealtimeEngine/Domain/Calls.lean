import RealtimeEngine.Domain.Game
import RealtimeEngine.Foundations.Replays

/-! A game by itself: the calls that can change its state and the logs they
leave. Nothing here knows of rooms. A log of a game starts from what `Init`
returned, and each entry is a call that had a result. -/
namespace RealtimeEngine.Domain
open Foundations
set_option autoImplicit false
set_option maxHeartbeats 250000

/-- A player acts, time passes, or a player does not come back. -/
inductive GameCall
  | action (a : Action)
  | tick (now : Time)
  | abandoned (player : PlayerID)

section Calls
variable {σ : Type} (g : Game σ)

/-- The result of a call that has one. An action is validated first; a tick that
reports no change has no result. -/
def GameCall.run (s : Option σ) : GameCall → Option (Result σ)
  | action a =>
    match g.validate s a with
    | .error _ => none
    | .ok _ => (g.applyAction s a).toOption
  | tick now => s.bind fun st => if (g.tick st now).2 then some (g.tick st now).1 else none
  | abandoned player => (g.onPlayerAbandoned s player).toOption

/-- A log of a game between these players. -/
structure GameLog (players : List PlayerID) (s₀ : Option σ) (log : List (GameCall × Result σ)) :
    Prop where
  init : g.init players none = .ok s₀
  replays : Replays (GameCall.run g) Result.newState s₀ log

/-- The state of version `n`. -/
def versionState (s₀ : Option σ) (log : List (GameCall × Result σ)) (n : ℕ) : Option σ :=
  stateAfter Result.newState s₀ (log.take n)

/-- The bytes of a snapshot of a state; none when there is no state or it does not encode. -/
def stateBytes : Option σ → RawMessage
  | none => none
  | some st =>
    match g.snapshot st with
    | .error _ => none
    | .ok snap => snap

variable {g}

theorem toOption_eq_some {ε α : Type} {x : Except ε α} {r : α} (h : x.toOption = some r) :
    x = .ok r := by
  cases x with
  | error e => cases h
  | ok a =>
    cases h
    rfl

theorem run_action {s : Option σ} {a : Action} {result : Result σ}
    (h : GameCall.run g s (.action a) = some result) :
    g.validate s a = .ok () ∧ g.applyAction s a = .ok result := by
  rw [GameCall.run] at h
  split at h
  · cases h
  · next v hv => exact ⟨hv, toOption_eq_some h⟩

theorem run_tick {s : Option σ} {now : Time} {result : Result σ}
    (h : GameCall.run g s (.tick now) = some result) :
    ∃ st, s = some st ∧ g.tick st now = (result, true) := by
  obtain ⟨st, rfl, hst⟩ := Option.bind_eq_some_iff.mp h
  refine ⟨st, rfl, ?_⟩
  split at hst
  · next hc =>
    cases hst
    rw [← hc]
  · cases hst

theorem run_abandoned {s : Option σ} {p : PlayerID} {result : Result σ}
    (h : GameCall.run g s (.abandoned p) = some result) :
    g.onPlayerAbandoned s p = .ok result :=
  toOption_eq_some h

end Calls
end RealtimeEngine.Domain
