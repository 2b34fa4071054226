import Mathlib.Tactic.Linarith
import RealtimeEngine.Config
import RealtimeEngine.Domain.Game
import RealtimeEngine.Foundations.Runs

/-! The heartbeat of one connection (`readPump` and `writePump` of
`internal/transport/ws/connection.go`) with a client that answers every ping at
once. The read deadline is armed when `readPump` starts and moved by the pong
handler only; the ticker of `writePump` starts with it. -/
namespace RealtimeEngine.Transport.Heartbeat
open Foundations Domain
set_option autoImplicit false
set_option maxHeartbeats 250000

structure Beat where
  now : Time
  deadline : Time
  nextTick : Time
  closed : Bool
  deriving DecidableEq

inductive Label
  | pass (t : Time)
  | tick
  | read

section Beats
variable {float64 : Type} (c : Config float64)

/-- `time.NewTicker` panics when the interval is not positive. -/
def start (t₀ : Time) : Option Beat :=
  if 0 < c.pingInterval then some ⟨t₀, t₀ + c.pongTimeout, t₀ + c.pingInterval, false⟩ else none

/-- The pong comes in while `ReadMessage` still reads: past the deadline it has failed. -/
def Beat.pong (s : Beat) : Beat :=
  if s.now < s.deadline then { s with deadline := s.now + c.pongTimeout } else s

/-- Time goes on until the next tick; a tick pings and is answered; `ReadMessage`
returns a message, or fails and ends `readPump`, whose last act is `Close`. -/
def Beat.step (s : Beat) : Label → Option Beat
  | .pass t => if s.now ≤ t ∧ t ≤ s.nextTick then some { s with now := t } else none
  | .tick =>
    if s.now = s.nextTick ∧ s.closed = false then
      some { s.pong c with nextTick := s.nextTick + c.pingInterval }
    else none
  | .read =>
    if s.closed then none
    else if s.now < s.deadline then some s
    else some { s with closed := true }

/-- `ReadMessage` fails from now on. -/
def Beat.Reached (s : Beat) : Prop := s.deadline ≤ s.now

/-- The connection starts, and no run brings it to its deadline. -/
def KeepsAlive (t₀ : Time) : Prop :=
  ∃ s, start c t₀ = some s ∧
    ∀ ls s', exec (Beat.step c) s ls = some s' → ¬ s'.Reached ∧ s'.closed = false

/-- The deadline stays one timeout behind the last tick, the next tick one interval. -/
structure Kept (s : Beat) : Prop where
  ahead : s.deadline = s.nextTick + (c.pongTimeout - c.pingInterval)
  before : s.now ≤ s.nextTick
  alive : s.closed = false

variable {c}

theorem Kept.not_reached {s : Beat} (hc : c.pingInterval < c.pongTimeout) (h : Kept c s) :
    s.now < s.deadline := by
  have ha := h.ahead
  have hb := h.before
  linarith

theorem start_kept {t₀ : Time} {s : Beat} (hp : 0 < c.pingInterval) (h : start c t₀ = some s) :
    Kept c s := by
  unfold start at h
  rw [if_pos hp] at h
  cases h
  exact ⟨by simp only; linarith, by simp only; linarith, rfl⟩

theorem step_kept (hp : 0 < c.pingInterval) (hc : c.pingInterval < c.pongTimeout) (s : Beat)
    (l : Label) (s' : Beat) (h : Kept c s) (hs : s.step c l = some s') : Kept c s' := by
  have hlive := h.not_reached hc
  cases l with
  | pass t =>
    rw [Beat.step] at hs
    split at hs
    next ht =>
      cases hs
      exact ⟨h.ahead, ht.2, h.alive⟩
    next => cases hs
  | tick =>
    rw [Beat.step] at hs
    split at hs
    next ht =>
      obtain ⟨hnow, hopen⟩ := ht
      rw [Beat.pong, if_pos hlive] at hs
      cases hs
      exact ⟨by simp only; linarith, by simp only; linarith, hopen⟩
    next => cases hs
  | read =>
    rw [Beat.step, if_neg (by rw [h.alive]; exact Bool.false_ne_true), if_pos hlive] at hs
    cases hs
    exact h

/-- When the timeout is not longer than the interval, the deadline comes no
later than the first ping. -/
theorem first_deadline_reached {t₀ : Time} {s : Beat} (hp : 0 < c.pingInterval)
    (hc : c.pongTimeout ≤ c.pingInterval) (h : start c t₀ = some s) :
    ∃ s', exec (Beat.step c) s [.pass (t₀ + c.pingInterval)] = some s' ∧ s'.Reached := by
  unfold start at h
  rw [if_pos hp] at h
  cases h
  have hpass : t₀ ≤ t₀ + c.pingInterval ∧ t₀ + c.pingInterval ≤ t₀ + c.pingInterval := ⟨by linarith, le_refl _⟩
  refine ⟨⟨t₀ + c.pingInterval, t₀ + c.pongTimeout, t₀ + c.pingInterval, false⟩, ?_, ?_⟩
  · simp only [exec, Beat.step, if_pos hpass, Option.bind_some]
  · change t₀ + c.pongTimeout ≤ t₀ + c.pingInterval
    linarith

variable [NatCast float64]

/-- **A configuration keeps the connection of a responsive client exactly when a
ping is sent within every timeout.** -/
theorem load_keepsAlive_iff (env : Environment float64) (t₀ : Time) :
    KeepsAlive (Config.load env) t₀ ↔
      0 < (Config.load env).pingInterval ∧
        (Config.load env).pingInterval < (Config.load env).pongTimeout := by
  generalize Config.load env = c
  constructor
  · rintro ⟨s, hs, hrun⟩
    have hp : 0 < c.pingInterval := by
      by_contra hp
      rw [start, if_neg hp] at hs
      cases hs
    refine ⟨hp, ?_⟩
    by_contra hc
    obtain ⟨s', hs', hreached⟩ := first_deadline_reached hp (not_lt.mp hc) hs
    exact (hrun _ s' hs').1 hreached
  · rintro ⟨hp, hc⟩
    refine ⟨_, if_pos hp, ?_⟩
    intro ls s' hs'
    have hkept : Kept c s' := exec_invariant (Beat.step c) (fun _ _ => True) (Kept c)
      (fun s l s' _ => step_kept hp hc s l s') _ s' (start_kept hp (if_pos hp)) ls
      (meets_of_forall _ _ (fun _ _ => trivial) _ ls) hs'
    exact ⟨not_le.mpr (hkept.not_reached hc), hkept.alive⟩

/-- With nothing configured the deadline comes after ten seconds and the first
ping after fifteen: the connection is dropped before its client is asked. -/
theorem defaults_drop_client :
    let c := Config.load (bare ℚ)
    c.pingInterval = 15 * second ∧ c.pongTimeout = 10 * second ∧
      ∃ s s', start c 0 = some s ∧
        exec (Beat.step c) s [.pass (10 * second), .read] = some s' ∧
        s'.Reached ∧ s'.closed = true ∧ s'.now < s'.nextTick := by
  refine ⟨rfl, rfl, ⟨0, 10 * second, 15 * second, false⟩, ⟨10 * second, 10 * second, 15 * second, true⟩,
    rfl, rfl, le_refl _, rfl, by decide⟩

end Beats
end RealtimeEngine.Transport.Heartbeat
