import Mathlib.Data.List.Induction

/-! Logs of a machine whose calls may be refused. An entry is a call with the
result it had; the result carries the state the call left. A log replays from a
state when each of its calls, made on the state the entry before left, has the
result that the log says. -/
namespace RealtimeEngine.Foundations
set_option autoImplicit false
set_option maxHeartbeats 250000

section Replays
variable {σ κ ρ : Type} (run : σ → κ → Option ρ) (next : ρ → σ)

def Replays : σ → List (κ × ρ) → Prop
  | _, [] => True
  | s, e :: log => run s e.1 = some e.2 ∧ Replays (next e.2) log

/-- The state that a log leaves. -/
def stateAfter (s : σ) (log : List (κ × ρ)) : σ := log.foldl (fun _ e => next e.2) s

@[simp] theorem stateAfter_nil (s : σ) : stateAfter next s ([] : List (κ × ρ)) = s := rfl

theorem stateAfter_concat (s : σ) (log : List (κ × ρ)) (e : κ × ρ) :
    stateAfter next s (log ++ [e]) = next e.2 := by
  unfold stateAfter
  rw [List.foldl_append]
  rfl

theorem replays_append (s : σ) (log log' : List (κ × ρ)) :
    Replays run next s (log ++ log') ↔
      Replays run next s log ∧ Replays run next (stateAfter next s log) log' := by
  induction log generalizing s with
  | nil => simp [Replays]
  | cons e log ih =>
    rw [List.cons_append, Replays, Replays, ih, and_assoc]
    rfl

theorem replays_concat (s : σ) (log : List (κ × ρ)) (e : κ × ρ) :
    Replays run next s (log ++ [e]) ↔
      Replays run next s log ∧ run (stateAfter next s log) e.1 = some e.2 := by
  rw [replays_append]
  simp [Replays]

variable {run next}

theorem Replays.take {s : σ} {log : List (κ × ρ)} (h : Replays run next s log) (n : ℕ) :
    Replays run next s (log.take n) := by
  rw [← List.take_append_drop n log, replays_append] at h
  exact h.1

/-- The `n`-th entry is a call made on the state that the first `n` entries leave. -/
theorem Replays.entry {s : σ} {log : List (κ × ρ)} (h : Replays run next s log) {n : ℕ}
    {e : κ × ρ} (he : log[n]? = some e) :
    run (stateAfter next s (log.take n)) e.1 = some e.2 := by
  have htake := h.take (n + 1)
  rw [List.take_add_one, he, Option.toList_some, replays_concat] at htake
  exact htake.2

/-- What every call keeps holds in every state of a replay. -/
theorem Replays.invariant {s : σ} {log : List (κ × ρ)} (h : Replays run next s log)
    (P : σ → Prop) (hstep : ∀ s k r, P s → run s k = some r → P (next r)) (hs : P s) :
    P (stateAfter next s log) := by
  induction log using List.reverseRecOn with
  | nil => exact hs
  | append_singleton log e ih =>
    obtain ⟨hlog, he⟩ := (replays_concat run next s log e).mp h
    rw [stateAfter_concat]
    exact hstep _ e.1 e.2 (ih hlog) he

end Replays
end RealtimeEngine.Foundations
