import Mathlib.Data.List.Induction

/-! Machines that answer every input with a next state and a list of outputs.
A run is the list of inputs; `final` is the state it ends in, `trace` what it
produced, each output beside the input that caused it. The two induction rules
are the only way later modules reason about a whole run: what one step
preserves, every run preserves. `Along` restricts a run to steps that meet a
condition on the state before the step and its input. -/
namespace RealtimeEngine.Foundations
set_option autoImplicit false
set_option maxHeartbeats 250000

/-! ## Total machines with outputs -/

section Total
variable {σ ι ω : Type} (step : σ → ι → σ × List ω)

def final : σ → List ι → σ
  | s, [] => s
  | s, i :: is => final (step s i).1 is

def trace : σ → List ι → List (ι × ω)
  | _, [] => []
  | s, i :: is => (step s i).2.map (fun o => (i, o)) ++ trace (step s i).1 is

@[simp] theorem final_nil (s : σ) : final step s [] = s := rfl

@[simp] theorem final_cons (s : σ) (i : ι) (is : List ι) :
    final step s (i :: is) = final step (step s i).1 is := rfl

theorem final_append (s : σ) (is js : List ι) :
    final step s (is ++ js) = final step (final step s is) js := by
  induction is generalizing s with
  | nil => rfl
  | cons i is ih => exact ih (step s i).1

theorem final_concat (s : σ) (is : List ι) (i : ι) :
    final step s (is ++ [i]) = (step (final step s is) i).1 := by
  rw [final_append]
  rfl

theorem trace_append (s : σ) (is js : List ι) :
    trace step s (is ++ js) = trace step s is ++ trace step (final step s is) js := by
  induction is generalizing s with
  | nil => rfl
  | cons i is ih =>
    rw [List.cons_append, trace, ih (step s i).1, ← List.append_assoc]
    rfl

theorem trace_concat (s : σ) (is : List ι) (i : ι) :
    trace step s (is ++ [i]) =
      trace step s is ++ (step (final step s is) i).2.map (fun o => (i, o)) := by
  rw [trace_append]
  simp [trace]

/-- What every step preserves holds at the end of every run. -/
theorem final_invariant (P : σ → Prop) (hstep : ∀ s i, P s → P (step s i).1)
    (s : σ) (hs : P s) (is : List ι) : P (final step s is) := by
  induction is generalizing s with
  | nil => exact hs
  | cons i is ih => exact ih (step s i).1 (hstep s i hs)

/-- The same for a property of the state together with everything output so far. -/
theorem trace_invariant (P : σ → List (ι × ω) → Prop)
    (hstep : ∀ s h i, P s h → P (step s i).1 (h ++ (step s i).2.map (fun o => (i, o))))
    (s : σ) (hs : P s []) (is : List ι) : P (final step s is) (trace step s is) := by
  induction is using List.reverseRecOn with
  | nil => exact hs
  | append_singleton is i ih =>
    rw [final_concat, trace_concat]
    exact hstep _ _ i ih

/-- What every output of every step has, every output of a run has. -/
theorem trace_forall (P : ι × ω → Prop) (hstep : ∀ s i, ∀ o ∈ (step s i).2, P (i, o)) (s : σ)
    (is : List ι) : ∀ e ∈ trace step s is, P e := by
  refine trace_invariant step (fun _ h => ∀ e ∈ h, P e) ?_ s (fun e he => by cases he) is
  intro s h i hh e he
  obtain he | he := List.mem_append.mp he
  · exact hh e he
  · obtain ⟨o, ho, rfl⟩ := List.mem_map.mp he
    exact hstep s i o ho

/-- An output stands beside an input of the run. -/
theorem mem_of_mem_trace {s : σ} {is : List ι} {e : ι × ω} (h : e ∈ trace step s is) : e.1 ∈ is := by
  induction is generalizing s with
  | nil => cases h
  | cons i is ih =>
    obtain h | h := List.mem_append.mp h
    · obtain ⟨o, -, rfl⟩ := List.mem_map.mp h
      exact List.mem_cons_self
    · exact List.mem_cons_of_mem i (ih h)

/-! ## One machine in the terms of another -/

section Simulates
variable {σ' ι' : Type} (step' : σ' → ι' → σ' × List ω) (f : σ → σ') (g : ι → ι')
  (h : ∀ s i, step' (f s) (g i) = (f (step s i).1, (step s i).2))
include h

theorem final_simulates (s : σ) (is : List ι) :
    final step' (f s) (is.map g) = f (final step s is) := by
  induction is generalizing s with
  | nil => rfl
  | cons i is ih => rw [List.map_cons, final_cons, h, final_cons, ih]

theorem trace_simulates (s : σ) (is : List ι) :
    trace step' (f s) (is.map g) = (trace step s is).map (Prod.map g id) := by
  induction is generalizing s with
  | nil => rfl
  | cons i is ih =>
    rw [List.map_cons, trace, h, trace, ih, List.map_append, List.map_map]
    rfl

end Simulates

/-! ## Runs whose steps all meet a condition -/

/-- Every step of the run is taken from a state and with an input that meet `C`. -/
def Along (C : σ → ι → Prop) : σ → List ι → Prop
  | _, [] => True
  | s, i :: is => C s i ∧ Along C (step s i).1 is

theorem along_append (C : σ → ι → Prop) (s : σ) (is js : List ι) :
    Along step C s (is ++ js) ↔ Along step C s is ∧ Along step C (final step s is) js := by
  induction is generalizing s with
  | nil => simp [Along]
  | cons i is ih =>
    simp only [List.cons_append, Along, ih, final_cons]
    exact and_assoc.symm

theorem along_concat (C : σ → ι → Prop) (s : σ) (is : List ι) (i : ι) :
    Along step C s (is ++ [i]) ↔ Along step C s is ∧ C (final step s is) i := by
  rw [along_append]
  simp [Along]

/-- A run meets a condition when each of its inputs does in the state it finds. -/
theorem along_iff (C : σ → ι → Prop) (s : σ) (is : List ι) :
    Along step C s is ↔ ∀ js i ks, is = js ++ i :: ks → C (final step s js) i := by
  constructor
  · rintro h js i ks rfl
    rw [along_append] at h
    exact h.2.1
  · intro h
    induction is using List.reverseRecOn with
    | nil => trivial
    | append_singleton is i ih =>
      refine (along_concat step C s is i).mpr ⟨ih ?_, h is i [] rfl⟩
      rintro js j ks rfl
      refine h js j (ks ++ [i]) ?_
      rw [List.append_assoc, List.cons_append]

theorem final_invariant_along (C : σ → ι → Prop) (P : σ → Prop)
    (hstep : ∀ s i, C s i → P s → P (step s i).1)
    (s : σ) (hs : P s) (is : List ι) (hc : Along step C s is) : P (final step s is) := by
  induction is generalizing s with
  | nil => exact hs
  | cons i is ih => exact ih (step s i).1 (hstep s i hc.1 hs) hc.2

end Total

/-! ## Partial machines: a label may be disabled -/

section Partial
variable {σ ι : Type} (step : σ → ι → Option σ)

def exec : σ → List ι → Option σ
  | s, [] => some s
  | s, i :: is => (step s i).bind fun s' => exec s' is

theorem exec_cons {s t : σ} {i : ι} (h : step s i = some t) (is : List ι) :
    exec step s (i :: is) = exec step t is := by
  rw [exec, h, Option.bind_some]

/-- Every step of an execution is taken from a state and with a label that meet `C`. -/
def Meets (C : σ → ι → Prop) : σ → List ι → Prop
  | _, [] => True
  | s, i :: is => C s i ∧ ∀ s', step s i = some s' → Meets C s' is

instance decidableMeets (C : σ → ι → Prop) [∀ s i, Decidable (C s i)] :
    (s : σ) → (is : List ι) → Decidable (Meets step C s is)
  | _, [] => isTrue trivial
  | s, i :: is =>
    match hs : step s i with
    | none => decidable_of_iff (C s i) ⟨fun h => ⟨h, fun s' h' => by rw [hs] at h'; cases h'⟩, And.left⟩
    | some t =>
      have : Decidable (Meets step C t is) := decidableMeets C t is
      decidable_of_iff (C s i ∧ Meets step C t is)
        ⟨fun h => ⟨h.1, fun s' h' => by rw [hs] at h'; cases h'; exact h.2⟩,
          fun h => ⟨h.1, h.2 t hs⟩⟩

/-- What every enabled step that meets `C` preserves holds at the end of every
execution whose steps all meet `C`. -/
theorem exec_invariant (C : σ → ι → Prop) (P : σ → Prop)
    (hstep : ∀ s i s', C s i → P s → step s i = some s' → P s')
    (s s' : σ) (hs : P s) (is : List ι) (hc : Meets step C s is)
    (hr : exec step s is = some s') : P s' := by
  induction is generalizing s with
  | nil =>
    cases hr
    exact hs
  | cons i is ih =>
    obtain ⟨t, ht, hr'⟩ := Option.bind_eq_some_iff.mp hr
    exact ih t (hstep s i t hc.1 hs ht) (hc.2 t ht) hr'

theorem exec_append (s : σ) (is js : List ι) :
    exec step s (is ++ js) = (exec step s is).bind fun t => exec step t js := by
  induction is generalizing s with
  | nil => rfl
  | cons i is ih =>
    rw [List.cons_append, exec, exec, Option.bind_assoc]
    exact congrArg _ (funext fun t => ih t)

/-- The execution passes a state with `Q`. -/
def Visits (Q : σ → Prop) : σ → List ι → Prop
  | s, [] => Q s
  | s, i :: is => Q s ∨ ∃ s', step s i = some s' ∧ Visits Q s' is

theorem visits_start (Q : σ → Prop) (s : σ) (is : List ι) (h : Q s) : Visits step Q s is := by
  cases is with
  | nil => exact h
  | cons i is => exact Or.inl h

theorem meets_of_forall (C : σ → ι → Prop) (h : ∀ s i, C s i) (s : σ) (is : List ι) :
    Meets step C s is := by
  induction is generalizing s with
  | nil => trivial
  | cons i is ih => exact ⟨h s i, fun s' _ => ih s'⟩

theorem meets_of_mem (C : σ → ι → Prop) (is : List ι) (h : ∀ i ∈ is, ∀ s, C s i) (s : σ) :
    Meets step C s is := by
  induction is generalizing s with
  | nil => trivial
  | cons i is ih =>
    rw [List.forall_mem_cons] at h
    exact ⟨h.1 s, fun s' _ => ih h.2 s'⟩

theorem meets_mono (C D : σ → ι → Prop) (h : ∀ s i, C s i → D s i) (s : σ) (is : List ι)
    (hc : Meets step C s is) : Meets step D s is := by
  induction is generalizing s with
  | nil => trivial
  | cons i is ih => exact ⟨h s i hc.1, fun s' hs' => ih s' (hc.2 s' hs')⟩

theorem meets_append (C : σ → ι → Prop) (s t : σ) (is js : List ι)
    (hx : exec step s is = some t) (hi : Meets step C s is) (hj : Meets step C t js) :
    Meets step C s (is ++ js) := by
  induction is generalizing s with
  | nil =>
    cases hx
    exact hj
  | cons i is ih =>
    obtain ⟨s₁, hs₁, hx'⟩ := Option.bind_eq_some_iff.mp hx
    refine ⟨hi.1, fun s' hs' => ?_⟩
    rw [hs₁] at hs'
    cases hs'
    exact ih s₁ hx' (hi.2 s₁ hs₁)

end Partial

end RealtimeEngine.Foundations
