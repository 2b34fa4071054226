import Mathlib.Data.List.Induction

/-! Histories, the latest event last, and the past-time operator they are
described with. What a store holds now is decided by the most recent event of
some kind: `Since A B` says that an event with `A` happened and that every event
after it has `B`. One lemma, for a history that has grown by one event, is all
that an induction over histories needs. -/
namespace RealtimeEngine.Foundations
set_option autoImplicit false
set_option maxHeartbeats 250000

section Since
variable {ι : Type} (A B : ι → Prop)

def Since (is : List ι) : Prop :=
  ∃ pre i post, is = pre ++ i :: post ∧ A i ∧ ∀ j ∈ post, B j

theorem not_since_nil : ¬ Since A B [] := by
  rintro ⟨pre, i, post, h, -⟩
  cases pre <;> cases h

theorem since_concat (is : List ι) (j : ι) :
    Since A B (is ++ [j]) ↔ A j ∨ B j ∧ Since A B is := by
  constructor
  · rintro ⟨pre, i, post, h, hi, hpost⟩
    obtain rfl | ⟨post, k, rfl⟩ := List.eq_nil_or_concat post
    · obtain ⟨-, hij⟩ := List.append_inj' h rfl
      cases hij
      exact Or.inl hi
    · rw [List.concat_eq_append] at h hpost
      rw [← List.cons_append, ← List.append_assoc] at h
      obtain ⟨rfl, hkj⟩ := List.append_inj' h rfl
      cases hkj
      refine Or.inr ⟨hpost j List.mem_concat_self, pre, i, post, rfl, hi, ?_⟩
      intro k hk
      exact hpost k (List.mem_append_left _ hk)
  · rintro (hj | ⟨hj, pre, i, post, rfl, hi, hpost⟩)
    · exact ⟨is, j, [], rfl, hj, fun k hk => absurd hk List.not_mem_nil⟩
    · refine ⟨pre, i, post ++ [j], ?_, hi, ?_⟩
      · rw [List.append_assoc, List.cons_append]
      · intro k hk
        obtain hk | hk := List.mem_append.mp hk
        · exact hpost k hk
        · rw [List.mem_singleton.mp hk]
          exact hj

end Since

end RealtimeEngine.Foundations
