import RealtimeEngine.Foundations.Histories
import RealtimeEngine.Foundations.Runs
import RealtimeEngine.Storage.Sessions

/-! Histories of calls on the in-memory session store, with the sweeps that a
background goroutine runs between them. A record is let go of in two places:
`LoadSession` does not return it any more, and `Sweep` removes it. To callers
whose clock does not go back the second cannot be told from the first. -/
namespace RealtimeEngine.Storage.Memory
open Foundations Domain
set_option autoImplicit false
set_option maxHeartbeats 250000

/-! ## Calls -/

inductive Call
  | save (sessionID : String) (rec : SessionRecord) (ttl : ℤ)
  | delete (sessionID : String)
  | load (sessionID : String)
  | sweep

def Call.isSweep : Call → Bool
  | sweep => true
  | _ => false

/-- A call that decides what is stored under the session. -/
def Call.Writes (sid : String) : Call → Prop
  | save s _ _ => s = sid
  | delete s => s = sid
  | _ => False

/-- Only loads have a result; `none` is `storage.ErrNotFound`. -/
def step (m : SessionStore) : Time × Call → SessionStore × List (Option SessionRecord)
  | (now, .save sid rec ttl) => (m.saveSession now sid rec ttl, [])
  | (_, .delete sid) => (m.deleteSession sid, [])
  | (now, .load sid) => (m, [m.loadSession now sid])
  | (now, .sweep) => (m.sweep now, [])

/-- The clock does not go back. -/
def Ordered (is : List (Time × Call)) : Prop := is.Pairwise fun i j => i.1 ≤ j.1

instance (is : List (Time × Call)) : Decidable (Ordered is) :=
  inferInstanceAs (Decidable (is.Pairwise fun i j => i.1 ≤ j.1))

/-! ## What a load returns -/

/-- The last call that wrote the session saved this record, for at least until `t`. -/
def Holds (is : List (Time × Call)) (t : Time) (sid : String) (rec : SessionRecord) : Prop :=
  Since (fun i => ∃ ttl, i.2 = .save sid rec ttl ∧ t ≤ i.1 + ttl) (fun i => ¬ i.2.Writes sid) is

section Holds
variable (is : List (Time × Call)) (now t : Time) (sid : String) (rec : SessionRecord)

theorem holds_save (r : SessionRecord) (ttl : ℤ) :
    Holds (is ++ [(now, .save sid r ttl)]) t sid rec ↔ r = rec ∧ t ≤ now + ttl := by
  unfold Holds
  rw [since_concat]
  constructor
  · rintro (⟨d, hd, hexp⟩ | ⟨hw, -⟩)
    · cases hd
      exact ⟨rfl, hexp⟩
    · exact absurd rfl hw
  · rintro ⟨rfl, hexp⟩
    exact Or.inl ⟨ttl, rfl, hexp⟩

theorem not_holds_delete : ¬ Holds (is ++ [(now, .delete sid)]) t sid rec := by
  unfold Holds
  rw [since_concat]
  rintro (⟨d, hd, -⟩ | ⟨hw, -⟩)
  · cases hd
  · exact hw rfl

/-- A call that does not write the session does not matter. -/
theorem holds_frame {c : Call} (hc : ¬ c.Writes sid) :
    Holds (is ++ [(now, c)]) t sid rec ↔ Holds is t sid rec := by
  unfold Holds
  rw [since_concat]
  constructor
  · rintro (⟨d, rfl, -⟩ | ⟨-, h⟩)
    · exact absurd rfl hc
    · exact h
  · exact fun h => Or.inr ⟨hc, h⟩

end Holds

theorem load_iff_holds (is : List (Time × Call)) (t : Time) (ht : ∀ i ∈ is, i.1 ≤ t) (sid : String)
    (rec : SessionRecord) :
    (final step ∅ is).loadSession t sid = some rec ↔ Holds is t sid rec := by
  induction is using List.reverseRecOn with
  | nil => exact iff_of_false (fun h => by cases h) (not_since_nil _ _)
  | append_singleton is i ih =>
    have hold := ih fun j hj => ht j (List.mem_append_left _ hj)
    obtain ⟨now, c⟩ := i
    have hnow : now ≤ t := ht (now, c) List.mem_concat_self
    rw [final_concat]
    cases c with
    | save s r ttl =>
      change (SessionStore.saveSession _ now s r ttl).loadSession t sid = some rec ↔ _
      rw [SessionStore.loadSession_saveSession]
      by_cases hs : sid = s
      · subst hs
        rw [if_pos rfl, holds_save]
        by_cases hexp : t > now + ttl
        · rw [if_pos hexp]
          exact iff_of_false (fun h => by cases h) fun h => not_lt.mpr h.2 hexp
        · rw [if_neg hexp, Option.some.injEq]
          exact (and_iff_left (not_lt.mp hexp)).symm
      · have hw : ¬ (Call.save s r ttl).Writes sid := Ne.symm hs
        rw [if_neg hs, holds_frame _ _ _ _ _ hw]
        exact hold
    | delete s =>
      change (SessionStore.deleteSession _ s).loadSession t sid = some rec ↔ _
      rw [SessionStore.loadSession_deleteSession]
      by_cases hs : sid = s
      · subst hs
        rw [if_pos rfl]
        exact iff_of_false (fun h => by cases h) (not_holds_delete is now t sid rec)
      · have hw : ¬ (Call.delete s).Writes sid := Ne.symm hs
        rw [if_neg hs, holds_frame _ _ _ _ _ hw]
        exact hold
    | load s =>
      rw [holds_frame _ _ _ _ _ id]
      exact hold
    | sweep =>
      change (SessionStore.sweep _ now).loadSession t sid = some rec ↔ _
      rw [SessionStore.loadSession_sweep _ now t hnow, holds_frame _ _ _ _ _ id]
      exact hold

/-! ## Sweeps -/

/-- From `now` on every load finds the same in both stores. -/
def Alike (now : Time) (m m' : SessionStore) : Prop :=
  ∀ t, now ≤ t → ∀ sid, m.loadSession t sid = m'.loadSession t sid

theorem Alike.step {now t : Time} {m m' : SessionStore} (h : Alike now m m') (ht : now ≤ t)
    (c : Call) : Alike t (step m (t, c)).1 (step m' (t, c)).1 := by
  intro u hu sid
  have hsame := h u (le_trans ht hu) sid
  cases c with
  | save s r ttl =>
    change (SessionStore.saveSession _ _ _ _ _).loadSession u sid =
      (SessionStore.saveSession _ _ _ _ _).loadSession u sid
    rw [SessionStore.loadSession_saveSession, SessionStore.loadSession_saveSession, hsame]
  | delete s =>
    change (SessionStore.deleteSession _ _).loadSession u sid =
      (SessionStore.deleteSession _ _).loadSession u sid
    rw [SessionStore.loadSession_deleteSession, SessionStore.loadSession_deleteSession, hsame]
  | load s => exact hsame
  | sweep =>
    change (SessionStore.sweep _ _).loadSession u sid = (SessionStore.sweep _ _).loadSession u sid
    rw [SessionStore.loadSession_sweep _ t u hu, SessionStore.loadSession_sweep _ t u hu, hsame]

theorem Alike.sweep {now t : Time} {m m' : SessionStore} (h : Alike now m m') (ht : now ≤ t) :
    Alike t (m.sweep t) m' := by
  intro u hu sid
  rw [SessionStore.loadSession_sweep _ t u hu]
  exact h u (le_trans ht hu) sid

/-- The run without its sweeps answers the loads alike. -/
theorem trace_unswept (is : List (Time × Call)) (now : Time) (m m' : SessionStore)
    (h : Alike now m m') (hnow : ∀ i ∈ is, now ≤ i.1) (hs : Ordered is) :
    trace step m is = trace step m' (is.filter fun i => !i.2.isSweep) := by
  induction is generalizing now m m' with
  | nil => rfl
  | cons i is ih =>
    obtain ⟨t, c⟩ := i
    have ht : now ≤ t := hnow (t, c) List.mem_cons_self
    obtain ⟨hlater, hs'⟩ := List.pairwise_cons.mp hs
    cases hc : c.isSweep with
    | true =>
      cases c with
      | sweep => exact ih t _ m' (h.sweep ht) hlater hs'
      | _ => cases hc
    | false =>
      have hout : (step m (t, c)).2 = (step m' (t, c)).2 := by
        cases c with
        | load s => exact congrArg (fun x => [x]) (h t ht s)
        | _ => rfl
      rw [List.filter_cons_of_pos (by simp [hc]), trace, trace, hout,
        ih t _ _ (h.step ht c) hlater hs']

/-- **The in-memory store as its callers see it.** Whatever was called before, on a
clock that does not go back, a load returns a record exactly if the last save or
delete of the session saved it and its time to live is not over, and
`ErrNotFound` if there is none. Two histories that differ only in their sweeps
have the same results. -/
theorem loads_by_history (is : List (Time × Call)) (hs : Ordered is) :
    (∀ pre t sid post, is = pre ++ (t, .load sid) :: post →
      (∀ rec, (step (final step ∅ pre) (t, .load sid)).2 = [some rec] ↔ Holds pre t sid rec) ∧
      ((∀ rec, ¬ Holds pre t sid rec) → (step (final step ∅ pre) (t, .load sid)).2 = [none])) ∧
    ∀ js, Ordered js → (js.filter fun i => !i.2.isSweep) = (is.filter fun i => !i.2.isSweep) →
      trace step ∅ js = trace step ∅ is := by
  constructor
  · rintro pre t sid post rfl
    have ht : ∀ i ∈ pre, i.1 ≤ t := fun i hi =>
      (List.pairwise_append.mp hs).2.2 i hi (t, .load sid) List.mem_cons_self
    have hload := load_iff_holds pre t ht sid
    change (∀ rec, [(final step ∅ pre).loadSession t sid] = [some rec] ↔ _) ∧
      (_ → [(final step ∅ pre).loadSession t sid] = [none])
    constructor
    · intro rec
      rw [← hload rec, List.singleton_inj]
    · intro hnone
      rw [List.singleton_inj]
      refine Option.eq_none_iff_forall_ne_some.mpr ?_
      intro rec hrec
      exact hnone rec ((hload rec).mp hrec)
  · intro js hjs hsame
    have hunswept : ∀ ks, Ordered ks →
        trace step ∅ ks = trace step ∅ (ks.filter fun i => !i.2.isSweep) := by
      intro ks hks
      cases ks with
      | nil => rfl
      | cons k ks =>
        refine trace_unswept (k :: ks) k.1 ∅ ∅ (fun _ _ _ => rfl) ?_ hks
        intro i hi
        obtain rfl | hi := List.mem_cons.mp hi
        · exact le_refl _
        · exact (List.pairwise_cons.mp hks).1 i hi
    rw [hunswept js hjs, hunswept is hs, hsame]

/-- A record saved twice, the second time for less, with and without the sweep
that finds it expired. -/
theorem shortened_session_lost :
    let alice : SessionRecord := ⟨"r", "alice", "n", 0⟩
    let saves : List (Time × Call) := [(0, .save "s" alice 100), (5, .save "s" alice 10)]
    let is := saves ++ [(15, .load "s"), (20, .sweep), (20, .load "s")]
    let js := saves ++ [(15, .load "s"), (20, .load "s")]
    Ordered is ∧ Ordered js ∧ trace step ∅ js = trace step ∅ is ∧
      (trace step ∅ is).map Prod.snd = [some alice, none] := by
  intro alice saves is js
  have hs : Ordered is := by decide
  have hjs : Ordered js := by decide
  exact ⟨hs, hjs, (loads_by_history is hs).2 js hjs rfl, rfl⟩

end RealtimeEngine.Storage.Memory
