import Mathlib.Data.List.Basic
import Mathlib.Data.Nat.Init
import Mathlib.Order.Basic

/-! A replica of a versioned value. A source numbers its values and sends them
whole, as snapshots, or as the difference to the value before. The receiver takes
a snapshot unless it is behind what it has, and a difference only if it is the
next one, so what it holds is always some value of the source; and if it was sent
a snapshot and every later difference, in order, it holds the last one. -/
namespace RealtimeEngine.Foundations
set_option autoImplicit false
set_option maxHeartbeats 250000

section Replicas
variable {V D : Type}

inductive Update (V D : Type)
  | snapshot (version : ℕ) (value : V)
  | delta (version : ℕ) (diff : D)

def Update.version : Update V D → ℕ
  | snapshot n _ => n
  | delta n _ => n

/-- What the receiver holds after one more update. A difference that leaves a gap
is not applied. -/
def follow (absorb : V → D → V) : Option (ℕ × V) → Update V D → Option (ℕ × V)
  | none, .snapshot n v => some (n, v)
  | none, .delta _ _ => none
  | some (m, w), .snapshot n v => if n < m then some (m, w) else some (n, v)
  | some (m, w), .delta n d => if n = m + 1 then some (n, absorb w d) else some (m, w)

def replicate (absorb : V → D → V) (updates : List (Update V D)) : Option (ℕ × V) :=
  updates.foldl (follow absorb) none

/-- `valid n v` says that `v` is the source's value of version `n`. -/
def Faithful (valid : ℕ → V → Prop) (absorb : V → D → V) : Update V D → Prop
  | .snapshot n v => valid n v
  | .delta n d => ∀ m v, n = m + 1 → valid m v → valid n (absorb v d)

/-! ## Nothing but values of the source -/

theorem follow_faithful {valid : ℕ → V → Prop} {absorb : V → D → V} {held : Option (ℕ × V)}
    {u : Update V D} (hu : Faithful valid absorb u) (hh : ∀ x ∈ held, valid x.1 x.2) :
    ∀ x ∈ follow absorb held u, valid x.1 x.2 := by
  intro x hx
  cases held with
  | none =>
    cases u with
    | snapshot n v =>
      cases hx
      exact hu
    | delta n d => cases hx
  | some y =>
    obtain ⟨m, w⟩ := y
    have hold := hh (m, w) rfl
    cases u with
    | snapshot n v =>
      rw [follow] at hx
      split at hx
      · cases hx
        exact hold
      · cases hx
        exact hu
    | delta n d =>
      rw [follow] at hx
      split at hx
      · next hn =>
        cases hx
        exact hu m w hn hold
      · cases hx
        exact hold

/-- What a receiver of faithful updates holds is the source's value of its version. -/
theorem replicate_faithful {valid : ℕ → V → Prop} {absorb : V → D → V}
    {updates : List (Update V D)} (hu : ∀ u ∈ updates, Faithful valid absorb u) {n : ℕ} {v : V}
    (h : replicate absorb updates = some (n, v)) : valid n v := by
  have hrun : ∀ held : Option (ℕ × V), (∀ x ∈ held, valid x.1 x.2) →
      ∀ x ∈ updates.foldl (follow absorb) held, valid x.1 x.2 := by
    clear h
    induction updates with
    | nil => exact fun held hh => hh
    | cons u updates ih =>
      intro held hh
      have hstep := follow_faithful (hu u List.mem_cons_self) hh
      exact ih (fun u' h' => hu u' (List.mem_cons_of_mem u h')) (follow absorb held u) hstep
  exact hrun none (fun x hx => by cases hx) (n, v) h

/-! ## The last value of the source -/

/-- The receiver holds version `n` or a later one. -/
def Reaches (held : Option (ℕ × V)) (n : ℕ) : Prop := ∃ x ∈ held, n ≤ x.1

theorem Reaches.follow {absorb : V → D → V} {held : Option (ℕ × V)} {n : ℕ} (h : Reaches held n)
    (u : Update V D) : Reaches (follow absorb held u) n := by
  obtain ⟨⟨m, w⟩, rfl, hle⟩ := h
  cases u with
  | snapshot k v =>
    rw [Foundations.follow]
    split
    · exact ⟨_, rfl, hle⟩
    · next hk => exact ⟨_, rfl, Nat.le_trans hle (Nat.le_of_not_lt hk)⟩
  | delta k d =>
    rw [Foundations.follow]
    split
    · next hk => exact ⟨_, rfl, by change n ≤ k; omega⟩
    · exact ⟨_, rfl, hle⟩

theorem Reaches.foldl (absorb : V → D → V) {held : Option (ℕ × V)} {n : ℕ} (h : Reaches held n)
    (updates : List (Update V D)) : Reaches (updates.foldl (Foundations.follow absorb) held) n := by
  induction updates generalizing held with
  | nil => exact h
  | cons u updates ih => exact ih (h.follow u)

theorem reaches_snapshot (absorb : V → D → V) (held : Option (ℕ × V)) (n : ℕ) (v : V) :
    Reaches (follow absorb held (.snapshot n v)) n := by
  cases held with
  | none => exact ⟨_, rfl, Nat.le_refl n⟩
  | some x =>
    rw [follow]
    split
    · next hlt => exact ⟨_, rfl, Nat.le_of_lt hlt⟩
    · exact ⟨_, rfl, Nat.le_refl n⟩

theorem Reaches.delta {absorb : V → D → V} {held : Option (ℕ × V)} {n : ℕ} (h : Reaches held n)
    (d : D) : Reaches (Foundations.follow absorb held (.delta (n + 1) d)) (n + 1) := by
  obtain ⟨⟨m, w⟩, rfl, hle⟩ := h
  rw [Foundations.follow]
  split
  · exact ⟨_, rfl, Nat.le_refl _⟩
  · next hne => exact ⟨_, rfl, by change n + 1 ≤ m; change n ≤ m at hle; omega⟩

/-- In an ordered list, an update comes after every update of a lower version. -/
theorem split_after {updates before after : List (Update V D)} {u u' : Update V D}
    (hs : updates.Pairwise fun x y => x.version ≤ y.version) (he : updates = before ++ u :: after)
    (hu : u' ∈ updates) (hlt : u.version < u'.version) :
    ∃ between rest, updates = before ++ u :: between ++ u' :: rest := by
  subst he
  have hafter : u' ∈ after := by
    obtain h | h := List.mem_append.mp hu
    · have hle := (List.pairwise_append.mp hs).2.2 u' h u List.mem_cons_self
      omega
    · obtain rfl | h := List.mem_cons.mp h
      · omega
      · exact h
  obtain ⟨between, rest, rfl⟩ := List.append_of_mem hafter
  exact ⟨between, rest, by simp⟩

/-- A receiver that was sent a snapshot and every later difference up to `N`, with
versions that never go back, holds version `N` or a later one. -/
theorem replicate_reaches (absorb : V → D → V) {updates : List (Update V D)}
    (hs : updates.Pairwise fun x y => x.version ≤ y.version) {v N : ℕ} {w : V}
    (hv : .snapshot v w ∈ updates) (hle : v ≤ N)
    (hd : ∀ n, v < n → n ≤ N → ∃ d, .delta n d ∈ updates) :
    Reaches (replicate absorb updates) N := by
  -- the receiver is at `n` right after the update that brings it there
  have hat : ∀ n, v ≤ n → n ≤ N → ∃ before u after, updates = before ++ u :: after ∧
      u.version = n ∧ Reaches (replicate absorb (before ++ [u])) n := by
    intro n hn
    induction n, hn using Nat.le_induction with
    | base =>
      intro _
      obtain ⟨before, after, he⟩ := List.append_of_mem hv
      refine ⟨before, _, after, he, rfl, ?_⟩
      rw [replicate, List.foldl_append]
      exact reaches_snapshot absorb _ v w
    | succ n hn ih =>
      intro hN
      obtain ⟨before, u, after, he, hu, hr⟩ := ih (by omega)
      obtain ⟨d, hin⟩ := hd (n + 1) (by omega) hN
      obtain ⟨between, rest, he'⟩ := split_after hs he hin (by rw [hu]; exact Nat.lt_succ_self n)
      refine ⟨_, _, rest, he', rfl, ?_⟩
      rw [replicate, List.foldl_append]
      have hbetween := hr.foldl absorb between
      rw [replicate, ← List.foldl_append, List.append_assoc] at hbetween
      exact hbetween.delta d
  obtain ⟨before, u, after, he, -, hr⟩ := hat N hle (Nat.le_refl N)
  have hlast := hr.foldl absorb after
  rw [replicate, ← List.foldl_append, List.append_assoc] at hlast
  rw [he]
  exact hlast

end Replicas
end RealtimeEngine.Foundations
