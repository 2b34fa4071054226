import Mathlib.Tactic.Linarith
import RealtimeEngine.Storage.Maintenance

/-! How long leases last. A room that is gone is unowned a TTL later, whatever has
happened to its last calls. A room that is served in time keeps its lease: the
ticker fires three times in a TTL, so one tick in a row may be lost, as long as
each tick is served within less than half the interval. -/
namespace RealtimeEngine.Storage.Maintenance
open Foundations Domain
open Leases (TTL Redis ownerKey acquireRoomLease renewRoomLease releaseRoomLease roomOwner Held)
set_option autoImplicit false
set_option maxHeartbeats 250000

section Timing
variable {ttl : String → TTL} {s s' : Sys} {l : Label} {R : String} {m m' : Maintainer}

/-! ## A clock that does not go back -/

def forward (s : Sys) : Label → Bool
  | .clock t => decide (s.now ≤ t)
  | _ => true

theorem Move.now_le (hmv : Move ttl s l s') (hf : forward s l = true) : s.now ≤ s'.now := by
  cases hmv with
  | clock t => exact of_decide_eq_true hf
  | _ => exact le_refl _

/-- No lease lasts longer than a TTL from now. -/
def Bounded (ttl : String → TTL) (s : Sys) : Prop :=
  ∀ R m cell, s.rooms R = some m → s.redis.lookup (ownerKey R) = some cell →
    ∃ e, cell = ⟨m.node, some e⟩ ∧ e ≤ s.now + (ttl m.node).duration

theorem Bounded.carried (h : Bounded ttl s) {c : Leases.Call} {R₁ : String} {m₁ : Maintainer}
    (hm₁ : s.rooms R₁ = some m₁) (hc : Issued ttl R₁ m₁.node c) (cell : Cell Time String)
    (hm : s.rooms R = some m)
    (hcell : (Leases.step s.redis (s.now, c)).1.lookup (ownerKey R) = some cell) :
    ∃ e, cell = ⟨m.node, some e⟩ ∧ e ≤ s.now + (ttl m.node).duration := by
  obtain heq | ⟨rfl, ⟨-, hnone⟩ | hheld⟩ := perform_cell hc s.redis s.now R
  · rw [heq] at hcell
    exact h R m cell hm hcell
  · rw [hnone] at hcell
    cases hcell
  · rw [hheld] at hcell
    cases hcell
    rw [hm] at hm₁
    cases hm₁
    exact ⟨_, rfl, le_refl _⟩

theorem Bounded.move (h : Bounded ttl s) (hS : Sole ttl s) (hmv : Move ttl s l s')
    (hf : forward s l = true) : Bounded ttl s' := by
  intro R m' cell hm' hcell
  have hnow := hmv.now_le hf
  -- a key is of a room that was there before
  have hold : ∀ m, s.rooms R = some m →
      (∃ e, cell = ⟨m.node, some e⟩ ∧ e ≤ s.now + (ttl m.node).duration) →
      ∃ e, cell = ⟨m'.node, some e⟩ ∧ e ≤ s'.now + (ttl m'.node).duration := by
    rintro m hm ⟨e, rfl, he⟩
    obtain ⟨m₁, hm₁, hn⟩ := hmv.room hm
    rw [hm'] at hm₁
    cases hm₁
    rw [hn]
    exact ⟨e, rfl, le_trans he (Int.add_le_add_right hnow _)⟩
  have hsame : s'.redis = s.redis →
      ∃ e, cell = ⟨m'.node, some e⟩ ∧ e ≤ s'.now + (ttl m'.node).duration := by
    intro hr
    rw [hr] at hcell
    obtain ⟨m, hm, -⟩ := hS.cell R cell hcell
    exact hold m hm (h R m cell hm hcell)
  cases hmv with
  | perform R₁ m₁ c hm₁ hc hr =>
    obtain ⟨m, hm, -⟩ := hS.carried hm₁ (call_issued hc) R cell hcell
    exact hold m hm (h.carried hm₁ (call_issued hc) cell hm hcell)
  | arrive i c hc =>
    obtain ⟨R₁, m₁, hm₁, hi⟩ := hS.late c hc
    obtain ⟨m, hm, -⟩ := hS.carried hm₁ hi R cell hcell
    exact hold m hm (h.carried hm₁ hi cell hm hcell)
  | _ => exact hsame rfl

theorem bounded_start : Bounded ttl {} := by
  intro R m cell h
  cases h

theorem run_bounded (ls : List Label)
    (hc : Meets (step ttl) (fun s l => forward s l = true) {} ls) (hr : run ttl ls = some s) :
    Sole ttl s ∧ Bounded ttl s :=
  exec_invariant (step ttl) (fun s l => forward s l = true) (fun s => Sole ttl s ∧ Bounded ttl s)
    (fun _ _ _ hf h hstep =>
      ⟨h.1.move (step_move hstep), h.2.move h.1 (step_move hstep) hf⟩)
    {} s ⟨sole_start, bounded_start⟩ ls hc hr

/-! ## Rooms that are gone -/

/-- The goroutine of the room is done and none of its calls is under way. -/
structure Gone (ttl : String → TTL) (s : Sys) (R : String) : Prop where
  done : ∃ m, s.rooms R = some m ∧ m.stage = .done
  quiet : ∀ c ∈ s.late, ∀ node, ¬ Issued ttl R node c

theorem issued_room {c : Leases.Call} {R₁ R₂ node₁ node₂ : String} (h₁ : Issued ttl R₁ node₁ c)
    (h₂ : Issued ttl R₂ node₂ c) : R₁ = R₂ := by
  cases h₁ <;> cases h₂ <;> rfl

theorem Gone.call (h : Gone ttl s R) {R₁ : String} {m₁ : Maintainer} {c : Leases.Call}
    (hm₁ : s.rooms R₁ = some m₁) (hc : m₁.call ttl R₁ = some c) : R ≠ R₁ := by
  rintro rfl
  obtain ⟨m, hm, hd⟩ := h.done
  rw [hm] at hm₁
  cases hm₁
  unfold Maintainer.call at hc
  rw [hd] at hc
  cases hc

theorem Gone.move (h : Gone ttl s R) (hS : Sole ttl s) (hmv : Move ttl s l s') :
    Gone ttl s' R ∧ s'.redis.lookup (ownerKey R) = s.redis.lookup (ownerKey R) := by
  have hdone : ∃ m, s'.rooms R = some m ∧ m.stage = .done := by
    obtain ⟨m, hm, hd⟩ := h.done
    exact hmv.done hm hd
  have hother : ∀ {c : Leases.Call} {R₁ node₁ : String}, Issued ttl R₁ node₁ c → R ≠ R₁ →
      (Leases.step s.redis (s.now, c)).1.lookup (ownerKey R) = s.redis.lookup (ownerKey R) := by
    intro c R₁ node₁ hi hne
    obtain heq | ⟨heq, -⟩ := perform_cell hi s.redis s.now R
    · exact heq
    · exact absurd heq hne
  cases hmv with
  | perform R₁ m₁ c hm₁ hc hr =>
    exact ⟨⟨hdone, h.quiet⟩, hother (call_issued hc) (h.call hm₁ hc)⟩
  | fail R₁ sent m₁ c late hm₁ hc hl =>
    refine ⟨⟨hdone, ?_⟩, rfl⟩
    intro c' hc' node hi
    obtain rfl | rfl := hl
    · exact h.quiet c' hc' node hi
    · obtain hold | hnew := List.mem_append.mp hc'
      · exact h.quiet c' hold node hi
      · rw [List.mem_singleton.mp hnew] at hi
        exact h.call hm₁ hc (issued_room hi (call_issued hc))
  | arrive i c hc =>
    refine ⟨⟨hdone, fun c' hc' => h.quiet c' (List.mem_of_mem_eraseIdx hc')⟩, ?_⟩
    obtain ⟨R₁, m₁, hm₁, hi⟩ := hS.late c hc
    refine hother hi ?_
    rintro rfl
    exact h.quiet c hc _ hi
  | drop i => exact ⟨⟨hdone, fun c' hc' => h.quiet c' (List.mem_of_mem_eraseIdx hc')⟩, rfl⟩
  | create R₁ node hm => exact ⟨⟨hdone, h.quiet⟩, rfl⟩
  | next l R₁ m₁ m₂ hm₁ hn => exact ⟨⟨hdone, h.quiet⟩, rfl⟩
  | answer R₁ m₁ ok hm₁ hr => exact ⟨⟨hdone, h.quiet⟩, rfl⟩
  | clock t => exact ⟨⟨hdone, h.quiet⟩, rfl⟩

/-- **A room that is gone is unowned a TTL later.** Once the goroutine of a room is
done, whether its release was granted, refused or lost, and none of its calls is
under way, nothing renews the lease: if the clock has not gone back so far, then from
a TTL on after that instant the room has no owner, in every continuation of the run. -/
theorem gone_unowned (ttl : String → TTL) (ls₁ ls₂ : List Label) (s₁ s₂ : Sys)
    (hc : Meets (step ttl) (fun s l => forward s l = true) {} ls₁) (h₁ : run ttl ls₁ = some s₁)
    (h₂ : exec (step ttl) s₁ ls₂ = some s₂) (R : String) (m : Maintainer)
    (hm : s₁.rooms R = some m) (hd : m.stage = .done)
    (hq : ∀ c ∈ s₁.late, ∀ node, ¬ Issued ttl R node c) (t : Time)
    (ht : s₁.now + (ttl m.node).duration ≤ t) : roomOwner s₂.redis t R = none := by
  obtain ⟨hS, hB⟩ := run_bounded ls₁ hc h₁
  obtain ⟨-, -, hkey⟩ := exec_invariant (step ttl) (fun _ _ => True)
    (fun s => Sole ttl s ∧ Gone ttl s R ∧
      s.redis.lookup (ownerKey R) = s₁.redis.lookup (ownerKey R))
    (fun s l s' _ h hstep => by
      obtain ⟨hG, hkey⟩ := h.2.1.move h.1 (step_move hstep)
      exact ⟨h.1.move (step_move hstep), hG, hkey.trans h.2.2⟩)
    s₁ s₂ ⟨hS, ⟨⟨m, hm, hd⟩, hq⟩, rfl⟩ ls₂
    (meets_of_forall (step ttl) _ (fun _ _ => trivial) s₁ ls₂) h₂
  cases hget : roomOwner s₂.redis t R with
  | none => rfl
  | some node =>
    obtain ⟨x, hcell, hlive⟩ := (Keyspace.get_eq_some _ _ _ _).mp hget
    rw [hkey] at hcell
    obtain ⟨e, he, hle⟩ := hB R m _ hm hcell
    cases he
    exact absurd (hlive e rfl) (not_lt_of_ge (le_trans hle ht))

/-- The first lease was granted and its answer was lost; another node goes on. -/
theorem lost_answer_unowned :
    ∃ s, run nine [.create "r" "a", .perform "r", .fail "r" true, .create "q" "b", .perform "q",
        .clock (9 * millisecond)] = some s ∧
      roomOwner s.redis (8 * millisecond) "r" = some "a" ∧
      roomOwner s.redis (9 * millisecond) "r" = none := by
  have hc : Meets (step nine) (fun s l => forward s l = true) {}
      [.create "r" "a", .perform "r", .fail "r" true] := by decide +kernel
  have h₁ : ((run nine [.create "r" "a", .perform "r", .fail "r" true]).any fun s₁ =>
      s₁.late.isEmpty && decide (s₁.now = 0) &&
      ((s₁.rooms "r").any fun m => decide (m.stage = .done)) &&
      (exec (step nine) s₁ [.create "q" "b", .perform "q", .clock (9 * millisecond)]).any fun s₂ =>
        decide (roomOwner s₂.redis (8 * millisecond) "r" = some "a")) = true := by
    decide +kernel
  obtain ⟨s₁, hs₁, htest⟩ := Option.any_eq_true _ _ |>.mp h₁
  simp only [Bool.and_eq_true, decide_eq_true_eq] at htest
  obtain ⟨⟨⟨hlate, hnow⟩, hroom⟩, hrest⟩ := htest
  obtain ⟨m, hm, hd⟩ := Option.any_eq_true _ _ |>.mp hroom
  obtain ⟨s₂, hs₂, howner⟩ := Option.any_eq_true _ _ |>.mp hrest
  refine ⟨s₂, ?_, of_decide_eq_true howner, ?_⟩
  · change exec (step nine) {} ([.create "r" "a", .perform "r", .fail "r" true] ++ _) = some s₂
    rw [exec_append]
    change (run nine _).bind _ = some s₂
    rw [hs₁]
    exact hs₂
  · refine gone_unowned nine _ _ s₁ s₂ hc hs₁ hs₂ "r" m hm (of_decide_eq_true hd) ?_ _ ?_
    · rw [List.isEmpty_iff.mp hlate]
      exact fun c hc => by cases hc
    · rw [hnow]
      change (0 : ℤ) + (9 : ℕ) * millisecond ≤ 9 * millisecond
      decide

/-! ## Rooms that are served in time -/

theorem interval_spec (t : TTL) : 0 < interval t ∧ 3 * interval t ≤ t.duration := by
  obtain ⟨T, hT⟩ : ∃ T : ℤ, t.duration = T := ⟨_, rfl⟩
  have hpos : (1000000 : ℤ) ≤ T := by
    have h := t.pos
    rw [← hT]
    change (1000000 : ℤ) ≤ (t.milliseconds : ℤ) * 1000000
    omega
  have hdiv : T.tdiv 3 = T / 3 := Int.tdiv_eq_ediv_of_nonneg (by omega)
  have hthird : 0 < T / 3 := by omega
  have hthree : 3 * (T / 3) ≤ T := by omega
  unfold interval
  rw [hT, hdiv, if_neg (not_le_of_gt hthird)]
  exact ⟨hthird, hthree⟩

/-- The lease was taken and the goroutine has not begun to give it up. -/
def Maintainer.maintained (m : Maintainer) : Bool :=
  match m.stage with
  | .acquire => decide (m.reply = some true)
  | .start | .select | .renew | .reacquire => true
  | .release | .done => false

/-- By when the goroutine has to get on, if it may take `δ` for each tick. -/
def Maintainer.limit (δ : Duration) (m : Maintainer) : Option Time :=
  match m.stage with
  | .acquire => if m.reply.isSome then some (m.asked + δ) else none
  | .start | .renew | .reacquire => some (m.asked + δ)
  | .select => some ((if m.ticked then m.asked else m.due) + δ)
  | .release | .done => none

/-- Time does not pass the limit of the room, and a renewal does not fail right after
a tick that was not granted anything. -/
def timely (δ : Duration) (R : String) (s : Sys) : Label → Bool
  | .clock t => decide (s.now ≤ t) &&
      ((s.rooms R).bind (Maintainer.limit δ)).all fun limit => decide (t ≤ limit)
  | .fail R' _ => !(decide (R' = R) && (s.rooms R).any fun m =>
      m.missed && decide (m.stage = .renew))
  | _ => true

/-- A goroutine that is in time, with a lease until `e`. -/
inductive Served (δ I T : Duration) (now e : Time) (m : Maintainer) : Prop
  | first (hs : m.stage = .acquire ∧ m.reply = some true ∨ m.stage = .start ∧ m.reply = none)
      (hw : now ≤ m.asked + δ) (he : m.asked + T ≤ e)
  | idle (hs : m.stage = .select) (hr : m.reply = none) (ht : m.ticked = false)
      (hw : now ≤ m.due + δ) (he : m.due + I - δ ≤ e)
      (hm : m.missed = false → m.due + 2 * I - δ ≤ e)
  | asked (hs : m.stage = .select ∧ m.ticked = true ∧ m.reply = none ∨
        m.stage = .renew ∧ m.ticked = false ∧ m.reply ≠ some false)
      (hw : m.asked ≤ now ∧ now ≤ m.asked + δ) (hd : m.due = m.asked + I)
      (he : m.asked + I - δ ≤ e) (hm : m.missed = false → m.asked + 2 * I - δ ≤ e)
      (hr : m.reply = some true → m.asked + T ≤ e)
  | again (hs : m.stage = .reacquire) (ht : m.ticked = false)
      (hw : m.asked ≤ now ∧ now ≤ m.asked + δ) (hd : m.due = m.asked + I)
      (he : m.asked + 2 * I - δ ≤ e) (hm : m.missed = false) (hr : m.reply ≠ some true)

section Served
variable {δ I T : Duration} {now e : Time}

/-- The lease has not run out. -/
theorem Served.lt (h : Served δ I T now e m) (hδ : 0 ≤ δ) (hI : 2 * δ < I) (hT : 3 * I ≤ T) :
    now < e := by
  cases h with
  | first hs hw he => linarith
  | idle hs hr ht hw he hm => linarith
  | asked hs hw hd he hm hr => linarith
  | again hs ht hw hd he hm hr => linarith

theorem Served.later {e' : Time} (h : Served δ I T now e m) (hle : e ≤ e') :
    Served δ I T now e' m := by
  cases h with
  | first hs hw he => exact .first hs hw (by linarith)
  | idle hs hr ht hw he hm =>
    exact .idle hs hr ht hw (by linarith) fun hf => by have := hm hf; linarith
  | asked hs hw hd he hm hr =>
    exact .asked hs hw hd (by linarith) (fun hf => by have := hm hf; linarith)
      fun hf => by have := hr hf; linarith
  | again hs ht hw hd he hm hr => exact .again hs ht hw hd (by linarith) hm hr

theorem Served.clock {t : Time} (h : Served δ I T now e m) (hnow : now ≤ t)
    (hl : ∀ limit, m.limit δ = some limit → t ≤ limit) : Served δ I T t e m := by
  cases h with
  | first hs hw he =>
    refine .first hs (hl _ ?_) he
    obtain ⟨hs, hr⟩ | ⟨hs, hr⟩ := hs
    · simp [Maintainer.limit, hs, hr]
    · simp [Maintainer.limit, hs]
  | idle hs hr ht hw he hm =>
    exact .idle hs hr ht (hl _ (by simp [Maintainer.limit, hs, ht])) he hm
  | asked hs hw hd he hm hr =>
    have hlim : m.limit δ = some (m.asked + δ) := by
      obtain ⟨hs, ht, -⟩ | ⟨hs, -, -⟩ := hs
      · simp [Maintainer.limit, hs, ht]
      · simp [Maintainer.limit, hs]
    exact .asked hs ⟨by linarith, hl _ hlim⟩ hd he hm hr
  | again hs ht hw hd he hm hr =>
    exact .again hs ht ⟨by linarith, hl _ (by simp [Maintainer.limit, hs])⟩ hd he hm hr

/-- A tick is due `I` after the one before. -/
theorem fired_due {due : Time} (h₀ : due ≤ now) (h₁ : now < due + I) :
    due + I * (1 + (now - due) / I) = due + I := by
  have hdiv : (now - due) / I = 0 := Int.ediv_eq_zero_of_lt (by linarith) (by linarith)
  rw [hdiv]
  linarith

/-- The goroutine begins to serve its ticker. -/
theorem Served.launch (h : Served δ I T now e m) (hδ : 0 ≤ δ) (hI : 2 * δ < I) (hT : 3 * I ≤ T)
    (hs : m.stage = .start) : Served δ I T now e
      { m with stage := .select, due := now + I, ticked := false } := by
  cases h with
  | first hs' hw he =>
    have hr : m.reply = none := by
      obtain ⟨hs', -⟩ | ⟨-, hr⟩ := hs'
      · rw [hs] at hs'
        cases hs'
      · exact hr
    refine .idle rfl hr rfl ?_ ?_ fun _ => ?_
    · change now ≤ now + I + δ
      linarith
    · change now + I + I - δ ≤ e
      linarith
    · change now + I + 2 * I - δ ≤ e
      linarith
  | idle hs' => exact absurd (hs.symm.trans hs') Stage.noConfusion
  | asked hs' =>
    obtain ⟨hs', -⟩ | ⟨hs', -⟩ := hs' <;> exact absurd (hs.symm.trans hs') Stage.noConfusion
  | again hs' => exact absurd (hs.symm.trans hs') Stage.noConfusion

/-- The ticker fires: the goroutine was waiting for it. -/
theorem Served.fire (h : Served δ I T now e m) (hδ : 0 ≤ δ) (hI : 2 * δ < I)
    (ht : m.ticking = true) (hd : m.due ≤ now) : Served δ I T now e (m.fired now I) := by
  cases h with
  | first hs =>
    obtain ⟨hs, -⟩ | ⟨hs, -⟩ := hs <;> simp [Maintainer.ticking, hs] at ht
  | idle hs hr ht hw he hm =>
    have hdue := fired_due (I := I) hd (by linarith)
    have hasked : (m.fired now I).asked = m.due := by simp [Maintainer.fired, ht]
    refine .asked (Or.inl ⟨hs, rfl, hr⟩) ?_ ?_ ?_ ?_ ?_
    · rw [hasked]
      exact ⟨hd, hw⟩
    · rw [hasked]
      exact hdue
    · rw [hasked]
      exact he
    · rw [hasked]
      exact hm
    · intro hr'
      have hnone : (m.fired now I).reply = none := hr
      rw [hnone] at hr'
      cases hr'
  | asked hs hw hdue => linarith
  | again hs ht' hw hdue => linarith

/-- The goroutine takes the tick. -/
theorem Served.tick (h : Served δ I T now e m) (hs : m.stage = .select) (ht : m.ticked = true) :
    Served δ I T now e { m with stage := .renew, ticked := false } := by
  cases h with
  | first hs' =>
    obtain ⟨hs', -⟩ | ⟨hs', -⟩ := hs' <;> exact absurd (hs.symm.trans hs') Stage.noConfusion
  | idle hs' hr ht' =>
    rw [ht] at ht'
    cases ht'
  | asked hs' hw hd he hm hr =>
    have hnone : m.reply = none := by
      obtain ⟨-, -, hnone⟩ | ⟨hs', -⟩ := hs'
      · exact hnone
      · exact absurd (hs.symm.trans hs') Stage.noConfusion
    refine .asked (Or.inr ⟨rfl, rfl, ?_⟩) hw hd he hm hr
    change m.reply ≠ some false
    rw [hnone]
    exact fun hf => by cases hf
  | again hs' => exact absurd (hs.symm.trans hs') Stage.noConfusion

theorem Served.stop (h : Served δ I T now e m) : Served δ I T now e { m with stopped := true } := by
  cases h with
  | first hs hw he => exact .first hs hw he
  | idle hs hr ht hw he hm => exact .idle hs hr ht hw he hm
  | asked hs hw hd he hm hr => exact .asked hs hw hd he hm hr
  | again hs ht hw hd he hm hr => exact .again hs ht hw hd he hm hr

/-- What a goroutine does by itself keeps it in time, or it gives the lease up. -/
theorem Served.next {t : TTL} (h : Served δ (interval t) T now e m) (hδ : 0 ≤ δ)
    (hI : 2 * δ < interval t) (hT : 3 * interval t ≤ T) (hn : m.next t now l = some m')
    (hm' : m'.maintained = true) : Served δ (interval t) T now e m' := by
  unfold Maintainer.next at hn
  split at hn
  · split at hn
    · next hs =>
      cases hn
      exact h.launch hδ hI hT hs
    · cases hn
  · split at hn
    · next hc =>
      cases hn
      exact h.fire hδ hI hc.1 hc.2
    · cases hn
  · split at hn
    · next hc =>
      cases hn
      exact h.tick hc.1 hc.2
    · cases hn
  · cases hn
    exact h.stop
  · split at hn
    · cases hn
      cases hm'
    · cases hn
  · cases hn

/-- A renewal was granted. -/
theorem Served.renewed (h : Served δ I T now e m) (hs : m.stage = .renew) (he : now + T ≤ e) :
    Served δ I T now e (m.executed now true) := by
  have hexec : m.executed now true = { m with reply := some true } := by
    simp [Maintainer.executed, hs]
  rw [hexec]
  cases h with
  | first hs' =>
    obtain ⟨hs', -⟩ | ⟨hs', -⟩ := hs' <;> exact absurd (hs.symm.trans hs') Stage.noConfusion
  | idle hs' => exact absurd (hs.symm.trans hs') Stage.noConfusion
  | asked hs' hw hd he' hm hr =>
    obtain ⟨hs', -⟩ | ⟨-, hq, -⟩ := hs'
    · exact absurd (hs.symm.trans hs') Stage.noConfusion
    · refine .asked (Or.inr ⟨hs, hq, fun h => by cases h⟩) hw hd he' hm fun _ => ?_
      change m.asked + T ≤ e
      linarith
  | again hs' => exact absurd (hs.symm.trans hs') Stage.noConfusion

/-- The lease could not be taken again. -/
theorem Served.refused (h : Served δ I T now e m) (hs : m.stage = .reacquire) :
    Served δ I T now e (m.executed now false) := by
  have hexec : m.executed now false = { m with reply := some false } := by
    simp [Maintainer.executed, hs]
  rw [hexec]
  cases h with
  | first hs' =>
    obtain ⟨hs', -⟩ | ⟨hs', -⟩ := hs' <;> exact absurd (hs.symm.trans hs') Stage.noConfusion
  | idle hs' => exact absurd (hs.symm.trans hs') Stage.noConfusion
  | asked hs' =>
    obtain ⟨hs', -⟩ | ⟨hs', -⟩ := hs' <;> exact absurd (hs.symm.trans hs') Stage.noConfusion
  | again hs' hq hw hd he hm hr => exact .again hs hq hw hd he hm fun h => by cases h

/-- The second call of a tick was not granted anything. -/
theorem Served.missed_tick (hs : m.stage = .reacquire) (hq : m.ticked = false)
    (hw : now ≤ m.asked + δ) (hd : m.due = m.asked + I) (he : m.asked + 2 * I - δ ≤ e)
    (hδ : 0 ≤ δ) (hI : 2 * δ < I) : Served δ I T now e (m.returned false) := by
  have hret : m.returned false = { m with reply := none, stage := .select, missed := true } := by
    simp [Maintainer.returned, hs]
  rw [hret]
  refine .idle rfl rfl hq ?_ ?_ fun hf => by cases hf
  · change now ≤ m.due + δ
    linarith
  · change m.due + I - δ ≤ e
    linarith

/-- A call has returned with its answer. -/
theorem Served.answer (h : Served δ I T now e m) (hδ : 0 ≤ δ) (hI : 2 * δ < I) (hT : 3 * I ≤ T)
    {ok : Bool} (hr : m.reply = some ok) : Served δ I T now e (m.returned ok) := by
  have hnone : m.reply ≠ none := by
    rw [hr]
    exact fun h => by cases h
  cases h with
  | first hs hw he =>
    obtain ⟨hs, ht⟩ | ⟨-, ht⟩ := hs
    · rw [hr] at ht
      cases ht
      have hret : m.returned true = { m with reply := none, stage := .start } := by
        simp [Maintainer.returned, hs]
      rw [hret]
      exact .first (Or.inr ⟨rfl, rfl⟩) hw he
    · exact absurd ht hnone
  | idle hs ht => exact absurd ht hnone
  | asked hs hw hd he hm ht =>
    obtain ⟨-, -, hn⟩ | ⟨hs, hq, hne⟩ := hs
    · exact absurd hn hnone
    · cases ok with
      | false => exact absurd hr hne
      | true =>
        have hlong := ht hr
        have hret : m.returned true = { m with reply := none, stage := .select, missed := false } := by
          simp [Maintainer.returned, hs]
        rw [hret]
        refine .idle rfl rfl hq ?_ ?_ fun _ => ?_
        · change now ≤ m.due + δ
          linarith
        · change m.due + I - δ ≤ e
          linarith
        · change m.due + 2 * I - δ ≤ e
          linarith
  | again hs hq hw hd he hm hne =>
    cases ok with
    | true => exact absurd hr hne
    | false => exact .missed_tick hs hq hw.2 hd he hδ hI

/-- A call has failed; a renewal only if the tick before was granted something. -/
theorem Served.fail (h : Served δ I T now e m) (hδ : 0 ≤ δ) (hI : 2 * δ < I)
    (hf : m.stage = .renew → m.missed = false) (hm' : (m.returned false).maintained = true) :
    Served δ I T now e (m.returned false) := by
  have hidle : m.returned false = m → Served δ I T now e (m.returned false) := by
    intro heq
    rw [heq]
    exact h
  cases h with
  | first hs hw he =>
    obtain ⟨hs, -⟩ | ⟨hs, -⟩ := hs
    · simp [Maintainer.returned, Maintainer.maintained, hs] at hm'
    · exact hidle (by simp [Maintainer.returned, hs])
  | idle hs => exact hidle (by simp [Maintainer.returned, hs])
  | asked hs hw hd he hm ht =>
    obtain ⟨hs, -⟩ | ⟨hs, hq, hne⟩ := hs
    · exact hidle (by simp [Maintainer.returned, hs])
    · have hret : m.returned false = { m with reply := none, stage := .reacquire } := by
        simp [Maintainer.returned, hs]
      rw [hret]
      exact .again rfl hq hw hd (hm (hf hs)) (hf hs) fun h => by cases h
  | again hs hq hw hd he hm hne => exact .missed_tick hs hq hw.2 hd he hδ hI

end Served

/-! ## The lease of such a room -/

/-- The room's lease is its goroutine's, and that is in time. -/
def Kept (ttl : String → TTL) (δ : Duration) (R : String) (s : Sys) : Prop :=
  ∀ m, s.rooms R = some m → m.maintained = true → 2 * δ < interval (ttl m.node) →
    ∃ e, Held R m.node e s.redis ∧
      Served δ (interval (ttl m.node)) (ttl m.node).duration s.now e m

theorem kept_start {δ : Duration} : Kept ttl δ R {} := by
  intro m h
  cases h

theorem next_maintained {t : TTL} {now : Time} (hn : m.next t now l = some m')
    (hm' : m'.maintained = true) : m.maintained = true := by
  unfold Maintainer.next at hn
  split at hn
  · split at hn
    · next hs => simp [Maintainer.maintained, hs]
    · cases hn
  · split at hn
    · cases hn
      exact hm'
    · cases hn
  · split at hn
    · next hs => simp [Maintainer.maintained, hs.1]
    · cases hn
  · cases hn
    exact hm'
  · split at hn
    · cases hn
      cases hm'
    · cases hn
  · cases hn

/-- What has returned and is maintained was so before, unless the first lease was refused. -/
theorem returned_maintained {ok : Bool} (hm' : (m.returned ok).maintained = true)
    (hr : m.stage = .acquire → ok = true → m.reply = some true) : m.maintained = true := by
  unfold Maintainer.returned at hm'
  split at hm'
  · next hs =>
    cases ok with
    | true => simp [Maintainer.maintained, hs, hr hs rfl]
    | false => cases hm'
  · next hs => simp [Maintainer.maintained, hs]
  · next hs => simp [Maintainer.maintained, hs]
  · cases hm'
  · exact hm'

/-- A call about any room leaves a lease that is held, or makes it longer; the room's
own release apart. -/
theorem held_kept {e : Time} {c : Leases.Call} {R₁ : String} {m₁ : Maintainer}
    (h : Held R m.node e s.redis) (he : e ≤ s.now + (ttl m.node).duration)
    (hm : s.rooms R = some m) (hm₁ : s.rooms R₁ = some m₁) (hc : Issued ttl R₁ m₁.node c)
    (hrel : c ≠ .release R m.node) :
    ∃ e', e ≤ e' ∧ Held R m.node e' (Leases.step s.redis (s.now, c)).1 := by
  obtain heq | ⟨rfl, hown⟩ := perform_cell hc s.redis s.now R
  · exact ⟨e, le_refl e, heq.trans h⟩
  · rw [hm] at hm₁
    cases hm₁
    obtain ⟨rfl, -⟩ | hheld := hown
    · exact absurd rfl hrel
    · exact ⟨_, he, hheld⟩

/-- The goroutine's own call is carried out. -/
theorem Kept.performed {δ : Duration} (h : Kept ttl δ R s) (hB : Bounded ttl s) (hδ : 0 ≤ δ)
    {c : Leases.Call} (hm : s.rooms R = some m) (hc : m.call ttl R = some c)
    (ha : (m.executed s.now (granted s.redis s.now c)).maintained = true)
    (hI : 2 * δ < interval (ttl m.node)) :
    ∃ e, Held R m.node e (Leases.step s.redis (s.now, c)).1 ∧
      Served δ (interval (ttl m.node)) (ttl m.node).duration s.now e
        (m.executed s.now (granted s.redis s.now c)) := by
  obtain ⟨-, hthree⟩ := interval_spec (ttl m.node)
  unfold Maintainer.call at hc
  split at hc
  · -- the first lease was granted
    next hs =>
    cases hc
    have hok : granted s.redis s.now (.acquire R m.node (ttl m.node)) = true := by
      simpa [Maintainer.maintained, Maintainer.executed, hs] using ha
    have hg : (Leases.step s.redis (s.now, .acquire R m.node (ttl m.node))).2 = [true] :=
      congrArg (fun b => [b]) hok
    refine ⟨_, Leases.grant_held .acquire hg, ?_⟩
    have hasked : (m.executed s.now (granted s.redis s.now (.acquire R m.node (ttl m.node)))).asked =
        s.now := by
      simp [Maintainer.executed, hs]
    refine .first (Or.inl ⟨hs, congrArg some hok⟩) ?_ ?_
    · rw [hasked]
      linarith
    · rw [hasked]
  · -- it was refused again: the lease is still there
    next hs =>
    cases hc
    obtain ⟨e, hheld, hserved⟩ := h m hm (by simp [Maintainer.maintained, hs]) hI
    have hbusy := hheld.acquire (hserved.lt hδ hI hthree) m.node (ttl m.node)
    have hok : granted s.redis s.now (.acquire R m.node (ttl m.node)) = false :=
      congrArg Prod.snd hbusy
    have hredis : (Leases.step s.redis (s.now, .acquire R m.node (ttl m.node))).1 = s.redis :=
      congrArg Prod.fst hbusy
    rw [hok, hredis]
    exact ⟨e, hheld, hserved.refused hs⟩
  · next hs =>
    cases hc
    obtain ⟨e, hheld, hserved⟩ := h m hm (by simp [Maintainer.maintained, hs]) hI
    have hok : granted s.redis s.now (.renew R m.node (ttl m.node)) = true :=
      hheld.renew_self (hserved.lt hδ hI hthree) (ttl m.node)
    have hg : (Leases.step s.redis (s.now, .renew R m.node (ttl m.node))).2 = [true] :=
      congrArg (fun b => [b]) hok
    obtain ⟨e', he', hle⟩ := hB R m _ hm hheld
    cases he'
    rw [hok]
    exact ⟨_, Leases.grant_held .renew hg, (hserved.later hle).renewed hs (le_refl _)⟩
  · next hs => simp [Maintainer.maintained, Maintainer.executed, hs] at ha
  · cases hc

theorem timely_forward {δ : Duration} (h : timely δ R s l = true) : forward s l = true := by
  cases l with
  | clock t =>
    simp only [timely, Bool.and_eq_true] at h
    exact h.1
  | _ => rfl

theorem timely_limit {δ : Duration} {t limit : Time} (h : timely δ R s (.clock t) = true)
    (hm : s.rooms R = some m) (hl : m.limit δ = some limit) : t ≤ limit := by
  simp only [timely, Bool.and_eq_true, hm, Option.bind_some, hl, Option.all_some,
    decide_eq_true_eq] at h
  exact h.2

theorem timely_fail {δ : Duration} {sent : Bool} (h : timely δ R s (.fail R sent) = true)
    (hm : s.rooms R = some m) (hs : m.stage = .renew) : m.missed = false := by
  simpa [timely, hm, hs] using h

/-- The call of another room, or one that comes late, is carried out. -/
theorem Kept.carried {δ : Duration} (h : Kept ttl δ R s) (hB : Bounded ttl s) {c : Leases.Call}
    {R₁ : String} {m₁ : Maintainer} (hm : s.rooms R = some m) (hm₁ : s.rooms R₁ = some m₁)
    (hc : Issued ttl R₁ m₁.node c) (hrel : c ≠ .release R m.node) (ha : m.maintained = true)
    (hI : 2 * δ < interval (ttl m.node)) :
    ∃ e, Held R m.node e (Leases.step s.redis (s.now, c)).1 ∧
      Served δ (interval (ttl m.node)) (ttl m.node).duration s.now e m := by
  obtain ⟨e, hheld, hserved⟩ := h m hm ha hI
  obtain ⟨e', he', hle⟩ := hB R m _ hm hheld
  cases he'
  obtain ⟨e', hlater, hheld'⟩ := held_kept hheld hle hm hm₁ hc hrel
  exact ⟨e', hheld', hserved.later hlater⟩

theorem Kept.move {δ : Duration} (h : Kept ttl δ R s) (hS : Sole ttl s) (hB : Bounded ttl s)
    (hδ : 0 ≤ δ) (hmv : Move ttl s l s') (ht : timely δ R s l = true) : Kept ttl δ R s' := by
  -- a step of the goroutine of a room that makes no call, or has one returned
  have hset : ∀ R₁ m₁ m₂ late, s.rooms R₁ = some m₁ → m₂.node = m₁.node →
      (R = R₁ → m₂.maintained = true → 2 * δ < interval (ttl m₁.node) →
        m₁.maintained = true ∧ ∀ e,
          Served δ (interval (ttl m₁.node)) (ttl m₁.node).duration s.now e m₁ →
          Served δ (interval (ttl m₁.node)) (ttl m₁.node).duration s.now e m₂) →
      Kept ttl δ R { s.set R₁ m₂ with late := late } := by
    intro R₁ m₁ m₂ late hm₁ hn hown m hm ha hI
    change (s.set R₁ m₂).rooms R = some m at hm
    rw [set_rooms] at hm
    split at hm
    · next hR =>
      cases hm
      subst hR
      rw [hn] at hI ⊢
      obtain ⟨ha₁, hkeep⟩ := hown rfl ha hI
      obtain ⟨e, hheld, hserved⟩ := h m₁ hm₁ ha₁ hI
      exact ⟨e, hheld, hkeep e hserved⟩
    · exact h m hm ha hI
  cases hmv with
  | create R₁ node hnone =>
    intro m hm ha hI
    rw [set_rooms] at hm
    split at hm
    · cases hm
      cases ha
    · exact h m hm ha hI
  | next l R₁ m₁ m₂ hm₁ hn =>
    refine hset R₁ m₁ m₂ s.late hm₁ (next_node hn) fun _ ha hI => ⟨next_maintained hn ha, ?_⟩
    intro e hserved
    exact hserved.next hδ hI (interval_spec _).2 hn ha
  | answer R₁ m₁ ok hm₁ hr =>
    refine hset R₁ m₁ _ s.late hm₁ (returned_node ok m₁) fun _ ha hI => ⟨?_, fun e hserved => ?_⟩
    · refine returned_maintained ha fun _ hok => ?_
      rw [hr, hok]
    · exact hserved.answer hδ hI (interval_spec _).2 hr
  | fail R₁ sent m₁ c late hm₁ hc hl =>
    refine hset R₁ m₁ _ late hm₁ (returned_node false m₁) ?_
    rintro rfl ha hI
    refine ⟨returned_maintained ha fun _ hok => ?_, fun e hserved => ?_⟩
    · cases hok
    · exact hserved.fail hδ hI (timely_fail ht hm₁) ha
  | perform R₁ m₁ c hm₁ hc hr =>
    intro m hm ha hI
    change (s.set R₁ _).rooms R = some m at hm
    rw [set_rooms] at hm
    split at hm
    · next hR =>
      cases hm
      subst hR
      exact h.performed hB hδ hm₁ hc ha hI
    · next hR =>
      refine h.carried hB hm hm₁ (call_issued hc) ?_ ha hI
      rintro rfl
      have hrel : Issued ttl R m.node (.release R m.node) := .release
      exact hR (issued_room hrel (call_issued hc))
  | arrive i c hc =>
    intro m hm ha hI
    obtain ⟨R₁, m₁, hm₁, hi⟩ := hS.late c hc
    refine h.carried hB hm hm₁ hi ?_ ha hI
    -- the room's own release comes from a goroutine that is done
    rintro rfl
    obtain ⟨m₂, hm₂, hd⟩ := hS.release R _ hc
    rw [show s.rooms R = some m from hm] at hm₂
    cases hm₂
    simp [Maintainer.maintained, hd] at ha
  | drop i => exact h
  | clock t =>
    intro m hm ha hI
    obtain ⟨e, hheld, hserved⟩ := h m hm ha hI
    refine ⟨e, hheld, hserved.clock ?_ fun limit hl => timely_limit ht hm hl⟩
    exact of_decide_eq_true (timely_forward ht)

/-- **A lease outlives every second tick.** Let `CreateRoom` have the answer to its first
lease and the goroutine launched within `δ` of the grant, let the goroutine serve each tick
within `δ`, less than half the interval of its ticker, and let it have lost no two ticks in
a row, whether a renewal failed before or after it was carried out and whatever other
rooms, other nodes and late calls do. Then the room has an owner from the instant its
first lease was taken until the goroutine gives the lease up. -/
theorem lease_survives_lost_ticks (ttl : String → TTL) (δ : Duration) (hδ : 0 ≤ δ) (R : String)
    (ls : List Label) (s : Sys)
    (hc : Meets (step ttl) (fun s l => timely δ R s l = true) {} ls) (hr : run ttl ls = some s)
    (m : Maintainer) (hm : s.rooms R = some m) (hI : 2 * δ < interval (ttl m.node))
    (ha : m.maintained = true) : roomOwner s.redis s.now R = some m.node := by
  obtain ⟨-, -, hK⟩ := exec_invariant (step ttl) (fun s l => timely δ R s l = true)
    (fun s => Sole ttl s ∧ Bounded ttl s ∧ Kept ttl δ R s)
    (fun s l s' ht h hstep =>
      ⟨h.1.move (step_move hstep), h.2.1.move h.1 (step_move hstep) (timely_forward ht),
        h.2.2.move h.1 h.2.1 hδ (step_move hstep) ht⟩)
    {} s ⟨sole_start, bounded_start, kept_start⟩ ls hc hr
  obtain ⟨e, hheld, hserved⟩ := hK m hm ha hI
  exact hheld.get (hserved.lt hδ hI (interval_spec _).2)

end Timing

theorem healed_keeps_lease :
    ∃ s m, run nine healed = some s ∧ s.rooms "r" = some m ∧
      roomOwner s.redis s.now "r" = some m.node := by
  have hc : Meets (step nine) (fun s l => timely millisecond "r" s l = true) {} healed := by
    decide +kernel
  have hend : ((run nine healed).any fun s => (s.rooms "r").any Maintainer.maintained) = true := by
    decide +kernel
  obtain ⟨s, hs, htest⟩ := Option.any_eq_true _ _ |>.mp hend
  obtain ⟨m, hm, ha⟩ := Option.any_eq_true _ _ |>.mp htest
  refine ⟨s, m, hs, hm, ?_⟩
  exact lease_survives_lost_ticks nine millisecond (by decide) "r" healed s hc hs m hm
    (by change 2 * millisecond < interval ⟨9, by decide⟩; decide) ha

end RealtimeEngine.Storage.Maintenance
