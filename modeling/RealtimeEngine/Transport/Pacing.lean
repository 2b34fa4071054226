import RealtimeEngine.Transport.FrontDoor

/-! How fast a connection can talk to the node. Between any two points of a run no more
of its messages get past the limiter than a full bucket and what flows in between; and a
message is refused only shortly after one that got past. -/
namespace RealtimeEngine.Transport
open Foundations Domain Rooms RateLimit Session
set_option autoImplicit false
set_option maxHeartbeats 250000

/-! ## One limiter -/

section Limiter
variable {b : TokenBucket} {now : Time}

/-- A limiter that was filled up to now stays as it is until the clock goes on. -/
theorem refillLocked_again (b : TokenBucket) (now : Time) (tokens : ℚ) :
    ({ b.refillLocked now with tokens := tokens } : TokenBucket).refillLocked now =
      { b.refillLocked now with tokens := tokens } := by
  have hlast : seconds (now - (b.refillLocked now).lastRefill) ≤ 0 := by
    unfold TokenBucket.refillLocked
    dsimp only
    split
    · next h => exact h
    · simp [seconds]
  rw [TokenBucket.refillLocked]
  exact if_pos hlast

/-- A message takes one token or leaves what is there. -/
theorem allow_cases (b : TokenBucket) (now : Time) :
    (1 ≤ (b.refillLocked now).tokens ∧ (b.allow now).2 = true ∧
      ((b.allow now).1.refillLocked now).tokens = (b.refillLocked now).tokens - 1) ∨
    ((b.refillLocked now).tokens < 1 ∧ (b.allow now).2 = false ∧
      ((b.allow now).1.refillLocked now).tokens = (b.refillLocked now).tokens) := by
  have hrefused := refillLocked_again b now (b.refillLocked now).tokens
  unfold TokenBucket.allow TokenBucket.allowN
  rcases le_or_gt 1 (b.refillLocked now).tokens with h | h
  · rw [if_pos h]
    refine Or.inl ⟨h, rfl, ?_⟩
    rw [refillLocked_again]
  · rw [if_neg (not_le_of_gt h)]
    exact Or.inr ⟨h, rfl, congrArg TokenBucket.tokens hrefused⟩

theorem allow_sound (h : b.toBucket.Sound) : (b.allow now).1.toBucket.Sound :=
  TokenBucket.final_sound h [(now, 1)] (by simp)

theorem allow_capacity (b : TokenBucket) (now : Time) : (b.allow now).1.capacity = b.capacity :=
  TokenBucket.final_capacity b [(now, 1)]

theorem allow_refillRate (b : TokenBucket) (now : Time) :
    (b.allow now).1.refillRate = b.refillRate := TokenBucket.final_refillRate b [(now, 1)]

theorem tokens_eq_level (b : TokenBucket) (now : Time) :
    (b.refillLocked now).tokens = (b.toBucket.fill (seconds now)).level :=
  congrArg Bucket.level (TokenBucket.refillLocked_refines b now)

theorem allow_lastRefill (h : b.lastRefill ≤ now) : (b.allow now).1.lastRefill ≤ now := by
  have hrefill : (b.refillLocked now).lastRefill ≤ now := by
    unfold TokenBucket.refillLocked
    dsimp only
    split
    · exact h
    · exact le_refl _
  unfold TokenBucket.allow TokenBucket.allowN
  dsimp only
  split
  · exact hrefill
  · exact hrefill

section Later
variable (hb : b.toBucket.Sound) {later : Time} (hle : now ≤ later)
include hb hle

theorem tokens_later : (b.refillLocked later).tokens =
    ((b.toBucket.fill (seconds now)).fill (seconds later)).level := by
  rw [tokens_eq_level, Bucket.fill_fill hb.rate_nonneg (TokenBucket.seconds_le_seconds.mpr hle)]

theorem tokens_later_le : (b.refillLocked later).tokens ≤
    (b.refillLocked now).tokens + b.refillRate * seconds (later - now) := by
  have hlast : seconds now ≤ (b.toBucket.fill (seconds now)).last := by
    rw [Bucket.fill_last]
    exact le_max_right _ _
  have hrate : 0 ≤ (b.toBucket.fill (seconds now)).rate := by
    rw [Bucket.fill_rate]
    exact hb.rate_nonneg
  have h := Bucket.fill_level_le hrate hlast (TokenBucket.seconds_le_seconds.mpr hle)
  rw [tokens_later hb hle, tokens_eq_level, TokenBucket.seconds_sub]
  rwa [Bucket.fill_rate] at h

theorem tokens_later_eq (hlast : b.lastRefill ≤ now) : (b.refillLocked later).tokens =
    min b.capacity ((b.refillLocked now).tokens + b.refillRate * seconds (later - now)) := by
  have hfilled : (b.toBucket.fill (seconds now)).last = seconds now := by
    rw [Bucket.fill_last]
    exact max_eq_right (TokenBucket.seconds_le_seconds.mpr hlast)
  have hcap : (b.toBucket.fill (seconds now)).level ≤ (b.toBucket.fill (seconds now)).capacity := by
    rw [Bucket.fill_capacity]
    exact Bucket.fill_level_le_capacity hb.level_le
  rw [tokens_later hb hle, tokens_eq_level, TokenBucket.seconds_sub]
  have h := Bucket.fill_level hcap (t := seconds later)
    (by rw [hfilled]; exact TokenBucket.seconds_le_seconds.mpr hle)
  rwa [hfilled, Bucket.fill_capacity, Bucket.fill_rate] at h

end Later
end Limiter

/-! ## The limiters of a front door -/

section Front
variable {σ : Type} {d : Door} {u : Setup σ} {s s' : Front σ} {a : Arrival}

/-- The clock does not go back. -/
def Onward (s : Front σ) : Arrival → Prop
  | .inner l => forward s.node l = true
  | _ => True

/-- What the limiter of a connection holds at this moment. -/
def Front.tokens (s : Front σ) (c : ConnID) : ℚ :=
  ((s.gate c).limiter.refillLocked s.node.now).tokens

/-- What an arrival does to the limiter of a connection. -/
inductive GateChange (d : Door) (s s' : Front σ) (c : ConnID) : Prop
  | kept (hg : s'.gate c = s.gate c)
  | opened (hg : s'.gate c = d.gate s.node.now) (hn : s'.node.now = s.node.now)
  | asked (hg : s'.gate c = s.ask c) (hn : s'.node.now = s.node.now)

theorem move_now_of_ne {l : Label} {s s' : Sys σ} (hm : Move u s l s') (hl : ∀ t, l ≠ .clock t) :
    s'.now = s.now := by
  obtain h | h := move_now hm
  · exact h
  · exact absurd h (hl _)

theorem admits_gate (h : Admits d u s a s') (c : ConnID) : GateChange d s s' c := by
  cases h with
  | refused => exact .kept rfl
  | issued => exact .kept rfl
  | accepted r claims node hauth hs =>
    have hn : node.now = s.node.now :=
      move_now_of_ne (step_move _ _ _ _ hs) fun t ht => by cases ht
    by_cases hc : c = s.node.conns
    · subst hc
      exact .opened (Function.update_self _ _ _) hn
    · exact .kept (Function.update_of_ne hc _ _)
  | message e raw m node hs =>
    have hn : node.now = s.node.now :=
      move_now_of_ne (step_move _ _ _ _ hs) fun t ht => by cases ht
    by_cases hc : c = e
    · subst hc
      exact .asked (Function.update_self _ _ _) hn
    · exact .kept (Function.update_of_ne hc _ _)
  | inner => exact .kept rfl

theorem admits_now (h : Admits d u s a s') (ho : Onward s a) : s.node.now ≤ s'.node.now := by
  have hsame : ∀ {u : Setup σ} {l : Label} {node : Sys σ}, Transport.step u s.node l = some node →
      (∀ t, l ≠ .clock t) → s.node.now ≤ node.now :=
    fun hs hl => le_of_eq (move_now_of_ne (step_move _ _ _ _ hs) hl).symm
  cases h with
  | refused => exact le_refl _
  | issued => exact le_refl _
  | accepted r claims node hauth hs => exact hsame hs fun t ht => by cases ht
  | message c raw m node hs => exact hsame hs fun t ht => by cases ht
  | inner _ l node hl ha hs =>
    by_cases ht : ∃ t, l = .clock t
    · obtain ⟨t, rfl⟩ := ht
      rw [ha t rfl] at ho
      exact now_le (step_move _ _ _ _ hs) ho
    · exact hsame hs fun t h => ht ⟨t, h⟩

/-- Every limiter is one of the configuration's, within its capacity. -/
structure Metered (d : Door) (s : Front σ) (c : ConnID) : Prop where
  sound : (s.gate c).limiter.toBucket.Sound
  capacity : (s.gate c).limiter.capacity = d.rateLimitCapacity
  rate : (s.gate c).limiter.refillRate = d.rateLimitRefillRate

theorem metered_gate (hcap : 0 ≤ d.rateLimitCapacity) (hrate : 0 ≤ d.rateLimitRefillRate) {c : ConnID}
    {t : Time} (h : s.gate c = d.gate t) : Metered d s c := by
  refine ⟨?_, ?_, ?_⟩ <;> rw [h]
  · exact TokenBucket.new_sound t hcap hrate
  · rfl
  · rfl

theorem Metered.change {c : ConnID} (hcap : 0 ≤ d.rateLimitCapacity)
    (hrate : 0 ≤ d.rateLimitRefillRate) (hM : Metered d s c) (h : GateChange d s s' c) :
    Metered d s' c := by
  cases h with
  | kept hg => exact ⟨hg ▸ hM.sound, hg ▸ hM.capacity, hg ▸ hM.rate⟩
  | opened hg hn => exact metered_gate hcap hrate hg
  | asked hg hn =>
    refine ⟨?_, ?_, ?_⟩ <;> rw [hg]
    · exact allow_sound hM.sound
    · exact (allow_capacity _ _).trans hM.capacity
    · exact (allow_refillRate _ _).trans hM.rate

theorem Metered.tokens_nonneg {c : ConnID} (hM : Metered d s c) : 0 ≤ s.tokens c := by
  rw [Front.tokens, tokens_eq_level]
  exact Bucket.fill_level_nonneg hM.sound.rate_nonneg hM.sound.level_nonneg hM.sound.level_le

theorem Metered.tokens_le {c : ConnID} (hM : Metered d s c) : s.tokens c ≤ d.rateLimitCapacity := by
  rw [Front.tokens, tokens_eq_level, ← hM.capacity]
  exact Bucket.fill_level_le_capacity hM.sound.level_le

theorem tokens_opened {c : ConnID} (hg : s'.gate c = d.gate s.node.now)
    (hn : s'.node.now = s.node.now) : s'.tokens c = d.rateLimitCapacity := by
  rw [Front.tokens, hg, hn]
  unfold Door.gate TokenBucket.refillLocked TokenBucket.new
  simp [seconds]

/-! ## No more than the bucket -/

/-- Counted from a point of the run on: what got past the limiter and what is left in it. -/
def Spent (d : Door) (start : Front σ) (c : ConnID) (s : Front σ) : Prop :=
  start.node.now ≤ s.node.now ∧
    ((s.gate c).handled.length : ℚ) + s.tokens c ≤ (start.gate c).handled.length +
      d.rateLimitCapacity + d.rateLimitRefillRate * seconds (s.node.now - start.node.now)

theorem seconds_add_sub (x y z : ℤ) : seconds (z - x) = seconds (y - x) + seconds (z - y) := by
  rw [TokenBucket.seconds_sub, TokenBucket.seconds_sub, TokenBucket.seconds_sub]
  ring

theorem seconds_nonneg {x y : ℤ} (h : x ≤ y) : 0 ≤ seconds (y - x) := by
  rw [TokenBucket.seconds_sub]
  exact sub_nonneg.mpr (TokenBucket.seconds_le_seconds.mpr h)

/-- The question takes a token for each message it lets through. -/
theorem handled_asked {c : ConnID} (hg : s'.gate c = s.ask c) (hn : s'.node.now = s.node.now) :
    (1 ≤ s.tokens c ∧ (s'.gate c).handled = (s.gate c).handled ++ [s.node.now] ∧
      s'.tokens c = s.tokens c - 1) ∨
    (s'.gate c).handled = (s.gate c).handled ∧ s'.tokens c = s.tokens c := by
  unfold Front.tokens
  rw [hg, hn]
  obtain ⟨hone, hyes, htokens⟩ | ⟨-, hno, htokens⟩ := allow_cases (s.gate c).limiter s.node.now
  · refine Or.inl ⟨hone, ?_, htokens⟩
    simp only [Front.ask, hyes, if_true]
  · refine Or.inr ⟨?_, htokens⟩
    simp only [Front.ask, hno, Bool.false_eq_true, if_false]

theorem Spent.change {start : Front σ} {c : ConnID} (hM : Metered d s c)
    (hrate : 0 ≤ d.rateLimitRefillRate) (hS : Spent d start c s)
    (h : GateChange d s s' c) (hle : s.node.now ≤ s'.node.now) : Spent d start c s' := by
  obtain ⟨hstart, hspent⟩ := hS
  refine ⟨le_trans hstart hle, ?_⟩
  cases h with
  | kept hg =>
    have htokens : s'.tokens c ≤
        s.tokens c + d.rateLimitRefillRate * seconds (s'.node.now - s.node.now) := by
      have h := tokens_later_le hM.sound hle
      rw [Front.tokens, hg]
      rwa [hM.rate] at h
    rw [hg, seconds_add_sub start.node.now s.node.now s'.node.now, mul_add]
    linarith
  | opened hg hn =>
    have hflow := mul_nonneg hrate (seconds_nonneg hstart)
    have hlen : (0 : ℚ) ≤ (start.gate c).handled.length := Nat.cast_nonneg _
    rw [tokens_opened hg hn, hg, hn]
    simp only [Door.gate, List.length_nil, Nat.cast_zero]
    linarith
  | asked hg hn =>
    rw [hn]
    obtain ⟨-, hhandled, htokens⟩ | ⟨hhandled, htokens⟩ := handled_asked hg hn
    · rw [hhandled, htokens, List.length_append, List.length_singleton, Nat.cast_add, Nat.cast_one]
      linarith
    · rw [hhandled, htokens]
      exact hspent

/-! ## No less either -/

/-- The bucket is full, or holds what has come in since some message got past. -/
structure Refilled (d : Door) (s : Front σ) (c : ConnID) : Prop where
  last : (s.gate c).limiter.lastRefill ≤ s.node.now
  since : d.rateLimitCapacity ≤ s.tokens c ∨ ∃ t ∈ (s.gate c).handled,
    min d.rateLimitCapacity (d.rateLimitRefillRate * seconds (s.node.now - t)) ≤ s.tokens c

theorem refilled_gate {c : ConnID} (hg : s'.gate c = d.gate s.node.now)
    (hn : s'.node.now = s.node.now) : Refilled d s' c where
  last := by
    rw [hg, hn]
    exact le_refl _
  since := Or.inl (tokens_opened hg hn).ge

theorem Refilled.change {c : ConnID} (hM : Metered d s c) (hrate : 0 ≤ d.rateLimitRefillRate)
    (hR : Refilled d s c) (h : GateChange d s s' c) (hle : s.node.now ≤ s'.node.now) : Refilled d s' c := by
  cases h with
  | kept hg =>
    have htokens : s'.tokens c = min d.rateLimitCapacity
        (s.tokens c + d.rateLimitRefillRate * seconds (s'.node.now - s.node.now)) := by
      have h := tokens_later_eq hM.sound hle hR.last
      rw [Front.tokens, hg]
      rwa [hM.rate, hM.capacity] at h
    have hflow := mul_nonneg hrate (seconds_nonneg hle)
    refine ⟨by rw [hg]; exact le_trans hR.last hle, ?_⟩
    obtain hfull | ⟨t, ht, hsince⟩ := hR.since
    · left
      rw [htokens]
      exact le_min (le_refl _) (by linarith)
    · refine Or.inr ⟨t, hg ▸ ht, ?_⟩
      rw [htokens, seconds_add_sub t s.node.now s'.node.now, mul_add]
      refine le_min (min_le_left _ _) ?_
      calc min d.rateLimitCapacity (d.rateLimitRefillRate * seconds (s.node.now - t) +
            d.rateLimitRefillRate * seconds (s'.node.now - s.node.now))
          ≤ min d.rateLimitCapacity (d.rateLimitRefillRate * seconds (s.node.now - t)) +
            d.rateLimitRefillRate * seconds (s'.node.now - s.node.now) := by
            rw [← min_add_add_right]
            exact min_le_min_right _ (le_add_of_nonneg_right hflow)
        _ ≤ s.tokens c + d.rateLimitRefillRate * seconds (s'.node.now - s.node.now) := by
            linarith
  | opened hg hn => exact refilled_gate hg hn
  | asked hg hn =>
    refine ⟨?_, ?_⟩
    · rw [hg, hn]
      exact allow_lastRefill hR.last
    rw [hn]
    obtain ⟨hone, hhandled, htokens⟩ | ⟨hhandled, htokens⟩ := handled_asked hg hn
    · -- nothing has come in since the message that was let through just now
      refine Or.inr ⟨s.node.now, ?_, ?_⟩
      · rw [hhandled]
        exact List.mem_append_right _ List.mem_cons_self
      · rw [htokens, sub_self]
        refine le_trans (min_le_right _ _) ?_
        simp only [seconds, Int.cast_zero, zero_div, mul_zero]
        linarith
    · rw [hhandled, htokens]
      exact hR.since

/-! ## Whole runs -/

section Runs
variable (hcap : 0 ≤ d.rateLimitCapacity) (hrate : 0 ≤ d.rateLimitRefillRate)
include hcap hrate

theorem run_metered (as : List Arrival) (s : Front σ) (hr : Front.run d u as = some s)
    (c : ConnID) : Metered d s c :=
  exec_invariant (Front.step d u) (fun _ _ => True) (fun s => Metered d s c)
    (fun _ _ _ _ hM h => hM.change hcap hrate (admits_gate (step_admits h) c)) (Front.start σ d) s
    (metered_gate hcap hrate rfl) as (meets_of_forall _ _ (fun _ _ => trivial) _ _) hr

theorem exec_spent {as : List Arrival} {start s : Front σ} {c : ConnID} (hM : Metered d start c)
    (hx : exec (Front.step d u) start as = some s)
    (ho : Meets (Front.step d u) Onward start as) : Spent d start c s := by
  refine (exec_invariant (Front.step d u) Onward (fun s => Metered d s c ∧ Spent d start c s) ?_ start s
    ⟨hM, le_refl _, ?_⟩ as ho hx).2
  · rintro s a s' ho ⟨hM, hS⟩ h
    have hch := admits_gate (step_admits h) c
    exact ⟨hM.change hcap hrate hch, hS.change hM hrate hch (admits_now (step_admits h) ho)⟩
  · have h := hM.tokens_le
    rw [sub_self]
    simp only [seconds, Int.cast_zero, zero_div, mul_zero]
    linarith

theorem run_refilled (as : List Arrival) (s : Front σ) (hr : Front.run d u as = some s)
    (ho : Meets (Front.step d u) Onward (Front.start σ d) as) (c : ConnID) : Refilled d s c := by
  refine (exec_invariant (Front.step d u) Onward (fun s => Metered d s c ∧ Refilled d s c) ?_
    (Front.start σ d) s ⟨metered_gate hcap hrate rfl, refilled_gate (s := Front.start σ d) rfl rfl⟩ as
    ho hr).2
  rintro s a s' ho ⟨hM, hR⟩ h
  have hch := admits_gate (step_admits h) c
  exact ⟨hM.change hcap hrate hch, hR.change hM hrate hch (admits_now (step_admits h) ho)⟩

end Runs

/-- **The pace of a connection.** Whatever else happens on the node: from any point of a run
to a later one no more messages of a connection get past its limiter than the capacity and
what flows in between; and when a message is refused, another one of the same connection
got past less than a token's time before, so that a client that leaves this time between
its messages is never refused. Tokens are counted exactly here, where the limiter's
`float64` is rounded with each refill. -/
theorem messages_paced (d : Door) (u : Setup σ) (hcap : 0 ≤ d.rateLimitCapacity)
    (hrate : 0 ≤ d.rateLimitRefillRate) (as bs : List Arrival) (s s' : Front σ)
    (hr : Front.run d u as = some s) (hx : exec (Front.step d u) s bs = some s')
    (hb : Meets (Front.step d u) Onward s bs) (c : ConnID) :
    ((s'.gate c).handled.length : ℚ) ≤ (s.gate c).handled.length + d.rateLimitCapacity +
      d.rateLimitRefillRate * seconds (s'.node.now - s.node.now) ∧
    (Meets (Front.step d u) Onward (Front.start σ d) as → 1 ≤ d.rateLimitCapacity →
      ((s'.gate c).limiter.allow s'.node.now).2 = false →
      ∃ t ∈ (s'.gate c).handled, d.rateLimitRefillRate * seconds (s'.node.now - t) < 1) := by
  have hrun : Front.run d u (as ++ bs) = some s' := by
    rw [Front.run] at hr ⊢
    rw [exec_append, hr]
    exact hx
  constructor
  · have hspent := (exec_spent hcap hrate (run_metered hcap hrate as s hr c) hx hb).2
    have hleft := (run_metered hcap hrate (as ++ bs) s' hrun c).tokens_nonneg
    linarith
  · intro ha hone hno
    have hfew : s'.tokens c < 1 := by
      obtain ⟨-, hyes, -⟩ | ⟨hfew, -, -⟩ := allow_cases (s'.gate c).limiter s'.node.now
      · rw [hno] at hyes
        cases hyes
      · exact hfew
    have hall := meets_append (Front.step d u) Onward _ s as bs hr ha hb
    obtain hfull | ⟨t, ht, hsince⟩ := (run_refilled hcap hrate (as ++ bs) s' hrun hall c).since
    · linarith
    · refine ⟨t, ht, ?_⟩
      obtain hmin | hmin := min_le_iff.mp hsince
      · linarith
      · exact lt_of_le_of_lt hmin hfew

/-- Alice sends another message at once, and after it the bucket is empty. -/
def aliceInsists : List Arrival :=
  [.message 0 { size := 17, doc := some (.obj [("type", .str "RESYNC")]) }, .inner (.run 0 .go)]

theorem alice_out_of_tokens :
    (exec (Front.step hourly aliceAndBob) (aliceInside hourly) aliceIsQueued).any (fun s =>
      (exec (Front.step hourly aliceAndBob) s aliceInsists).any fun s' =>
        (s'.gate 0).handled.length = 2 ∧ ((s'.gate 0).limiter.allow s'.node.now).2 = false) =
      true := by
  decide +kernel

theorem alice_paced :
    ∃ s s', Front.run hourly aliceAndBob (aliceEnters ++ aliceIsQueued) = some s ∧
      exec (Front.step hourly aliceAndBob) s aliceInsists = some s' ∧
      (s'.gate 0).handled.length = 2 ∧
      (2 : ℚ) ≤ (s.gate 0).handled.length + 2 + 1 * seconds (s'.node.now - s.node.now) ∧
      ∃ t ∈ (s'.gate 0).handled, 1 * seconds (s'.node.now - t) < 1 := by
  obtain ⟨s, hs, htest⟩ := (Option.any_eq_true _ _).mp alice_out_of_tokens
  obtain ⟨s', hs', htest⟩ := (Option.any_eq_true _ _).mp htest
  obtain ⟨hlen, hno⟩ := of_decide_eq_true htest
  have hr := (alice_enters aliceIsQueued).trans hs
  have honward : ∀ a ∈ aliceEnters ++ aliceIsQueued ++ aliceInsists, ∀ s : Front GameState,
      Onward s a := by
    simp [aliceEnters, aliceIsQueued, aliceInsists, Onward, forward]
  have hall := meets_of_mem (Front.step hourly aliceAndBob) Onward
  obtain ⟨hbound, hrefused⟩ := messages_paced hourly aliceAndBob (by decide) (by decide)
    (aliceEnters ++ aliceIsQueued) aliceInsists s s' hr hs'
    (hall _ (fun a ha => honward a (List.mem_append_right _ ha)) s) 0
  rw [hlen] at hbound
  exact ⟨s, s', hr, hs', hlen, hbound,
    hrefused (hall _ (fun a ha => honward a (List.mem_append_left _ ha)) _) (by decide) hno⟩

end Front
end RealtimeEngine.Transport
