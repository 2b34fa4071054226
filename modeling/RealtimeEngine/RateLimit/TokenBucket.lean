import Mathlib.Algebra.Order.Field.Basic
import Mathlib.Algebra.Order.Ring.Rat
import Mathlib.Data.Rat.Cast.Order
import Mathlib.Tactic.NormNum
import RealtimeEngine.Domain.Game
import RealtimeEngine.Foundations.Bucket

/-! The limiter of a connection (`internal/ratelimit`). A `float64` is an exact
rational. Readings of the clock are nanoseconds, and `Sub` is their difference:
readings of one process are less than `2^63` nanoseconds apart, where it does not
saturate. Every call holds the lock from its reading to its return, so calls are
a sequence; each reads the clock once, and the reading is an argument. -/
namespace RealtimeEngine.RateLimit
open Foundations Domain
set_option autoImplicit false
set_option maxHeartbeats 250000

structure TokenBucket where
  capacity : ℚ
  tokens : ℚ
  refillRate : ℚ
  lastRefill : Time
  deriving DecidableEq

/-- `Duration.Seconds`. -/
def seconds (d : ℤ) : ℚ := d / 1000000000

namespace TokenBucket

def new (now : Time) (capacity refillRate : ℚ) : TokenBucket :=
  { capacity, tokens := capacity, refillRate, lastRefill := now }

def refillLocked (b : TokenBucket) (now : Time) : TokenBucket :=
  let elapsed := seconds (now - b.lastRefill)
  if elapsed ≤ 0 then b
  else
    let tokens := b.tokens + elapsed * b.refillRate
    { b with
      tokens := if tokens > b.capacity then b.capacity else tokens
      lastRefill := now }

def allowN (b : TokenBucket) (now : Time) (n : ℚ) : TokenBucket × Bool :=
  let b := b.refillLocked now
  if b.tokens ≥ n then ({ b with tokens := b.tokens - n }, true) else (b, false)

def allow (b : TokenBucket) (now : Time) : TokenBucket × Bool := b.allowN now 1

/-- A call is the reading it makes and the tokens it asks for. -/
def call (b : TokenBucket) (c : Time × ℚ) : TokenBucket × List Bool :=
  ((b.allowN c.1 c.2).1, [(b.allowN c.1 c.2).2])

/-! ## A bucket that fills by the second -/

theorem seconds_sub (s t : ℤ) : seconds (s - t) = seconds s - seconds t := by
  unfold seconds
  rw [Int.cast_sub, sub_div]

theorem seconds_le_seconds {s t : ℤ} : seconds s ≤ seconds t ↔ s ≤ t := by
  unfold seconds
  rw [div_le_div_iff_of_pos_right (by norm_num), Int.cast_le]

theorem seconds_injective : Function.Injective seconds := by
  intro s t h
  exact le_antisymm (seconds_le_seconds.mp h.le) (seconds_le_seconds.mp h.ge)

def toBucket (b : TokenBucket) : Bucket ℚ :=
  { capacity := b.capacity, rate := b.refillRate, level := b.tokens, last := seconds b.lastRefill }

def toDraw (c : Time × ℚ) : ℚ × ℚ := (seconds c.1, c.2)

theorem refillLocked_refines (b : TokenBucket) (now : Time) :
    (b.refillLocked now).toBucket = b.toBucket.fill (seconds now) := by
  have hclamp (x : ℚ) : (if x > b.capacity then b.capacity else x) = min b.capacity x := by
    rcases lt_or_ge b.capacity x with h | h
    · rw [if_pos h, min_eq_left h.le]
    · rw [if_neg (not_lt_of_ge h), min_eq_right h]
  unfold refillLocked
  rw [seconds_sub]
  rcases le_or_gt (seconds now) (seconds b.lastRefill) with h | h
  · rw [if_pos (sub_nonpos.mpr h)]
    exact (Bucket.fill_of_le h).symm
  · rw [if_neg (not_le_of_gt (sub_pos.mpr h)), mul_comm]
    refine Eq.trans ?_ (Bucket.fill_of_lt h).symm
    exact congrArg (fun level => Bucket.mk b.capacity b.refillRate level (seconds now)) (hclamp _)

theorem call_refines (b : TokenBucket) (c : Time × ℚ) :
    b.toBucket.draw (toDraw c) = ((b.call c).1.toBucket, (b.call c).2) := by
  have hfill : b.toBucket.fill (toDraw c).1 = (b.refillLocked c.1).toBucket :=
    (refillLocked_refines b c.1).symm
  have htake : (b.refillLocked c.1).toBucket.take c.2 =
      ((b.allowN c.1 c.2).1.toBucket, (b.allowN c.1 c.2).2) := by
    unfold allowN
    rcases le_or_gt c.2 (b.refillLocked c.1).tokens with h | h
    · rw [if_pos h]
      exact Bucket.take_of_le h
    · rw [if_neg (not_le_of_gt h)]
      exact Bucket.take_of_lt h
  unfold Bucket.draw call
  rw [hfill]
  exact congrArg (fun r => (r.1, [r.2])) htake

theorem final_refines (b : TokenBucket) (cs : List (Time × ℚ)) :
    final Bucket.draw b.toBucket (cs.map toDraw) = (final call b cs).toBucket :=
  final_simulates call Bucket.draw toBucket toDraw call_refines b cs

theorem trace_refines (b : TokenBucket) (cs : List (Time × ℚ)) :
    trace Bucket.draw b.toBucket (cs.map toDraw) = (trace call b cs).map (Prod.map toDraw id) :=
  trace_simulates call Bucket.draw toBucket toDraw call_refines b cs

theorem toDraw_injective : Function.Injective toDraw := by
  intro c d h
  obtain ⟨hs, hn⟩ := Prod.mk.inj h
  exact Prod.ext (seconds_injective hs) hn

theorem granted_toDraw (os : List ((Time × ℚ) × Bool)) :
    Bucket.granted (os.map (Prod.map toDraw id)) = Bucket.granted os := by
  unfold Bucket.granted
  rw [List.map_map]
  rfl

theorem requested_toDraw (cs : List (Time × ℚ)) :
    Bucket.requested (cs.map toDraw) = Bucket.requested cs := by
  unfold Bucket.requested
  rw [List.map_map]
  rfl

/-- The clock does not go back. -/
def Ordered (cs : List (Time × ℚ)) : Prop := cs.Pairwise fun c d => c.1 ≤ d.1

theorem Ordered.toDraw {cs : List (Time × ℚ)} (h : Ordered cs) :
    (cs.map toDraw).Pairwise fun d e => d.1 ≤ e.1 := by
  rw [List.pairwise_map]
  exact h.imp seconds_le_seconds.mpr

/-! ## Traffic -/

section Traffic
variable {capacity refillRate : ℚ}

theorem new_sound (start : Time) (hc : 0 ≤ capacity) (hr : 0 ≤ refillRate) :
    (new start capacity refillRate).toBucket.Sound :=
  ⟨hr, hc, le_rfl⟩

theorem final_sound {b : TokenBucket} (h : b.toBucket.Sound) (cs : List (Time × ℚ))
    (hn : ∀ c ∈ cs, 0 ≤ c.2) : (final call b cs).toBucket.Sound := by
  rw [← final_refines]
  refine h.final (cs.map toDraw) ?_
  rw [List.forall_mem_map]
  exact hn

theorem final_capacity (b : TokenBucket) (cs : List (Time × ℚ)) :
    (final call b cs).capacity = b.capacity := by
  have h := Bucket.final_capacity b.toBucket (cs.map toDraw)
  rw [final_refines] at h
  exact h

theorem final_refillRate (b : TokenBucket) (cs : List (Time × ℚ)) :
    (final call b cs).refillRate = b.refillRate := by
  have h := Bucket.final_rate b.toBucket (cs.map toDraw)
  rw [final_refines] at h
  exact h

theorem granted_le {b : TokenBucket} (hb : b.toBucket.Sound) {w : List (Time × ℚ)} (ho : Ordered w)
    (hn : ∀ c ∈ w, 0 ≤ c.2) {first last : Time × ℚ} (hfirst : w.head? = some first)
    (hlast : w.getLast? = some last) :
    Bucket.granted (trace call b w) ≤ b.capacity + b.refillRate * seconds (last.1 - first.1) := by
  cases w with
  | nil => cases hfirst
  | cons c w =>
    cases hfirst
    have hend : ((w.map toDraw).map Prod.fst).getLastD (seconds first.1) = seconds last.1 := by
      rw [List.getLast?_cons, Option.some.injEq] at hlast
      rw [List.getLastD_eq_getLast?, List.map_map, List.getLast?_map, ← hlast]
      exact Option.getD_map (Prod.fst ∘ toDraw) first w.getLast?
    have h := Bucket.granted_le hb (toDraw first) (w.map toDraw) ho.toDraw
      (by rw [← List.map_cons, List.forall_mem_map]; exact hn)
    rw [← List.map_cons, trace_refines, granted_toDraw] at h
    rw [seconds_sub, ← hend]
    exact h

theorem granted_of_modest {start : Time} (hc : 0 ≤ capacity) (hr : 0 ≤ refillRate)
    {cs : List (Time × ℚ)} (hn : ∀ c ∈ cs, 0 ≤ c.2) (ho : Ordered cs) (hs : ∀ c ∈ cs, start ≤ c.1)
    (hm : ∀ pre w post first last, cs = pre ++ w ++ post → w.head? = some first →
      w.getLast? = some last →
      Bucket.requested w ≤ capacity + refillRate * seconds (last.1 - first.1)) :
    ∀ o ∈ trace call (new start capacity refillRate) cs, o.2 = true := by
  have hmodest : Bucket.Modest capacity refillRate (cs.map toDraw) := by
    intro pre w post first last hsplit hfirst hlast
    obtain ⟨l, post, rfl, hl, rfl⟩ := List.map_eq_append_iff.mp hsplit
    obtain ⟨pre, w, rfl, rfl, rfl⟩ := List.map_eq_append_iff.mp hl
    rw [List.head?_map] at hfirst
    rw [List.getLast?_map] at hlast
    obtain ⟨c, hc, rfl⟩ := Option.map_eq_some_iff.mp hfirst
    obtain ⟨d, hd, rfl⟩ := Option.map_eq_some_iff.mp hlast
    have h := hm pre w post c d rfl hc hd
    rw [seconds_sub] at h
    rw [requested_toDraw]
    exact h
  have hall := Bucket.granted_of_modest (new_sound start hc hr) rfl (cs.map toDraw) ho.toDraw
    (by rw [List.forall_mem_map]; exact fun c hc => seconds_le_seconds.mpr (hs c hc))
    (by rw [List.forall_mem_map]; exact hn) hmodest
  rw [trace_refines, List.forall_mem_map] at hall
  exact hall

end Traffic

/-- What a sequence of calls on a new limiter gets. The tokens stay within the
capacity whatever the clock does. With a clock that does not go back no window of
calls gets more than the capacity and what is refilled from its first reading to
its last; and where no window asks for more, every call is granted, `New` having
read the same clock before. -/
theorem traffic_bound (capacity refillRate : ℚ) (hc : 0 ≤ capacity) (hr : 0 ≤ refillRate)
    (start : Time) (cs : List (Time × ℚ)) (hn : ∀ c ∈ cs, 0 ≤ c.2) :
    (∀ pre post, cs = pre ++ post →
      0 ≤ (final call (new start capacity refillRate) pre).tokens ∧
        (final call (new start capacity refillRate) pre).tokens ≤ capacity) ∧
    (Ordered cs → ∀ pre w post first last, cs = pre ++ w ++ post → w.head? = some first →
      w.getLast? = some last →
      Bucket.granted (trace call (final call (new start capacity refillRate) pre) w) ≤
        capacity + refillRate * seconds (last.1 - first.1)) ∧
    (Ordered cs → (∀ c ∈ cs, start ≤ c.1) →
      (∀ pre w post first last, cs = pre ++ w ++ post → w.head? = some first →
        w.getLast? = some last →
        Bucket.requested w ≤ capacity + refillRate * seconds (last.1 - first.1)) →
      ∀ o ∈ trace call (new start capacity refillRate) cs, o.2 = true) := by
  refine ⟨?_, ?_, ?_⟩
  · rintro pre post rfl
    have hsound := final_sound (new_sound start hc hr) pre
      fun c hcs => hn c (List.mem_append_left post hcs)
    refine ⟨hsound.level_nonneg, hsound.level_le.trans_eq ?_⟩
    exact final_capacity _ pre
  · rintro ho pre w post first last rfl hfirst hlast
    rw [List.forall_mem_append, List.forall_mem_append] at hn
    have hw : Ordered w := (List.pairwise_append.mp (List.pairwise_append.mp ho).1).2.1
    have h := granted_le (final_sound (new_sound start hc hr) pre hn.1.1) hw hn.1.2 hfirst hlast
    rw [final_capacity, final_refillRate] at h
    exact h
  · exact fun ho hs hm => granted_of_modest hc hr hn ho hs hm

theorem burst_then_refill_granted :
    (∀ c ∈ [((0 : Time), (2 : ℚ)), (1000000000, 1)], 0 ≤ c.2) ∧
      Bucket.granted (trace call (new 0 2 1) [(0, 2), (1000000000, 1)]) ≤ 3 ∧
      ∀ o ∈ trace call (new 0 2 1) [(0, 2), (1000000000, 1)], o.2 = true := by
  have hn : ∀ c ∈ [((0 : Time), (2 : ℚ)), (1000000000, 1)], 0 ≤ c.2 := by decide
  have ho : Ordered [(0, 2), (1000000000, 1)] := by simp [Ordered]
  have h := traffic_bound 2 1 (by decide) (by decide) 0 _ hn
  refine ⟨hn, ?_, h.2.2 ho (by decide) ?_⟩
  · have hwhole := h.2.1 ho [] _ [] _ _ (List.append_nil _).symm rfl rfl
    exact hwhole.trans (by norm_num [seconds])
  · intro pre w post first last hsplit hfirst hlast
    rw [List.append_assoc] at hsplit
    rcases w with _ | ⟨c, _ | ⟨d, _ | ⟨e, w⟩⟩⟩
    · cases hfirst
    · -- no call asks for more than the capacity
      cases hfirst
      cases hlast
      have hmem : first ∈ [((0 : Time), (2 : ℚ)), (1000000000, 1)] := by
        rw [hsplit]
        simp
      have hsmall : ∀ c ∈ [((0 : Time), (2 : ℚ)), (1000000000, 1)], c.2 ≤ 2 := by decide
      simpa [Bucket.requested, seconds] using hsmall first hmem
    · have hlen := congrArg List.length hsplit
      simp only [List.length_append, List.length_cons, List.length_nil] at hlen
      obtain rfl : pre = [] := List.eq_nil_of_length_eq_zero (by omega)
      cases hsplit
      cases hfirst
      cases hlast
      norm_num [Bucket.requested, seconds]
    · have hlen := congrArg List.length hsplit
      simp only [List.length_append, List.length_cons, List.length_nil] at hlen
      omega

/-! ## Refused calls -/

/-- Whatever refused calls are left out, the others are answered as before: the
record without them is the record of the calls without them. -/
theorem refusals_invisible (b : TokenBucket) (hr : 0 ≤ b.refillRate) (cs : List (Time × ℚ))
    (ho : Ordered cs) (os : List ((Time × ℚ) × Bool)) (h : Bucket.Omits (trace call b cs) os) :
    trace call b (os.map Prod.fst) = os := by
  have hinj : Function.Injective (List.map (Prod.map toDraw (id : Bool → Bool))) :=
    List.map_injective_iff.mpr (toDraw_injective.prodMap Function.injective_id)
  have homits := h.map toDraw
  rw [← trace_refines] at homits
  have htrace := Bucket.trace_omits hr (cs.map toDraw) ho.toDraw (fun _ _ => rfl) homits
  apply hinj
  rw [← trace_refines, List.map_map]
  rw [List.map_map] at htrace
  exact htrace

theorem refused_call_left_out :
    trace call (new 0 1 1) [(0, 1), (0, 1), (1000000000, 1)] =
        [((0, 1), true), ((0, 1), false), ((1000000000, 1), true)] ∧
      trace call (new 0 1 1) [(0, 1), (1000000000, 1)] =
        [((0, 1), true), ((1000000000, 1), true)] := by
  have htrace : trace call (new 0 1 1) [(0, 1), (0, 1), (1000000000, 1)] =
      [((0, 1), true), ((0, 1), false), ((1000000000, 1), true)] := by decide +kernel
  have ho : Ordered [(0, 1), (0, 1), (1000000000, 1)] := by simp [Ordered]
  have h := refusals_invisible (new 0 1 1) (by decide) _ ho
    [((0, 1), true), ((1000000000, 1), true)] (htrace ▸ .keep _ (.drop _ (.keep _ .nil)))
  exact ⟨htrace, h⟩

/-! ## Messages -/

/-- A message read from the connection, at a reading of the clock. -/
def pass (b : TokenBucket) (now : Time) : TokenBucket × List Bool :=
  ((b.allow now).1, [(b.allow now).2])

theorem granted_of_ones (os : List (Time × Bool)) :
    Bucket.granted (os.map (Prod.map (fun t => (t, (1 : ℚ))) id)) = os.countP Prod.snd := by
  induction os with
  | nil => rfl
  | cons o os ih =>
    obtain ⟨t, v⟩ := o
    rw [List.map_cons, Bucket.granted_cons, ih, List.countP_cons, Nat.cast_add, add_comm]
    cases v <;> simp

/-- The messages let through from one reading to a later one. -/
theorem passed_le {b : TokenBucket} (hb : b.toBucket.Sound) {ts : List Time}
    (ho : ts.Pairwise (· ≤ ·)) {first last : Time} (hfirst : ts.head? = some first)
    (hlast : ts.getLast? = some last) :
    ((trace pass b ts).countP Prod.snd : ℚ) ≤
      b.capacity + b.refillRate * seconds (last - first) := by
  have htrace : trace call b (ts.map fun t => (t, 1)) =
      (trace pass b ts).map (Prod.map (fun t => (t, 1)) id) :=
    trace_simulates pass call id (fun t => (t, 1)) (fun _ _ => rfl) b ts
  have hordered : Ordered (ts.map fun t => (t, (1 : ℚ))) := List.pairwise_map.mpr ho
  have hones : ∀ c ∈ ts.map fun t => (t, (1 : ℚ)), 0 ≤ c.2 := by
    rw [List.forall_mem_map]
    intro t _
    exact zero_le_one
  have hf : (ts.map fun t => (t, (1 : ℚ))).head? = some (first, 1) := by
    rw [List.head?_map, hfirst, Option.map_some]
  have hl : (ts.map fun t => (t, (1 : ℚ))).getLast? = some (last, 1) := by
    rw [List.getLast?_map, hlast, Option.map_some]
  have hwindow := granted_le hb hordered hones hf hl
  rw [htrace, granted_of_ones] at hwindow
  exact hwindow

end TokenBucket
end RealtimeEngine.RateLimit
