import Mathlib.Algebra.BigOperators.Group.List.Basic
import Mathlib.Algebra.Order.Group.MinMax
import Mathlib.Algebra.Order.Ring.Defs
import Mathlib.Tactic.Linarith
import Mathlib.Tactic.Ring
import RealtimeEngine.Foundations.Runs

/-! A bucket that fills at a constant rate up to its capacity and is drawn from.
A draw first fills the bucket up to its own time and then takes its amount, or
nothing when there is less; a time before the last fill fills nothing. Times and
amounts are elements of one ordered ring.

The level is one clamped number, and three facts say what it stands for. No
window of draws gets more than a full bucket and what flows in between the first
and the last of them. A full bucket serves draws no window of which asks for
more. A refused draw leaves the bucket as if it had not been made. -/
namespace RealtimeEngine.Foundations
set_option autoImplicit false
set_option maxHeartbeats 250000

structure Bucket (K : Type) where
  capacity : K
  rate : K
  level : K
  last : K

namespace Bucket

/-! ## What is asked for and what is granted -/

section Amounts
variable {τ K : Type} [AddCommMonoid K]

def requested (ds : List (τ × K)) : K := (ds.map Prod.snd).sum

def granted (os : List ((τ × K) × Bool)) : K := (os.map fun o => if o.2 then o.1.2 else 0).sum

theorem requested_cons (d : τ × K) (ds : List (τ × K)) :
    requested (d :: ds) = d.2 + requested ds :=
  List.sum_cons

theorem requested_concat (ds : List (τ × K)) (d : τ × K) :
    requested (ds ++ [d]) = requested ds + d.2 := by
  unfold requested
  rw [List.map_append, List.sum_append, List.map_singleton, List.sum_singleton]

theorem granted_cons (o : (τ × K) × Bool) (os : List ((τ × K) × Bool)) :
    granted (o :: os) = (if o.2 then o.1.2 else 0) + granted os :=
  List.sum_cons

end Amounts

variable {K : Type} [CommRing K] [LinearOrder K]

def fill (b : Bucket K) (t : K) : Bucket K :=
  if t ≤ b.last then b
  else { b with level := min b.capacity (b.level + b.rate * (t - b.last)), last := t }

def take (b : Bucket K) (n : K) : Bucket K × Bool :=
  if n ≤ b.level then ({ b with level := b.level - n }, true) else (b, false)

/-- A draw is a time and an amount. -/
def draw (b : Bucket K) (d : K × K) : Bucket K × List Bool :=
  (((b.fill d.1).take d.2).1, [((b.fill d.1).take d.2).2])

/-! ## Filling -/

section Fill
variable {b : Bucket K} {t : K}

theorem fill_of_le (h : t ≤ b.last) : b.fill t = b := if_pos h

theorem fill_of_lt (h : b.last < t) :
    b.fill t =
      { b with level := min b.capacity (b.level + b.rate * (t - b.last)), last := t } :=
  if_neg (not_le_of_gt h)

@[simp] theorem fill_capacity (b : Bucket K) (t : K) : (b.fill t).capacity = b.capacity := by
  unfold fill
  split <;> rfl

@[simp] theorem fill_rate (b : Bucket K) (t : K) : (b.fill t).rate = b.rate := by
  unfold fill
  split <;> rfl

theorem fill_last (b : Bucket K) (t : K) : (b.fill t).last = max b.last t := by
  rcases le_or_gt t b.last with h | h
  · rw [fill_of_le h, max_eq_left h]
  · rw [fill_of_lt h, max_eq_right h.le]

theorem fill_level (hb : b.level ≤ b.capacity) (h : b.last ≤ t) :
    (b.fill t).level = min b.capacity (b.level + b.rate * (t - b.last)) := by
  rcases eq_or_lt_of_le h with rfl | h
  · rw [fill_of_le le_rfl, sub_self, mul_zero, add_zero, min_eq_right hb]
  · rw [fill_of_lt h]

theorem fill_level_le_capacity (hb : b.level ≤ b.capacity) : (b.fill t).level ≤ b.capacity := by
  rcases le_or_gt t b.last with h | h
  · rwa [fill_of_le h]
  · rw [fill_level hb h.le]
    exact min_le_left _ _

variable [IsStrictOrderedRing K]

/-- Filling in two steps is filling once. -/
theorem fill_fill (hr : 0 ≤ b.rate) {s : K} (h : t ≤ s) : (b.fill t).fill s = b.fill s := by
  rcases le_or_gt t b.last with ht | ht
  · rw [fill_of_le ht]
  rcases eq_or_lt_of_le h with rfl | h
  · exact fill_of_le (by rw [fill_last]; exact le_max_right _ _)
  have hlast : (b.fill t).last < s := by
    rw [fill_last]
    exact max_lt (ht.trans h) h
  have hflow : 0 ≤ b.rate * (s - t) := mul_nonneg hr (sub_nonneg.mpr h.le)
  -- the clamp of the first step is lost in the clamp of the second
  have hclamp (y : K) : min b.capacity (min b.capacity y + b.rate * (s - t)) =
      min b.capacity (y + b.rate * (s - t)) := by
    rw [← min_add_add_right, ← min_assoc, min_eq_left (le_add_of_nonneg_right hflow)]
  rw [fill_of_lt hlast, fill_of_lt (ht.trans h), fill_of_lt ht, hclamp]
  congr 2
  ring

theorem fill_level_nonneg (hr : 0 ≤ b.rate) (h0 : 0 ≤ b.level) (hb : b.level ≤ b.capacity) :
    0 ≤ (b.fill t).level := by
  rcases le_or_gt t b.last with h | h
  · rwa [fill_of_le h]
  · rw [fill_level hb h.le]
    exact le_min (h0.trans hb) (add_nonneg h0 (mul_nonneg hr (sub_nonneg.mpr h.le)))

/-- No more comes in than flows from any time up to the last fill on. -/
theorem fill_level_le (hr : 0 ≤ b.rate) {u : K} (hu : u ≤ b.last) (hut : u ≤ t) :
    (b.fill t).level ≤ b.level + b.rate * (t - u) := by
  rcases le_or_gt t b.last with h | h
  · rw [fill_of_le h]
    exact le_add_of_nonneg_right (mul_nonneg hr (sub_nonneg.mpr hut))
  · rw [fill_of_lt h]
    refine (min_le_right _ _).trans (add_le_add_right ?_ _)
    exact mul_le_mul_of_nonneg_left (sub_le_sub_left hu t) hr

end Fill

/-! ## One draw -/

theorem take_of_le {b : Bucket K} {n : K} (h : n ≤ b.level) :
    b.take n = ({ b with level := b.level - n }, true) := if_pos h

theorem take_of_lt {b : Bucket K} {n : K} (h : b.level < n) : b.take n = (b, false) :=
  if_neg (not_le_of_gt h)

section Draw
variable (b : Bucket K) (d : K × K)

/-- What a draw is granted. -/
def paid : K := if ((b.fill d.1).take d.2).2 then d.2 else 0

theorem trace_draw (ds : List (K × K)) :
    trace draw b (d :: ds) = (d, ((b.fill d.1).take d.2).2) :: trace draw (b.draw d).1 ds := rfl

theorem granted_draw (ds : List (K × K)) :
    granted (trace draw b (d :: ds)) = paid b d + granted (trace draw (b.draw d).1 ds) :=
  granted_cons _ _

@[simp] theorem draw_capacity : (b.draw d).1.capacity = b.capacity := by
  unfold draw take
  split <;> exact fill_capacity b d.1

@[simp] theorem draw_rate : (b.draw d).1.rate = b.rate := by
  unfold draw take
  split <;> exact fill_rate b d.1

theorem draw_last : (b.draw d).1.last = max b.last d.1 := by
  unfold draw take
  split <;> exact fill_last b d.1

/-- What is granted leaves the bucket. -/
theorem draw_level : (b.draw d).1.level = (b.fill d.1).level - paid b d := by
  unfold draw paid take
  split
  · rfl
  · exact (sub_zero _).symm

theorem paid_le (h : 0 ≤ (b.fill d.1).level) : paid b d ≤ (b.fill d.1).level := by
  unfold paid take
  split
  · next hn => exact hn
  · exact h

theorem paid_nonneg (hd : 0 ≤ d.2) : 0 ≤ paid b d := by
  unfold paid
  split
  · exact hd
  · exact le_rfl

theorem draw_refused (h : ((b.fill d.1).take d.2).2 = false) : (b.draw d).1 = b.fill d.1 := by
  unfold draw
  rcases le_or_gt d.2 (b.fill d.1).level with hn | hn
  · rw [take_of_le hn] at h
    cases h
  · rw [take_of_lt hn]

end Draw

/-! ## Windows of draws -/

/-- Every window of the draws asks for at most a full bucket and what flows in
between its first and its last draw. -/
def Modest (capacity rate : K) (ds : List (K × K)) : Prop :=
  ∀ pre w post first last, ds = pre ++ w ++ post → w.head? = some first → w.getLast? = some last →
    requested w ≤ capacity + rate * (last.1 - first.1)

theorem Modest.init {capacity rate : K} {ds : List (K × K)} {e : K × K}
    (h : Modest capacity rate (ds ++ [e])) : Modest capacity rate ds := by
  rintro pre w post first last rfl hfirst hlast
  exact h pre w (post ++ [e]) first last (List.append_assoc _ _ _) hfirst hlast

/-! ## The level stays within the bucket -/

structure Sound (b : Bucket K) : Prop where
  rate_nonneg : 0 ≤ b.rate
  level_nonneg : 0 ≤ b.level
  level_le : b.level ≤ b.capacity

theorem final_capacity (b : Bucket K) (ds : List (K × K)) :
    (final draw b ds).capacity = b.capacity :=
  final_invariant draw (fun s => s.capacity = b.capacity)
    (fun s d h => (draw_capacity s d).trans h) b rfl ds

theorem final_rate (b : Bucket K) (ds : List (K × K)) : (final draw b ds).rate = b.rate :=
  final_invariant draw (fun s => s.rate = b.rate) (fun s d h => (draw_rate s d).trans h) b rfl ds

theorem final_last_le {b : Bucket K} {t : K} (hb : b.last ≤ t) (ds : List (K × K))
    (ht : ∀ d ∈ ds, d.1 ≤ t) : (final draw b ds).last ≤ t := by
  induction ds generalizing b with
  | nil => exact hb
  | cons d ds ih =>
    rw [List.forall_mem_cons] at ht
    refine ih ?_ ht.2
    rw [draw_last]
    exact max_le hb ht.1

variable [IsStrictOrderedRing K]

theorem Sound.draw {b : Bucket K} (h : Sound b) {d : K × K} (hd : 0 ≤ d.2) :
    Sound (b.draw d).1 := by
  have hfill : 0 ≤ (b.fill d.1).level := fill_level_nonneg h.rate_nonneg h.level_nonneg h.level_le
  refine ⟨?_, ?_, ?_⟩
  · rw [draw_rate]
    exact h.rate_nonneg
  · rw [draw_level]
    exact sub_nonneg.mpr (paid_le b d hfill)
  · rw [draw_level, draw_capacity]
    exact (sub_le_self _ (paid_nonneg b d hd)).trans (fill_level_le_capacity h.level_le)

theorem Sound.final {b : Bucket K} (h : Sound b) (ds : List (K × K)) (hd : ∀ d ∈ ds, 0 ≤ d.2) :
    Sound (final Bucket.draw b ds) := by
  induction ds generalizing b with
  | nil => exact h
  | cons d ds ih =>
    rw [List.forall_mem_cons] at hd
    exact ih (h.draw hd.1) hd.2

/-! ## No window gets more -/

/-- Counted from any time up to the last fill: what is granted and what is left
was there or has flowed in. -/
theorem granted_add_level_le {b : Bucket K} (hr : 0 ≤ b.rate) {u : K} (hu : u ≤ b.last)
    (ds : List (K × K)) (hds : ds.Pairwise fun d e => d.1 ≤ e.1) (hud : ∀ d ∈ ds, u ≤ d.1) :
    granted (trace draw b ds) + (final draw b ds).level ≤
      b.level + b.rate * ((ds.map Prod.fst).getLastD u - u) := by
  induction ds generalizing b u with
  | nil => simp [granted, trace]
  | cons d ds ih =>
    rw [List.pairwise_cons] at hds
    have hd : u ≤ d.1 := hud d List.mem_cons_self
    have hlast : d.1 ≤ (b.draw d).1.last := by
      rw [draw_last]
      exact le_max_right _ _
    have hrest := ih (by rwa [draw_rate]) hlast hds.2 hds.1
    have hfill := fill_level_le hr hu hd
    rw [draw_level, draw_rate] at hrest
    rw [granted_draw, final_cons, List.map_cons, List.getLastD_cons]
    calc paid b d + granted (trace draw (b.draw d).1 ds) + (final draw (b.draw d).1 ds).level
        ≤ (b.fill d.1).level + b.rate * ((ds.map Prod.fst).getLastD d.1 - d.1) := by linarith
      _ ≤ b.level + b.rate * (d.1 - u) + b.rate * ((ds.map Prod.fst).getLastD d.1 - d.1) :=
        add_le_add_left hfill _
      _ = b.level + b.rate * ((ds.map Prod.fst).getLastD d.1 - u) := by ring

theorem granted_le {b : Bucket K} (hb : Sound b) (d : K × K) (ds : List (K × K))
    (hds : (d :: ds).Pairwise fun d e => d.1 ≤ e.1) (hn : ∀ e ∈ d :: ds, 0 ≤ e.2) :
    granted (trace draw b (d :: ds)) ≤
      b.capacity + b.rate * ((ds.map Prod.fst).getLastD d.1 - d.1) := by
  rw [List.pairwise_cons] at hds
  have hend : 0 ≤ (final draw b (d :: ds)).level := (hb.final (d :: ds) hn).level_nonneg
  have hlast : d.1 ≤ (b.draw d).1.last := by
    rw [draw_last]
    exact le_max_right _ _
  have hrest := granted_add_level_le (by rw [draw_rate]; exact hb.rate_nonneg) hlast ds hds.2 hds.1
  have hfill : (b.fill d.1).level ≤ b.capacity := fill_level_le_capacity hb.level_le
  rw [draw_level, draw_rate] at hrest
  rw [final_cons] at hend
  rw [granted_draw]
  linarith

/-! ## Draws that ask for no more are granted -/

section Full
variable {b : Bucket K} (hb : Sound b) (hfull : b.level = b.capacity)
include hb hfull

/-- There is as much in the bucket as every window up to now has left over. -/
theorem le_level_of_slack (ds : List (K × K)) (hds : ds.Pairwise fun d e => d.1 ≤ e.1)
    (hstart : ∀ d ∈ ds, b.last ≤ d.1) (hn : ∀ d ∈ ds, 0 ≤ d.2)
    (hall : ∀ o ∈ trace draw b ds, o.2 = true) {t : K} (hbt : b.last ≤ t) (ht : ∀ d ∈ ds, d.1 ≤ t)
    {x : K} (hx : x ≤ b.capacity)
    (hw : ∀ pre d w, ds = pre ++ d :: w →
      x + requested (d :: w) ≤ b.capacity + b.rate * (t - d.1)) :
    x ≤ ((final draw b ds).fill t).level := by
  induction ds using List.reverseRecOn generalizing t x with
  | nil =>
    rw [final_nil, fill_level hb.level_le hbt, hfull]
    have hflow : 0 ≤ b.rate * (t - b.last) := mul_nonneg hb.rate_nonneg (sub_nonneg.mpr hbt)
    exact le_min hx (le_add_of_le_of_nonneg hx hflow)
  | append_singleton ds e ih =>
    have hsound : Sound (final draw b (ds ++ [e])) := hb.final _ hn
    rw [List.pairwise_append] at hds
    rw [trace_concat, List.forall_mem_append] at hall
    rw [List.forall_mem_append, List.forall_mem_singleton] at hstart hn ht
    have hbefore : ∀ d ∈ ds, d.1 ≤ e.1 := fun d hd => hds.2.2 d hd e (List.mem_singleton_self e)
    have hlast : (final draw b (ds ++ [e])).last = e.1 := by
      rw [final_concat, draw_last, max_eq_right (final_last_le hstart.2 ds hbefore)]
    have hlevel : (final draw b (ds ++ [e])).level = ((final draw b ds).fill e.1).level - e.2 := by
      rw [final_concat, draw_level, paid, if_pos (hall.2 _ (List.mem_singleton_self _))]
    rw [fill_level hsound.level_le (hlast.trans_le ht.2), hlast, hlevel, final_capacity, final_rate]
    refine le_min hx ?_
    -- the last draw and the inflow since are part of what the bucket must have held before it
    have hheld : x + e.2 - b.rate * (t - e.1) ≤ ((final draw b ds).fill e.1).level := by
      refine ih hds.1 hstart.1 hn.1 hall.1 hstart.2 hbefore ?_ ?_
      · have hown := hw ds e [] rfl
        rw [requested_cons, requested, List.map_nil, List.sum_nil] at hown
        linarith
      · rintro pre d w rfl
        have hwin := hw pre d (w ++ [e]) (by rw [List.append_assoc, List.cons_append])
        rw [← List.cons_append, requested_concat] at hwin
        linarith
    linarith

theorem granted_of_modest (ds : List (K × K)) (hds : ds.Pairwise fun d e => d.1 ≤ e.1)
    (hstart : ∀ d ∈ ds, b.last ≤ d.1) (hn : ∀ d ∈ ds, 0 ≤ d.2)
    (hm : Modest b.capacity b.rate ds) : ∀ o ∈ trace draw b ds, o.2 = true := by
  induction ds using List.reverseRecOn with
  | nil => exact fun o ho => absurd ho List.not_mem_nil
  | append_singleton ds e ih =>
    rw [List.pairwise_append] at hds
    rw [List.forall_mem_append, List.forall_mem_singleton] at hstart hn
    have hbefore : ∀ d ∈ ds, d.1 ≤ e.1 := fun d hd => hds.2.2 d hd e (List.mem_singleton_self e)
    have hall := ih hds.1 hstart.1 hn.1 hm.init
    have henough : e.2 ≤ ((final draw b ds).fill e.1).level := by
      refine le_level_of_slack hb hfull ds hds.1 hstart.1 hn.1 hall hstart.2 hbefore ?_ ?_
      · have hown := hm ds [e] [] e e (List.append_nil _).symm rfl rfl
        simpa [requested] using hown
      · rintro pre d w rfl
        have hwin := hm pre (d :: w ++ [e]) [] d e (by simp) rfl List.getLast?_concat
        rwa [requested_concat, add_comm] at hwin
    rw [trace_concat, List.forall_mem_append]
    refine ⟨hall, ?_⟩
    rintro o ho
    obtain rfl := List.mem_singleton.mp ho
    rw [take_of_le henough]

end Full

/-! ## Refused draws leave no trace -/

/-- The second record is the first without some of the refused entries. -/
inductive Omits {ι : Type} : List (ι × Bool) → List (ι × Bool) → Prop
  | nil : Omits [] []
  | keep (o : ι × Bool) {os os' : List (ι × Bool)} (h : Omits os os') : Omits (o :: os) (o :: os')
  | drop (i : ι) {os os' : List (ι × Bool)} (h : Omits os os') : Omits ((i, false) :: os) os'

theorem Omits.map {ι κ : Type} (f : ι → κ) {os os' : List (ι × Bool)} (h : Omits os os') :
    Omits (os.map (Prod.map f id)) (os'.map (Prod.map f id)) := by
  induction h with
  | nil => exact Omits.nil
  | keep o _ ih => exact Omits.keep _ ih
  | drop i _ ih => exact Omits.drop (f i) ih

/-- Two buckets that are the same once filled answer alike; the one that does not
see the refused draws stays such a bucket. -/
theorem trace_omits {b b' : Bucket K} (hr : 0 ≤ b.rate) (ds : List (K × K))
    (hds : ds.Pairwise fun d e => d.1 ≤ e.1) (hfill : ∀ d ∈ ds, b.fill d.1 = b'.fill d.1)
    {os : List ((K × K) × Bool)} (ho : Omits (trace draw b ds) os) :
    trace draw b' (os.map Prod.fst) = os := by
  induction ds generalizing b b' os with
  | nil =>
    cases ho
    rfl
  | cons d ds ih =>
    rw [List.pairwise_cons] at hds
    rw [List.forall_mem_cons] at hfill
    have hr' : 0 ≤ (b.draw d).1.rate := by rwa [draw_rate]
    rw [trace_draw] at ho
    generalize hv : ((b.fill d.1).take d.2).2 = v at ho
    cases ho with
    | keep _ ho =>
      have hsame : b'.draw d = b.draw d := by
        unfold draw
        rw [hfill.1]
      rw [List.map_cons, trace_draw, ← hfill.1, hv, hsame]
      exact congrArg _ (ih hr' hds.2 (fun _ _ => rfl) ho)
    | drop _ ho =>
      refine ih hr' hds.2 (fun e he => ?_) ho
      rw [draw_refused b d hv, fill_fill hr (hds.1 e he)]
      exact hfill.2 e he

end Bucket
end RealtimeEngine.Foundations
