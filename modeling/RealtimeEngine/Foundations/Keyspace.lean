import Mathlib.Order.Lattice
import RealtimeEngine.Foundations.Tables

/-! A key-value store whose keys may carry an expiry, with the commands a client
sends to such a server. Every command is one transition and reads the clock
once. A key does not exist from the instant of its expiry on; that the table
still holds it is not observable. -/
namespace RealtimeEngine.Foundations
set_option autoImplicit false
set_option maxHeartbeats 250000

structure Cell (τ υ : Type) where
  value : υ
  expires : Option τ
  deriving DecidableEq

abbrev Keyspace (κ τ υ : Type) := Table κ (Cell τ υ)

namespace Keyspace
variable {κ τ υ : Type} [DecidableEq κ]

/-! ## Commands -/

def set (m : Keyspace κ τ υ) (k : κ) (v : υ) (expires : Option τ) : Keyspace κ τ υ :=
  m.insert k ⟨v, expires⟩

def del (m : Keyspace κ τ υ) (k : κ) : Keyspace κ τ υ := m.erase k

theorem lookup_set_ne (m : Keyspace κ τ υ) {k k' : κ} (h : k ≠ k') (v : υ) (x : Option τ) :
    (m.set k' v x).lookup k = m.lookup k :=
  AList.lookup_insert_ne h

@[simp] theorem lookup_set (m : Keyspace κ τ υ) (k : κ) (v : υ) (x : Option τ) :
    (m.set k v x).lookup k = some ⟨v, x⟩ :=
  AList.lookup_insert _

variable [LinearOrder τ]

/-- What a key holds at a time. -/
def live (m : Keyspace κ τ υ) (now : τ) (k : κ) : Option (Cell τ υ) :=
  (m.lookup k).filter fun c => c.expires.all fun e => decide (now < e)

def get (m : Keyspace κ τ υ) (now : τ) (k : κ) : Option υ := (m.live now k).map Cell.value

/-- Set a key that does not exist; the flag says whether that was so. -/
def setNX (m : Keyspace κ τ υ) (now : τ) (k : κ) (v : υ) (expires : Option τ) :
    Keyspace κ τ υ × Bool :=
  match m.get now k with
  | none => (m.set k v expires, true)
  | some _ => (m, false)

/-- Give a key that exists a new expiry. -/
def pexpire (m : Keyspace κ τ υ) (now : τ) (k : κ) (e : τ) : Keyspace κ τ υ × Bool :=
  match m.get now k with
  | none => (m, false)
  | some v => (m.set k v (some e), true)

/-! ## What is there at a time -/

theorem get_eq_some (m : Keyspace κ τ υ) (now : τ) (k : κ) (v : υ) :
    m.get now k = some v ↔ ∃ x, m.lookup k = some ⟨v, x⟩ ∧ ∀ e, x = some e → now < e := by
  unfold get live
  constructor
  · intro h
    obtain ⟨⟨w, x⟩, hc, rfl⟩ := Option.map_eq_some_iff.mp h
    obtain ⟨hl, hlive⟩ := Option.filter_eq_some_iff.mp hc
    refine ⟨x, hl, ?_⟩
    rintro e rfl
    exact of_decide_eq_true hlive
  · rintro ⟨x, hl, hlive⟩
    refine Option.map_eq_some_iff.mpr ⟨⟨v, x⟩, Option.filter_eq_some_iff.mpr ⟨hl, ?_⟩, rfl⟩
    cases x with
    | none => rfl
    | some e => exact decide_eq_true (hlive e rfl)

/-- A key with an expiry, before it. -/
theorem get_of_before {m : Keyspace κ τ υ} {now e : τ} {k : κ} {v : υ}
    (hl : m.lookup k = some ⟨v, some e⟩) (hb : now < e) : m.get now k = some v :=
  (get_eq_some m now k v).mpr ⟨some e, hl, fun _ he => Option.some.inj he ▸ hb⟩

theorem get_of_after {m : Keyspace κ τ υ} {now e : τ} {k : κ} {v : υ}
    (hl : m.lookup k = some ⟨v, some e⟩) (ha : e ≤ now) : m.get now k = none := by
  unfold get live
  rw [hl, Option.filter_some, if_neg, Option.map_none]
  exact fun hlive => not_lt_of_ge ha (of_decide_eq_true hlive)

/-! ## Commands that find the key taken, or take it -/

theorem setNX_taken {m : Keyspace κ τ υ} {now : τ} {k : κ} {w : υ} (h : m.get now k = some w)
    (v : υ) (x : Option τ) : m.setNX now k v x = (m, false) := by
  rw [setNX, h]

theorem setNX_granted {m : Keyspace κ τ υ} {now : τ} {k : κ} {v : υ} {x : Option τ}
    (h : (m.setNX now k v x).2 = true) : (m.setNX now k v x).1 = m.set k v x := by
  unfold setNX at h ⊢
  split at h
  next => rfl
  next => cases h

theorem lookup_setNX_ne (m : Keyspace κ τ υ) (now : τ) {k k' : κ} (h : k ≠ k') (v : υ)
    (x : Option τ) : (m.setNX now k' v x).1.lookup k = m.lookup k := by
  unfold setNX
  split
  · exact lookup_set_ne m h v x
  · rfl

theorem pexpire_eq {m : Keyspace κ τ υ} {now : τ} {k : κ} {v : υ} (h : m.get now k = some v)
    (e : τ) : m.pexpire now k e = (m.set k v (some e), true) := by
  rw [pexpire, h]

theorem lookup_pexpire_ne (m : Keyspace κ τ υ) (now : τ) {k k' : κ} (h : k ≠ k') (e : τ) :
    (m.pexpire now k' e).1.lookup k = m.lookup k := by
  unfold pexpire
  split
  · rfl
  · exact lookup_set_ne m h _ _

end Keyspace
end RealtimeEngine.Foundations
