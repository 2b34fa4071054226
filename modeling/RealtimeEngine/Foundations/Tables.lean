import Mathlib.Data.List.AList

/-! Finite tables with distinct keys: Mathlib's association lists over a
constant value type, with the operations a map of a program needs beyond
lookup, insert and erase: changing every value in place, listing the values,
and counting those that satisfy a test. -/
namespace RealtimeEngine.Foundations
set_option autoImplicit false
set_option maxHeartbeats 250000

abbrev Table (κ υ : Type) := AList (fun _ : κ => υ)

namespace Table
variable {κ υ : Type} [DecidableEq κ]

theorem lookup_insert_ite (m : Table κ υ) (k k' : κ) (v : υ) :
    (m.insert k' v).lookup k = if k = k' then some v else m.lookup k := by
  by_cases h : k = k'
  · subst h
    rw [if_pos rfl, AList.lookup_insert]
  · rw [if_neg h, AList.lookup_insert_ne h]

theorem lookup_erase_ite (m : Table κ υ) (k k' : κ) :
    (m.erase k').lookup k = if k = k' then none else m.lookup k := by
  by_cases h : k = k'
  · subst h
    rw [if_pos rfl, AList.lookup_erase]
  · rw [if_neg h, AList.lookup_erase_ne h]

theorem erase_insert_self (m : Table κ υ) (k : κ) (v : υ) : (m.insert k v).erase k = m.erase k := by
  apply AList.ext
  change List.kerase k (List.kinsert k v m.entries) = List.kerase k m.entries
  simp [List.kinsert_def]

theorem erase_eq_self_iff (m : Table κ υ) (k : κ) : m.erase k = m ↔ m.lookup k = none := by
  constructor
  · intro h
    rw [← h, AList.lookup_erase]
  · intro h
    apply AList.ext
    exact List.kerase_of_notMem_keys fun hk => by
      have hs := AList.lookup_isSome.mpr (AList.mem_keys.mpr hk)
      rw [h] at hs
      cases hs

theorem mem_of_lookup (m : Table κ υ) (k : κ) (v : υ) (h : m.lookup k = some v) : k ∈ m :=
  AList.lookup_isSome.mp (by rw [h]; rfl)

/-! ## In-place change of every value -/

def mapVal (f : υ → υ) (m : Table κ υ) : Table κ υ :=
  ⟨m.entries.map fun e => ⟨e.1, f e.2⟩, m.nodupKeys.map₂ (fun _ => f) m.entries⟩

@[simp] theorem lookup_mapVal (f : υ → υ) (m : Table κ υ) (k : κ) :
    (mapVal f m).lookup k = (m.lookup k).map f :=
  List.dlookup_map₂ (f := fun _ => f) k

/-! ## Dropping entries -/

/-- The entries whose value passes the test. -/
def keep (f : υ → Bool) (m : Table κ υ) : Table κ υ :=
  ⟨m.entries.filter fun e => f e.2, m.nodupKeys.sublist List.filter_sublist⟩

theorem lookup_keep (f : υ → Bool) (m : Table κ υ) (k : κ) :
    (keep f m).lookup k = (m.lookup k).filter f := by
  ext v
  rw [Option.filter_eq_some_iff]
  change v ∈ (keep f m).lookup k ↔ v ∈ m.lookup k ∧ _
  rw [AList.mem_lookup_iff, AList.mem_lookup_iff]
  exact List.mem_filter

/-! ## Values -/

def values (m : Table κ υ) : List υ := m.entries.map fun e => e.2

theorem mem_values (m : Table κ υ) (v : υ) : v ∈ values m ↔ ∃ k, m.lookup k = some v := by
  simp only [values, List.mem_map]
  constructor
  · rintro ⟨⟨k, w⟩, hm, rfl⟩
    exact ⟨k, AList.mem_lookup_iff.mpr hm⟩
  · rintro ⟨k, hk⟩
    exact ⟨⟨k, v⟩, AList.mem_lookup_iff.mp hk, rfl⟩

def count (p : υ → Bool) (m : Table κ υ) : ℕ := (values m).countP p

omit [DecidableEq κ] in
/-- A table whose keys all occur in a list has no more values than the list is long. -/
theorem count_le_length (p : υ → Bool) (m : Table κ υ) (l : List κ)
    (h : ∀ k, k ∈ m → k ∈ l) : count p m ≤ l.length := by
  have hk : m.keys.length ≤ l.length :=
    (List.subperm_of_subset m.keys_nodup fun k hk => h k (AList.mem_keys.mpr hk)).length_le
  calc count p m ≤ (values m).length := List.countP_le_length
    _ = m.keys.length := by simp [values, AList.keys, List.keys]
    _ ≤ l.length := hk

end Table
end RealtimeEngine.Foundations
