import RealtimeEngine.Foundations.Histories
import RealtimeEngine.Transport.Hub

/-! The Hub over any history of `Register` and `Unregister`. An entry is the last
registration of its pair that the same connection has not taken back; what
another connection takes back, and what happens to other pairs, leaves it alone.
A room's map is dropped with its last entry. -/
namespace RealtimeEngine.Transport.Hub
open Foundations Domain Rooms
set_option autoImplicit false
set_option maxHeartbeats 250000

/-! ## Calls -/

inductive Call
  | register (roomID : ID) (player : PlayerID) (c : ConnID)
  | unregister (roomID : ID) (player : PlayerID) (c : ConnID)

/-- The pair a call is about. -/
def Call.pair : Call → ID × PlayerID
  | register roomID player _ => (roomID, player)
  | unregister roomID player _ => (roomID, player)

def call (h : Hub) : Call → Hub
  | .register roomID player c => h.register roomID player c
  | .unregister roomID player c => h.unregister roomID player c

/-- `NewHub` and the calls after it. -/
def after (calls : List Call) : Hub := calls.foldl call ∅

theorem after_concat (calls : List Call) (i : Call) : after (calls ++ [i]) = (after calls).call i := by
  unfold after
  rw [List.foldl_append]
  rfl

theorem entry_call_ne (h : Hub) (i : Call) (R : ID) (P : PlayerID) (hne : i.pair ≠ (R, P)) :
    (h.call i).entry R P = h.entry R P := by
  cases i with
  | register R' P' c =>
    rw [call, entry_register, if_neg]
    rintro ⟨rfl, rfl⟩
    exact hne rfl
  | unregister R' P' c =>
    rw [call, entry_unregister, if_neg]
    rintro ⟨rfl, rfl, -⟩
    exact hne rfl

/-! ## Entries -/

/-- The last `Register` of the pair was with `c`, and no `Unregister` with `c` came after it. -/
def Current (R : ID) (P : PlayerID) (c : ConnID) (calls : List Call) : Prop :=
  Since (fun i => i = .register R P c)
    (fun i => (∀ d, i ≠ .register R P d) ∧ i ≠ .unregister R P c) calls

section Current
variable (R : ID) (P : PlayerID) (c d : ConnID) (calls : List Call)

theorem current_register : Current R P c (calls ++ [.register R P d]) ↔ d = c := by
  unfold Current
  rw [since_concat]
  constructor
  · rintro (h | ⟨h, -⟩)
    · cases h
      rfl
    · exact absurd rfl (h.1 d)
  · rintro rfl
    exact Or.inl rfl

theorem current_unregister :
    Current R P c (calls ++ [.unregister R P d]) ↔ d ≠ c ∧ Current R P c calls := by
  unfold Current
  rw [since_concat]
  constructor
  · rintro (h | ⟨⟨-, hne⟩, h⟩)
    · cases h
    · refine ⟨?_, h⟩
      rintro rfl
      exact hne rfl
  · rintro ⟨hne, h⟩
    refine Or.inr ⟨⟨fun _ => Call.noConfusion, ?_⟩, h⟩
    rintro ⟨⟩
    exact hne rfl

theorem current_frame (i : Call) (hne : i.pair ≠ (R, P)) :
    Current R P c (calls ++ [i]) ↔ Current R P c calls := by
  unfold Current
  rw [since_concat]
  constructor
  · rintro (rfl | ⟨-, h⟩)
    · exact absurd rfl hne
    · exact h
  · intro h
    refine Or.inr ⟨⟨?_, ?_⟩, h⟩
    · rintro d rfl
      exact hne rfl
    · rintro rfl
      exact hne rfl

end Current

theorem entry_iff_current (calls : List Call) (R : ID) (P : PlayerID) (c : ConnID) :
    (after calls).entry R P = some c ↔ Current R P c calls := by
  induction calls using List.reverseRecOn with
  | nil => exact iff_of_false (fun h => by cases h) (not_since_nil _ _)
  | append_singleton calls i ih =>
    rw [after_concat]
    by_cases hp : i.pair = (R, P)
    · cases i with
      | register R' P' d =>
        cases hp
        rw [call, entry_register, if_pos ⟨rfl, rfl⟩, current_register, Option.some.injEq]
      | unregister R' P' d =>
        cases hp
        rw [call, entry_unregister, current_unregister, ← ih]
        by_cases hd : (after calls).entry R P = some d
        · rw [if_pos ⟨rfl, rfl, hd⟩, hd, Option.some.injEq]
          exact iff_of_false (fun h => by cases h) fun h => h.1 h.2
        · rw [if_neg fun h => hd h.2.2]
          refine (and_iff_right_of_imp ?_).symm
          rintro hc rfl
          exact hd hc
    · rw [entry_call_ne _ i R P hp, current_frame R P c calls i hp]
      exact ih

/-! ## Rooms -/

/-- No room is kept with an empty map. -/
def Tidy (h : Hub) : Prop := ∀ R players, h.lookup R = some players → players.keys ≠ []

theorem Tidy.insert {h : Hub} (ht : Tidy h) (R : ID) (players : Table PlayerID ConnID)
    (hp : players.keys ≠ []) : Tidy (h.insert R players) := by
  intro R' players' hl
  rw [Table.lookup_insert_ite] at hl
  split at hl
  · cases hl
    exact hp
  · exact ht R' players' hl

theorem Tidy.erase {h : Hub} (ht : Tidy h) (R : ID) : Tidy (h.erase R) := by
  intro R' players' hl
  rw [Table.lookup_erase_ite] at hl
  split at hl
  · cases hl
  · exact ht R' players' hl

/-- The map that `Unregister` puts back, or drops if it has become empty. -/
theorem Tidy.putBack {h : Hub} (ht : Tidy h) (R : ID) (players : Table PlayerID ConnID) :
    Tidy (if players.keys.length = 0 then h.erase R else h.insert R players) := by
  split
  · exact ht.erase R
  · next hlen => exact ht.insert R players fun hnil => hlen (congrArg List.length hnil)

theorem Tidy.call {h : Hub} (ht : Tidy h) (i : Call) : Tidy (h.call i) := by
  cases i with
  | register R P c =>
    refine ht.insert R _ ?_
    rw [AList.keys_insert]
    exact List.cons_ne_nil _ _
  | unregister R P c =>
    change Tidy (h.unregister R P c)
    unfold Hub.unregister
    split
    · exact ht
    · exact ht.putBack R _

theorem after_tidy (calls : List Call) : Tidy (after calls) := by
  induction calls using List.reverseRecOn with
  | nil => exact fun _ _ h => by cases h
  | append_singleton calls i ih =>
    rw [after_concat]
    exact ih.call i

theorem Tidy.connectionsFor_empty_iff {h : Hub} (ht : Tidy h) (R : ID) :
    h.connectionsFor R = ∅ ↔ R ∉ h := by
  unfold connectionsFor
  rw [← AList.lookup_eq_none]
  cases hl : h.lookup R with
  | none => exact iff_of_true rfl rfl
  | some players =>
    refine iff_of_false ?_ fun h => by cases h
    intro hempty
    refine ht R players hl ?_
    rw [Option.getD_some] at hempty
    rw [hempty]
    rfl

/-- **The Hub is what its history says.** After any calls, the entry of a pair is
`c` exactly if the last `Register` of the pair was with `c` and no `Unregister`
of it with `c` came later. A further call changes no other pair, and an
`Unregister` with another connection than the entry's changes nothing of the
pair. No room has an empty map, so a room without connections has no key. -/
theorem hub_by_history (calls : List Call) :
    let h := after calls
    (∀ R P c, h.entry R P = some c ↔ Current R P c calls) ∧
    (∀ i R P, i.pair ≠ (R, P) → (h.call i).entry R P = h.entry R P) ∧
    (∀ R P c d, h.entry R P = some c → d ≠ c → (h.unregister R P d).entry R P = some c) ∧
    (∀ R players, h.lookup R = some players → players ≠ ∅) ∧
    ∀ R, h.connectionsFor R = ∅ ↔ R ∉ h := by
  intro h
  have ht : Tidy h := after_tidy calls
  refine ⟨entry_iff_current calls, entry_call_ne h, ?_, ?_, ht.connectionsFor_empty_iff⟩
  · intro R P c d hc hd
    rw [entry_unregister, if_neg, hc]
    rintro ⟨-, -, hentry⟩
    rw [hc, Option.some.injEq] at hentry
    exact hd hentry.symm
  · rintro R players hl rfl
    exact ht R ∅ hl rfl

end RealtimeEngine.Transport.Hub
