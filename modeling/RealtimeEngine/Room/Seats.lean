import RealtimeEngine.Room.Exits
import Mathlib.Data.List.Nodup

/-! The seat table: `seatOrder` and `players` are two records of one seating,
kept in step by `Join` and by the removal and renumbering loops of `Leave`.
Once the game has started the seating only grows at its end. -/
namespace RealtimeEngine.Rooms
open Foundations Domain
set_option autoImplicit false
set_option maxHeartbeats 250000

/-! ## Positions after an erase -/

theorem idxOf_erase_of_ne {α : Type} [DecidableEq α] (l : List α) (p q : α) (h : q ≠ p) :
    (l.erase p).idxOf q = if l.idxOf p < l.idxOf q then l.idxOf q - 1 else l.idxOf q := by
  induction l with
  | nil => simp
  | cons a l ih =>
    by_cases hp : a = p
    · subst hp
      rw [List.erase_cons_head, List.idxOf_cons_self, List.idxOf_cons_ne l (Ne.symm h)]
      simp
    · rw [List.erase_cons_tail (by simpa using hp), List.idxOf_cons_ne l hp]
      by_cases hq : a = q
      · subst hq
        simp
      · rw [List.idxOf_cons_ne _ hq, List.idxOf_cons_ne l hq, ih]
        split_ifs <;> omega

section Seats
variable {σ : Type}

/-! ## The invariant and the updates that keep it -/

structure SeatTable (g : Game σ) (r : Room σ) : Prop where
  nodup : r.seatOrder.Nodup
  capacity : r.seatOrder.length ≤ g.maxPlayers
  keys : ∀ p, p ∈ r.players ↔ p ∈ r.seatOrder
  seat : ∀ p slot, r.players.lookup p = some slot → slot.seat = r.seatOrder.idxOf p

theorem SeatTable.congr {g : Game σ} {r r' : Room σ} (h : SeatTable g r)
    (ho : r'.seatOrder = r.seatOrder) (hp : r'.players = r.players) : SeatTable g r' := by
  refine ⟨?_, ?_, ?_, ?_⟩
  · rw [ho]; exact h.nodup
  · rw [ho]; exact h.capacity
  · rw [ho, hp]; exact h.keys
  · rw [ho, hp]; exact h.seat

theorem newRoom_seatTable (g : Game σ) (id : ID) (gameType : String) (now : Time) :
    SeatTable g (newRoom σ id gameType now) := by
  refine ⟨List.nodup_nil, Nat.zero_le _, ?_, ?_⟩
  · intro p
    simp [newRoom]
  · intro p slot hs
    simp [newRoom] at hs

theorem SeatTable.mem_of_lookup {g : Game σ} {r : Room σ} (h : SeatTable g r) {p : PlayerID}
    {slot : PlayerSlot} (hs : r.players.lookup p = some slot) : p ∈ r.seatOrder :=
  (h.keys p).mp (Table.mem_of_lookup r.players p slot hs)

/-- Writing back the slot of a seated player, its seat unchanged. -/
theorem SeatTable.setSlot {g : Game σ} {r : Room σ} (h : SeatTable g r) {p : PlayerID}
    {slot slot' : PlayerSlot} (hs : r.players.lookup p = some slot)
    (he : slot'.seat = slot.seat) : SeatTable g (setSlot r p slot') := by
  refine ⟨h.nodup, h.capacity, ?_, ?_⟩
  · intro q
    rw [setSlot_players, AList.mem_insert, setSlot_seatOrder, h.keys q]
    constructor
    · rintro (rfl | hq)
      · exact h.mem_of_lookup hs
      · exact hq
    · exact Or.inr
  · intro q slotq hq
    rw [setSlot_players, Table.lookup_insert_ite] at hq
    by_cases hqp : q = p
    · rw [if_pos hqp, Option.some.injEq] at hq
      subst hq
      rw [he, hqp]
      exact h.seat p slot hs
    · rw [if_neg hqp] at hq
      exact h.seat q slotq hq

theorem SeatTable.seatPlayer {g : Game σ} {r : Room σ} (h : SeatTable g r) {p : PlayerID}
    (hs : r.players.lookup p = none) (hm : r.seatOrder.length < g.maxPlayers) :
    SeatTable g (seatPlayer r p) := by
  have hp : p ∉ r.seatOrder := fun hin => (AList.lookup_eq_none.mp hs) ((h.keys p).mpr hin)
  refine ⟨?_, ?_, ?_, ?_⟩
  · rw [seatPlayer_seatOrder]
    exact List.nodup_append.mpr ⟨h.nodup, List.nodup_singleton p, by
      intro a ha b hb hab
      rw [List.mem_singleton] at hb
      subst hb
      subst hab
      exact hp ha⟩
  · rw [seatPlayer_seatOrder, List.length_append, List.length_singleton]
    omega
  · intro q
    rw [seatPlayer_players, AList.mem_insert, seatPlayer_seatOrder, List.mem_append,
      List.mem_singleton, h.keys q]
    exact or_comm
  · intro q slot hq
    rw [seatPlayer_players, Table.lookup_insert_ite] at hq
    rw [seatPlayer_seatOrder]
    by_cases hqp : q = p
    · rw [if_pos hqp, Option.some.injEq] at hq
      subst hq
      rw [hqp, List.idxOf_append_of_notMem hp, List.idxOf_cons_self, Nat.add_zero]
    · rw [if_neg hqp] at hq
      rw [List.idxOf_append_of_mem (h.mem_of_lookup hq)]
      exact h.seat q slot hq

theorem SeatTable.removePlayer {g : Game σ} {r : Room σ} (h : SeatTable g r) {p : PlayerID}
    {slot : PlayerSlot} (hs : r.players.lookup p = some slot) :
    SeatTable g (removePlayer r p slot) := by
  refine ⟨h.nodup.erase p, ?_, ?_, ?_⟩
  · exact Nat.le_trans List.length_erase_le h.capacity
  · intro q
    change q ∈ (Rooms.removePlayer r p slot).players ↔ q ∈ r.seatOrder.erase p
    rw [← AList.lookup_isSome, lookup_removePlayer, h.nodup.mem_erase_iff, ← h.keys q, ← AList.lookup_isSome]
    by_cases hqp : q = p <;> simp [hqp]
  · intro q slotq hq
    change slotq.seat = (r.seatOrder.erase p).idxOf q
    rw [lookup_removePlayer] at hq
    by_cases hqp : q = p
    · simp [hqp] at hq
    · rw [if_neg hqp, Option.map_eq_some_iff] at hq
      obtain ⟨old, hold, rfl⟩ := hq
      rw [idxOf_erase_of_ne _ _ _ hqp, ← h.seat q old hold, ← h.seat p slot hs]
      unfold closeSeatGap
      split_ifs <;> rfl

/-! ## Every exit keeps the table -/

theorem exit_seatTable {g : Game σ} {r r' : Room σ} {i : Input} {outs : List Output}
    (he : Exit g r i r' outs) (h : SeatTable g r) : SeatTable g r' := by
  have ht : ∀ now, SeatTable g (touch now r) := fun now => h.congr rfl rfl
  cases he with
  | stopped | tickIgnored => exact h
  | rejected now | rejoined now | ignored now | graceIgnored now | forceClosed now
  | snapshot now => exact h.congr rfl rfl
  | seated now p _ hs hm | initFailed now p _ _ hs hm | started now p _ _ hs hm =>
    exact ((ht now).seatPlayer hs hm).congr rfl rfl
  | left now p slot _ hs | emptied now p slot _ hs =>
    exact ((ht now).removePlayer hs).congr rfl rfl
  | dropped now p cmd slot _ _ hs => exact (ht now).setSlot hs rfl
  | reconnected now p slot _ hs => exact (ht now).setSlot hs rfl
  | applied now a slot result ha =>
    have hadv : SeatTable g (advance (touch now r) result) := h.congr rfl rfl
    have hset : SeatTable g (setSlot (advance (touch now r) result) a.playerID
        { slot with lastAppliedSeq := a.seq }) := hadv.setSlot ha.seated rfl
    exact hset.congr (settle_seatOrder _ _ _) (settle_players _ _ _)
  | forfeited => exact h.congr rfl rfl
  | ticked => exact h.congr (settle_seatOrder _ _ _) (settle_players _ _ _)

theorem final_seatTable (g : Game σ) (r : Room σ) (h : SeatTable g r) (is : List Input) :
    SeatTable g (final (step g) r is) :=
  final_invariant (step g) (SeatTable g) (fun r i hr => exit_seatTable (step_exit g r i) hr) r h is

/-! ## After the start -/

/-- A room that has left `Waiting` only appends to its seat order, and stays out of `Waiting`. -/
theorem exit_seatOrder_grows {g : Game σ} {r r' : Room σ} {i : Input} {outs : List Output}
    (he : Exit g r i r' outs) (hw : r.lifecycle ≠ .waiting) :
    r.seatOrder <+: r'.seatOrder ∧ r'.lifecycle ≠ .waiting := by
  cases he with
  | stopped | tickIgnored | rejected | rejoined | ignored | graceIgnored | snapshot | dropped
  | reconnected => exact ⟨List.prefix_refl _, hw⟩
  | seated => exact ⟨List.prefix_append _ _, hw⟩
  | initFailed _ _ _ hl | started _ _ _ hl | left _ _ _ hl | emptied _ _ _ hl => exact absurd hl hw
  | applied now a slot result | ticked now st result =>
    refine ⟨?_, ?_⟩
    · rw [settle_seatOrder]
      exact List.prefix_refl _
    · rw [settle_lifecycle]
      split
      · exact fun h => Lifecycle.noConfusion h
      · exact hw
  | forfeited => exact ⟨List.prefix_refl _, fun h => Lifecycle.noConfusion h⟩
  | forceClosed => exact ⟨List.prefix_refl _, fun h => Lifecycle.noConfusion h⟩

theorem final_seatOrder_grows (g : Game σ) (r : Room σ) (hw : r.lifecycle ≠ .waiting)
    (is : List Input) : r.seatOrder <+: (final (step g) r is).seatOrder := by
  have h := final_invariant (step g)
    (fun r' => r.seatOrder <+: r'.seatOrder ∧ r'.lifecycle ≠ .waiting)
    (fun r' i hr => by
      have hs := exit_seatOrder_grows (step_exit g r' i) hr.2
      exact ⟨hr.1.trans hs.1, hs.2⟩)
    r ⟨List.prefix_refl _, hw⟩ is
  exact h.1

/-- **The seat table of every reachable room.** Seats are the positions in a
duplicate-free order no longer than the game allows, every position is taken by
exactly one slot, a status never counts more connections than players, and
after the start neither the order nor any seat changes except by appending. -/
theorem seat_table_invariant (g : Game σ) (id : ID) (gameType : String) (now : Time)
    (is : List Input) :
    let r := final (step g) (newRoom σ id gameType now) is
    r.seatOrder.Nodup ∧ r.seatOrder.length ≤ g.maxPlayers ∧
    (∀ p, p ∈ r.players ↔ p ∈ r.seatOrder) ∧
    (∀ p slot, r.players.lookup p = some slot → slot.seat = r.seatOrder.idxOf p) ∧
    (∀ k, k < r.seatOrder.length →
      ∃! p, ∃ slot, r.players.lookup p = some slot ∧ slot.seat = k) ∧
    (statusLocked r).connectedCount ≤ (statusLocked r).playerCount ∧
    (r.lifecycle ≠ .waiting → ∀ js,
      r.seatOrder <+: (final (step g) r js).seatOrder ∧
      ∀ p slot, r.players.lookup p = some slot →
        ∃ slot', (final (step g) r js).players.lookup p = some slot' ∧ slot'.seat = slot.seat) := by
  intro r
  have h : SeatTable g r := final_seatTable g _ (newRoom_seatTable g id gameType now) is
  have hslot : ∀ p, p ∈ r.seatOrder → ∃ slot, r.players.lookup p = some slot := by
    intro p hp
    exact Option.isSome_iff_exists.mp (AList.lookup_isSome.mpr ((h.keys p).mpr hp))
  refine ⟨h.nodup, h.capacity, h.keys, h.seat, ?_, ?_, ?_⟩
  · intro k hk
    have hidx : r.seatOrder.idxOf r.seatOrder[k] = k := h.nodup.idxOf_getElem k hk
    obtain ⟨slot, hs⟩ := hslot r.seatOrder[k] (List.getElem_mem hk)
    refine ⟨r.seatOrder[k], ⟨slot, hs, by rw [h.seat _ _ hs, hidx]⟩, ?_⟩
    rintro q ⟨slotq, hq, hqk⟩
    rw [h.seat q slotq hq] at hqk
    exact (List.idxOf_inj (h.mem_of_lookup hq)).mp (hqk.trans hidx.symm)
  · exact Table.count_le_length _ r.players r.seatOrder fun p hp => (h.keys p).mp hp
  · intro hw js
    have hpre := final_seatOrder_grows g r hw js
    have h' : SeatTable g (final (step g) r js) := final_seatTable g r h js
    refine ⟨hpre, ?_⟩
    intro p slot hs
    have hp : p ∈ r.seatOrder := h.mem_of_lookup hs
    obtain ⟨slot', hs'⟩ := Option.isSome_iff_exists.mp
      (AList.lookup_isSome.mpr ((h'.keys p).mpr (hpre.subset hp)))
    refine ⟨slot', hs', ?_⟩
    rw [h'.seat p slot' hs', h.seat p slot hs]
    exact (hpre.idxOf_eq_of_mem hp).symm

end Seats
end RealtimeEngine.Rooms
