import RealtimeEngine.Room.Exits

/-! What one turn can do to the slot of one player. Connection flags and
generations change in several handlers; every fact about them is read off the
seven changes below. -/
namespace RealtimeEngine.Rooms
open Foundations Domain
set_option autoImplicit false
set_option maxHeartbeats 250000

section Slots
variable {σ : Type}

/-- The slot of `p` before and after a turn with input `i` and outputs `outs`. -/
inductive SlotChange (r : Room σ) (i : Input) (outs : List Output) (p : PlayerID) :
    Option PlayerSlot → Option PlayerSlot → Prop
  | kept (s : Option PlayerSlot)
      (hr : ∀ now, i = .command now (.reconnect p) → r.lifecycle = .closed ∨ s = none) :
      SlotChange r i outs p s s
  | seated (now : Time) (hi : i = .command now (.join p)) :
      SlotChange r i outs p none (some { seat := r.seatOrder.length, connected := true })
  | removed (s : PlayerSlot) (now : Time) (hi : i = .command now (.leave p))
      (hw : r.lifecycle = .waiting) : SlotChange r i outs p (some s) none
  | moved (s : PlayerSlot) (seat : ℕ) (hw : r.lifecycle = .waiting) :
      SlotChange r i outs p (some s) (some (closeSeatGap seat s))
  | dropped (s : PlayerSlot) (now : Time) (cmd : Command) (hi : i = .command now cmd)
      (hc : Drops r p cmd) (hb : s.connected = true)
      (ht : r.lifecycle = .active → .afterFunc p (s.generation + 1) ∈ outs) :
      SlotChange r i outs p (some s)
        (some { s with connected := false, generation := s.generation + 1 })
  | back (s : PlayerSlot) (now : Time) (hi : i = .command now (.reconnect p)) :
      SlotChange r i outs p (some s) (some { s with connected := true })
  | marked (s : PlayerSlot) (now : Time) (a : Action) (hi : i = .command now (.action a))
      (hl : r.lifecycle = .active) :
      SlotChange r i outs p (some s) (some { s with lastAppliedSeq := a.seq })

/-- A turn that writes one slot leaves every other player's as it was. -/
theorem slotChange_insert {r r' : Room σ} {i : Input} {outs : List Output} {p q : PlayerID}
    {s' : PlayerSlot} (h : r'.players = r.players.insert q s')
    (hr : ∀ now, i = .command now (.reconnect p) → p = q)
    (hself : SlotChange r i outs q (r.players.lookup q) (some s')) :
    SlotChange r i outs p (r.players.lookup p) (r'.players.lookup p) := by
  rw [h, Table.lookup_insert_ite]
  by_cases hp : p = q
  · subst hp
    rw [if_pos rfl]
    exact hself
  · rw [if_neg hp]
    exact .kept _ fun now hi => absurd (hr now hi) hp

theorem exit_slot {g : Game σ} {r r' : Room σ} {i : Input} {outs : List Output}
    (he : Exit g r i r' outs) (p : PlayerID) :
    SlotChange r i outs p (r.players.lookup p) (r'.players.lookup p) := by
  cases he with
  | stopped _ hc => exact .kept _ fun _ _ => Or.inl hc
  | rejected now cmd e ho hr =>
    refine .kept _ fun now' hi => Or.inr ?_
    cases hi
    exact hr
  | rejoined | graceIgnored | forceClosed | snapshot | tickIgnored | forfeited =>
    exact .kept _ fun now' hi => by cases hi
  | ticked =>
    rw [settle_players]
    exact .kept _ fun now' hi => by cases hi
  | ignored now q cmd ho hc =>
    refine .kept _ fun now' hi => ?_
    cases hi
    rcases hc with hc | hc <;> cases hc
  | seated now q hl hs | initFailed now q e hl hs | started now q state hl hs =>
    refine slotChange_insert (q := q) rfl (fun now' hi => by cases hi) ?_
    rw [hs]
    exact .seated now rfl
  | left now q slot hl hs | emptied now q slot hl hs =>
    change SlotChange r _ _ p _ ((removePlayer (touch now r) q slot).players.lookup p)
    rw [lookup_removePlayer, touch_players]
    by_cases hp : p = q
    · subst hp
      rw [if_pos rfl, hs]
      exact .removed slot now rfl hl
    · rw [if_neg hp]
      cases hs' : r.players.lookup p with
      | none => exact .kept none fun now' hi => by cases hi
      | some s => exact .moved s slot.seat hl
  | dropped now q cmd slot ho hc hs hb =>
    refine slotChange_insert (q := q) rfl ?_ ?_
    · intro now' hi
      cases hi
      rcases hc with hc | ⟨hc, -⟩ <;> cases hc
    · rw [hs]
      refine .dropped slot now cmd rfl hc hb ?_
      intro ha
      rw [if_pos ha]
      exact List.mem_append_right _ (List.mem_singleton.mpr rfl)
  | applied now a slot result ha =>
    refine slotChange_insert (q := a.playerID) (settle_players _ _ _) (fun now' hi => by cases hi) ?_
    rw [ha.seated]
    exact .marked slot now a rfl ha.active
  | reconnected now q slot ho hs =>
    refine slotChange_insert (q := q) rfl ?_ ?_
    · intro now' hi
      cases hi
      rfl
    · rw [hs]
      exact .back slot now rfl

/-- Only a `Disconnect` or a `Leave` of the player takes a connected slot away. -/
theorem exit_connected {g : Game σ} {r r' : Room σ} {i : Input} {outs : List Output}
    (he : Exit g r i r' outs) (p : PlayerID) (hleave : ∀ now, i ≠ .command now (.leave p))
    (hdrop : ∀ now, i ≠ .command now (.disconnect p))
    (hc : ∀ slot, r.players.lookup p = some slot → slot.connected = true) :
    (∀ slot, r'.players.lookup p = some slot → slot.connected = true) ∧
      (r.players.lookup p ≠ none → r'.players.lookup p ≠ none) := by
  have hs := exit_slot he p
  generalize ho : r.players.lookup p = o at hs hc
  generalize r'.players.lookup p = o' at hs
  cases hs with
  | kept s hr => exact ⟨hc, fun h => h⟩
  | seated now hi =>
    refine ⟨fun slot h => ?_, fun h => absurd rfl h⟩
    cases h
    rfl
  | removed s now hi hw => exact absurd hi (hleave now)
  | moved s seat hw =>
    refine ⟨fun slot h => ?_, fun _ h => by cases h⟩
    cases h
    have hb := hc s rfl
    unfold closeSeatGap
    split <;> exact hb
  | dropped s now cmd hi hd hb ht =>
    obtain rfl | ⟨rfl, -⟩ := hd
    · exact absurd hi (hdrop now)
    · exact absurd hi (hleave now)
  | back s now hi =>
    refine ⟨fun slot h => ?_, fun _ h => by cases h⟩
    cases h
    rfl
  | marked s now a hi hl =>
    refine ⟨fun slot h => ?_, fun _ h => by cases h⟩
    cases h
    exact hc s rfl

/-- The timer of a connected player or of another generation only touches the room. -/
theorem grace_stale (g : Game σ) (r : Room σ) (now : Time) (p : PlayerID) (generation : ℕ)
    (slot : PlayerSlot) (hs : r.players.lookup p = some slot)
    (hold : slot.connected = true ∨ slot.generation ≠ generation) (ho : r.lifecycle ≠ .closed) :
    step g r (.command now (.graceExpired p generation)) = (touch now r, []) := by
  unfold step
  rw [if_neg ho]
  change handleGraceExpired g now (touch now r) p generation = _
  unfold handleGraceExpired
  rw [touch_players, hs]
  exact if_pos hold

/-- A grace timer that expires while its player is connected ends nothing. -/
theorem grace_spares_connected (g : Game σ) (r : Room σ) (now : Time) (p : PlayerID)
    (generation : ℕ) (slot : PlayerSlot) (hs : r.players.lookup p = some slot)
    (hc : slot.connected = true) :
    (step g r (.command now (.graceExpired p generation))).1.lifecycle = r.lifecycle := by
  by_cases ho : r.lifecycle = .closed
  · unfold step
    rw [if_pos ho]
  · rw [grace_stale g r now p generation slot hs (Or.inl hc) ho]
    rfl

/-- What an open room does with the `Reconnect` of a player it has a seat for. -/
theorem step_reconnect (g : Game σ) (r : Room σ) (now : Time) (p : PlayerID) (slot : PlayerSlot)
    (hs : r.players.lookup p = some slot) (ho : r.lifecycle ≠ .closed) :
    step g r (.command now (.reconnect p)) =
      (setSlot (touch now r) p { slot with connected := true },
        (if slot.connected then [] else [playerEvent (touch now r) .playerReconnected p]) ++
          [snapshotReply g r slot.seat]) := by
  unfold step
  rw [if_neg ho]
  change handleReconnect g (touch now r) p = _
  unfold handleReconnect
  rw [touch_players, hs]
  rfl

/-- What it does with the `Reconnect` of anybody else. -/
theorem step_reconnect_unknown (g : Game σ) (r : Room σ) (now : Time) (p : PlayerID)
    (hs : r.players.lookup p = none) (ho : r.lifecycle ≠ .closed) :
    step g r (.command now (.reconnect p)) = (touch now r, [failReply (.room .unknownPlayer)]) := by
  unfold step
  rw [if_neg ho]
  change handleReconnect g (touch now r) p = _
  unfold handleReconnect
  rw [touch_players, hs]

/-- A grace timer is set by the turn that drops its player, for the generation it gives. -/
theorem exit_afterFunc {g : Game σ} {r r' : Room σ} {i : Input} {outs : List Output}
    (he : Exit g r i r' outs) (p : PlayerID) (generation : ℕ)
    (ho : .afterFunc p generation ∈ outs) :
    ∃ now cmd slot, i = .command now cmd ∧ Drops r p cmd ∧ r.lifecycle = .active ∧
      r'.lifecycle = .active ∧ r'.players.lookup p = some slot ∧ slot.connected = false ∧
      slot.generation = generation := by
  cases he with
  | dropped now q cmd slot hopen hc hs hb =>
    rcases List.mem_append.mp ho with hin | hin
    · rcases List.mem_pair.mp hin with h | h <;> cases h
    · split at hin
      · next ha =>
        rw [List.mem_singleton, Output.afterFunc.injEq] at hin
        obtain ⟨rfl, rfl⟩ := hin
        refine ⟨now, cmd, { slot with connected := false, generation := slot.generation + 1 }, rfl, hc,
          ha, ha, ?_, rfl, rfl⟩
        rw [setSlot_players, Table.lookup_insert_ite, if_pos rfl]
      · cases hin
  | reconnected now q slot =>
    rcases List.mem_append.mp ho with hin | hin
    · split at hin
      · cases hin
      · cases List.mem_singleton.mp hin
    · cases List.mem_singleton.mp hin
  | stopped | tickIgnored | graceIgnored => cases ho
  | rejected | rejoined | ignored | left | emptied | snapshot | forfeited | ticked =>
    cases List.mem_singleton.mp ho
  | seated | initFailed | applied | forceClosed =>
    rcases List.mem_pair.mp ho with h | h <;> cases h
  | started =>
    rcases List.mem_cons.mp ho with h | h
    · cases h
    · rcases List.mem_pair.mp h with h | h <;> cases h

end Slots
end RealtimeEngine.Rooms
