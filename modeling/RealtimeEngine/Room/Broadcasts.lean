import RealtimeEngine.Room.Versions

/-! What the sink and the callers of a room see of one turn: whose events they
are, and which version the events, the answers and the room itself have once
the turn is over. -/
namespace RealtimeEngine.Rooms
open Foundations Domain
set_option autoImplicit false
set_option maxHeartbeats 250000

section Broadcasts
variable {σ : Type} {g : Game σ} {r r' : Room σ} {i : Input} {outs : List Output}

theorem settle_id (now : Time) (t : Bool) (r : Room σ) : (settle now t r).id = r.id := by
  cases t <;> rfl

theorem exit_id (he : Exit g r i r' outs) : r'.id = r.id := by
  cases he with
  | applied now a slot result h => exact settle_id now _ _
  | ticked now st result hl => exact settle_id now _ _
  | _ => rfl

/-- Every event of a turn is of the room and carries the version the turn leaves. -/
theorem exit_broadcast (he : Exit g r i r' outs) {event : RoomEvent}
    (ho : .broadcast event ∈ outs) : event.roomID = r.id ∧ event.serverSeq = r'.serverSeq := by
  cases he with
  | stopped | tickIgnored | graceIgnored => cases ho
  | rejected | rejoined | ignored | left | emptied | snapshot => cases List.mem_singleton.mp ho
  | seated | initFailed =>
    obtain h | h := List.mem_pair.mp ho
    · cases h
      exact ⟨rfl, rfl⟩
    · cases h
  | started =>
    obtain h | h := List.mem_cons.mp ho
    · cases h
      exact ⟨rfl, rfl⟩
    · obtain h | h := List.mem_pair.mp h
      · cases h
        exact ⟨rfl, rfl⟩
      · cases h
  | dropped now p cmd slot hopen hc hs hb =>
    obtain hin | hin := List.mem_append.mp ho
    · obtain h | h := List.mem_pair.mp hin
      · cases h
        exact ⟨rfl, rfl⟩
      · cases h
    · split at hin
      · cases List.mem_singleton.mp hin
      · cases hin
  | applied now a slot result h =>
    obtain h | h := List.mem_pair.mp ho
    · cases h
      rw [settle_serverSeq]
      exact ⟨rfl, rfl⟩
    · cases h
  | reconnected now p slot hopen hs =>
    obtain hin | hin := List.mem_append.mp ho
    · split at hin
      · cases hin
      · cases List.mem_singleton.mp hin
        exact ⟨rfl, rfl⟩
    · cases List.mem_singleton.mp hin
  | forfeited now p generation slot result h =>
    cases List.mem_singleton.mp ho
    exact ⟨rfl, rfl⟩
  | forceClosed now hopen =>
    obtain h | h := List.mem_pair.mp ho
    · cases h
      exact ⟨rfl, rfl⟩
    · cases h
  | ticked now st result hl hs ht =>
    cases List.mem_singleton.mp ho
    rw [settle_serverSeq]
    exact ⟨rfl, rfl⟩

/-- The answer to a `Snapshot`. -/
theorem exit_snapshot_reply {now : Time} (he : Exit g r (.command now .snapshot) r' outs)
    {res : CmdResult} (ho : .reply res ∈ outs) : res.serverSeq = r'.serverSeq := by
  cases he with
  | stopped => cases ho
  | rejected now cmd err hopen hr => exact absurd hr not_false
  | ignored now p cmd hopen hc hs => obtain h | h := hc <;> cases h
  | dropped now p cmd slot hopen hc hs hb => obtain h | ⟨h, -⟩ := hc <;> cases h
  | snapshot now hopen =>
    cases List.mem_singleton.mp ho
    rfl

/-- The answer to a `Reconnect` that succeeds: the player has a slot and is connected. -/
theorem exit_reconnect_reply {now : Time} {p : PlayerID}
    (he : Exit g r (.command now (.reconnect p)) r' outs) {res : CmdResult}
    (ho : .reply res ∈ outs) (hok : res.err = none) :
    res.serverSeq = r'.serverSeq ∧
      ∃ slot, r'.players.lookup p = some slot ∧ slot.connected = true := by
  cases he with
  | stopped => cases ho
  | rejected now cmd err hopen hr =>
    cases List.mem_singleton.mp ho
    cases hok
  | ignored now q cmd hopen hc hs => obtain h | h := hc <;> cases h
  | dropped now q cmd slot hopen hc hs hb => obtain h | ⟨h, -⟩ := hc <;> cases h
  | reconnected now q slot hopen hs =>
    obtain hin | hin := List.mem_append.mp ho
    · split at hin
      · cases hin
      · cases List.mem_singleton.mp hin
    · cases List.mem_singleton.mp hin
      refine ⟨rfl, { slot with connected := true }, ?_, rfl⟩
      rw [setSlot_players, Table.lookup_insert_ite, if_pos rfl]

/-! ## State diffs of a turn -/

def Output.isDiff : Output → Bool
  | .broadcast event => event.kind = .stateDiff
  | _ => false

theorem isDiff_entry (i : Input) (o : Output) : Rooms.isDiff (i, o) = o.isDiff := by
  cases o <;> rfl

/-- A turn makes no state diff and keeps the version, or its first output is the
only state diff and the version is one higher. -/
theorem exit_diff (he : Exit g r i r' outs) :
    (r'.serverSeq = r.serverSeq ∧ ∀ o ∈ outs, o.isDiff = false) ∨
    r'.serverSeq = r.serverSeq + 1 ∧ ∃ d rest, outs = d :: rest ∧ d.isDiff = true ∧
      ∀ o ∈ rest, o.isDiff = false := by
  have hentry : ∀ (h : List (Input × Output)) (v : ℕ) (x : RawMessage),
      (∀ e ∈ h, Plain v x e) → ∀ o, (i, o) ∈ h → o.isDiff = false := by
    intro h v x hp o ho
    rw [← isDiff_entry i o]
    exact (hp _ ho).notDiff
  generalize hh : (outs.map fun o => (i, o)) = h
  have ht := exit_turn he
  rw [hh] at ht
  cases ht with
  | quiet h hv hs hl hp =>
    refine Or.inl ⟨hv, fun o ho => hentry h _ _ hp o ?_⟩
    rw [← hh]
    exact List.mem_map_of_mem ho
  | start e st h hv hw hl he hs hp =>
    refine Or.inl ⟨hv, fun o ho => ?_⟩
    have hmem : (i, o) ∈ e :: st :: h := by
      rw [← hh]
      exact List.mem_map_of_mem ho
    rw [← isDiff_entry i o]
    obtain rfl | hmem := List.mem_cons.mp hmem
    · exact he.notDiff
    · obtain rfl | hmem := List.mem_cons.mp hmem
      · exact hs.2.2.1
      · exact (hp _ hmem).notDiff
  | diff d h hv hl hl' hd hp =>
    refine Or.inr ⟨hv, ?_⟩
    cases outs with
    | nil => cases hh
    | cons o rest =>
      obtain ⟨rfl, rfl⟩ := List.cons.inj hh
      refine ⟨o, rest, rfl, (isDiff_entry i o).symm.trans hd.1, fun o' ho' => hentry _ _ _ hp o' ?_⟩
      exact List.mem_map_of_mem ho'

theorem exit_serverSeq_le (he : Exit g r i r' outs) : r.serverSeq ≤ r'.serverSeq := by
  obtain ⟨hv, -⟩ | ⟨hv, -⟩ := exit_diff he
  · omega
  · omega

end Broadcasts
end RealtimeEngine.Rooms
