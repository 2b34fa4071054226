import RealtimeEngine.Room.Actor

/-! The Hub (`internal/transport/ws/hub.go`): which live connection represents
each seated player of each room. A room without connections has no entry. -/
namespace RealtimeEngine.Transport
open Foundations Domain Rooms
set_option autoImplicit false
set_option maxHeartbeats 250000

/-- A connection, by the order in which connections were accepted. -/
abbrev ConnID := ℕ

abbrev Hub := Table ID (Table PlayerID ConnID)

namespace Hub

def connectionsFor (h : Hub) (roomID : ID) : Table PlayerID ConnID :=
  (h.lookup roomID).getD ∅

/-- The entry for a player of a room. -/
def entry (h : Hub) (roomID : ID) (player : PlayerID) : Option ConnID :=
  (h.connectionsFor roomID).lookup player

def register (h : Hub) (roomID : ID) (player : PlayerID) (c : ConnID) : Hub :=
  h.insert roomID ((h.connectionsFor roomID).insert player c)

def unregister (h : Hub) (roomID : ID) (player : PlayerID) (c : ConnID) : Hub :=
  match h.lookup roomID with
  | none => h
  | some players =>
    let players := if players.lookup player = some c then players.erase player else players
    if players.keys.length = 0 then h.erase roomID else h.insert roomID players

theorem connectionsFor_insert (h : Hub) (roomID id : ID) (players : Table PlayerID ConnID) :
    connectionsFor (h.insert roomID players) id =
      if id = roomID then players else h.connectionsFor id := by
  unfold connectionsFor
  rw [Table.lookup_insert_ite]
  split_ifs <;> rfl

theorem entry_register (h : Hub) (roomID id : ID) (player p : PlayerID) (c : ConnID) :
    (h.register roomID player c).entry id p =
      if id = roomID ∧ p = player then some c else h.entry id p := by
  unfold entry register
  rw [connectionsFor_insert]
  by_cases hid : id = roomID
  · subst hid
    rw [if_pos rfl, Table.lookup_insert_ite]
    simp
  · rw [if_neg hid, if_neg fun h => hid h.1]

/-- An entry goes only when the connection that unregisters is the one it holds. -/
theorem entry_unregister (h : Hub) (roomID id : ID) (player p : PlayerID) (c : ConnID) :
    (h.unregister roomID player c).entry id p =
      if id = roomID ∧ p = player ∧ h.entry roomID player = some c then none
      else h.entry id p := by
  unfold unregister
  cases hr : h.lookup roomID with
  | none =>
    have hn : h.entry roomID player = none := by
      simp [entry, connectionsFor, hr]
    rw [if_neg]
    rw [hn]
    exact fun hc => by cases hc.2.2
  | some players =>
    have he : ∀ q, h.entry roomID q = players.lookup q := by
      intro q
      simp [entry, connectionsFor, hr]
    dsimp only
    have key : ∀ ps : Table PlayerID ConnID,
        (entry (if ps.keys.length = 0 then h.erase roomID else h.insert roomID ps) id p) =
          if id = roomID then ps.lookup p else h.entry id p := by
      intro ps
      by_cases hid : id = roomID
      · subst hid
        rw [if_pos rfl]
        split
        · next hz =>
          have hp : ps.lookup p = none := by
            rw [AList.lookup_eq_none, AList.mem_keys, List.length_eq_zero_iff.mp hz]
            exact List.not_mem_nil
          simp [entry, connectionsFor, AList.lookup_erase, hp]
        · rw [entry, connectionsFor_insert, if_pos rfl]
      · rw [if_neg hid]
        split
        · simp [entry, connectionsFor, AList.lookup_erase_ne hid]
        · rw [entry, connectionsFor_insert, if_neg hid]
          rfl
    rw [key, he]
    by_cases hid : id = roomID
    · subst hid
      rw [if_pos rfl, he]
      by_cases hc : players.lookup player = some c
      · rw [if_pos hc, Table.lookup_erase_ite]
        simp [hc]
      · rw [if_neg hc, if_neg fun h => hc h.2.2]
    · rw [if_neg hid, if_neg fun h => hid h.1]

theorem entry_of_unregister (h : Hub) (roomID id : ID) (player p : PlayerID) (c d : ConnID)
    (he : (h.unregister roomID player c).entry id p = some d) : h.entry id p = some d := by
  rw [entry_unregister] at he
  split at he
  · cases he
  · exact he

theorem mem_connectionsFor (h : Hub) (id : ID) (c : ConnID) :
    c ∈ Table.values (h.connectionsFor id) ↔ ∃ p, h.entry id p = some c :=
  Table.mem_values _ c

end Hub
end RealtimeEngine.Transport
