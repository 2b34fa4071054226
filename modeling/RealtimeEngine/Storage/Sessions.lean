import Mathlib.Data.Int.Order.Basic
import RealtimeEngine.Domain.Game
import RealtimeEngine.Foundations.Tables

/-! The in-memory `SessionRecovery` store (`internal/storage/memory`): a map of
session records with lazy expiry. Every method reads the clock once, so the
clock reading is an argument. -/
namespace RealtimeEngine.Storage
open Foundations Domain
set_option autoImplicit false
set_option maxHeartbeats 250000

structure SessionRecord where
  roomID : String
  playerID : String
  ownerNode : String
  lastSeq : UInt64 := 0
  deriving DecidableEq

structure SessionEntry where
  record : SessionRecord
  expires : Time
  deriving DecidableEq

abbrev SessionStore := Table String SessionEntry

namespace SessionStore

def saveSession (m : SessionStore) (now : Time) (sessionID : String) (rec : SessionRecord)
    (ttl : ℤ) : SessionStore :=
  m.insert sessionID { record := rec, expires := now + ttl }

/-- `none` is `storage.ErrNotFound`. -/
def loadSession (m : SessionStore) (now : Time) (sessionID : String) : Option SessionRecord :=
  match m.lookup sessionID with
  | none => none
  | some e => if now > e.expires then none else some e.record

def deleteSession (m : SessionStore) (sessionID : String) : SessionStore :=
  m.erase sessionID

def sweep (m : SessionStore) (now : Time) : SessionStore :=
  Table.keep (fun e => !decide (now > e.expires)) m

/-! What a load finds after each of the other calls. -/

theorem loadSession_saveSession (m : SessionStore) (now t : Time) (sid id : String)
    (rec : SessionRecord) (ttl : ℤ) :
    (m.saveSession now sid rec ttl).loadSession t id =
      if id = sid then if t > now + ttl then none else some rec else m.loadSession t id := by
  unfold loadSession saveSession
  rw [Table.lookup_insert_ite]
  by_cases h : id = sid
  · rw [if_pos h, if_pos h]
  · rw [if_neg h, if_neg h]

theorem loadSession_deleteSession (m : SessionStore) (t : Time) (sid id : String) :
    (m.deleteSession sid).loadSession t id = if id = sid then none else m.loadSession t id := by
  unfold loadSession deleteSession
  rw [Table.lookup_erase_ite]
  by_cases h : id = sid
  · rw [if_pos h, if_pos h]
  · rw [if_neg h, if_neg h]

/-- What a sweep removes has expired for every later load. -/
theorem loadSession_sweep (m : SessionStore) (now t : Time) (h : now ≤ t) (id : String) :
    (m.sweep now).loadSession t id = m.loadSession t id := by
  unfold loadSession sweep
  rw [Table.lookup_keep]
  cases m.lookup id with
  | none => rfl
  | some e =>
    rw [Option.filter_some]
    by_cases hexp : now > e.expires
    · have hlate : t > e.expires := lt_of_lt_of_le hexp h
      simp [hexp, hlate]
    · simp [hexp]

/-- The record under a session, expired or not. -/
def recordOf (m : SessionStore) (sessionID : String) : Option SessionRecord :=
  (m.lookup sessionID).map SessionEntry.record

theorem recordOf_saveSession (m : SessionStore) (now : Time) (sid : String) (rec : SessionRecord)
    (ttl : ℤ) (id : String) :
    (m.saveSession now sid rec ttl).recordOf id = if id = sid then some rec else m.recordOf id := by
  unfold recordOf saveSession
  rw [Table.lookup_insert_ite]
  split_ifs <;> rfl

theorem recordOf_of_loadSession (m : SessionStore) (now : Time) (id : String) (rec : SessionRecord)
    (h : m.loadSession now id = some rec) : m.recordOf id = some rec := by
  unfold loadSession at h
  unfold recordOf
  split at h
  · cases h
  · next e he =>
    split at h
    · cases h
    · rw [he, Option.map_some, h]

theorem recordOf_of_sweep (m : SessionStore) (now : Time) (id : String) (rec : SessionRecord)
    (h : (m.sweep now).recordOf id = some rec) : m.recordOf id = some rec := by
  unfold recordOf sweep at h
  rw [Table.lookup_keep] at h
  obtain ⟨e, he, hr⟩ := Option.map_eq_some_iff.mp h
  unfold recordOf
  rw [(Option.filter_eq_some_iff.mp he).1, Option.map_some, hr]

end SessionStore
end RealtimeEngine.Storage
