import Mathlib.Data.Int.Order.Basic
import RealtimeEngine.Config
import RealtimeEngine.Foundations.Keyspace
import RealtimeEngine.Foundations.Runs
import RealtimeEngine.Storage.Sessions

/-! The Redis `SessionRecovery` store (`internal/storage/redis/session_store.go`)
beside the in-memory one. Each keeps what was last saved under a session; they
differ in how they let it go: the one remembers the deadline, the other hands
the TTL to Redis, which takes one that is not positive as none at all. -/
namespace RealtimeEngine.Storage.Redis
open Foundations Domain
set_option autoImplicit false
set_option maxHeartbeats 250000

/-! ## The Redis store -/

/-- `json.Marshal` and `json.Unmarshal` of a record. -/
structure Codec (bytes : Type) where
  marshal : SessionRecord → bytes
  unmarshal : bytes → Option SessionRecord
  roundtrip : ∀ rec, unmarshal (marshal rec) = some rec

/-- What `LoadSession` fails with: `storage.ErrNotFound`, or the error of `Unmarshal`. -/
inductive LoadErr
  | notFound
  | invalid
  deriving DecidableEq

def sessionKey (sessionID : String) : String := "session:" ++ sessionID

/-- `redis.KeepTTL`, one nanosecond below zero. -/
def keepTTL : Duration := -1

section Store
variable {bytes : Type}

/-- The expiry that go-redis asks for with `SET`. -/
def setExpiry (m : Keyspace String Time bytes) (now : Time) (key : String) (ttl : Duration) :
    Option Time :=
  if 0 < ttl then some (now + ttl)
  else if ttl = keepTTL then (m.live now key).bind Cell.expires
  else none

def saveSession (c : Codec bytes) (m : Keyspace String Time bytes) (now : Time)
    (sessionID : String) (rec : SessionRecord) (ttl : Duration) : Keyspace String Time bytes :=
  m.set (sessionKey sessionID) (c.marshal rec) (setExpiry m now (sessionKey sessionID) ttl)

def loadSession (c : Codec bytes) (m : Keyspace String Time bytes) (now : Time)
    (sessionID : String) : Except LoadErr SessionRecord :=
  match m.get now (sessionKey sessionID) with
  | none => .error .notFound
  | some data =>
    match c.unmarshal data with
    | none => .error .invalid
    | some rec => .ok rec

def deleteSession (m : Keyspace String Time bytes) (sessionID : String) :
    Keyspace String Time bytes :=
  m.del (sessionKey sessionID)

end Store

/-- The record under the names of the struct's fields. -/
def recordFields (rec : SessionRecord) : List (String × Json) :=
  [("RoomID", .str rec.roomID), ("PlayerID", .str rec.playerID),
    ("OwnerNode", .str rec.ownerNode), ("LastSeq", .int rec.lastSeq.toNat)]

def marshal (rec : SessionRecord) : Json := .obj (recordFields rec)

def recordOfFields (fields : List (String × Json)) : Option SessionRecord := do
  let roomID ← Json.strField "RoomID" fields
  let playerID ← Json.strField "PlayerID" fields
  let ownerNode ← Json.strField "OwnerNode" fields
  let lastSeq ← Json.uintField "LastSeq" fields
  return { roomID, playerID, ownerNode, lastSeq }

def unmarshal (doc : Json) : Option SessionRecord :=
  (Json.structFields (some doc)).bind recordOfFields

/-- No two of the names fold to one key. -/
theorem strField_recordFields (rec : SessionRecord) :
    Json.strField "RoomID" (recordFields rec) = some rec.roomID ∧
      Json.strField "PlayerID" (recordFields rec) = some rec.playerID ∧
      Json.strField "OwnerNode" (recordFields rec) = some rec.ownerNode := by
  refine ⟨?_, ?_, ?_⟩ <;> simp +decide [Json.strField, recordFields, Json.decodeStr]

theorem uintField_recordFields (rec : SessionRecord) :
    Json.uintField "LastSeq" (recordFields rec) = some rec.lastSeq := by
  have hsplit : recordFields rec = [("RoomID", .str rec.roomID), ("PlayerID", .str rec.playerID),
      ("OwnerNode", .str rec.ownerNode)] ++ [("LastSeq", .int rec.lastSeq.toNat)] := rfl
  rw [hsplit, Json.uintField_concat, Json.decodeUint_toNat]
  simp +decide

theorem unmarshal_marshal (rec : SessionRecord) : unmarshal (marshal rec) = some rec := by
  obtain ⟨hroom, hplayer, howner⟩ := strField_recordFields rec
  rw [unmarshal, marshal, Json.structFields, Option.bind_some, recordOfFields, hroom, hplayer,
    howner, uintField_recordFields]
  rfl

def json : Codec Json := ⟨marshal, unmarshal, unmarshal_marshal⟩

/-! ## Histories of calls on the two stores -/

/-- The calls of the interface; a TTL is a whole number of milliseconds. -/
inductive Call
  | save (sessionID : String) (rec : SessionRecord) (ms : ℤ)
  | load (sessionID : String)
  | delete (sessionID : String)

/-- `SaveSession` and `DeleteSession` return nil in both. -/
def memoryStep (m : SessionStore) : Time × Call → SessionStore × List (Except LoadErr SessionRecord)
  | (now, .save sid rec ms) => (m.saveSession now sid rec (ms * millisecond), [])
  | (now, .load sid) =>
    (m, [match m.loadSession now sid with | none => .error .notFound | some rec => .ok rec])
  | (_, .delete sid) => (m.deleteSession sid, [])

def redisStep {bytes : Type} (c : Codec bytes) (m : Keyspace String Time bytes) :
    Time × Call → Keyspace String Time bytes × List (Except LoadErr SessionRecord)
  | (now, .save sid rec ms) => (saveSession c m now sid rec (ms * millisecond), [])
  | (now, .load sid) => (m, [loadSession c m now sid])
  | (_, .delete sid) => (deleteSession m sid, [])

/-! ## What was saved last -/

structure Saved where
  since : Time
  record : SessionRecord
  ms : ℤ

def Saved.expiry (w : Saved) : Time := w.since + w.ms * millisecond

/-- The last save of a session that no delete followed. -/
def latest (is : List (Time × Call)) (sid : String) : Option Saved :=
  is.foldl (fun w i =>
    match i.2 with
    | .save s rec ms => if sid = s then some ⟨i.1, rec, ms⟩ else w
    | .load _ => w
    | .delete s => if sid = s then none else w) none

theorem latest_concat (is : List (Time × Call)) (i : Time × Call) (sid : String) :
    latest (is ++ [i]) sid =
      match i.2 with
      | .save s rec ms => if sid = s then some ⟨i.1, rec, ms⟩ else latest is sid
      | .load _ => latest is sid
      | .delete s => if sid = s then none else latest is sid := by
  unfold latest
  rw [List.foldl_append]
  rfl

theorem latest_mem (is : List (Time × Call)) (sid : String) (w : Saved)
    (h : latest is sid = some w) : (w.since, .save sid w.record w.ms) ∈ is := by
  induction is using List.reverseRecOn with
  | nil => cases h
  | append_singleton is i ih =>
    obtain ⟨t, c⟩ := i
    rw [latest_concat] at h
    cases c with
    | save s rec ms =>
      dsimp only at h
      split at h
      next hs =>
        subst hs
        cases h
        exact List.mem_append_right _ List.mem_cons_self
      next => exact List.mem_append_left _ (ih h)
    | load s => exact List.mem_append_left _ (ih h)
    | delete s =>
      dsimp only at h
      split at h
      next => cases h
      next => exact List.mem_append_left _ (ih h)

/-- The memory store holds each record with its deadline. -/
theorem memory_lookup (is : List (Time × Call)) (sid : String) :
    (final memoryStep ∅ is).lookup sid = (latest is sid).map fun w => ⟨w.record, w.expiry⟩ := by
  induction is using List.reverseRecOn with
  | nil => rfl
  | append_singleton is i ih =>
    obtain ⟨t, c⟩ := i
    rw [final_concat, latest_concat]
    cases c with
    | save s rec ms =>
      change AList.lookup sid (AList.insert s _ _) = _
      rw [Table.lookup_insert_ite]
      dsimp only
      split
      next => rfl
      next => exact ih
    | load s => exact ih
    | delete s =>
      change AList.lookup sid (AList.erase s _) = _
      rw [Table.lookup_erase_ite]
      dsimp only
      split
      next => rfl
      next => exact ih

theorem sessionKey_inj {a b : String} : sessionKey a = sessionKey b ↔ a = b := by
  constructor
  · intro h
    have h' := congrArg String.toList h
    simp only [sessionKey, String.toList_append] at h'
    exact String.toList_inj.mp (List.append_cancel_left h')
  · rintro rfl
    rfl

section Agreement
variable {bytes : Type} (codec : Codec bytes)

/-- A TTL in whole milliseconds is not `KeepTTL`. -/
theorem setExpiry_ms (m : Keyspace String Time bytes) (now : Time) (key : String) (ms : ℤ) :
    setExpiry m now key (ms * millisecond) =
      if 0 < ms then some (now + ms * millisecond) else none := by
  have hpos : 0 < ms * millisecond ↔ 0 < ms := by
    unfold millisecond
    omega
  have hkeep : ms * millisecond ≠ keepTTL := by
    unfold millisecond keepTTL
    omega
  unfold setExpiry
  simp only [hpos, hkeep, if_false]

/-- The Redis store holds each record with its deadline if the TTL was positive,
and for good if not. -/
theorem redis_lookup (is : List (Time × Call)) (sid : String) :
    (final (redisStep codec) ∅ is).lookup (sessionKey sid) =
      (latest is sid).map fun w =>
        ⟨codec.marshal w.record, if 0 < w.ms then some w.expiry else none⟩ := by
  induction is using List.reverseRecOn with
  | nil => rfl
  | append_singleton is i ih =>
    obtain ⟨t, c⟩ := i
    rw [final_concat, latest_concat]
    cases c with
    | save s rec ms =>
      change (Keyspace.set _ (sessionKey s) _ (setExpiry _ t _ (ms * millisecond))).lookup _ = _
      rw [Keyspace.set, Table.lookup_insert_ite, setExpiry_ms, if_congr sessionKey_inj rfl rfl]
      dsimp only
      split
      next => rfl
      next => exact ih
    | load s => exact ih
    | delete s =>
      change AList.lookup _ (AList.erase (sessionKey s) _) = _
      rw [Table.lookup_erase_ite, if_congr sessionKey_inj rfl rfl]
      dsimp only
      split
      next => rfl
      next => exact ih

/-! ## What a load answers -/

theorem load_nothing {is : List (Time × Call)} {sid : String} (h : latest is sid = none) (t : Time) :
    (memoryStep (final memoryStep ∅ is) (t, .load sid)).2 = [.error .notFound] ∧
      (redisStep codec (final (redisStep codec) ∅ is) (t, .load sid)).2 = [.error .notFound] := by
  have hm := memory_lookup is sid
  have hr := redis_lookup codec is sid
  rw [h, Option.map_none] at hm hr
  constructor
  · simp only [memoryStep, SessionStore.loadSession, hm]
  · simp only [redisStep, loadSession, Keyspace.get, Keyspace.live, hr, Option.filter_none,
      Option.map_none]

theorem memory_load {is : List (Time × Call)} {sid : String} {w : Saved}
    (h : latest is sid = some w) (t : Time) :
    (memoryStep (final memoryStep ∅ is) (t, .load sid)).2 =
      [if w.expiry < t then .error .notFound else .ok w.record] := by
  have hm := memory_lookup is sid
  rw [h, Option.map_some] at hm
  by_cases hexp : w.expiry < t
  · simp only [memoryStep, SessionStore.loadSession, hm, gt_iff_lt, if_pos hexp]
  · simp only [memoryStep, SessionStore.loadSession, hm, gt_iff_lt, if_neg hexp]

theorem redis_load {is : List (Time × Call)} {sid : String} {w : Saved}
    (h : latest is sid = some w) (t : Time) :
    (redisStep codec (final (redisStep codec) ∅ is) (t, .load sid)).2 =
      [if 0 < w.ms ∧ w.expiry ≤ t then .error .notFound else .ok w.record] := by
  have hr := redis_lookup codec is sid
  rw [h, Option.map_some] at hr
  change [loadSession codec _ t sid] = _
  by_cases hgone : 0 < w.ms ∧ w.expiry ≤ t
  · have hget : (final (redisStep codec) ∅ is).get t (sessionKey sid) = none := by
      rw [if_pos hgone.1] at hr
      exact Keyspace.get_of_after hr hgone.2
    rw [if_pos hgone, loadSession, hget]
  · have hget : (final (redisStep codec) ∅ is).get t (sessionKey sid) =
        some (codec.marshal w.record) := by
      refine (Keyspace.get_eq_some _ _ _ _).mpr ⟨_, hr, ?_⟩
      intro e he
      split at he
      next hms =>
        cases he
        exact not_le.mp fun hle => hgone ⟨hms, hle⟩
      next => cases he
    rw [if_neg hgone, loadSession, hget]
    simp only [codec.roundtrip]

/-! ## Agreement -/

/-- Later calls come at later times, and not at the instant a record expires. -/
def Spaced (i j : Time × Call) : Prop :=
  i.1 < j.1 ∧ ∀ sid rec ms, i.2 = .save sid rec ms → j.1 ≠ i.1 + ms * millisecond

/-- Every call of the history is answered alike. -/
def Agree (is : List (Time × Call)) : Prop :=
  ∀ pre i post, is = pre ++ i :: post →
    (memoryStep (final memoryStep ∅ pre) i).2 =
      (redisStep codec (final (redisStep codec) ∅ pre) i).2

/-- One load: the two stores let go of a record together if Redis was told when. -/
theorem load_agree_iff {pre : List (Time × Call)} {sid : String} {w : Saved}
    (h : latest pre sid = some w) {t : Time} (hlater : w.since < t) (hne : t ≠ w.expiry) :
    (memoryStep (final memoryStep ∅ pre) (t, .load sid)).2 =
        (redisStep codec (final (redisStep codec) ∅ pre) (t, .load sid)).2 ↔ 0 < w.ms := by
  rw [memory_load h, redis_load codec h]
  constructor
  · intro heq
    by_contra hms
    -- the deadline of the memory store has passed when it was set
    have hexp : w.expiry < t := by
      have hle : w.ms * millisecond ≤ 0 := by
        unfold millisecond
        omega
      calc w.expiry ≤ w.since + 0 := Int.add_le_add_left hle w.since
        _ = w.since := Int.add_zero w.since
        _ < t := hlater
    rw [if_pos hexp, if_neg fun hgone => hms hgone.1] at heq
    cases heq
  · intro hms
    have hiff : w.expiry < t ↔ 0 < w.ms ∧ w.expiry ≤ t :=
      ⟨fun hlt => ⟨hms, le_of_lt hlt⟩, fun hle => lt_of_le_of_ne hle.2 hne.symm⟩
    rw [if_congr hiff rfl rfl]

/-- **The two stores answer a history of spaced calls alike exactly when no call
loads a session that was last saved with a TTL of zero or less.** -/
theorem agree_iff (is : List (Time × Call)) (hs : is.Pairwise Spaced) :
    Agree codec is ↔
      ∀ pre t sid post w, is = pre ++ (t, .load sid) :: post → latest pre sid = some w →
        0 < w.ms := by
  have hspaced {pre : List (Time × Call)} {t : Time} {sid : String} {post : List (Time × Call)}
      {w : Saved} (he : is = pre ++ (t, .load sid) :: post) (hw : latest pre sid = some w) :
      w.since < t ∧ t ≠ w.expiry := by
    rw [he] at hs
    have hpair := (List.pairwise_append.mp hs).2.2 _ (latest_mem pre sid w hw) _ List.mem_cons_self
    exact ⟨hpair.1, hpair.2 sid w.record w.ms rfl⟩
  constructor
  · intro hagree pre t sid post w he hw
    obtain ⟨hlater, hne⟩ := hspaced he hw
    exact (load_agree_iff codec hw hlater hne).mp (hagree pre _ post he)
  · rintro hpos pre ⟨t, c⟩ post he
    cases c with
    | save sid rec ms => rfl
    | delete sid => rfl
    | load sid =>
      cases hw : latest pre sid with
      | none =>
        obtain ⟨hm, hr⟩ := load_nothing codec hw t
        rw [hm, hr]
      | some w =>
        obtain ⟨hlater, hne⟩ := hspaced he hw
        exact (load_agree_iff codec hw hlater hne).mpr (hpos pre t sid post w he hw)

end Agreement

/-- A session saved for a second, read half a second later and again when it is gone. -/
theorem one_second_agrees :
    Agree json [(0, .save "s" ⟨"r", "alice", "n", 0⟩ 1000), (500 * millisecond, .load "s"),
      (2000 * millisecond, .load "s")] := by
  refine (agree_iff json _ ?_).mpr ?_
  · simp [Spaced, millisecond]
  · intro pre t sid post w he hw
    have hmem := List.mem_append_left ((t, .load sid) :: post) (latest_mem pre sid w hw)
    rw [← he] at hmem
    simp at hmem
    omega

/-- A record saved with no time to live is gone from the memory store at once,
and in Redis for good. -/
theorem zero_ttl_disagrees :
    let is : List (Time × Call) := [(0, .save "s" ⟨"r", "alice", "n", 0⟩ 0)]
    (memoryStep (final memoryStep ∅ is) (1, .load "s")).2 = [.error .notFound] ∧
      (redisStep json (final (redisStep json) ∅ is) (1, .load "s")).2 =
        [.ok ⟨"r", "alice", "n", 0⟩] ∧
      ¬ Agree json (is ++ [(1, .load "s")]) := by
  intro is
  have hm : (memoryStep (final memoryStep ∅ is) (1, .load "s")).2 = [.error .notFound] := rfl
  have hr : (redisStep json (final (redisStep json) ∅ is) (1, .load "s")).2 =
      [.ok ⟨"r", "alice", "n", 0⟩] := rfl
  refine ⟨hm, hr, ?_⟩
  intro hagree
  have h := hagree is (1, .load "s") [] rfl
  rw [hm, hr] at h
  cases h

end RealtimeEngine.Storage.Redis
