import RealtimeEngine.Foundations.Fields
import RealtimeEngine.Transport.Envelope

/-! Messages as they cross the wire (`internal/transport/ws/envelope.go`). The server
reads a client's frame with `decodeEnvelope` and writes its own messages with
`json.Marshal`; a client writes and reads the same structs from its side. Each side gets
what the other one sent, in whatever order the keys come and whatever else the object
holds. -/
namespace RealtimeEngine.Transport
open Foundations Foundations.Json Domain Rooms
set_option autoImplicit false
set_option maxHeartbeats 250000

/-! ## From the client -/

def maxIncomingMessageBytes : ℕ := 8 * 1024
def maxPayloadBytes : ℕ := 4 * 1024

def errEnvelopeTooLarge : String := "ws: message exceeds maximum size"
def errMissingType : String := "ws: envelope missing required \"type\" field"
def errPayloadTooLarge : String := "ws: action payload exceeds maximum size"

/-- A message as `ReadMessage` returns it: its length, the document it holds, the length
of the last `payload` in it and the text of the error in case it does not decode. -/
structure Frame where
  size : ℕ
  doc : RawMessage
  payloadSize : ℕ := 0
  fault : String := ""

/-- `json.Unmarshal` into a `ClientEnvelope`. -/
def ClientEnvelope.unmarshal (doc : RawMessage) : Option ClientEnvelope := do
  let keys ← structFields doc
  let type ← strField "type" keys
  let seq ← uintField "seq" keys
  let ts ← intField "ts" keys
  let payload ← fieldOf decodeRaw "payload" none keys
  return { type, seq, ts, payload }

def decodeEnvelope (raw : Frame) : Except String ClientEnvelope :=
  if raw.size > maxIncomingMessageBytes then .error errEnvelopeTooLarge
  else
    match ClientEnvelope.unmarshal raw.doc with
    | none => .error raw.fault
    | some env =>
      if env.type = "" then .error errMissingType
      else if env.payload.isSome ∧ raw.payloadSize > maxPayloadBytes then .error errPayloadTooLarge
      else .ok env

def ClientEnvelope.entries (env : ClientEnvelope) (seq ts : Option Json) : List Entry :=
  [("type", some (.str env.type)), ("seq", seq), ("ts", ts), ("payload", env.payload)]

/-- The fields of a message as a client can write them, with zeros left out or not. -/
def ClientEnvelope.Writes (env : ClientEnvelope) (entries : List Entry) : Prop :=
  ∃ seq ts, WritesUint env.seq seq ∧ WritesInt env.ts ts ∧ entries = env.entries seq ts

theorem ClientEnvelope.entries_apart (env : ClientEnvelope) (seq ts : Option Json) :
    Apart (env.entries seq ts) := by
  apply apart_of_names
  change ["type", "seq", "ts", "payload"].Pairwise fun x y => foldName x ≠ foldName y
  decide +kernel

theorem ClientEnvelope.unmarshal_entries {env : ClientEnvelope} {seq ts : Option Json}
    (hrange : -2^63 ≤ env.ts ∧ env.ts < 2^63) (hs : WritesUint env.seq seq)
    (ht : WritesInt env.ts ts) {keys : List (String × Json)} (h : Reads (env.entries seq ts) keys) :
    ClientEnvelope.unmarshal (some (.obj keys)) = some env := by
  have htype : strField "type" keys = some env.type :=
    h.field decodeStr "" (by simp [entries]) (foldlM_str _)
  have hseq : uintField "seq" keys = some env.seq :=
    h.field decodeUint 0 (by simp [entries]) hs.reads
  have hts : intField "ts" keys = some env.ts :=
    h.field decodeInt 0 (by simp [entries]) (ht.reads hrange)
  have hpayload : fieldOf decodeRaw "payload" none keys = some env.payload :=
    h.field decodeRaw none (by simp [entries]) (foldlM_raw _)
  unfold ClientEnvelope.unmarshal
  refine Option.bind_eq_some_iff.mpr ⟨keys, rfl, ?_⟩
  refine Option.bind_eq_some_iff.mpr ⟨_, htype, ?_⟩
  refine Option.bind_eq_some_iff.mpr ⟨_, hseq, ?_⟩
  refine Option.bind_eq_some_iff.mpr ⟨_, hts, ?_⟩
  exact Option.bind_eq_some_iff.mpr ⟨_, hpayload, rfl⟩

/-- The constants of `sink.go`. -/
def kindName : EventKind → String
  | .stateDiff => "STATE_DIFF"
  | .stateSnapshot => "STATE_SNAPSHOT"
  | .playerJoined => "PLAYER_JOINED"
  | .playerDisconnected => "PLAYER_DISCONNECTED"
  | .playerReconnected => "PLAYER_RECONNECTED"
  | .roomStarted => "ROOM_STARTED"
  | .roomClosed => "ROOM_CLOSED"

def MessageType.name : MessageType → String
  | .event kind => kindName kind
  | .error => "ERROR"
  | .redirect => "REDIRECT"

def MessageType.all : List MessageType :=
  [.event .stateDiff, .event .stateSnapshot, .event .playerJoined, .event .playerDisconnected,
   .event .playerReconnected, .event .roomStarted, .event .roomClosed, .error, .redirect]

def MessageType.ofName (name : String) : Option MessageType :=
  MessageType.all.find? fun type => type.name = name

theorem MessageType.ofName_name (type : MessageType) :
    MessageType.ofName type.name = some type := by
  cases type with
  | event kind => cases kind <;> decide
  | error => decide
  | redirect => decide

def WireError.entries (e : WireError) : List Entry :=
  [("code", some (.str e.code)), ("message", some (.str e.message))]

def ServerEnvelope.entries (env : ServerEnvelope) : List Entry :=
  [("type", some (.str env.type.name)),
   ("roomId", omitStr env.roomID),
   ("serverSeq", omitUint env.serverSeq),
   ("ts", some (.int env.ts)),
   ("ackPlayer", omitStr env.ackPlayer),
   ("ackSeq", omitUint env.ackSeq.toNat),
   ("diff", env.diff),
   ("snapshot", env.snapshot),
   ("events", omitStrs env.events),
   ("terminal", omitBool env.terminal),
   ("winner", omitStr env.winner),
   ("error", env.error.map fun e => .obj (written e.entries)),
   ("redirectAddr", omitStr env.redirect)]

/-- `json.Marshal`. -/
def ServerEnvelope.marshal (env : ServerEnvelope) : Json := .obj (written env.entries)

/-- A pointer: `null` clears it, an object is read into what it points to. -/
def decodeWireError (old : Option WireError) : Json → Option (Option WireError)
  | .null => some none
  | .obj keys => do
    let code ← fieldOf decodeStr "code" ((old.map WireError.code).getD "") keys
    let message ← fieldOf decodeStr "message" ((old.map WireError.message).getD "") keys
    return some { code, message }
  | _ => none

/-- A client's reading of a server message, into the same struct. -/
def ServerEnvelope.unmarshal (doc : RawMessage) : Option ServerEnvelope := do
  let keys ← structFields doc
  let name ← strField "type" keys
  let type ← MessageType.ofName name
  let roomID ← strField "roomId" keys
  let serverSeq ← uintField "serverSeq" keys
  let ts ← intField "ts" keys
  let ackPlayer ← strField "ackPlayer" keys
  let ackSeq ← uintField "ackSeq" keys
  let diff ← fieldOf decodeRaw "diff" none keys
  let snapshot ← fieldOf decodeRaw "snapshot" none keys
  let events ← fieldOf decodeStrs "events" [] keys
  let terminal ← fieldOf decodeBool "terminal" false keys
  let winner ← strField "winner" keys
  let error ← fieldOf decodeWireError "error" none keys
  let redirect ← strField "redirectAddr" keys
  return { type, roomID, serverSeq := serverSeq.toNat, ts, ackPlayer, ackSeq, diff, snapshot, events,
           terminal, winner, error, redirect }

theorem WireError.entries_apart (e : WireError) : Apart e.entries := by
  apply apart_of_names
  change ["code", "message"].Pairwise fun x y => foldName x ≠ foldName y
  decide +kernel

theorem foldlM_wireError (e : Option WireError) :
    (e.map fun e => Json.obj (written e.entries)).toList.foldlM decodeWireError none = some e := by
  cases e with
  | none => rfl
  | some e =>
    have h := reads_written e.entries_apart
    have hcode : fieldOf decodeStr "code" "" (written e.entries) = some e.code :=
      h.field decodeStr "" (by simp [WireError.entries]) (foldlM_str _)
    have hmessage : fieldOf decodeStr "message" "" (written e.entries) = some e.message :=
      h.field decodeStr "" (by simp [WireError.entries]) (foldlM_str _)
    rw [Option.map_some, foldlM_toList_some]
    simp only [decodeWireError, Option.map_none, Option.getD_none, hcode, hmessage,
      Option.bind_eq_bind, Option.bind_some]
    rfl

theorem ServerEnvelope.entries_apart (env : ServerEnvelope) : Apart env.entries := by
  apply apart_of_names
  change ["type", "roomId", "serverSeq", "ts", "ackPlayer", "ackSeq", "diff", "snapshot", "events",
    "terminal", "winner", "error", "redirectAddr"].Pairwise fun x y => foldName x ≠ foldName y
  decide +kernel

/-- Numbers that fit their types. -/
def ServerEnvelope.Fits (env : ServerEnvelope) : Prop :=
  env.serverSeq < 2^64 ∧ -2^63 ≤ env.ts ∧ env.ts < 2^63

theorem ServerEnvelope.unmarshal_entries {env : ServerEnvelope} (hfits : env.Fits)
    {keys : List (String × Json)} (h : Reads env.entries keys) :
    ServerEnvelope.unmarshal (some (.obj keys)) = some env := by
  have hstr : ∀ {name s}, (name, omitStr s) ∈ env.entries → strField name keys = some s :=
    fun he => h.field decodeStr "" he (foldlM_omitStr _)
  have htype : strField "type" keys = some env.type.name :=
    h.field decodeStr "" (by simp [entries]) (foldlM_str _)
  have hserverSeq : uintField "serverSeq" keys = some (UInt64.ofNat env.serverSeq) := by
    refine h.field decodeUint 0 (v := omitUint env.serverSeq) (by simp [entries]) ?_
    have h := (omitUint_writes (UInt64.ofNat env.serverSeq)).reads
    rwa [UInt64.toNat_ofNat_of_lt' hfits.1] at h
  have hts : intField "ts" keys = some env.ts :=
    h.field decodeInt 0 (by simp [entries]) (foldlM_int hfits.2)
  have hackSeq : uintField "ackSeq" keys = some env.ackSeq :=
    h.field decodeUint 0 (by simp [entries]) (omitUint_writes _).reads
  have hdiff : fieldOf decodeRaw "diff" none keys = some env.diff :=
    h.field decodeRaw none (by simp [entries]) (foldlM_raw _)
  have hsnapshot : fieldOf decodeRaw "snapshot" none keys = some env.snapshot :=
    h.field decodeRaw none (by simp [entries]) (foldlM_raw _)
  have hevents : fieldOf decodeStrs "events" [] keys = some env.events :=
    h.field decodeStrs [] (by simp [entries]) (foldlM_omitStrs _)
  have hterminal : fieldOf decodeBool "terminal" false keys = some env.terminal :=
    h.field decodeBool false (by simp [entries]) (foldlM_omitBool _)
  have herror : fieldOf decodeWireError "error" none keys = some env.error :=
    h.field decodeWireError none (by simp [entries]) (foldlM_wireError _)
  have hroom : strField "roomId" keys = some env.roomID := hstr (by simp [entries])
  have hackPlayer : strField "ackPlayer" keys = some env.ackPlayer := hstr (by simp [entries])
  have hwinner : strField "winner" keys = some env.winner := hstr (by simp [entries])
  have hredirect : strField "redirectAddr" keys = some env.redirect := hstr (by simp [entries])
  -- one field after the other, in the order of the struct
  unfold ServerEnvelope.unmarshal
  refine Option.bind_eq_some_iff.mpr ⟨keys, rfl, ?_⟩
  refine Option.bind_eq_some_iff.mpr ⟨_, htype, ?_⟩
  refine Option.bind_eq_some_iff.mpr ⟨_, MessageType.ofName_name _, ?_⟩
  refine Option.bind_eq_some_iff.mpr ⟨_, hroom, ?_⟩
  refine Option.bind_eq_some_iff.mpr ⟨_, hserverSeq, ?_⟩
  refine Option.bind_eq_some_iff.mpr ⟨_, hts, ?_⟩
  refine Option.bind_eq_some_iff.mpr ⟨_, hackPlayer, ?_⟩
  refine Option.bind_eq_some_iff.mpr ⟨_, hackSeq, ?_⟩
  refine Option.bind_eq_some_iff.mpr ⟨_, hdiff, ?_⟩
  refine Option.bind_eq_some_iff.mpr ⟨_, hsnapshot, ?_⟩
  refine Option.bind_eq_some_iff.mpr ⟨_, hevents, ?_⟩
  refine Option.bind_eq_some_iff.mpr ⟨_, hterminal, ?_⟩
  refine Option.bind_eq_some_iff.mpr ⟨_, hwinner, ?_⟩
  refine Option.bind_eq_some_iff.mpr ⟨_, herror, ?_⟩
  refine Option.bind_eq_some_iff.mpr ⟨_, hredirect, ?_⟩
  rw [UInt64.toNat_ofNat_of_lt' hfits.1]
  rfl

/-- **Server messages.** A client that reads a message of the server into the same struct
gets the message as the server built it, whatever is left out of it, in any order of the
keys and beside any keys of other names. -/
theorem server_message_round_trip (env : ServerEnvelope) (hfits : env.Fits)
    (keys others : List (String × Json)) (ho : Foreign env.entries others)
    (hp : keys.Perm (written env.entries ++ others)) :
    ServerEnvelope.unmarshal (some (.obj keys)) = some env :=
  ServerEnvelope.unmarshal_entries hfits (reads_of_perm env.entries_apart ho hp)

/-- An error message with its keys in the opposite order, after one the client does not know. -/
theorem error_message_read :
    let env := errorEnvelope unixEpoch "NOT_IN_ROOM" "not currently seated in a room"
    ServerEnvelope.unmarshal (some (.obj (("id", .null) :: (written env.entries).reverse))) =
      some env := by
  intro env
  refine server_message_round_trip env ⟨by decide, by decide, by decide⟩ _ [("id", .null)] ?_ ?_
  · unfold Foreign
    decide +kernel
  · exact ((List.reverse_perm _).cons _).trans (List.perm_append_singleton _ _).symm

-- a key is no other name because it is spelled with a Kelvin sign
example (env : ServerEnvelope) (v : Json) : ¬ Foreign env.entries [("ac\u212APlayer", v)] := by
  intro h
  have hne : foldName "ac\u212APlayer" ≠ foldName "ackPlayer" :=
    h _ List.mem_cons_self ("ackPlayer", omitStr env.ackPlayer) (by simp [ServerEnvelope.entries])
  exact hne (by decide +kernel)

end RealtimeEngine.Transport
