import RealtimeEngine.RateLimit.TokenBucket
import RealtimeEngine.Session.Tokens
import RealtimeEngine.Transport.Resume
import RealtimeEngine.Transport.Vouching
import RealtimeEngine.Transport.Wire

/-! A node with its front door: `POST /session`, the WebSocket handshake of `HandleWS`,
and `readPump` with the limiter and `decodeEnvelope`. The node behind it is told who a
connection belongs to and what a message says; here both come out of tokens and frames.
As long as nobody can sign a token but the server, what happens behind the door is a run
of the node in which every session belongs to the player it was issued to. -/
namespace RealtimeEngine.Transport
open Foundations Domain Rooms Storage Matchmaking RateLimit Session
set_option autoImplicit false
set_option maxHeartbeats 250000

/-! ## The model -/

/-- What `NewServer` is given to let clients in. -/
structure Door where
  jwt : Jwt
  issuer : Issuer
  rateLimitCapacity : ℚ
  rateLimitRefillRate : ℚ

/-- An answer of `POST /session`. -/
structure Pass where
  sessionID : String
  playerID : PlayerID
  issuedAt : Time

/-- The limiter of a connection. `accepted` and `handled` are history only: when the
handshake was made, and when messages got past the limiter. -/
structure Gate where
  limiter : TokenBucket
  accepted : Time := 0
  handled : List Time := []

/-- `passes` is history: the server keeps no list of its sessions. -/
structure Front (σ : Type) where
  node : Sys σ := {}
  passes : List Pass := []
  gate : ConnID → Gate

/-- The gate of a connection accepted now. -/
def Door.gate (d : Door) (now : Time) : Gate where
  limiter := .new now d.rateLimitCapacity d.rateLimitRefillRate
  accepted := now

def Front.start (σ : Type) (d : Door) : Front σ where
  gate := fun _ => d.gate 0

/-- What reaches the front door, and the moves of the node that need no client. A new
session gets an identifier that no session has. -/
inductive Arrival
  | session (method : String) (body : RawMessage) (playerULID sessionID : String)
  | upgrade (r : Session.Request)
  | message (c : ConnID) (raw : Frame)
  | inner (l : Label)

def Label.internal : Label → Bool
  | .dial _ | .recv _ _ => false
  | _ => true

/-- `handleMessage` up to the switch over the type. -/
def incoming (allowed : Bool) (raw : Frame) : Incoming :=
  if allowed then
    match decodeEnvelope raw with
    | .error text => .malformed text
    | .ok env => .message env
  else .limited

section Front
variable {σ : Type}

/-- The message was read and the limiter asked. -/
def Front.ask (s : Front σ) (c : ConnID) : Gate :=
  let answer := (s.gate c).limiter.allow s.node.now
  { s.gate c with
    limiter := answer.1
    handled := if answer.2 then (s.gate c).handled ++ [s.node.now] else (s.gate c).handled }

def Front.step (d : Door) (u : Setup σ) (s : Front σ) : Arrival → Option (Front σ)
  | .session method body playerULID sessionID =>
    if s.passes.any fun p => p.sessionID = sessionID then none
    else
      match serveHTTP d.jwt d.issuer method body playerULID sessionID s.node.now s.node.now with
      | none => some s
      | some res =>
        some { s with passes := s.passes ++ [⟨res.sessionID, res.playerID, s.node.now⟩] }
  | .upgrade r =>
    match authenticate d.jwt d.issuer s.node.now r with
    | none => some s
    | some claims =>
      -- `newConnection` takes the player from the token
      (Transport.step { u with owner := fun _ => claims.playerID } s.node (.dial claims.id)).map
        fun node =>
          { s with node := node, gate := Function.update s.gate s.node.conns (d.gate s.node.now) }
  | .message c raw =>
    if raw.size > maxIncomingMessageBytes then
      -- past the read limit `ReadMessage` fails, and `readPump` ends with `Close`
      (Transport.step u s.node (.hangup c)).map fun node => { s with node := node }
    else
      (Transport.step u s.node
        (.recv c (incoming ((s.gate c).limiter.allow s.node.now).2 raw))).map fun node =>
          { s with node := node, gate := Function.update s.gate c (s.ask c) }
  | .inner l =>
    if l.internal then (Transport.step u s.node l).map fun node => { s with node := node } else none

def Front.run (d : Door) (u : Setup σ) (as : List Arrival) : Option (Front σ) :=
  exec (Front.step d u) (Front.start σ d) as

/-! ## What an arrival does -/

/-- A request that is turned away, a new session, a new connection, a message that is read,
or a move of the node. -/
inductive Admits (d : Door) (u : Setup σ) (s : Front σ) : Arrival → Front σ → Prop
  | refused (a : Arrival) : Admits d u s a s
  | issued (a : Arrival) (pass : Pass) (hnew : ∀ p ∈ s.passes, p.sessionID ≠ pass.sessionID) :
      Admits d u s a { s with passes := s.passes ++ [pass] }
  | accepted (r : Session.Request) (claims : Claims) (node : Sys σ)
      (hauth : authenticate d.jwt d.issuer s.node.now r = some claims)
      (hs : Transport.step { u with owner := fun _ => claims.playerID } s.node
        (.dial claims.id) = some node) :
      Admits d u s (.upgrade r)
        { s with node := node, gate := Function.update s.gate s.node.conns (d.gate s.node.now) }
  | message (c : ConnID) (raw : Frame) (m : Incoming) (node : Sys σ)
      (hs : Transport.step u s.node (.recv c m) = some node) :
      Admits d u s (.message c raw)
        { s with node := node, gate := Function.update s.gate c (s.ask c) }
  | inner (a : Arrival) (l : Label) (node : Sys σ) (hl : l.internal = true)
      (ha : ∀ t, l = .clock t → a = .inner (.clock t))
      (hs : Transport.step u s.node l = some node) : Admits d u s a { s with node := node }

theorem step_admits {d : Door} {u : Setup σ} {s s' : Front σ} {a : Arrival}
    (h : Front.step d u s a = some s') : Admits d u s a s' := by
  cases a with
  | session method body playerULID sessionID =>
    rw [Front.step] at h
    split at h
    · cases h
    next hnew =>
    split at h
    · cases h
      exact .refused _
    next res hres =>
    cases h
    have hid : res.sessionID = sessionID := by
      unfold serveHTTP at hres
      split at hres
      · cases hres
      · cases hres
        rfl
    refine .issued _ _ fun p hp heq => hnew ?_
    exact List.any_eq_true.mpr ⟨p, hp, decide_eq_true (heq.trans hid)⟩
  | upgrade r =>
    rw [Front.step] at h
    split at h
    · cases h
      exact .refused _
    next claims hauth =>
    obtain ⟨node, hnode, rfl⟩ := Option.map_eq_some_iff.mp h
    exact .accepted r claims node hauth hnode
  | message c raw =>
    rw [Front.step] at h
    split at h
    · obtain ⟨node, hnode, rfl⟩ := Option.map_eq_some_iff.mp h
      exact .inner _ (.hangup c) node rfl (fun t ht => by cases ht) hnode
    · obtain ⟨node, hnode, rfl⟩ := Option.map_eq_some_iff.mp h
      exact .message c raw _ node hnode
  | inner l =>
    rw [Front.step] at h
    split at h
    · next hl =>
      obtain ⟨node, hnode, rfl⟩ := Option.map_eq_some_iff.mp h
      exact .inner _ l node hl (fun t ht => by rw [ht]) hnode
    · cases h

/-! ## Sessions and their players -/

/-- The player a session was issued to. -/
def ownerOf (passes : List Pass) (sessionID : String) : PlayerID :=
  ((passes.find? fun p => p.sessionID = sessionID).map Pass.playerID).getD ""

/-- Every token with a good signature was issued by the server. -/
def Unforged (d : Door) (s : Front σ) : Arrival → Prop
  | .upgrade r => ∀ claims, d.jwt.parse d.issuer.secret (extractToken r) = some claims →
      ∃ p ∈ s.passes, claims = d.issuer.claims d.jwt p.issuedAt p.sessionID p.playerID
  | _ => True

/-- Only a handshake asks whose session it is. -/
theorem step_owner (u : Setup σ) (owner : String → PlayerID) (s : Sys σ) (l : Label)
    (hl : ∀ sid, l ≠ .dial sid) :
    Transport.step { u with owner := owner } s l = Transport.step u s l := by
  cases l with
  | dial sid => exact absurd rfl (hl sid)
  | _ => rfl

theorem step_dial_owner (u : Setup σ) {owner owner' : String → PlayerID} (s : Sys σ) {sid : String}
    (h : owner sid = owner' sid) :
    Transport.step { u with owner := owner } s (.dial sid) =
      Transport.step { u with owner := owner' } s (.dial sid) := by
  rw [Transport.step, Transport.step]
  simp only [h]

theorem exec_owner (u : Setup σ) {owner owner' : String → PlayerID} (ls : List Label)
    (h : ∀ sid, Label.dial sid ∈ ls → owner sid = owner' sid) (s : Sys σ) :
    exec (Transport.step { u with owner := owner }) s ls =
      exec (Transport.step { u with owner := owner' }) s ls := by
  induction ls generalizing s with
  | nil => rfl
  | cons l ls ih =>
    have hstep : Transport.step { u with owner := owner } s l =
        Transport.step { u with owner := owner' } s l := by
      by_cases hl : ∃ sid, l = .dial sid
      · obtain ⟨sid, rfl⟩ := hl
        exact step_dial_owner u s (h sid List.mem_cons_self)
      · have hl' : ∀ sid, l ≠ .dial sid := fun sid hsid => hl ⟨sid, hsid⟩
        rw [step_owner u owner s l hl', step_owner u owner' s l hl']
    rw [exec, exec, hstep]
    exact congrArg _ (funext fun t => ih (fun sid hsid => h sid (List.mem_cons_of_mem l hsid)) t)

/-- Session identifiers are distinct, and what happened on the node so far is a run in
which each session belongs to the player it was issued to. -/
structure Behind (u : Setup σ) (s : Front σ) : Prop where
  distinct : s.passes.Pairwise fun p q => p.sessionID ≠ q.sessionID
  run : ∃ ls, Transport.run { u with owner := ownerOf s.passes } ls = some s.node ∧
    ∀ sid, Label.dial sid ∈ ls → ∃ p ∈ s.passes, p.sessionID = sid

theorem ownerOf_pass {passes : List Pass}
    (hd : passes.Pairwise fun p q => p.sessionID ≠ q.sessionID) {p : Pass} (hp : p ∈ passes) :
    ownerOf passes p.sessionID = p.playerID := by
  have hfind : passes.find? (fun q => q.sessionID = p.sessionID) = some p := by
    obtain ⟨as, bs, rfl⟩ := List.append_of_mem hp
    have hnone : as.find? (fun q => q.sessionID = p.sessionID) = none := by
      rw [List.find?_eq_none]
      intro q hq
      simpa using (List.pairwise_append.mp hd).2.2 q hq p List.mem_cons_self
    rw [List.find?_append, hnone, Option.none_or]
    exact List.find?_cons_of_pos (decide_eq_true rfl)
  rw [ownerOf, hfind]
  rfl

/-- A new session changes nobody else's. -/
theorem ownerOf_concat {passes : List Pass} {pass : Pass} {sid : String}
    (h : ∃ p ∈ passes, p.sessionID = sid) : ownerOf (passes ++ [pass]) sid = ownerOf passes sid := by
  have hsome : (passes.find? fun p => p.sessionID = sid).isSome := by
    obtain ⟨p, hp, hsid⟩ := h
    exact List.find?_isSome.mpr ⟨p, hp, decide_eq_true hsid⟩
  obtain ⟨q, hq⟩ := Option.isSome_iff_exists.mp hsome
  simp only [ownerOf, List.find?_append, hq, Option.some_or]

theorem run_concat {u : Setup σ} {ls : List Label} {s s' : Sys σ} {l : Label}
    (hr : Transport.run u ls = some s) (hs : Transport.step u s l = some s') :
    Transport.run u (ls ++ [l]) = some s' := by
  rw [Transport.run] at hr ⊢
  rw [exec_append, hr, Option.bind_some, exec_cons _ hs]
  rfl

theorem Behind.node {u : Setup σ} {s : Front σ} (hB : Behind u s) {l : Label} {node : Sys σ}
    (hl : ∀ sid, l ≠ .dial sid) (hs : Transport.step u s.node l = some node)
    (gate : ConnID → Gate) : Behind u { s with node := node, gate := gate } where
  distinct := hB.distinct
  run := by
    obtain ⟨ls, hr, hdial⟩ := hB.run
    refine ⟨ls ++ [l], run_concat hr ((step_owner u (ownerOf s.passes) s.node l hl).trans hs), ?_⟩
    intro sid hsid
    obtain hsid | hsid := List.mem_append.mp hsid
    · exact hdial sid hsid
    · exact absurd (List.mem_singleton.mp hsid).symm (hl sid)

theorem internal_not_dial {l : Label} (h : l.internal = true) (sid : String) : l ≠ .dial sid := by
  rintro rfl
  cases h

theorem Unforged.claims {d : Door} {s : Front σ} {r : Session.Request} {claims : Claims}
    (h : Unforged d s (.upgrade r))
    (hauth : authenticate d.jwt d.issuer s.node.now r = some claims) :
    ∃ p ∈ s.passes, claims = d.issuer.claims d.jwt p.issuedAt p.sessionID p.playerID ∧
      d.jwt.valid s.node.now claims = true := by
  unfold authenticate at hauth
  split at hauth
  · cases hauth
  obtain ⟨hparse, hvalid⟩ := Option.filter_eq_some_iff.mp hauth
  obtain ⟨p, hp, hclaims⟩ := h claims hparse
  exact ⟨p, hp, hclaims, hvalid⟩

theorem Behind.admits {d : Door} {u : Setup σ} {s s' : Front σ} {a : Arrival} (hB : Behind u s)
    (hf : Unforged d s a) (h : Admits d u s a s') : Behind u s' := by
  cases h with
  | refused => exact hB
  | issued _ pass hnew =>
    obtain ⟨ls, hr, hdial⟩ := hB.run
    refine ⟨?_, ls, ?_, ?_⟩
    · refine List.pairwise_append.mpr ⟨hB.distinct, List.pairwise_singleton _ _, ?_⟩
      intro p hp q hq
      rw [List.mem_singleton.mp hq]
      exact hnew p hp
    · rw [Transport.run] at hr ⊢
      rw [← hr]
      exact exec_owner u ls (fun sid hsid => ownerOf_concat (hdial sid hsid)) {}
    · intro sid hsid
      obtain ⟨p, hp, hsid⟩ := hdial sid hsid
      exact ⟨p, List.mem_append_left _ hp, hsid⟩
  | accepted r claims node hauth hs =>
    obtain ⟨p, hp, rfl, -⟩ := hf.claims hauth
    obtain ⟨ls, hr, hdial⟩ := hB.run
    refine ⟨hB.distinct, ls ++ [.dial p.sessionID], run_concat hr ?_, ?_⟩
    · exact (step_dial_owner u s.node (ownerOf_pass hB.distinct hp)).trans hs
    · intro sid hsid
      obtain hsid | hsid := List.mem_append.mp hsid
      · exact hdial sid hsid
      · cases List.mem_singleton.mp hsid
        exact ⟨p, hp, rfl⟩
  | message c raw m node hs => exact hB.node (fun sid h => by cases h) hs _
  | inner _ l node hl ha hs => exact hB.node (internal_not_dial hl) hs s.gate

theorem run_behind (d : Door) (u : Setup σ) (as : List Arrival) (s : Front σ)
    (hf : Meets (Front.step d u) (Unforged d) (Front.start σ d) as)
    (hr : Front.run d u as = some s) : Behind u s :=
  exec_invariant (Front.step d u) (Unforged d) (Behind u)
    (fun _ _ _ hf hB h => hB.admits hf (step_admits h)) (Front.start σ d) s
    ⟨List.Pairwise.nil, [], rfl, fun sid hsid => by cases hsid⟩ as hf hr

/-- **The node behind the door.** Whatever sessions are asked for, whatever requests and
frames come in, what happens on the node is a run of the node in which every connection
belongs to a session that was issued, and with it to the player it was issued to. -/
theorem front_refines_node (d : Door) (u : Setup σ) (as : List Arrival) (s : Front σ)
    (hf : Meets (Front.step d u) (Unforged d) (Front.start σ d) as)
    (hr : Front.run d u as = some s) :
    ∃ ls, Transport.run { u with owner := ownerOf s.passes } ls = some s.node ∧
      (∀ sid, Label.dial sid ∈ ls → ∃ p ∈ s.passes, p.sessionID = sid) ∧
      ∀ p ∈ s.passes, ownerOf s.passes p.sessionID = p.playerID := by
  have hB := run_behind d u as s hf hr
  obtain ⟨ls, hrun, hdial⟩ := hB.run
  exact ⟨ls, hrun, hdial, fun p hp => ownerOf_pass hB.distinct hp⟩

/-! ## Somebody at the door -/

noncomputable def hourly : Door where
  jwt := stamped
  issuer := ⟨"secret", hour⟩
  rateLimitCapacity := 2
  rateLimitRefillRate := 1

def findMatchFrame : Frame where
  size := 62
  doc := some (.obj [("type", .str "FIND_MATCH"),
    ("payload", .obj [("gameType", .str "tictactoe")])])
  payloadSize := 24

/-- Alice gets a session and connects with its token. -/
noncomputable def aliceEnters : List Arrival :=
  [.session "POST" (some (.obj [("playerId", .str "alice")])) "01J" "01K",
   .upgrade ⟨"", hourly.issuer.issue hourly.jwt 0 "01K" "alice"⟩]

/-- Alice asks for a match and is queued. -/
def aliceIsQueued : List Arrival :=
  [.inner (.run 0 .go), .message 0 findMatchFrame, .inner (.run 0 .go), .inner (.run 0 .go)]

def aliceIssued (d : Door) : Front GameState :=
  { Front.start GameState d with passes := [⟨"01K", "alice", 0⟩] }

def aliceInside (d : Door) : Front GameState :=
  { aliceIssued d with
    node :=
      { conn := Function.update (fun _ => {}) 0
          { playerID := "alice", sessionID := "01K", reader := .load },
        conns := 1 },
    gate := Function.update (fun _ => d.gate 0) 0 (d.gate 0) }

theorem alice_issued :
    Front.step hourly aliceAndBob (Front.start GameState hourly)
      (.session "POST" (some (.obj [("playerId", .str "alice")])) "01J" "01K") =
      some (aliceIssued hourly) := rfl

theorem alice_authenticated :
    authenticate hourly.jwt hourly.issuer 0
      ⟨"", hourly.issuer.issue hourly.jwt 0 "01K" "alice"⟩ =
      some (hourly.issuer.claims hourly.jwt 0 "01K" "alice") := by
  rw [authenticate_issued hourly.jwt hourly.issuer .query]
  exact if_pos (by decide)

theorem alice_enters (as : List Arrival) :
    Front.run hourly aliceAndBob (aliceEnters ++ as) =
      exec (Front.step hourly aliceAndBob) (aliceInside hourly) as := by
  have hupgrade : Front.step hourly aliceAndBob (aliceIssued hourly)
      (.upgrade ⟨"", hourly.issuer.issue hourly.jwt 0 "01K" "alice"⟩) =
      some (aliceInside hourly) := by
    rw [Front.step]
    simp only [aliceIssued, Front.start, alice_authenticated]
    rfl
  unfold Front.run aliceEnters
  rw [List.cons_append, exec_cons _ alice_issued, List.cons_append, exec_cons _ hupgrade]
  rfl

theorem alice_unforged (as : List Arrival) (h : ∀ a ∈ as, ∀ r, a ≠ .upgrade r) :
    Meets (Front.step hourly aliceAndBob) (Unforged hourly) (Front.start GameState hourly)
      (aliceEnters ++ as) := by
  have hrest : Meets (Front.step hourly aliceAndBob) (Unforged hourly) (aliceInside hourly) as := by
    refine meets_of_mem _ _ as (fun a ha s => ?_) _
    cases a with
    | upgrade r => exact absurd rfl (h _ ha r)
    | _ => trivial
  have hx := alice_enters []
  rw [List.append_nil] at hx
  refine meets_append _ _ _ _ aliceEnters as hx ⟨trivial, fun s hs => ⟨?_, fun _ _ => trivial⟩⟩ hrest
  rw [alice_issued] at hs
  cases hs
  intro claims hparse
  rw [Carries.extract_issued .query] at hparse
  refine ⟨⟨"01K", "alice", 0⟩, List.mem_cons_self, ?_⟩
  exact Option.some.inj (hparse.symm.trans (hourly.jwt.parse_sign _ _))

theorem alice_queued :
    (exec (Front.step hourly aliceAndBob) (aliceInside hourly) aliceIsQueued).any
      (fun s => s.node.queues "tictactoe" = ["alice"]) = true := by
  decide +kernel

theorem alice_behind_door :
    ∃ s ls, Front.run hourly aliceAndBob (aliceEnters ++ aliceIsQueued) = some s ∧
      Transport.run { aliceAndBob with owner := ownerOf s.passes } ls = some s.node ∧
      s.node.queues "tictactoe" = ["alice"] := by
  obtain ⟨s, hs, hq⟩ := (Option.any_eq_true _ _).mp alice_queued
  have hr := (alice_enters aliceIsQueued).trans hs
  obtain ⟨ls, hrun, -⟩ := front_refines_node hourly aliceAndBob _ s
    (alice_unforged aliceIsQueued (by simp [aliceIsQueued])) hr
  exact ⟨s, ls, hr, hrun, of_decide_eq_true hq⟩

/-! ## Whose token a connection came with -/

/-- The connection was accepted with the token of that session, before it had expired. -/
structure HoldsToken (d : Door) (s : Front σ) (c : ConnID) (pass : Pass) : Prop where
  issued : pass ∈ s.passes
  session : (s.node.conn c).sessionID = pass.sessionID
  player : (s.node.conn c).playerID = pass.playerID
  valid : (s.gate c).accepted < pass.issuedAt + d.issuer.ttl

def Entitled (d : Door) (s : Front σ) : Prop :=
  ∀ c, c < s.node.conns → ∃ pass, HoldsToken d s c pass

theorem HoldsToken.move {d : Door} {u : Setup σ} {s s' : Front σ} {c : ConnID} {pass : Pass}
    {l : Label} (h : HoldsToken d s c pass) (hc : c < s.node.conns)
    (hm : Move u s.node l s'.node) (hp : s'.passes = s.passes)
    (hg : (s'.gate c).accepted = (s.gate c).accepted) : HoldsToken d s' c pass where
  issued := by
    rw [hp]
    exact h.issued
  session := by
    obtain heq | ⟨sid, -, hnew⟩ := move_fixed Conn.sessionID (fun _ _ _ _ _ _ _ _ => rfl) hm c
    · exact heq.trans h.session
    · exact absurd hc (hnew ▸ Nat.lt_irrefl _)
  player := (move_player hm c hc).trans h.player
  valid := by
    rw [hg]
    exact h.valid

theorem ask_accepted (s : Front σ) (c d : ConnID) :
    (Function.update s.gate c (s.ask c) d).accepted = (s.gate d).accepted := by
  by_cases hd : d = c
  · subst hd
    rw [Function.update_self]
    rfl
  · rw [Function.update_of_ne hd]

theorem Entitled.node {d : Door} {u : Setup σ} {s s' : Front σ} {l : Label} (hE : Entitled d s)
    (hl : ∀ sid, l ≠ .dial sid) (hm : Move u s.node l s'.node) (hp : s'.passes = s.passes)
    (hg : ∀ c, (s'.gate c).accepted = (s.gate c).accepted) : Entitled d s' := by
  intro c hc
  have hold : c < s.node.conns := by
    obtain h | ⟨⟨sid, h⟩, -⟩ := move_conns hm
    · rwa [h] at hc
    · exact absurd h (hl sid)
  obtain ⟨pass, h⟩ := hE c hold
  exact ⟨pass, h.move hold hm hp (hg c)⟩

/-- An accepted token names its player and has some of its time left. -/
theorem valid_claims {jwt : Jwt} {iss : Issuer} {p : Pass} {now : Time}
    (h : jwt.valid now (iss.claims jwt p.issuedAt p.sessionID p.playerID) = true) :
    now < p.issuedAt + iss.ttl :=
  lt_of_lt_of_le ((jwt.valid_iff now _ _ rfl).mp h) (jwt.date_le _)

theorem Entitled.admits {d : Door} {u : Setup σ} {s s' : Front σ} {a : Arrival} (hE : Entitled d s)
    (hf : Unforged d s a) (h : Admits d u s a s') : Entitled d s' := by
  cases h with
  | refused => exact hE
  | issued _ pass hnew =>
    intro c hc
    obtain ⟨p, hp⟩ := hE c hc
    exact ⟨p, List.mem_append_left _ hp.issued, hp.session, hp.player, hp.valid⟩
  | accepted r claims node hauth hs =>
    obtain ⟨p, hp, rfl, hvalid⟩ := hf.claims hauth
    have hm := step_move _ _ _ _ hs
    intro c hc
    by_cases hnew : c = s.node.conns
    · cases hs
      subst hnew
      refine ⟨p, hp, ?_, ?_, ?_⟩
      · change (Function.update s.node.conn _ _ _).sessionID = _
        rw [Function.update_self]
        rfl
      · change (Function.update s.node.conn _ _ _).playerID = _
        rw [Function.update_self]
        rfl
      · change (Function.update s.gate _ _ _).accepted < _
        rw [Function.update_self]
        exact valid_claims hvalid
    · have hold : c < s.node.conns := by
        obtain h | ⟨-, h⟩ := move_conns hm
        · rwa [h] at hc
        · change c < node.conns at hc
          omega
      obtain ⟨pass, h⟩ := hE c hold
      refine ⟨pass, h.move hold hm rfl ?_⟩
      change (Function.update s.gate _ _ _).accepted = _
      rw [Function.update_of_ne hnew]
  | message c raw m node hs =>
    exact hE.node (fun sid h => by cases h) (step_move _ _ _ _ hs) rfl (ask_accepted s c)
  | inner _ l node hl ha hs =>
    exact hE.node (internal_not_dial hl) (step_move _ _ _ _ hs) rfl fun _ => rfl

theorem run_entitled (d : Door) (u : Setup σ) (as : List Arrival) (s : Front σ)
    (hf : Meets (Front.step d u) (Unforged d) (Front.start σ d) as)
    (hr : Front.run d u as = some s) : Entitled d s :=
  exec_invariant (Front.step d u) (Unforged d) (Entitled d)
    (fun _ _ _ hf hE h => hE.admits hf (step_admits h)) (Front.start σ d) s
    (fun c hc => absurd hc (Nat.not_lt_zero c)) as hf hr

/-- Some connection of the player was accepted with a token that had not expired. -/
def Vetted (d : Door) (s : Front σ) (p : PlayerID) : Prop :=
  ∃ c pass, c < s.node.conns ∧ HoldsToken d s c pass ∧ pass.playerID = p

theorem Entitled.vetted {d : Door} {s : Front σ} {p : PlayerID} (hE : Entitled d s)
    (h : Dialed s.node p) : Vetted d s p := by
  obtain ⟨c, hc, hplayer⟩ := h
  obtain ⟨pass, hpass⟩ := hE c hc
  exact ⟨c, pass, hc, hpass, hpass.player.symm.trans hplayer⟩

/-- **Nobody plays without a token.** Every player who is queued, in a match that is being
made or seated, and every player for whom a room has carried out a command, was issued a
session, and a connection was accepted with its token before the token expired. -/
theorem players_hold_tokens (d : Door) (u : Setup σ) (as : List Arrival) (s : Front σ)
    (hf : Meets (Front.step d u) (Unforged d) (Front.start σ d) as)
    (hr : Front.run d u as = some s) :
    (∀ p place, IsAt s.node p place → Vetted d s p) ∧
    ∀ R a, s.node.actor R = some a → ∃ gameType t₀ is, Lived u R a gameType t₀ is ∧
      ∀ now cmd o p, (Input.command now cmd, o) ∈ lifeTrace R a gameType t₀ is →
        Command.author cmd = some p → Vetted d s p := by
  have hE := run_entitled d u as s hf hr
  obtain ⟨ls, hrun, -⟩ := (run_behind d u as s hf hr).run
  obtain ⟨-, hV⟩ := run_vouched _ ls s.node hrun
  refine ⟨fun p place h => hE.vetted (hV.place p place h), fun R a ha => ?_⟩
  obtain ⟨gameType, t₀, is, hlive, hauthor⟩ := run_authored _ ls s.node hrun R a ha
  exact ⟨gameType, t₀, is, ⟨hlive.game, hlive.room⟩,
    fun now cmd o p hin hp => hE.vetted (hauthor now cmd o p hin hp)⟩

theorem alice_holds_token :
    ∃ s, Front.run hourly aliceAndBob (aliceEnters ++ aliceIsQueued) = some s ∧
      IsAt s.node "alice" (.queue "tictactoe") ∧ Vetted hourly s "alice" := by
  obtain ⟨s, hs, hq⟩ := (Option.any_eq_true _ _).mp alice_queued
  have hr := (alice_enters aliceIsQueued).trans hs
  have hat : IsAt s.node "alice" (.queue "tictactoe") := by
    change "alice" ∈ s.node.queues "tictactoe"
    rw [of_decide_eq_true hq]
    exact List.mem_cons_self
  exact ⟨s, hr, hat, (players_hold_tokens hourly aliceAndBob _ s
    (alice_unforged aliceIsQueued (by simp [aliceIsQueued])) hr).1 "alice" _ hat⟩

end Front
end RealtimeEngine.Transport
