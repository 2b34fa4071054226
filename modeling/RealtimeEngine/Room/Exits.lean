import RealtimeEngine.Room.Actor

/-! Every way one turn of the actor loop can end, with the guards that lead
there, the room it leaves and the outputs it makes. `step_exit` is proved once;
all later modules split on its cases and never unfold a handler. -/
namespace RealtimeEngine.Rooms
open Foundations Domain
set_option autoImplicit false
set_option maxHeartbeats 250000

section Fields
variable {σ : Type} (r : Room σ) (now : Time) (p : PlayerID) (slot : PlayerSlot)

@[simp] theorem touch_id : (touch now r).id = r.id := rfl
@[simp] theorem touch_lifecycle : (touch now r).lifecycle = r.lifecycle := rfl
@[simp] theorem touch_state : (touch now r).state = r.state := rfl
@[simp] theorem touch_seatOrder : (touch now r).seatOrder = r.seatOrder := rfl
@[simp] theorem touch_players : (touch now r).players = r.players := rfl
@[simp] theorem touch_serverSeq : (touch now r).serverSeq = r.serverSeq := rfl

@[simp] theorem setSlot_lifecycle : (setSlot r p slot).lifecycle = r.lifecycle := rfl
@[simp] theorem setSlot_seatOrder : (setSlot r p slot).seatOrder = r.seatOrder := rfl
@[simp] theorem setSlot_serverSeq : (setSlot r p slot).serverSeq = r.serverSeq := rfl
@[simp] theorem setSlot_players : (setSlot r p slot).players = r.players.insert p slot := rfl

@[simp] theorem seatPlayer_lifecycle : (seatPlayer r p).lifecycle = r.lifecycle := rfl
@[simp] theorem seatPlayer_serverSeq : (seatPlayer r p).serverSeq = r.serverSeq := rfl
@[simp] theorem seatPlayer_seatOrder : (seatPlayer r p).seatOrder = r.seatOrder ++ [p] := rfl
@[simp] theorem seatPlayer_players : (seatPlayer r p).players =
    r.players.insert p { seat := r.seatOrder.length, connected := true } := rfl

end Fields

/-! ## The rooms the exits leave -/

section Exits
variable {σ : Type}

/-- `Leave` in a waiting room, before the emptiness check. -/
def removePlayer (r : Room σ) (p : PlayerID) (slot : PlayerSlot) : Room σ :=
  { r with players := Table.mapVal (closeSeatGap slot.seat) (r.players.erase p),
           seatOrder := r.seatOrder.erase p }

theorem lookup_removePlayer (r : Room σ) (p q : PlayerID) (slot : PlayerSlot) :
    (removePlayer r p slot).players.lookup q =
      if q = p then none else (r.players.lookup q).map (closeSeatGap slot.seat) := by
  change (Table.mapVal _ (r.players.erase p)).lookup q = _
  rw [Table.lookup_mapVal, Table.lookup_erase_ite]
  split_ifs <;> rfl

/-- The room after a result of the game was stored. -/
def advance (r : Room σ) (result : Result σ) : Room σ :=
  { r with state := result.newState, serverSeq := r.serverSeq + 1 }

def finish (now : Time) (r : Room σ) : Room σ :=
  { r with lifecycle := .finished, finishedAt := now }

/-- `advance`, and `finish` when the game says so. -/
def settle (now : Time) (terminal : Bool) (r : Room σ) : Room σ :=
  if terminal then finish now r else r

@[simp] theorem settle_state (now : Time) (t : Bool) (r : Room σ) :
    (settle now t r).state = r.state := by cases t <;> rfl
@[simp] theorem settle_seatOrder (now : Time) (t : Bool) (r : Room σ) :
    (settle now t r).seatOrder = r.seatOrder := by cases t <;> rfl
@[simp] theorem settle_players (now : Time) (t : Bool) (r : Room σ) :
    (settle now t r).players = r.players := by cases t <;> rfl
@[simp] theorem settle_serverSeq (now : Time) (t : Bool) (r : Room σ) :
    (settle now t r).serverSeq = r.serverSeq := by cases t <;> rfl
theorem settle_lifecycle (now : Time) (t : Bool) (r : Room σ) :
    (settle now t r).lifecycle = if t then .finished else r.lifecycle := by cases t <;> rfl

@[simp] theorem advance_lifecycle (r : Room σ) (res : Result σ) :
    (advance r res).lifecycle = r.lifecycle := rfl
@[simp] theorem advance_state (r : Room σ) (res : Result σ) :
    (advance r res).state = res.newState := rfl
@[simp] theorem advance_seatOrder (r : Room σ) (res : Result σ) :
    (advance r res).seatOrder = r.seatOrder := rfl
@[simp] theorem advance_players (r : Room σ) (res : Result σ) :
    (advance r res).players = r.players := rfl
@[simp] theorem advance_serverSeq (r : Room σ) (res : Result σ) :
    (advance r res).serverSeq = r.serverSeq + 1 := rfl

/-- The room once `Init` has produced its state. -/
def start (r : Room σ) (p : PlayerID) (state : Option σ) : Room σ :=
  { seatPlayer r p with state := state, lifecycle := .active }

def startedEvent (g : Game σ) (r : Room σ) : Output :=
  .broadcast { roomID := r.id, kind := .roomStarted, serverSeq := r.serverSeq,
               snapshot := snapshotBytes g r }

def closedEvent (r : Room σ) : Output :=
  .broadcast { roomID := r.id, kind := .roomClosed, serverSeq := r.serverSeq }

/-- The commands that may be answered with an error; a `Reconnect` only without a seat. -/
def Refusable (r : Room σ) : Command → Prop
  | .join _ | .action _ => True
  | .reconnect p => r.players.lookup p = none
  | _ => False

/-- A command that leaves the seat of `p` to the grace window. -/
def Drops (r : Room σ) (p : PlayerID) (cmd : Command) : Prop :=
  cmd = .disconnect p ∨ cmd = .leave p ∧ r.lifecycle ≠ .waiting

/-- What must hold for an action to reach the game's result. -/
structure Admitted (g : Game σ) (r : Room σ) (a : Action) (slot : PlayerSlot)
    (result : Result σ) : Prop where
  active : r.lifecycle = .active
  seated : r.players.lookup a.playerID = some slot
  connected : slot.connected = true
  fresh : ¬ (a.seq ≤ slot.lastAppliedSeq ∧ slot.lastAppliedSeq ≠ 0)
  valid : g.validate r.state a = .ok ()
  applied : g.applyAction r.state a = .ok result

/-- What must hold for a grace timer to forfeit its player. -/
structure Forfeits (g : Game σ) (r : Room σ) (p : PlayerID) (generation : ℕ) (slot : PlayerSlot)
    (result : Result σ) : Prop where
  active : r.lifecycle = .active
  seated : r.players.lookup p = some slot
  dropped : slot.connected = false
  current : slot.generation = generation
  abandoned : g.onPlayerAbandoned r.state p = .ok result

/-! ## The exits -/

inductive Exit (g : Game σ) (r : Room σ) : Input → Room σ → List Output → Prop
  | stopped (i : Input) (hc : r.lifecycle = .closed) : Exit g r i r []
  | rejected (now : Time) (cmd : Command) (e : Err) (ho : r.lifecycle ≠ .closed)
      (hr : Refusable r cmd) :
      Exit g r (.command now cmd) (touch now r) [failReply e]
  | rejoined (now : Time) (p : PlayerID) (slot : PlayerSlot)
      (hl : r.lifecycle = .waiting ∨ r.lifecycle = .active)
      (hs : r.players.lookup p = some slot) :
      Exit g r (.command now (.join p)) (touch now r) [snapshotReply g (touch now r) slot.seat]
  | seated (now : Time) (p : PlayerID)
      (hl : r.lifecycle = .waiting ∨ r.lifecycle = .active)
      (hs : r.players.lookup p = none) (hm : r.seatOrder.length < g.maxPlayers)
      (hw : r.lifecycle = .waiting → r.seatOrder.length + 1 < g.minPlayers) :
      Exit g r (.command now (.join p)) (seatPlayer (touch now r) p)
        [playerEvent (seatPlayer (touch now r) p) .playerJoined p,
         snapshotReply g (seatPlayer (touch now r) p) r.seatOrder.length]
  | initFailed (now : Time) (p : PlayerID) (e : Err) (hl : r.lifecycle = .waiting)
      (hs : r.players.lookup p = none) (hm : r.seatOrder.length < g.maxPlayers)
      (hw : g.minPlayers ≤ r.seatOrder.length + 1)
      (hi : g.init (r.seatOrder ++ [p]) none = .error e) :
      Exit g r (.command now (.join p)) (seatPlayer (touch now r) p)
        [playerEvent (seatPlayer (touch now r) p) .playerJoined p, failReply e]
  | started (now : Time) (p : PlayerID) (state : Option σ) (hl : r.lifecycle = .waiting)
      (hs : r.players.lookup p = none) (hm : r.seatOrder.length < g.maxPlayers)
      (hw : g.minPlayers ≤ r.seatOrder.length + 1)
      (hi : g.init (r.seatOrder ++ [p]) none = .ok state) :
      Exit g r (.command now (.join p)) (start (touch now r) p state)
        [playerEvent (seatPlayer (touch now r) p) .playerJoined p,
         startedEvent g (start (touch now r) p state),
         snapshotReply g (start (touch now r) p state) r.seatOrder.length]
  | ignored (now : Time) (p : PlayerID) (cmd : Command) (ho : r.lifecycle ≠ .closed)
      (hc : cmd = .disconnect p ∨ cmd = .leave p)
      (hs : ∀ slot, r.players.lookup p = some slot → slot.connected = false) :
      Exit g r (.command now cmd) (touch now r) [.reply { lifecycle := r.lifecycle }]
  | left (now : Time) (p : PlayerID) (slot : PlayerSlot) (hl : r.lifecycle = .waiting)
      (hs : r.players.lookup p = some slot) (hn : (r.seatOrder.erase p).length ≠ 0) :
      Exit g r (.command now (.leave p)) (removePlayer (touch now r) p slot)
        [.reply { lifecycle := r.lifecycle }]
  | emptied (now : Time) (p : PlayerID) (slot : PlayerSlot) (hl : r.lifecycle = .waiting)
      (hs : r.players.lookup p = some slot) (hn : (r.seatOrder.erase p).length = 0) :
      Exit g r (.command now (.leave p))
        { removePlayer (touch now r) p slot with lifecycle := .closed }
        [.reply { lifecycle := r.lifecycle }]
  | dropped (now : Time) (p : PlayerID) (cmd : Command) (slot : PlayerSlot)
      (ho : r.lifecycle ≠ .closed) (hc : Drops r p cmd)
      (hs : r.players.lookup p = some slot) (hb : slot.connected = true) :
      Exit g r (.command now cmd)
        (setSlot (touch now r) p
          { slot with connected := false, generation := slot.generation + 1 })
        ([playerEvent (touch now r) .playerDisconnected p, .reply { lifecycle := r.lifecycle }] ++
          if r.lifecycle = .active then [.afterFunc p (slot.generation + 1)] else [])
  | applied (now : Time) (a : Action) (slot : PlayerSlot) (result : Result σ)
      (h : Admitted g r a slot result) :
      Exit g r (.command now (.action a))
        (settle now result.terminal (setSlot (advance (touch now r) result) a.playerID
          { slot with lastAppliedSeq := a.seq }))
        [diffEvent (advance (touch now r) result) result result.terminal a.playerID,
         .reply { lifecycle := if result.terminal then .finished else r.lifecycle,
                  serverSeq := r.serverSeq + 1 }]
  | reconnected (now : Time) (p : PlayerID) (slot : PlayerSlot) (ho : r.lifecycle ≠ .closed)
      (hs : r.players.lookup p = some slot) :
      Exit g r (.command now (.reconnect p))
        (setSlot (touch now r) p { slot with connected := true })
        ((if slot.connected then [] else [playerEvent (touch now r) .playerReconnected p]) ++
          [snapshotReply g (touch now r) slot.seat])
  | graceIgnored (now : Time) (p : PlayerID) (generation : ℕ) (ho : r.lifecycle ≠ .closed)
      (hi : ∀ slot result, ¬ Forfeits g r p generation slot result) :
      Exit g r (.command now (.graceExpired p generation)) (touch now r) []
  | forfeited (now : Time) (p : PlayerID) (generation : ℕ) (slot : PlayerSlot)
      (result : Result σ) (h : Forfeits g r p generation slot result) :
      Exit g r (.command now (.graceExpired p generation))
        (finish now (advance (touch now r) result))
        [diffEvent (advance (touch now r) result) result true p]
  | forceClosed (now : Time) (ho : r.lifecycle ≠ .closed) :
      Exit g r (.command now .forceClose) { touch now r with lifecycle := .closed }
        [closedEvent r, .reply { lifecycle := .closed }]
  | snapshot (now : Time) (ho : r.lifecycle ≠ .closed) :
      Exit g r (.command now .snapshot) (touch now r) [snapshotReply g (touch now r) 0]
  | tickIgnored (now : Time) (ho : r.lifecycle ≠ .closed) : Exit g r (.tick now) r []
  | ticked (now : Time) (st : σ) (result : Result σ) (hl : r.lifecycle = .active)
      (hs : r.state = some st) (ht : g.tick st now = (result, true)) :
      Exit g r (.tick now) (settle now result.terminal (advance r result))
        [diffEvent (advance r result) result result.terminal ""]

/-! ## Each handler ends in one of them -/

def Ends (g : Game σ) (r : Room σ) (i : Input) (x : Room σ × List Output) : Prop :=
  Exit g r i x.1 x.2

theorem join_ends (g : Game σ) (r : Room σ) (now : Time) (p : PlayerID)
    (ho : r.lifecycle ≠ .closed) :
    Ends g r (.command now (.join p)) (handleJoin g (touch now r) p) := by
  unfold handleJoin
  split
  · exact .rejected now _ _ ho trivial
  · next hcf =>
    have hl : r.lifecycle = .waiting ∨ r.lifecycle = .active := by
      simp only [touch_lifecycle] at hcf
      cases h : r.lifecycle <;> simp_all
    split
    · next slot hs => exact .rejoined now p slot hl hs
    · next hs =>
      split
      · exact .rejected now _ _ ho trivial
      · next hm =>
        have hm' : r.seatOrder.length < g.maxPlayers := Nat.lt_of_not_le hm
        dsimp only
        split
        · next hw =>
          simp only [seatPlayer_seatOrder, touch_seatOrder, List.length_append,
            List.length_singleton] at hw
          split
          · next e hi => exact .initFailed now p e hw.1 hs hm' hw.2 hi
          · next state hi => exact .started now p state hw.1 hs hm' hw.2 hi
        · next hw =>
          refine .seated now p hl hs hm' ?_
          intro hwait
          by_contra hn
          refine hw ⟨hwait, ?_⟩
          simp only [seatPlayer_seatOrder, touch_seatOrder, List.length_append,
            List.length_singleton]
          omega

theorem disconnect_ends (g : Game σ) (r : Room σ) (now : Time) (p : PlayerID) (cmd : Command)
    (ho : r.lifecycle ≠ .closed) (hc : Drops r p cmd) :
    Ends g r (.command now cmd) (handleDisconnect (touch now r) p) := by
  have hcmd : cmd = .disconnect p ∨ cmd = .leave p := hc.imp id And.left
  unfold handleDisconnect
  split
  · next hs =>
    refine .ignored now p cmd ho hcmd ?_
    intro slot hs'
    rw [touch_players, hs'] at hs
    cases hs
  · next slot hs =>
    split
    · next hb =>
      refine .ignored now p cmd ho hcmd ?_
      intro slot' hs'
      rw [touch_players, hs', Option.some.injEq] at hs
      subst hs
      simpa using hb
    · next hb => exact .dropped now p cmd slot ho hc hs (not_not.mp hb)

theorem leave_ends (g : Game σ) (r : Room σ) (now : Time) (p : PlayerID)
    (ho : r.lifecycle ≠ .closed) :
    Ends g r (.command now (.leave p)) (handleLeave (touch now r) p) := by
  unfold handleLeave
  split
  · next hs =>
    refine .ignored now p _ ho (Or.inr rfl) ?_
    intro slot hs'
    rw [touch_players, hs'] at hs
    cases hs
  · next slot hs =>
    split
    · next hw => exact disconnect_ends g r now p _ ho (Or.inr ⟨rfl, hw⟩)
    · next hw =>
      have hwait : r.lifecycle = .waiting := not_not.mp hw
      dsimp only
      split
      · next hn => exact .emptied now p slot hwait hs hn
      · next hn => exact .left now p slot hwait hs hn

theorem action_ends (g : Game σ) (r : Room σ) (now : Time) (a : Action)
    (ho : r.lifecycle ≠ .closed) :
    Ends g r (.command now (.action a)) (handleAction g now (touch now r) a) := by
  unfold handleAction
  split
  · exact .rejected now _ _ ho trivial
  · next hl =>
    have hact : r.lifecycle = .active := not_not.mp hl
    split
    · exact .rejected now _ _ ho trivial
    · next slot hs =>
      split
      · exact .rejected now _ _ ho trivial
      · next hb =>
        split
        · exact .rejected now _ _ ho trivial
        · next hq =>
          split
          · exact .rejected now _ _ ho trivial
          · next hv =>
            split
            · exact .rejected now _ _ ho trivial
            · next result ha =>
              have h := Exit.applied now a slot result
                ⟨hact, hs, not_not.mp hb, hq, hv, ha⟩
              dsimp only
              cases ht : result.terminal <;> rw [ht] at h <;> exact h

theorem grace_ends (g : Game σ) (r : Room σ) (now : Time) (p : PlayerID) (generation : ℕ)
    (ho : r.lifecycle ≠ .closed) :
    Ends g r (.command now (.graceExpired p generation))
      (handleGraceExpired g now (touch now r) p generation) := by
  unfold handleGraceExpired
  split
  · next hs =>
    refine .graceIgnored now p generation ho ?_
    intro slot result h
    rw [touch_players, h.seated] at hs
    cases hs
  · next slot hs =>
    have hsame : ∀ slot', r.players.lookup p = some slot' → slot' = slot := by
      intro slot' hs'
      rw [touch_players, hs', Option.some.injEq] at hs
      exact hs
    split
    · next hq =>
      refine .graceIgnored now p generation ho ?_
      intro slot' result h
      have he := hsame slot' h.seated
      subst he
      rcases hq with hq | hq
      · rw [h.dropped] at hq
        exact Bool.noConfusion hq
      · exact hq h.current
    · next hq =>
      split
      · next hl => exact .graceIgnored now p generation ho (fun _ _ h => hl h.active)
      · next hl =>
        split
        · next e ha =>
          refine .graceIgnored now p generation ho ?_
          intro slot' result h
          rw [touch_state, h.abandoned] at ha
          cases ha
        · next result ha =>
          have hd : slot.connected = false := by
            cases hc : slot.connected
            · rfl
            · exact absurd (Or.inl hc) hq
          have hg : slot.generation = generation := by
            by_contra hne
            exact hq (Or.inr hne)
          exact .forfeited now p generation slot result ⟨not_not.mp hl, hs, hd, hg, ha⟩

theorem reconnect_ends (g : Game σ) (r : Room σ) (now : Time) (p : PlayerID)
    (ho : r.lifecycle ≠ .closed) :
    Ends g r (.command now (.reconnect p)) (handleReconnect g (touch now r) p) := by
  unfold handleReconnect
  split
  · next hs => exact .rejected now _ _ ho hs
  · next slot hs => exact .reconnected now p slot ho hs

theorem tick_ends (g : Game σ) (r : Room σ) (now : Time) (ho : r.lifecycle ≠ .closed) :
    Ends g r (.tick now) (handleTick g now r) := by
  unfold handleTick
  split
  · exact .tickIgnored now ho
  · next hl =>
    split
    · exact .tickIgnored now ho
    · next st hs =>
      split
      · exact .tickIgnored now ho
      · next result ht => exact .ticked now st result (not_not.mp hl) hs ht

/-- Every turn of the loop ends in one of the exits. -/
theorem step_exit (g : Game σ) (r : Room σ) (i : Input) :
    Exit g r i (step g r i).1 (step g r i).2 := by
  change Ends g r i (step g r i)
  unfold step
  split
  · next hc => exact .stopped i hc
  · next hc =>
    cases i with
    | tick now => exact tick_ends g r now hc
    | command now cmd =>
      cases cmd with
      | join p => exact join_ends g r now p hc
      | leave p => exact leave_ends g r now p hc
      | action a => exact action_ends g r now a hc
      | disconnect p => exact disconnect_ends g r now p _ hc (Or.inl rfl)
      | reconnect p => exact reconnect_ends g r now p hc
      | graceExpired p generation => exact grace_ends g r now p generation hc
      | forceClose =>
        have h := Exit.forceClosed (g := g) now hc
        simpa [Ends, handle, handleForceClose, hc, closedEvent] using h
      | snapshot => exact .snapshot now hc

end Exits
end RealtimeEngine.Rooms
