import RealtimeEngine.Domain.Play
import RealtimeEngine.Room.Seats
import RealtimeEngine.Room.Starting
import RealtimeEngine.Room.Timers

/-! What a command is answered. Every command of the public methods gets one
reply; an error means that the room refused the command before it changed
anything, except for a `Join` that has taken its seat when `Init` fails. A
reply without an error carries the lifecycle that the command leaves behind,
except for the `Leave` that empties a waiting room. -/
namespace RealtimeEngine.Rooms
open Foundations Domain
set_option autoImplicit false
set_option maxHeartbeats 250000

section Replies
variable {σ : Type}

def Output.result : Output → Option CmdResult
  | .reply res => some res
  | _ => none

/-- What a turn sends on the reply channel of its command. -/
def results (outs : List Output) : List CmdResult := outs.filterMap Output.result

theorem mem_results (outs : List Output) (res : CmdResult) :
    res ∈ results outs ↔ .reply res ∈ outs := by
  unfold results
  rw [List.mem_filterMap]
  constructor
  · rintro ⟨o, ho, heq⟩
    cases o with
    | reply res' =>
      cases heq
      exact ho
    | broadcast ev => cases heq
    | afterFunc p k => cases heq
  · exact fun h => ⟨_, h, rfl⟩

@[simp] theorem results_append (xs ys : List Output) :
    results (xs ++ ys) = results xs ++ results ys := List.filterMap_append

/-- The turn calls `Init`, and `Init` fails. -/
def InitFails (g : Game σ) (r : Room σ) (i : Input) : Prop :=
  ∃ players e, initCall g r i = some players ∧ g.init players none = .error e

/-- How a turn answers its command. -/
inductive Answers (g : Game σ) (r : Room σ) (now : Time) (cmd : Command) (r' : Room σ)
    (outs : List Output) : Prop
  | timer (p : PlayerID) (generation : ℕ) (hc : cmd = .graceExpired p generation)
      (hr : results outs = [])
  | accepted (res : CmdResult) (hr : results outs = [res]) (he : res.err = none)
  | refused (e : Err) (hr : r' = touch now r) (ho : outs = [failReply e])
  | unstarted (p : PlayerID) (e : Err) (hc : cmd = .join p) (hi : Completes g r p)
      (hf : g.init (r.seatOrder ++ [p]) none = .error e) (hr : r' = seatPlayer (touch now r) p)
      (ho : outs = [playerEvent (seatPlayer (touch now r) p) .playerJoined p, failReply e])

theorem exit_answers {g : Game σ} {r r' : Room σ} {now : Time} {cmd : Command}
    {outs : List Output} (ho : r.lifecycle ≠ .closed)
    (he : Exit g r (.command now cmd) r' outs) : Answers g r now cmd r' outs := by
  cases he with
  | stopped i hc => exact absurd hc ho
  | rejected now cmd e => exact .refused e rfl rfl
  | initFailed now p e hl hs hm hw hi => exact .unstarted p e rfl ⟨hl, hs, hm, hw⟩ hi rfl rfl
  | graceIgnored now p k => exact .timer p k rfl rfl
  | forfeited now p k => exact .timer p k rfl rfl
  | rejoined | seated | started | ignored | left | emptied | applied | forceClosed | snapshot =>
    exact .accepted _ rfl rfl
  | dropped =>
    refine .accepted { lifecycle := r.lifecycle } ?_ rfl
    rw [results_append]
    split <;> rfl
  | reconnected now p slot =>
    refine .accepted { seat := slot.seat, lifecycle := r.lifecycle, snapshot := snapshotBytes g r,
                       serverSeq := r.serverSeq } ?_ rfl
    rw [results_append]
    split <;> rfl

theorem step_answers (g : Game σ) (r : Room σ) (now : Time) (cmd : Command)
    (ho : r.lifecycle ≠ .closed) :
    Answers g r now cmd (step g r (.command now cmd)).1 (step g r (.command now cmd)).2 :=
  exit_answers ho (step_exit g r (.command now cmd))

/-! ## Refused commands -/

theorem step_initFails (g : Game σ) (r : Room σ) (now : Time) (p : PlayerID) (e : Err)
    (h : Completes g r p) (hf : g.init (r.seatOrder ++ [p]) none = .error e) :
    step g r (.command now (.join p)) = (seatPlayer (touch now r) p,
      [playerEvent (seatPlayer (touch now r) p) .playerJoined p, failReply e]) := by
  have hm := Nat.not_le.mpr h.free
  simp [step, handle, handleJoin, h.waiting, h.unseated, hm, h.enough, hf]

/-- The turn leaves no trace but the time of the last activity. -/
def Untouched (r : Room σ) (now : Time) (x : Room σ × List Output) : Prop :=
  x.1 = touch now r ∧ ∀ ev, .broadcast ev ∉ x.2

/-- **A command that is answered with an error changes nothing, unless it is a
`Join` on which `Init` fails.** That one is seated and announced before it is
answered. -/
theorem refused_untouched_iff (g : Game σ) (id : ID) (gameType : String) (t₀ : Time)
    (is : List Input) (now : Time) (cmd : Command) (res : CmdResult) :
    let r := final (step g) (newRoom σ id gameType t₀) is
    .reply res ∈ (step g r (.command now cmd)).2 → res.err ≠ none →
    (Untouched r now (step g r (.command now cmd)) ↔ ¬ InitFails g r (.command now cmd)) := by
  intro r hmem herr
  have ho : r.lifecycle ≠ .closed := by
    intro hc
    unfold step at hmem
    rw [if_pos hc] at hmem
    cases hmem
  constructor
  · rintro ⟨-, hquiet⟩ ⟨players, e, hcall, hfail⟩
    obtain ⟨_, p, hi, rfl, hcomp⟩ := initCall_some g r _ players hcall
    cases hi
    rw [step_initFails g r now p e hcomp hfail] at hquiet
    exact hquiet _ List.mem_cons_self
  · intro hok
    have hres := (mem_results _ _).mpr hmem
    have hans := step_answers g r now cmd ho
    generalize step g r (.command now cmd) = x at hans hres
    cases hans with
    | timer p k hc hr =>
      rw [hr] at hres
      cases hres
    | accepted res' hr he =>
      rw [hr, List.mem_singleton] at hres
      rw [hres] at herr
      exact absurd he herr
    | refused e hr hout =>
      refine ⟨hr, ?_⟩
      intro ev hev
      rw [hout, List.mem_singleton] at hev
      cases hev
    | unstarted p e hc hi hf hr hout =>
      subst hc
      exact absurd ⟨_, e, initCall_join g r now p hi, hf⟩ hok

/-- A move in a room that still waits for its second player. -/
theorem early_action_untouched :
    let r := final (step TicTacToe.game) (newRoom GameState "r" "tictactoe" 0)
      [.command 0 (.join "alice")]
    Untouched r 1 (step TicTacToe.game r (.command 1 (.action (TicTacToe.moveTo "alice" 0 0)))) :=
  (refused_untouched_iff TicTacToe.game "r" "tictactoe" 0 [.command 0 (.join "alice")] 1
    (.action (TicTacToe.moveTo "alice" 0 0)) { err := some (.room .roomNotActive) }
    List.mem_cons_self (by decide)).mpr (by rintro ⟨players, e, hcall, -⟩; cases hcall)

/-- A game for two whose `Init` does not do without a configuration. -/
def configured : Game Unit where
  init := fun _ config => if config.isSome then .ok (some ()) else .error (.other "no config")
  validate := fun _ _ => .ok ()
  applyAction := fun st _ => .ok { newState := st }
  tick := fun st _ => ({ newState := some st }, false)
  snapshot := fun _ => .ok none
  isTerminal := fun _ => false
  onPlayerAbandoned := fun st _ => .ok { newState := st, terminal := true }
  minPlayers := 2
  maxPlayers := 2

/-- The `Join` that is to start the game is answered with the error of `Init`,
but its player is seated and announced, and the room waits although it is full. -/
theorem failed_join_seats_player :
    let r := final (step configured) (newRoom Unit "r" "configured" 0) [.command 0 (.join "alice")]
    let x := step configured r (.command 1 (.join "bob"))
    .reply { err := some (.other "no config") } ∈ x.2 ∧ x.1.lifecycle = .waiting ∧
      r.seatOrder = ["alice"] ∧ x.1.seatOrder = ["alice", "bob"] ∧
      (x.1.players.lookup "bob").isSome = true ∧
      (∃ ev, .broadcast ev ∈ x.2 ∧ ev.kind = .playerJoined ∧ ev.subject = "bob") ∧
      ¬ Untouched r 1 x := by
  intro r x
  have hjoined : ∃ ev, .broadcast ev ∈ x.2 ∧ ev.kind = .playerJoined ∧ ev.subject = "bob" :=
    ⟨_, List.mem_cons_self, rfl, rfl⟩
  refine ⟨List.mem_cons_of_mem _ List.mem_cons_self, rfl, rfl, rfl, rfl, hjoined, ?_⟩
  intro hun
  obtain ⟨ev, hev, -⟩ := hjoined
  exact hun.2 ev hev

/-! ## Candid replies -/

theorem toCommand_ne_graceExpired (req : Request) (p : PlayerID) (generation : ℕ) :
    req.toCommand ≠ .graceExpired p generation := by
  cases req <;> exact Command.noConfusion

/-- One reply, which if it is no error carries the lifecycle of the room it leaves. -/
def Candid (x : Room σ × List Output) : Prop :=
  ∃ res, results x.2 = [res] ∧ (res.err = none → res.lifecycle = x.1.lifecycle)

theorem candid_fail (r : Room σ) (outs : List Output) (e : Err) (h : results outs = []) :
    Candid (r, outs ++ [failReply e]) := by
  refine ⟨{ err := some e }, ?_, fun hok => by cases hok⟩
  rw [results_append, h]
  rfl

theorem candid_reply (r : Room σ) (outs later : List Output) (res : CmdResult)
    (hl : res.lifecycle = r.lifecycle) (h : results outs = []) (h' : results later = []) :
    Candid (r, outs ++ .reply res :: later) := by
  refine ⟨res, ?_, fun _ => hl⟩
  rw [results_append, h]
  change res :: results later = [res]
  rw [h']

theorem handleJoin_candid (g : Game σ) (r : Room σ) (p : PlayerID) :
    Candid (handleJoin g r p) := by
  unfold handleJoin
  split
  · exact candid_fail r [] _ rfl
  · split
    · exact candid_reply r [] [] _ rfl rfl rfl
    · split
      · exact candid_fail r [] _ rfl
      · dsimp only
        split
        · split
          · exact candid_fail _ [_] _ rfl
          · exact candid_reply _ [_, _] [] _ rfl rfl rfl
        · exact candid_reply _ [_] [] _ rfl rfl rfl

theorem handleDisconnect_candid (r : Room σ) (p : PlayerID) :
    Candid (handleDisconnect r p) := by
  unfold handleDisconnect
  split
  · exact candid_reply r [] [] _ rfl rfl rfl
  · split
    · exact candid_reply r [] [] _ rfl rfl rfl
    · refine candid_reply _ [_] _ _ rfl rfl ?_
      split <;> rfl

theorem handleAction_candid (g : Game σ) (now : Time) (r : Room σ) (a : Action) :
    Candid (handleAction g now r a) := by
  unfold handleAction
  split
  · exact candid_fail r [] _ rfl
  · split
    · exact candid_fail r [] _ rfl
    · split
      · exact candid_fail r [] _ rfl
      · split
        · exact candid_fail r [] _ rfl
        · split
          · exact candid_fail r [] _ rfl
          · split
            · exact candid_fail r [] _ rfl
            · exact candid_reply _ [_] [] _ rfl rfl rfl

theorem handleReconnect_candid (g : Game σ) (r : Room σ) (p : PlayerID) :
    Candid (handleReconnect g r p) := by
  unfold handleReconnect
  split
  · exact candid_fail r [] _ rfl
  · refine candid_reply _ _ [] _ rfl ?_ rfl
    split <;> rfl

theorem handleForceClose_candid (r : Room σ) : Candid (handleForceClose r) := by
  refine candid_reply _ _ [] _ rfl ?_ rfl
  split <;> rfl

/-- The only player of a waiting room leaves: the reply is sent before the room closes. -/
theorem handleLeave_last (r : Room σ) (p : PlayerID) (slot : PlayerSlot)
    (hw : r.lifecycle = .waiting) (hs : r.players.lookup p = some slot)
    (hn : (r.seatOrder.erase p).length = 0) :
    results (handleLeave r p).2 = [{ lifecycle := .waiting }] ∧
      (handleLeave r p).1.lifecycle = .closed := by
  unfold handleLeave
  rw [hs]
  dsimp only
  rw [if_neg (not_not.mpr hw), if_pos hn, hw]
  exact ⟨rfl, rfl⟩

theorem handleLeave_candid (r : Room σ) (p : PlayerID)
    (h : r.lifecycle = .waiting → (r.players.lookup p).isSome = true →
      (r.seatOrder.erase p).length ≠ 0) : Candid (handleLeave r p) := by
  unfold handleLeave
  split
  · exact candid_reply r [] [] _ rfl rfl rfl
  · next slot hs =>
    split
    · exact handleDisconnect_candid r p
    · next hw =>
      dsimp only
      rw [if_neg (h (not_not.mp hw) (by rw [hs]; rfl))]
      exact candid_reply _ [] [] _ rfl rfl rfl

/-- `Leave` of the only player of a waiting room. -/
def Empties (r : Room σ) (req : Request) : Prop :=
  ∃ p, req = .leave p ∧ r.lifecycle = .waiting ∧ r.seatOrder = [p]

theorem SeatTable.erase_empty {g : Game σ} {r : Room σ} (h : SeatTable g r) {p : PlayerID}
    (hp : (r.players.lookup p).isSome = true) (hn : (r.seatOrder.erase p).length = 0) :
    r.seatOrder = [p] := by
  have hmem : p ∈ r.seatOrder := (h.keys p).mp (AList.lookup_isSome.mp hp)
  rw [List.length_erase_of_mem hmem] at hn
  have hlen : r.seatOrder.length = 1 := by
    have hpos := List.length_pos_of_mem hmem
    omega
  obtain ⟨q, hq⟩ := List.length_eq_one_iff.mp hlen
  rw [hq, List.mem_singleton] at hmem
  rw [hq, hmem]

theorem handle_candid (g : Game σ) (r : Room σ) (h : SeatTable g r) (now : Time) (req : Request)
    (hreq : ¬ Empties r req) : Candid (handle g now r req.toCommand) := by
  cases req with
  | join p => exact handleJoin_candid g _ p
  | submitAction a => exact handleAction_candid g now _ a
  | disconnect p => exact handleDisconnect_candid _ p
  | reconnect p => exact handleReconnect_candid g _ p
  | forceClose => exact handleForceClose_candid _
  | snapshot => exact candid_reply _ [] [] _ rfl rfl rfl
  | leave p =>
    refine handleLeave_candid _ p ?_
    intro hw hp hn
    exact hreq ⟨p, rfl, hw, h.erase_empty hp hn⟩

/-- **Every command of the public methods is answered once, and an answer without
an error reports the lifecycle that the command leaves, unless the command is
the `Leave` that empties a waiting room.** That one is told `Waiting`, and the
room is closed. -/
theorem reply_truthful_iff (g : Game σ) (id : ID) (gameType : String) (t₀ : Time)
    (is : List Input) (now : Time) (req : Request) :
    let r := final (step g) (newRoom σ id gameType t₀) is
    let x := handle g now r req.toCommand
    ∃ res, results x.2 = [res] ∧
      (res.err = none → (res.lifecycle = x.1.lifecycle ↔ ¬ Empties r req)) := by
  intro r x
  have hseats : SeatTable g r := final_seatTable g _ (newRoom_seatTable g id gameType t₀) is
  by_cases hreq : Empties r req
  · obtain ⟨p, rfl, hw, ho⟩ := hreq
    have hmem : p ∈ r.players := by
      rw [hseats.keys p, ho]
      exact List.mem_singleton_self p
    obtain ⟨slot, hs⟩ := Option.isSome_iff_exists.mp (AList.lookup_isSome.mpr hmem)
    have hn : (r.seatOrder.erase p).length = 0 := by
      rw [ho, List.erase_cons_head]
      rfl
    obtain ⟨hres, hclosed⟩ := handleLeave_last (touch now r) p slot hw hs hn
    refine ⟨_, hres, fun _ => ⟨fun heq => ?_, fun hnot => absurd ⟨p, rfl, hw, ho⟩ hnot⟩⟩
    change Lifecycle.waiting = (handleLeave (touch now r) p).1.lifecycle at heq
    rw [hclosed] at heq
    cases heq
  · obtain ⟨res, hres, hl⟩ := handle_candid g r hseats now req hreq
    exact ⟨res, hres, fun hok => ⟨fun _ => hreq, fun _ => hl hok⟩⟩

/-- alice is alone in a waiting room and leaves it: the reply says waiting, the room is closed. -/
theorem last_leave_reports_waiting :
    let r := final (step TicTacToe.game) (newRoom GameState "r" "tictactoe" 0)
      [.command 0 (.join "alice")]
    let x := handle TicTacToe.game 1 r (Request.leave "alice").toCommand
    results x.2 = [{ err := none, lifecycle := .waiting }] ∧ x.1.lifecycle = .closed :=
  ⟨rfl, rfl⟩

end Replies
end RealtimeEngine.Rooms
