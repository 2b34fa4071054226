import RealtimeEngine.Domain.Duel
import RealtimeEngine.Room.Slots
import RealtimeEngine.Transport.Seating

/-! Whether the room takes a player for connected while the Hub holds an open
connection of that player. `Unregister` leaves the entry of a newer connection
alone, but the `Disconnect` that `Close` submits next names only the player: it
is harmless as long as the room handles it while no open connection of the
player is registered there or about to be. -/
namespace RealtimeEngine.Transport
open Foundations Domain Rooms Storage Matchmaking
set_option autoImplicit false
set_option maxHeartbeats 250000

section Connected
variable {σ : Type} {u : Setup σ} {s s' : Sys σ} {l : Label}

/-! ## Claims to a room -/

/-- The goroutine of `d` has an open connection of the player in hand and is on
the way to register it: `tryResume` once its `Reconnect` is answered, a pass of
the `seatMatchedPlayers` loop from the start. -/
def arriving (s : Sys σ) (R : ID) (P : PlayerID) (d : ConnID) : Bool :=
  match (s.conn d).reader with
  | .submit (.seat room p c _) | .await (.seat room p c _) _ =>
    decide (room = R ∧ p = P) && (s.conn c).isOpen
  | .await (.resume room) ch =>
    decide (room = R ∧ (s.conn d).playerID = P) && (s.conn d).isOpen && !(answers s R ch).isEmpty
  | .tell stage k _ =>
    decide ((stage = .setRoom ∨ stage = .register) ∧ k.room = R ∧
      k.player (s.conn d).playerID = P) && (k.target d).any fun c => (s.conn c).isOpen
  | _ => false

/-- An open connection of the player is registered for the room, or about to be. -/
def claimed (s : Sys σ) (R : ID) (P : PlayerID) : Bool :=
  (s.hub.entry R P).any (fun c => (s.conn c).isOpen) || (List.range s.conns).any (arriving s R P)

/-- The command the room handles next. -/
def Sys.nextCommand (s : Sys σ) (R : ID) : Option Command :=
  (s.actor R).bind fun a => a.queue.head?.map Ticket.cmd

/-- A `Disconnect` is handled only while the player has no open connection at the room. -/
def dropsUnclaimed (s : Sys σ) : Label → Bool
  | .turn R =>
    match s.nextCommand R with
    | some (.disconnect P) => !claimed s R P
    | _ => true
  | _ => true

inductive Claimed (s : Sys σ) (R : ID) (P : PlayerID) : Prop
  | registered (c : ConnID) (he : s.hub.entry R P = some c) (ho : (s.conn c).closer = .off)
  | called (d c : ConnID) (rest : List PlayerID)
      (hr : (s.conn d).reader = .submit (.seat R P c rest) ∨
        ∃ ch, (s.conn d).reader = .await (.seat R P c rest) ch)
      (ho : (s.conn c).closer = .off)
  | resumed (d : ConnID) (ch : ChanID) (res : CmdResult)
      (hr : (s.conn d).reader = .await (.resume R) ch) (ha : res ∈ answers s R ch)
      (hp : (s.conn d).playerID = P) (ho : (s.conn d).closer = .off)
  | shown (d : ConnID) (stage : Stage) (k : Call) (answer : Option CmdResult) (c : ConnID)
      (hr : (s.conn d).reader = .tell stage k answer)
      (hs : stage = .setRoom ∨ stage = .register) (hroom : k.room = R)
      (hp : k.player (s.conn d).playerID = P) (ht : k.target d = some c)
      (ho : (s.conn c).closer = .off)

theorem Claimed.mem (hk : Known u s) {R : ID} {P : PlayerID} (h : Claimed s R P) :
    claimed s R P = true := by
  have harrive : ∀ d, (s.conn d).reader ≠ .idle → arriving s R P d = true →
      claimed s R P = true := by
    intro d hd ha
    exact Bool.or_eq_true_iff.mpr (Or.inr (List.any_eq_true.mpr
      ⟨d, List.mem_range.mpr (hk.busy d hd), ha⟩))
  cases h with
  | registered c he ho =>
    unfold claimed
    rw [he, Option.any_some, (isOpen_iff _).mpr ho]
    rfl
  | called d c rest hr ho =>
    obtain hr | ⟨ch, hr⟩ := hr
    · refine harrive d (by rw [hr]; exact Reader.noConfusion) ?_
      simp [arriving, hr, (isOpen_iff _).mpr ho]
    · refine harrive d (by rw [hr]; exact Reader.noConfusion) ?_
      simp [arriving, hr, (isOpen_iff _).mpr ho]
  | resumed d ch res hr ha hp ho =>
    refine harrive d (by rw [hr]; exact Reader.noConfusion) ?_
    have hne : answers s R ch ≠ [] := List.ne_nil_of_mem ha
    simp [arriving, hr, hp, (isOpen_iff _).mpr ho, hne]
  | shown d stage k answer c hr hs hroom hp ht ho =>
    refine harrive d (by rw [hr]; exact Reader.noConfusion) ?_
    simp [arriving, hr, hs, hroom, hp, ht, (isOpen_iff _).mpr ho]

/-! ## Where a claim comes from -/

theorem claimed_entry (hk : Known u s) (hm : Move u s l s') {R : ID} {P : PlayerID} {c : ConnID}
    (he : s'.hub.entry R P = some c) (ho : (s'.conn c).closer = .off) : Claimed s R P := by
  have ho := move_open hk hm c ho
  obtain h | ⟨d, choice, k, answer, target, -, hr, ht, h⟩ | ⟨d, choice, room, -, -, h⟩ :=
    move_hub hm
  · rw [h] at he
    exact .registered c he ho
  · rw [h, Hub.entry_register] at he
    split at he
    · next heq =>
      cases he
      exact .shown d .register k answer c hr (Or.inr rfl) heq.1.symm heq.2.symm ht ho
    · exact .registered c he ho
  · rw [h] at he
    exact .registered c (Hub.entry_of_unregister _ _ _ _ _ _ _ he) ho

/-- A pass takes up the next player. -/
theorem move_seat (hm : Move u s l s') {d c : ConnID} {R : ID} {P : PlayerID}
    {rest : List PlayerID} (h : (s'.conn d).reader = .submit (.seat R P c rest)) :
    (s.conn d).reader = .submit (.seat R P c rest) ∨
    (∃ choice, l = .run d choice) ∧ (s.conn d).reader = .seat R (P :: rest) := by
  obtain hr | ⟨choice, e, hl, -, hent⟩ := move_enters hm d (by rw [h]; rfl)
  · exact Or.inl (hr.symm.trans h)
  · right
    rw [h] at hent
    generalize hpc : (s.conn d).reader = pc at hent
    cases hent with
    | popped => exact ⟨⟨choice, hl⟩, rfl⟩

/-- A claim was there before the move, or the move takes up the next player of
a pass, or it is the turn that answers the player's `Reconnect`. -/
theorem claimed_back (hk : Known u s) (hL : Linked s) (hm : Move u s l s') {R : ID}
    {P : PlayerID} (h : Claimed s' R P) :
    Claimed s R P ∨
    (∃ d choice rest, l = .run d choice ∧ (s.conn d).reader = .seat R (P :: rest)) ∨
    ∃ d res a t rest, Answers s s' l d (.resume R) res a t rest ∧ (s.conn d).playerID = P := by
  cases h with
  | registered c he ho => exact Or.inl (claimed_entry hk hm he ho)
  | called d c rest hr ho =>
    have ho := move_open hk hm c ho
    obtain hr | ⟨ch, hr⟩ := hr
    · obtain hr | ⟨⟨choice, hl⟩, hr⟩ := move_seat hm hr
      · exact Or.inl (.called d c rest (Or.inl hr) ho)
      · exact Or.inr (Or.inl ⟨d, choice, rest, hl, hr⟩)
    · obtain hr | ⟨-, hr, -⟩ := move_await hm d _ ch hr
      · exact Or.inl (.called d c rest (Or.inr ⟨ch, hr⟩) ho)
      · exact Or.inl (.called d c rest (Or.inl hr) ho)
  | resumed d ch res hr ha hp ho =>
    have ho := move_open hk hm d ho
    rw [move_awaiting_player hm d _ ch hr] at hp
    obtain ⟨hr, ha | ⟨a, t, rest, ha⟩⟩ := move_answers hL hm d (.resume R) ch hr res ha
    · exact Or.inl (.resumed d ch res hr ha hp ho)
    · exact Or.inr (Or.inr ⟨d, res, a, t, rest, ha, hp⟩)
  | shown d stage k answer c hr hs hroom hp ht ho =>
    left
    have ho := move_open hk hm c ho
    obtain hsame | ⟨choice, e, -, hstep⟩ := move_tell hm d stage k answer hr
    · rw [hsame] at hr
      have hd := hk.busy d (by rw [hr]; exact Reader.noConfusion)
      rw [move_player hm d hd] at hp
      exact .shown d stage k answer c hr hs hroom hp ht ho
    · have hbusy : ∀ pc, (s.conn d).reader = pc → pc ≠ .idle →
          (s'.conn d).playerID = (s.conn d).playerID := by
        rintro pc hpc hne
        exact move_player hm d (hk.busy d (by rw [hpc]; exact hne))
      subst hroom
      obtain ⟨stage', hpc, hne, hreg⟩ | ⟨ch, res, hpc, hrep, hok, rfl, hi⟩ | ⟨rfl, -, hseat, hpc⟩ :=
        hstep.to_tell rfl
      · rw [hbusy _ hpc Reader.noConfusion] at hp
        obtain hs | hs := hs
        · exact absurd hs hne
        · exact .shown d stage' k answer c hpc (Or.inl (hreg hs)) rfl hp ht ho
      · rw [hbusy _ hpc Reader.noConfusion] at hp
        cases k with
        | resume room =>
          cases ht
          exact .resumed d ch res hpc ((mem_answers s room ch res).mpr ⟨Or.inr hrep, hok⟩) hp ho
        | seat room p conn rest =>
          cases ht
          cases hp
          exact .called d c rest (Or.inr ⟨ch, hpc⟩) ho
        | resync room =>
          obtain hi | rfl := hi
          · cases hi
          · obtain hs | hs := hs <;> cases hs
        | join room p rest => cases ht
        | act room a => cases ht
      · cases k with
        | seat room p conn rest =>
          cases ht
          cases hp
          exact .called d c rest hpc ho
        | _ => cases hseat

/-! ## The invariant -/

/-- The room takes the player for connected. -/
def Present (s : Sys σ) (R : ID) (P : PlayerID) : Prop :=
  ∃ a slot, s.actor R = some a ∧ a.room.players.lookup P = some slot ∧ slot.connected = true

structure Connected (s : Sys σ) : Prop where
  stays : ∀ R a t p, s.actor R = some a → t ∈ a.queue → t.cmd ≠ .leave p
  owed : ∀ d R ps p a, (s.conn d).reader.pass = some (R, ps) → Owed ps p → s.actor R = some a →
    (∀ slot, a.room.players.lookup p = some slot → slot.connected = true) ∧
      (ps.isSome = true → a.room.players.lookup p ≠ none)
  claimed : ∀ R P, Claimed s R P → Present s R P

theorem Connected.stays_move (hC : Connected s) (hm : Move u s l s') (R : ID) (a' : Actor σ)
    (t : Ticket) (p : PlayerID) (ha' : s'.actor R = some a') (ht : t ∈ a'.queue) :
    t.cmd ≠ .leave p := by
  obtain ⟨a, ha, hin⟩ | ⟨hp, -⟩ := move_queued hm R a' t ha' ht
  · exact hC.stays R a t p ha hin
  · cases hp with
    | call c choice k hr => cases k <;> exact Command.noConfusion
    | _ => exact Command.noConfusion

/-- A connected slot stays one, unless the room handles a `Disconnect` of its player. -/
theorem Connected.slot_move (hC : Connected s) (hm : Move u s l s') {R : ID} {p : PlayerID}
    {a : Actor σ} (ha : s.actor R = some a)
    (hd : ∀ t rest, l = .turn R → a.queue = t :: rest → t.cmd ≠ .disconnect p)
    (hc : ∀ slot, a.room.players.lookup p = some slot → slot.connected = true) :
    ∃ a', s'.actor R = some a' ∧
      (∀ slot, a'.room.players.lookup p = some slot → slot.connected = true) ∧
      (a.room.players.lookup p ≠ none → a'.room.players.lookup p ≠ none) := by
  obtain ⟨a', ha', hroom | ⟨i, hi, -, hroom⟩⟩ := move_turn hm ha
  · refine ⟨a', ha', ?_⟩
    rw [hroom]
    exact ⟨hc, fun h => h⟩
  · refine ⟨a', ha', ?_⟩
    rw [hroom]
    cases hi with
    | command t rest hq =>
      have hin : t ∈ a.queue := by
        rw [hq]
        exact List.mem_cons_self
      exact exit_connected (step_exit a.game a.room _) p
        (fun now hi => hC.stays R a t p ha hin (Input.command.inj hi).2)
        (fun now hi => hd t rest rfl hq (Input.command.inj hi).2) hc
    | tick =>
      exact exit_connected (step_exit a.game a.room _) p (fun now hi => by cases hi)
        (fun now hi => by cases hi) hc

theorem Connected.present_move (hC : Connected s) (hm : Move u s l s') {R : ID} {P : PlayerID}
    (hd : ∀ a t rest, s.actor R = some a → l = .turn R → a.queue = t :: rest →
      t.cmd ≠ .disconnect P) (h : Present s R P) : Present s' R P := by
  obtain ⟨a, slot, ha, hs, hc⟩ := h
  have hall : ∀ slot', a.room.players.lookup P = some slot' → slot'.connected = true := by
    intro slot' hs'
    rw [hs] at hs'
    cases hs'
    exact hc
  obtain ⟨a', ha', hall', hne⟩ := hC.slot_move hm ha (fun t rest => hd a t rest ha) hall
  obtain ⟨slot', hs'⟩ := Option.ne_none_iff_exists'.mp (hne (by rw [hs]; exact Option.some_ne_none _))
  exact ⟨a', slot', ha', hs', hall' slot' hs'⟩

theorem Connected.owed_move (hC : Connected s) (hS : Sound u s) (hm : Move u s l s') (d : ConnID)
    (R : ID) (ps' : Option (List PlayerID)) (p : PlayerID) (a' : Actor σ)
    (hps' : (s'.conn d).reader.pass = some (R, ps')) (ho : Owed ps' p)
    (ha' : s'.actor R = some a') :
    (∀ slot, a'.room.players.lookup p = some slot → slot.connected = true) ∧
      (ps'.isSome = true → a'.room.players.lookup p ≠ none) := by
  obtain ⟨ps, hps, hsub, hsome⟩ | ⟨hn, rfl, -, -⟩ := move_pass hm d R ps' hps'
  · obtain ⟨a, ha⟩ := Option.ne_none_iff_exists'.mp (hS.seated.created d R ps hps)
    have hold := hC.owed d R ps p a hps (hsub p ho) ha
    -- nothing drops a player the pass has not come to
    have huntouched := hS.seated.virgin R p (Or.inr ⟨d, ps, hps, hsub p ho⟩)
    obtain ⟨a'', ha'', hall, hne⟩ := hC.slot_move hm ha
      (fun t rest _ hq => huntouched.dropped a t ha (by rw [hq]; exact List.mem_cons_self)) hold.1
    rw [ha'] at ha''
    cases ha''
    refine ⟨hall, fun hs => hne ?_⟩
    obtain h | ⟨b, hb, rfl⟩ := hsome hs
    · exact hold.2 h
    · rw [ha] at hb
      cases hb
      have hmem := ((hS.seated.tables R a ha).keys p).mpr ho
      exact fun h => AList.lookup_eq_none.mp h hmem
  · have hch := move_actor hm R
    rw [ha', hn] at hch
    cases hch with
    | created c choice gameType players g hl hr hg =>
      refine ⟨fun slot hs => ?_, fun h => by cases h⟩
      simp [newRoom] at hs

theorem Connected.claimed_move (hC : Connected s) (hS : Sound u s) (hm : Move u s l s')
    (hl : dropsUnclaimed s l = true) (R : ID) (P : PlayerID) (h : Claimed s' R P) :
    Present s' R P := by
  obtain h | ⟨d, choice, rest, rfl, hr⟩ | ⟨d, res, a, t, rest, ha, rfl⟩ :=
    claimed_back hS.known hS.linked hm h
  · refine hC.present_move hm ?_ (hC.claimed R P h)
    rintro a t rest ha rfl hq ht
    have hnext : s.nextCommand R = some (.disconnect P) := by
      unfold Sys.nextCommand
      rw [ha, Option.bind_some, hq, List.head?_cons, Option.map_some, ht]
    simp [dropsUnclaimed, hnext, h.mem hS.known] at hl
  · have hps : (s.conn d).reader.pass = some (R, some (P :: rest)) := by
      rw [hr]
      rfl
    obtain ⟨a, ha⟩ := Option.ne_none_iff_exists'.mp (hS.seated.created d R _ hps)
    obtain ⟨hall, hne⟩ := hC.owed d R _ P a hps List.mem_cons_self ha
    obtain ⟨slot, hs⟩ := Option.ne_none_iff_exists'.mp (hne rfl)
    refine hC.present_move hm ?_ ⟨a, slot, ha, hs, hall slot hs⟩
    rintro b t rest' - hturn
    cases hturn
  · obtain ⟨a', ha', hroom⟩ := Option.map_eq_some_iff.mp ha.room
    have hout := ha.output
    rw [ha.cmd] at hout hroom
    obtain ⟨-, slot, hs, hc⟩ := exit_reconnect_reply (step_exit a.game a.room _) hout ha.ok
    refine ⟨a', slot, ha', ?_, hc⟩
    rw [hroom]
    exact hs

theorem Connected.move (hC : Connected s) (hS : Sound u s) (hm : Move u s l s')
    (hl : dropsUnclaimed s l = true) : Connected s' where
  stays := hC.stays_move hm
  owed := hC.owed_move hS hm
  claimed := hC.claimed_move hS hm hl

theorem connected_start : Connected ({} : Sys σ) where
  stays := fun R a t p h => by cases h
  owed := fun d R ps p a h => by cases h
  claimed := by
    intro R P h
    cases h with
    | registered c he ho => cases he
    | called d c rest hr ho => obtain hr | ⟨ch, hr⟩ := hr <;> cases hr
    | resumed d ch res hr ha hp ho => cases hr
    | shown d stage k answer c hr hs hroom hp ht ho => cases hr

/-- As long as no room handles a `Disconnect` of a player who has an open
connection there, the room takes everyone with an open connection in the Hub for
connected, and no grace timer of theirs ends the game. -/
theorem connected_while_registered (u : Setup σ) (ls : List Label) (s : Sys σ)
    (hc : Meets (step u) (fun s l => dropsUnclaimed s l = true) {} ls)
    (hr : run u ls = some s) (R : ID) (P : PlayerID) (c : ConnID)
    (he : s.hub.entry R P = some c) (ho : (s.conn c).isOpen = true) :
    ∃ a slot, s.actor R = some a ∧ a.room.players.lookup P = some slot ∧
      slot.connected = true ∧
      ∀ now generation,
        (Rooms.step a.game a.room (.command now (.graceExpired P generation))).1.lifecycle =
          a.room.lifecycle := by
  obtain ⟨-, hC⟩ := run_invariant (fun s l => dropsUnclaimed s l = true) Connected
    (fun s l s' hl hS hC hm => hC.move hS hm hl) connected_start ls s hc hr
  obtain ⟨a, slot, ha, hs, hconn⟩ := hC.claimed R P (.registered c he ((isOpen_iff _).mp ho))
  exact ⟨a, slot, ha, hs, hconn, fun now generation =>
    grace_spares_connected a.game a.room now P generation slot hs hconn⟩

end Connected

/-! ## A match of two players -/

section Scenario
variable {σ : Type}
set_option maxRecDepth 100000

/-- Sessions `a` and `b` of alice and bob, and a grace period of thirty units. -/
def aliceAndBob : Setup GameState where
  games := registry
  owner := fun sid => if sid = "a" then "alice" else "bob"
  nodeID := "node"
  graceDuration := 30
  sessionTTL := 1000
  waitingTTL := 60
  finishedLinger := 10

def findMatch : Incoming :=
  .message { type := "FIND_MATCH", payload := some (.obj [("gameType", .str "tictactoe")]) }

/-- The goroutine of a connection makes `n` accesses. -/
def runs (c : ConnID) (n : ℕ) : List Label := List.replicate n (.run c .go)

/-- The room handles a command and does its `n` outputs. -/
def turns (R : ID) (n : ℕ) : List Label := .turn R :: List.replicate n (.act R 0)

/-- Alice and bob ask for a match; bob's goroutine has seated alice in room `r`
and the room has answered its `Snapshot` for bob. -/
def halfSeated : List Label :=
  [.dial "a", .run 0 .go, .dial "b", .run 1 .go, .recv 0 findMatch] ++ runs 0 2 ++
  [.recv 1 findMatch] ++ runs 1 2 ++ [.run 1 (.fresh "r"), .run 1 .go] ++ turns "r" 3 ++
  runs 1 2 ++ turns "r" 5 ++ runs 1 4 ++ turns "r" 1 ++ runs 1 7 ++ turns "r" 1

def seated : List Label := halfSeated ++ runs 1 6

/-- A new connection with the session resumes in room `r`. -/
def resumes (sid : String) (c : ConnID) (outputs : ℕ) : List Label :=
  [.dial sid] ++ runs c 3 ++ turns "r" outputs ++ runs c 5

/-- A connection in room `r` hangs up and is closed. -/
def leaves (c : ConnID) (outputs : ℕ) : List Label :=
  .hangup c :: List.replicate 4 (.close c .go) ++ turns "r" outputs ++
    List.replicate 2 (.close c .go)

/-- No handler is in progress and no command is queued for the room. -/
def Sys.quiet (s : Sys σ) (R : ID) : Bool :=
  (List.range s.conns).all (fun c => (s.conn c).reader.isIdle &&
    ((s.conn c).isOpen || decide ((s.conn c).closer = .done))) &&
  (s.actor R).all fun a => a.queue.isEmpty && a.todo.isEmpty

/-- The connection is lost and comes back: alice is connected again. -/
theorem connected_after_resume :
    Meets (step aliceAndBob) (fun s l => dropsUnclaimed s l = true) {}
      (seated ++ leaves 0 5 ++ resumes "a" 2 4) ∧
    ∃ s, run aliceAndBob (seated ++ leaves 0 5 ++ resumes "a" 2 4) = some s ∧
      s.hub.entry "r" "alice" = some 2 ∧ (s.conn 2).isOpen = true ∧
      ∃ a slot, s.actor "r" = some a ∧ a.room.players.lookup "alice" = some slot ∧
        slot.connected = true ∧
        ∀ now generation,
          (Rooms.step a.game a.room (.command now (.graceExpired "alice" generation))).1.lifecycle =
            a.room.lifecycle := by
  have hc : Meets (step aliceAndBob) (fun s l => dropsUnclaimed s l = true) {}
      (seated ++ leaves 0 5 ++ resumes "a" 2 4) := by decide +kernel
  have hend : ((run aliceAndBob (seated ++ leaves 0 5 ++ resumes "a" 2 4)).any fun s =>
      decide (s.hub.entry "r" "alice" = some 2) && (s.conn 2).isOpen) = true := by decide +kernel
  obtain ⟨s, hr, h⟩ := (Option.any_eq_true _ _).mp hend
  obtain ⟨he, ho⟩ := Bool.and_eq_true_iff.mp h
  have he := of_decide_eq_true he
  exact ⟨hc, s, hr, he, ho, connected_while_registered aliceAndBob _ s hc hr "r" "alice" 2 he ho⟩

/-- The old connection is closed after the new one has resumed: alice, with an
open connection in the Hub, is disconnected for the room and forfeits the match. -/
theorem stale_disconnect_forfeits :
    ((run aliceAndBob (seated ++ resumes "a" 2 1 ++ leaves 0 6)).any fun s =>
      s.quiet "r" && decide (s.hub.entry "r" "alice" = some 2) && (s.conn 2).isOpen &&
      (s.actor "r").any fun a => decide (a.room.lifecycle = .active) &&
        (a.room.players.lookup "alice").any fun slot => !slot.connected) = true ∧
    ((run aliceAndBob (seated ++ resumes "a" 2 1 ++ leaves 0 6 ++
        [.clock 30, .fire "r" 0, .turn "r"])).any fun s =>
      decide (s.hub.entry "r" "alice" = some 2) && (s.conn 2).isOpen &&
      (s.actor "r").any fun a => decide (a.room.lifecycle = .finished)) = true := by
  decide +kernel

end Scenario
end RealtimeEngine.Transport
