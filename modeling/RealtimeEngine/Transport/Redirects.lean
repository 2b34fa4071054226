import Mathlib.Data.Prod.Lex
import RealtimeEngine.Transport.Deadlock
import RealtimeEngine.Transport.Resume

/-! What becomes of a client that follows a redirect. The node it comes to has made
its room, so `tryResume` does not redirect it again; it asks the room to take the
player back and passes on what the room answers. It gets that far as long as the
room's actor is not stuck inside a `Broadcast`, which `Room.send` would wait for
without a deadline, `tryResume` does not give up at its own deadline, and the snapshot
finds room in the connection's buffer. -/
namespace RealtimeEngine.Transport
open Foundations Domain Rooms Storage Matchmaking
set_option autoImplicit false
set_option maxHeartbeats 250000

section Node
variable {σ : Type} {u : Setup σ} {s s' : Sys σ} {l : Label} {c : ConnID} {R : ID} {a a' : Actor σ}

/-! ## A room by itself -/

/-- The actor is inside a `Broadcast` and waits for a `Close` that has not returned. -/
def Stalled (s : Sys σ) (R : ID) : Prop :=
  ∃ a c rest, s.actor R = some a ∧ a.todo = .waitClosed c :: rest ∧ (s.conn c).closer ≠ .done

/-- A step of the room's own goroutine. -/
def Label.ofRoom (R : ID) : Label → Bool
  | .turn id | .act id _ | .remove id | .stop id => decide (id = R)
  | _ => false

def Op.isBroadcast : Op → Bool
  | .broadcast _ => true
  | _ => false

def Actor.broadcasts (a : Actor σ) : ℕ := a.todo.countP Op.isBroadcast

theorem reconnect_reply (g : Game σ) (r : Room σ) (now : Time) (p : PlayerID) (res : CmdResult)
    (h : .reply res ∈ (Rooms.step g r (.command now (.reconnect p))).2) :
    (res.err = none ∧ ∃ slot, (Rooms.step g r (.command now (.reconnect p))).1.players.lookup p =
      some slot ∧ slot.connected = true) ∨
    res.err = some (.room .unknownPlayer) ∧ r.players.lookup p = none := by
  by_cases hopen : r.lifecycle = .closed
  · rw [Rooms.step, if_pos hopen] at h
    cases h
  cases hs : r.players.lookup p with
  | none =>
    rw [step_reconnect_unknown g r now p hs hopen, List.mem_singleton] at h
    cases h
    exact Or.inr ⟨rfl, rfl⟩
  | some slot =>
    have hok : res.err = none := by
      rw [step_reconnect g r now p slot hs hopen] at h
      obtain h | h := List.mem_append.mp h
      · split at h
        · cases h
        · cases List.mem_singleton.mp h
      · cases List.mem_singleton.mp h
        rfl
    exact Or.inl ⟨hok, (exit_reconnect_reply (step_exit g r _) h hok).2⟩

theorem reconnect_responds (p : PlayerID) : Responds σ (.reconnect p) := by
  intro g r now hopen
  cases hs : r.players.lookup p with
  | none =>
    rw [step_reconnect_unknown g r now p hs hopen]
    exact ⟨_, List.mem_singleton_self _⟩
  | some slot =>
    rw [step_reconnect g r now p slot hs hopen]
    exact ⟨_, List.mem_append_right _ (List.mem_singleton_self _)⟩

/-- What there is to see while `tryResume` runs on `c`: the room has the player as
connected, the connection is in the room, the Hub has it; or the manager's map does not
have the room, the room does not have the player, or it has stopped. -/
inductive Mark
  | connected
  | placed
  | registered
  | missing
  | unknown
  | stopped

def Mark.seen (c : ConnID) (R : ID) (s : Sys σ) : Mark → Prop
  | connected => ∃ a slot, s.actor R = some a ∧
      a.room.players.lookup (s.conn c).playerID = some slot ∧ slot.connected = true
  | placed => (s.conn c).room = some R
  | registered => s.hub.entry R (s.conn c).playerID = some c
  | missing => s.listed R = false
  | unknown => ∃ a, s.actor R = some a ∧ a.room.players.lookup (s.conn c).playerID = none
  | stopped => s.stopped R = true

/-- The errors `tryResume` passes on, each with what was seen before. -/
inductive Refusal (past : Mark → Prop) : ServerEnvelope → Prop
  | notFound (now : Time) (h : past .missing) :
      Refusal past (errorEnvelope now "ROOM_NOT_FOUND" "session referenced a room that no longer exists")
  | unknownPlayer (now : Time) (h : past .unknown) :
      Refusal past (failureEnvelope now (.room .unknownPlayer))
  | roomClosed (now : Time) (h : past .stopped) :
      Refusal past (failureEnvelope now (.room .roomClosed))

/-- The client is back in the room and was sent its snapshot, or was told why not. -/
inductive Settled (past : Mark → Prop) (R : ID) (x : Conn) : Prop
  | resumed (env : ServerEnvelope) (h : env ∈ x.sent) (ht : env.type = .event .stateSnapshot)
      (hR : env.roomID = R) (hc : past .connected) (hp : past .placed) (hr : past .registered)
  | refused (env : ServerEnvelope) (h : env ∈ x.sent) (he : Refusal past env)

/-- The room replies to a `Reconnect` that it has connected the player or does not have them. -/
def Reconnected (past : Mark → Prop) (res : CmdResult) : Prop :=
  res.err = none ∧ past .connected ∨ res.err = some (.room .unknownPlayer) ∧ past .unknown

section Past
variable {past past' : Mark → Prop} (hp : ∀ e, past e → past' e)
include hp

theorem Refusal.mono {env : ServerEnvelope} (h : Refusal past env) : Refusal past' env := by
  cases h with
  | notFound now h => exact .notFound now (hp _ h)
  | unknownPlayer now h => exact .unknownPlayer now (hp _ h)
  | roomClosed now h => exact .roomClosed now (hp _ h)

theorem Settled.mono {x : Conn} (h : Settled past R x) : Settled past' R x := by
  cases h with
  | resumed env h ht hR hc hl hr => exact .resumed env h ht hR (hp _ hc) (hp _ hl) (hp _ hr)
  | refused env h he => exact .refused env h (he.mono hp)

theorem Reconnected.mono {res : CmdResult} (h : Reconnected past res) : Reconnected past' res :=
  h.imp (And.imp_right (hp _)) (And.imp_right (hp _))

end Past

/-- The answer on `ch` is still to come or is there, and is one to the `Reconnect`. -/
structure Waits (past : Mark → Prop) (s : Sys σ) (c : ConnID) (R : ID) (ch : ChanID) : Prop where
  todo : ∀ a res, s.actor R = some a → .reply (some ch) res ∈ a.todo → Reconnected past res
  sent : ∀ res, s.replies ch = some res → Reconnected past res
  owed : AnswerOwed s R (.reconnect (s.conn c).playerID) ch

/-- One step of the node, and what was seen up to it and with it. -/
structure Passage (u : Setup σ) (s : Sys σ) (l : Label) (s' : Sys σ) (c : ConnID) (R : ID)
    (past past' : Mark → Prop) : Prop where
  step : Transport.step u s l = some s'
  known : Known u s
  linked : Linked s
  mailed : Mailed s
  born : c < s.conns
  seen : ∀ e : Mark, e.seen c R s → past e
  kept : ∀ e, past e → past' e
  fresh : ∀ e : Mark, e.seen c R s' → past' e

section Passage
variable {past past' : Mark → Prop} (hp : Passage u s l s' c R past past')
include hp

theorem Passage.move : Move u s l s' := step_move u s s' l hp.step

theorem Passage.player : (s'.conn c).playerID = (s.conn c).playerID := move_player hp.move c hp.born

theorem Waits.move {ch : ChanID} (h : Waits past s c R ch)
    (hr : (s.conn c).reader = .await (.resume R) ch) : Waits past' s' c R ch := by
  have hm := hp.move
  refine ⟨?_, ?_, ?_⟩
  · intro a' res ha' hin
    obtain ⟨a, ha, hold⟩ | ⟨a, t, rest, -, ha, hq, hch, hout, hroom⟩ :=
      move_replying hm R a' ch res ha' hin
    · exact (h.todo a res ha hold).mono hp.kept
    · -- the turn of the `Reconnect` itself
      have hcmd := (hp.linked.ticket R a t ch c (.resume R) ha (by rw [hq]; exact List.mem_cons_self)
        hch hr).2
      rw [hcmd] at hout hroom
      obtain ⟨hok, slot, hslot, hup⟩ | ⟨herr, hnone⟩ := reconnect_reply a.game a.room s.now _ res hout
      · refine Or.inl ⟨hok, hp.fresh .connected ⟨a', slot, ha', ?_, hup⟩⟩
        rw [hroom, hp.player]
        exact hslot
      · exact Or.inr ⟨herr, hp.kept _ (hp.seen .unknown ⟨a, ha, hnone⟩)⟩
  · intro res hres
    refine Reconnected.mono hp.kept ?_
    obtain hsame | ⟨id, i, b, ch', res', rest, -, hb, ht, hupd⟩ := move_replies hm
    · rw [hsame] at hres
      exact h.sent res hres
    · rw [hupd, Function.update_apply] at hres
      split at hres
      · next heq =>
        cases hres
        subst heq
        have hin : Op.reply (some ch) res ∈ b.todo := by
          rw [ht]
          exact List.mem_cons_self
        have hid := hp.linked.answer id b ch res c (.resume R) hb hin hr
        subst hid
        exact h.todo b res hb hin
      · exact h.sent res hres
  · rw [hp.player]
    exact h.owed.move (reconnect_responds _) hm

end Passage

/-! ## The accesses of `tryResume` -/

/-- `tryResume` on `c` takes what the room answers, or that it has stopped, and finds
room for the snapshot in the connection's buffer. -/
def heeds (c : ConnID) (s : Sys σ) : Label → Bool
  | .run d choice =>
    if d = c then
      match (s.conn c).reader with
      | .await (.resume _) _ => decide (choice ≠ .timeout)
      | .tell .send (.resume _) _ => (s.conn c).fits
      | _ => true
    else true
  | _ => true

theorem heeds_sessions (store : SessionStore) :
    heeds c { s with sessions := store } l = heeds c s l := by
  cases l <;> rfl

/-- Where `tryResume` on `c` is after it has found a record of this node, with the
number of accesses it has left at most. -/
inductive Return (u : Setup σ) (past : Mark → Prop) (s : Sys σ) (c : ConnID) (R : ID) : ℕ → Prop
  | found (rec : SessionRecord) (hr : (s.conn c).reader = .get rec) (hR : rec.roomID = R)
      (ho : rec.ownerNode = u.nodeID) : Return u past s c R 7
  | submitting (hr : (s.conn c).reader = .submit (.resume R)) : Return u past s c R 6
  | waiting (ch : ChanID) (hr : (s.conn c).reader = .await (.resume R) ch)
      (hw : Waits past s c R ch) : Return u past s c R 5
  | answered (res : CmdResult) (hr : (s.conn c).reader = .tell .setRoom (.resume R) (some res))
      (hc : past .connected) : Return u past s c R 4
  | placed (res : CmdResult) (hr : (s.conn c).reader = .tell .register (.resume R) (some res))
      (hc : past .connected) (hl : past .placed) : Return u past s c R 3
  | registered (res : CmdResult) (hr : (s.conn c).reader = .tell .bind (.resume R) (some res))
      (hc : past .connected) (hl : past .placed) (he : past .registered) : Return u past s c R 2
  | bound (res : CmdResult) (hr : (s.conn c).reader = .tell .send (.resume R) (some res))
      (hc : past .connected) (hl : past .placed) (he : past .registered) : Return u past s c R 1
  | refusing (n : ℕ) (env : ServerEnvelope) (hr : (s.conn c).reader = .send env)
      (he : Refusal past env) (hq : Unnoticed s c) : Return u past s c R (n + 1)
  | settled (n : ℕ) (h : Settled past R (s.conn c)) : Return u past s c R n

theorem Return.mono {past past' : Mark → Prop} {n : ℕ} (hp : ∀ e, past e → past' e)
    (h : Return u past s c R n) : Return u past' s c R n := by
  cases h with
  | found rec hr hR ho => exact .found rec hr hR ho
  | submitting hr => exact .submitting hr
  | waiting ch hr hw =>
    exact .waiting ch hr ⟨fun a res ha h => (hw.todo a res ha h).mono hp,
      fun res h => (hw.sent res h).mono hp, hw.owed⟩
  | answered res hr hc => exact .answered res hr (hp _ hc)
  | placed res hr hc hl => exact .placed res hr (hp _ hc) (hp _ hl)
  | registered res hr hc hl he => exact .registered res hr (hp _ hc) (hp _ hl) (hp _ he)
  | bound res hr hc hl he => exact .bound res hr (hp _ hc) (hp _ hl) (hp _ he)
  | refusing n env hr he hq => exact .refusing n env hr (he.mono hp) hq
  | settled n h => exact .settled n (h.mono hp)

/-- What the session store holds does not matter any more. -/
theorem Return.sessions {past : Mark → Prop} {n : ℕ} (h : Return u past s c R n)
    (store : SessionStore) : Return u past { s with sessions := store } c R n := by
  cases h with
  | found rec hr hR ho => exact .found rec hr hR ho
  | submitting hr => exact .submitting hr
  | waiting ch hr hw => exact .waiting ch hr ⟨hw.todo, hw.sent, hw.owed⟩
  | answered res hr hc => exact .answered res hr hc
  | placed res hr hc hl => exact .placed res hr hc hl
  | registered res hr hc hl he => exact .registered res hr hc hl he
  | bound res hr hc hl he => exact .bound res hr hc hl he
  | refusing n env hr he hq =>
    exact .refusing n env hr he ⟨hq.hub, hq.pending, hq.seats, hq.targets, hq.sent⟩
  | settled n h => exact .settled n h

section Passage
variable {past past' : Mark → Prop} {n : ℕ} (hp : Passage u s l s' c R past past')
include hp

theorem Settled.move (h : Settled past R (s.conn c)) : Settled past' R (s'.conn c) := by
  have hsent := sent_stays hp.known hp.move c
  cases h with
  | resumed env h ht hR hc hl hr =>
    exact .resumed env (hsent env h) ht hR (hp.kept _ hc) (hp.kept _ hl) (hp.kept _ hr)
  | refused env h he => exact .refused env (hsent env h) (he.mono hp.kept)

/-- Nobody else gets in the way of the goroutine. -/
theorem Return.rest (h : Return u past s c R n) (hl : l.isRun c = false) :
    Return u past' s' c R n := by
  have hno : ∀ choice, l ≠ .run c choice := by
    rintro choice rfl
    simp [Label.isRun] at hl
  have hkeep : ∀ pc, (s.conn c).reader = pc → pc.isIdle = false → (s'.conn c).reader = pc := by
    intro pc hr hb
    have hbusy : (s.conn c).reader ≠ .idle := by
      rw [hr]
      rintro rfl
      cases hb
    obtain hsame | ⟨choice, hrun⟩ := busy_reader hp.move c hp.born hbusy
    · exact hsame.trans hr
    · exact absurd hrun (hno choice)
  cases h with
  | found rec hr hR ho => exact .found rec (hkeep _ hr rfl) hR ho
  | submitting hr => exact .submitting (hkeep _ hr rfl)
  | waiting ch hr hw => exact .waiting ch (hkeep _ hr rfl) (hw.move hp hr)
  | answered res hr hc => exact .answered res (hkeep _ hr rfl) (hp.kept _ hc)
  | placed res hr hc hl => exact .placed res (hkeep _ hr rfl) (hp.kept _ hc) (hp.kept _ hl)
  | registered res hr hc hl he =>
    exact .registered res (hkeep _ hr rfl) (hp.kept _ hc) (hp.kept _ hl) (hp.kept _ he)
  | bound res hr hc hl he =>
    exact .bound res (hkeep _ hr rfl) (hp.kept _ hc) (hp.kept _ hl) (hp.kept _ he)
  | refusing n env hr he hq =>
    exact .refusing n env (hkeep _ hr rfl) (he.mono hp.kept)
      (hq.move hp.known hp.move (Or.inl hno))
  | settled n h => exact .settled n (h.move hp)

end Passage

section Own
variable {past past' : Mark → Prop} {n : ℕ} {choice : Choice}

/-- A message that fits is on the channel. -/
theorem enqueue_fits (s : Sys σ) (c : ConnID) (env : ServerEnvelope) (given : Option (ID × ℕ))
    (hf : (s.conn c).fits = true) : env ∈ ((s.enqueue c env given).conn c).sent := by
  unfold Sys.enqueue
  rw [if_pos hf, setConn_self]
  exact List.mem_append_right _ List.mem_cons_self

theorem Unnoticed.fits (h : Unnoticed s c) : (s.conn c).fits = true := by
  simp [Conn.fits, h.sent, sendCap]

variable (hp : Passage u s (.run c choice) s' c R past past')
include hp

/-- On the way to an error the connection is as unnoticed as before. -/
theorem Passage.refuses {env : ServerEnvelope} (n : ℕ) (hr : (s'.conn c).reader = .send env)
    (ha : (s.conn c).reader.arriving = true) (he : Refusal past env) :
    Return u past' s' c R (n + 1) :=
  .refusing n env hr (he.mono hp.kept)
    ((hp.mailed.arriving c ha).move hp.known hp.move (Or.inr ha))

theorem Return.looks {rec : SessionRecord} (hr : (s.conn c).reader = .get rec)
    (hR : rec.roomID = R) (ho : rec.ownerNode = u.nodeID) : Return u past' s' c R 6 := by
  have hnext : (s'.conn c).reader = resumeNext u s rec := by
    rw [step_get hp.step hr, goto_reader_self]
  unfold resumeNext at hnext
  split at hnext
  · rw [hR] at hnext
    exact .submitting hnext
  · next hmiss =>
    split at hnext
    next howner => exact absurd ho howner.2
    next =>
      refine hp.refuses 5 hnext (by rw [hr]; rfl) (.notFound _ (hp.seen .missing ?_))
      rw [hR] at hmiss
      simpa [Mark.seen] using hmiss

theorem Return.submits (hr : (s.conn c).reader = .submit (.resume R)) :
    Return u past' s' c R 5 := by
  have hm := hp.move
  obtain ⟨e, pc, hstep, hs'⟩ := hm.run_inv
  have hreader : (s'.conn c).reader = pc := by
    rw [hs', goto_reader_self]
  rw [hr] at hstep
  cases hstep with
  | refused k hst =>
    exact hp.refuses 4 hreader (by rw [hr]; rfl) (.roomClosed _ (hp.seen .stopped hst))
  | submitted k hacc =>
    refine .waiting _ hreader ⟨?_, ?_, ?_⟩
    · -- the channel is new: nobody has sent anything on it
      intro a' res ha' hin
      obtain ⟨a, ha, hold⟩ | ⟨-, -, -, hl, -⟩ := move_replying hm R a' s.chans res ha' hin
      · exact absurd (hp.linked.replying R a s.chans res ha hold) (Nat.lt_irrefl _)
      · cases hl
    · intro res hres
      rw [hs'] at hres
      change (s.apply _).replies s.chans = some res at hres
      rw [apply_replies] at hres
      exact absurd (hp.linked.replied s.chans res hres) (Nat.lt_irrefl _)
    · obtain ⟨a, ha⟩ := accepts_actor s R hacc
      rw [hp.player, hs']
      exact push_owed s (.reconnect (s.conn c).playerID) ha

theorem Return.hears {ch : ChanID} (hr : (s.conn c).reader = .await (.resume R) ch)
    (hw : Waits past s c R ch) (hl : heeds c s (.run c choice) = true) :
    Return u past' s' c R 4 := by
  have hchoice : choice ≠ .timeout := by simpa [heeds, hr] using hl
  obtain ⟨⟨e, pc⟩, hn, hs'⟩ := (step_run_iff hr).mp hp.step
  have hreader : (s'.conn c).reader = pc := by
    rw [hs', goto_reader_self]
  have harr : (s.conn c).reader.arriving = true := by rw [hr]; rfl
  cases choice with
  | go =>
    simp only [Reader.next] at hn
    split at hn
    · cases hn
    · next res hres =>
      obtain ⟨hok, hc⟩ | ⟨herr, hunknown⟩ := hw.sent res hres
      · rw [hok] at hn
        cases hn
        exact .answered res hreader (hp.kept _ hc)
      · rw [herr] at hn
        cases hn
        exact hp.refuses 3 hreader harr (.unknownPlayer _ hunknown)
  | stopped =>
    simp only [Reader.next] at hn
    split at hn
    · next hst =>
      cases hn
      exact hp.refuses 3 hreader harr (.roomClosed _ (hp.seen .stopped hst))
    · cases hn
  | timeout => exact absurd rfl hchoice
  | fresh id => cases hn

/-- The goroutine of `c` makes an access, and has one less left. -/
theorem Return.own (h : Return u past s c R n) (hl : heeds c s (.run c choice) = true) :
    Return u past' s' c R (n - 1) := by
  cases h with
  | found rec hr hR ho => exact Return.looks hp hr hR ho
  | submitting hr => exact Return.submits hp hr
  | waiting ch hr hw => exact Return.hears hp hr hw hl
  | answered res hr hc =>
    have hs' := run_tell hr hp.step
    refine .placed res ?_ (hp.kept _ hc) (hp.fresh .placed ?_)
    · rw [hs', goto_reader_self]
      rfl
    · change (s'.conn c).room = some R
      rw [hs', goto_room]
      change ((s.setConn c _).conn c).room = some R
      rw [setConn_self]
      rfl
  | placed res hr hc hl =>
    refine .registered res ?_ (hp.kept _ hc) (hp.kept _ hl) (hp.fresh .registered ?_)
    · rw [run_tell hr hp.step, goto_reader_self]
      rfl
    · change s'.hub.entry R (s'.conn c).playerID = some c
      rw [hp.player]
      exact register_enters hr hp.step
  | registered res hr hc hl he =>
    refine .bound res ?_ (hp.kept _ hc) (hp.kept _ hl) (hp.kept _ he)
    rw [run_tell hr hp.step, goto_reader_self]
    rfl
  | bound res hr hc hpl he =>
    have hfits : (s.conn c).fits = true := by simpa [heeds, hr] using hl
    refine .settled 0 (.resumed (tellEnvelope s.now (.resume R) (some res)) ?_ rfl rfl (hp.kept _ hc)
      (hp.kept _ hpl) (hp.kept _ he))
    rw [run_tell hr hp.step, goto_sent]
    exact enqueue_fits s c _ _ hfits
  | refusing n env hr he hq =>
    refine .settled n (.refused env ?_ (he.mono hp.kept))
    obtain ⟨e, pc, hstep, hs'⟩ := hp.move.run_inv
    rw [hr] at hstep
    cases hstep with
    | sent =>
      rw [hs', goto_sent]
      exact enqueue_fits s c env none hq.fits
  | settled n h => exact .settled (n - 1) (h.move hp)

end Own

theorem Return.advance {past past' : Mark → Prop} {n : ℕ} (h : Return u past s c R n)
    (hp : Passage u s l s' c R past past') (hl : heeds c s l = true) :
    Return u past' s' c R (n - if l.isRun c then 1 else 0) := by
  cases hrun : l.isRun c with
  | false => exact h.rest hp hrun
  | true =>
    cases l with
    | run d choice =>
      obtain rfl : d = c := of_decide_eq_true hrun
      exact h.own hp hl
    | _ => cases hrun

/-! ## What keeps `tryResume` waiting -/

/-- `tryResume` waits for a room that waits for a `Close`: for a place on its full
channel, or for its answer; or it would send the snapshot when broadcasts of the room
have filled the connection's buffer. -/
inductive Hindered (s : Sys σ) (c : ConnID) (R : ID) : Prop
  | crowded (hr : (s.conn c).reader = .submit (.resume R)) (hc : Crowded s R) (hs : Stalled s R)
  | unanswered (ch : ChanID) (hr : (s.conn c).reader = .await (.resume R) ch)
      (hn : s.replies ch = none) (hs : Stalled s R)
  | flooded (res : CmdResult) (hr : (s.conn c).reader = .tell .send (.resume R) (some res))
      (hf : (s.conn c).fits = false)

end Node

/-! ## In a cluster -/

section Cluster
variable {σ N : Type} {u : N → Setup σ} {s s' : Cluster σ N} {n : N} {c : ConnID} {R : ID}
  {past past' : Mark → Prop} {left : ℕ}

/-- A connection of node `n` on its way back into a room of the node. -/
structure Returning (u : N → Setup σ) (n : N) (c : ConnID) (R : ID) (past : Mark → Prop) (left : ℕ)
    (s : Cluster σ N) : Prop where
  inv : Cluster.Inv u s
  born : c < (s.node n).conns
  seen : ∀ e : Mark, e.seen c R (s.node n) → past e
  stage : Return (u n) past (s.node n) c R left

theorem Returning.mono (hp : ∀ e, past e → past' e) (h : Returning u n c R past left s) :
    Returning u n c R past' left s :=
  ⟨h.inv, h.born, fun e he => hp e (h.seen e he), h.stage.mono hp⟩

variable [DecidableEq N]

/-- An access of the goroutine of `c` on node `n`. -/
def ClusterLabel.accesses (n : N) (c : ConnID) : ClusterLabel N → Bool
  | .node m l => decide (m = n) && l.isRun c
  | .expire _ => false

/-- A step of the goroutine of `c` or of the room `R`, on node `n`. -/
def ClusterLabel.serves (n : N) (c : ConnID) (R : ID) : ClusterLabel N → Bool
  | .node m l => decide (m = n) && (l.isRun c || l.ofRoom R)
  | .expire _ => false

def heedsAt (n : N) (c : ConnID) (s : Cluster σ N) : ClusterLabel N → Bool
  | .node m l => decide (m ≠ n) || heeds c (s.node n) l
  | .expire _ => true

/-- What a run of the cluster from `s` shows of the connection `c` on node `n`. -/
def Seen (u : N → Setup σ) (n : N) (c : ConnID) (R : ID) (s : Cluster σ N)
    (ls : List (ClusterLabel N)) (e : Mark) : Prop :=
  Visits (Cluster.step u) (fun t => e.seen c R (t.node n)) s ls

theorem Returning.step (h : Returning u n c R past left s) {l : ClusterLabel N}
    (hs : s.step u l = some s') (hl : heedsAt n c s l = true) :
    Returning u n c R (fun e => past e ∨ e.seen c R (s'.node n))
      (left - if l.accesses n c then 1 else 0) s' := by
  have hkept : ∀ e, past e → past e ∨ e.seen c R (s'.node n) := fun e he => Or.inl he
  have hnew : ∀ e : Mark, e.seen c R (s'.node n) → past e ∨ e.seen c R (s'.node n) :=
    fun e he => Or.inr he
  obtain ⟨hnode, hno⟩ | ⟨l', rfl, hstep⟩ := step_at n hs
  · -- the steps of other nodes and the expiry of records leave the node as it is
    have hacc : l.accesses n c = false := by
      cases l with
      | expire sid => rfl
      | node m l' =>
        have hm : m ≠ n := fun hm => hno l' (by rw [hm])
        simp [ClusterLabel.accesses, hm]
    rw [hacc]
    rw [hnode] at hkept hnew ⊢
    refine ⟨h.inv.step hs, ?_, ?_, ?_⟩
    · rw [hnode]
      exact h.born
    · rw [hnode]
      exact hnew
    · rw [hnode]
      exact h.stage.mono hkept
  · have hheeds : heeds c (s.view n) l' = true := by
      rw [Cluster.view, heeds_sessions]
      simpa [heedsAt] using hl
    have hpass : Passage (u n) (s.view n) l' (s'.node n) c R past
        fun e => past e ∨ e.seen c R (s'.node n) := by
      refine ⟨hstep, h.inv.viewKnown n, h.inv.viewLinked n, h.inv.viewMailed n, h.born, ?_, hkept,
        hnew⟩
      intro e he
      refine h.seen e ?_
      cases e <;> exact he
    have hadvance := (h.stage.sessions (s.view n).sessions).advance hpass hheeds
    have hacc : (ClusterLabel.node n l').accesses n c = l'.isRun c := by
      simp [ClusterLabel.accesses]
    have hle : (s.node n).conns ≤ (s'.node n).conns := move_conns_le (s := s.view n) hpass.move
    rw [hacc]
    exact ⟨h.inv.step hs, Nat.lt_of_lt_of_le h.born hle, hnew, hadvance⟩

/-- A run takes `tryResume` as far as its goroutine makes accesses. -/
theorem Returning.run {ls : List (ClusterLabel N)} (h : Returning u n c R past left s)
    (hc : Meets (Cluster.step u) (fun s l => heedsAt n c s l = true) s ls)
    (hx : exec (Cluster.step u) s ls = some s') :
    Returning u n c R (fun e => past e ∨ Seen u n c R s ls e)
      (left - ls.countP (ClusterLabel.accesses n c)) s' := by
  induction ls generalizing s past left with
  | nil =>
    cases hx
    exact h.mono fun e he => Or.inl he
  | cons l ls ih =>
    obtain ⟨t, ht, hx'⟩ := Option.bind_eq_some_iff.mp hx
    have hend := ih (h.step ht hc.1) (hc.2 t ht) hx'
    rw [List.countP_cons, Nat.add_comm (ls.countP _), ← Nat.sub_sub]
    refine hend.mono ?_
    rintro e ((he | he) | he)
    · exact Or.inl he
    · exact Or.inr (Or.inr ⟨t, ht, visits_start _ _ t ls he⟩)
    · exact Or.inr (Or.inr ⟨t, ht, he⟩)

/-- The goroutine of `c` and the room by themselves bring `tryResume` to its end, unless it
is hindered. -/
def Resolves (u : N → Setup σ) (n : N) (c : ConnID) (R : ID) (past : Mark → Prop)
    (s : Cluster σ N) : Prop :=
  ∃ ls s', (∀ l ∈ ls, l.serves n c R = true) ∧ exec (Cluster.step u) s ls = some s' ∧
    (Settled (fun e => past e ∨ Seen u n c R s ls e) R ((s'.node n).conn c) ∨
      Hindered (s'.node n) c R)

theorem Resolves.cons {l : ClusterLabel N} (hs : s.step u l = some s') (hl : l.serves n c R = true)
    (h : Resolves u n c R (fun e => past e ∨ e.seen c R (s'.node n)) s') :
    Resolves u n c R past s := by
  obtain ⟨ls, t, hserve, hx, hend⟩ := h
  refine ⟨l :: ls, t, List.forall_mem_cons.mpr ⟨hl, hserve⟩, (exec_cons _ hs ls).trans hx,
    hend.imp_left (Settled.mono ?_)⟩
  rintro e ((he | he) | he)
  · exact Or.inl he
  · exact Or.inr (Or.inr ⟨s', hs, visits_start _ _ s' ls he⟩)
  · exact Or.inr (Or.inr ⟨s', hs, he⟩)

end Cluster

/-! ## Alice follows a redirect -/

section Scenario
set_option maxRecDepth 100000

end Scenario

/-! ## A client that is never answered -/

section Stranded
variable {σ N : Type} [DecidableEq N] {u : N → Setup σ} {s s' : Cluster σ N} {n : N} {c : ConnID}
  {R : ID}

/-- `tryResume` waits for a place on the full channel of a deadlocked room. -/
structure Stranded (u : N → Setup σ) (n : N) (c : ConnID) (R : ID) (K : Set ID) (s : Cluster σ N) :
    Prop where
  inv : Cluster.Inv u s
  reader : ((s.node n).conn c).reader = .submit (.resume R)
  member : R ∈ K
  deadlocked : Deadlocked (s.node n) K
  crowded : Crowded (s.node n) R

/-- On the node itself: `send` finds no place and has no deadline. -/
theorem submit_stranded {u : Setup σ} {s s' : Sys σ} {l : Label} (hk : Known u s)
    (h : step u s l = some s') (hr : (s.conn c).reader = .submit (.resume R)) (hc : Crowded s R) :
    (s'.conn c).reader = .submit (.resume R) := by
  obtain ⟨a, ha, hs, hq⟩ := hc
  have hborn := hk.busy c (by rw [hr]; nofun)
  obtain hsame | ⟨choice, rfl⟩ := busy_reader (step_move u s s' l h) c hborn (by rw [hr]; nofun)
  · exact hsame.trans hr
  · obtain ⟨e, pc, hstep, -⟩ := (step_move u s s' _ h).run_inv
    rw [hr] at hstep
    cases hstep with
    | submitted k hacc =>
      rw [Sys.accepts, Call.room, ha, Option.any_some, decide_eq_true_iff] at hacc
      exact absurd hq (Nat.not_le.mpr hacc)
    | refused k hst =>
      rw [Sys.stopped, Call.room, ha, Option.any_some, hs] at hst
      cases hst

theorem Stranded.step {K : Set ID} (h : Stranded u n c R K s) {l : ClusterLabel N}
    (hs : s.step u l = some s') : Stranded u n c R K s' := by
  have hI' := h.inv.step hs
  obtain ⟨hnode, -⟩ | ⟨l', -, hstep⟩ := step_at n hs
  · refine ⟨hI', ?_, h.member, ?_, ?_⟩ <;> rw [hnode]
    · exact h.reader
    · exact h.deadlocked
    · exact h.crowded
  · have hk := h.inv.viewKnown n
    have hd : Deadlocked (s.view n) K := h.deadlocked
    have hc : Crowded (s.view n) R := h.crowded
    obtain ⟨hd', hstill⟩ := hd.step hk hstep
    obtain ⟨a, ha, -⟩ := id hc
    obtain ⟨a', ha', hun⟩ := hstill R h.member a ha
    exact ⟨hI', submit_stranded hk hstep h.reader hc, h.member, hd', hc.kept ha ha' hun⟩

end Stranded

section Scenario
set_option maxRecDepth 100000

end Scenario
end RealtimeEngine.Transport
