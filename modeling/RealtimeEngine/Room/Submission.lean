import RealtimeEngine.Room.Replies
import RealtimeEngine.Room.Timers

/-! What `ErrRoomClosed` tells a caller. The goroutines in `submit` beside the
actor of one room: the buffered command channel, the reply channel of each call
and the `stopped` channel, with every choice a `select` has as a step of its
own. A status request changes nothing and is left out. -/
namespace RealtimeEngine.Rooms.Submission
open Foundations Domain
set_option autoImplicit false
set_option maxHeartbeats 250000

/-! ## Callers and the actor -/

/-- The select a caller is at; what `submit` returned is kept when it is through. -/
inductive Place
  | sending
  | waiting
  | returned (res : CmdResult) (err : Option Err)

/-- One call of a public method. `reply` is its channel of capacity one;
`handled` remembers the room before and after the turn that took its command. -/
structure Call (σ : Type) where
  request : Rooms.Request
  place : Place := .sending
  reply : Option CmdResult := none
  handled : Option (Room σ × Room σ) := none

/-- A command in the channel: with the call that reads its reply, or a timer's. -/
inductive Letter
  | request (req : Rooms.Request) (k : ℕ)
  | timer (player : PlayerID) (generation : ℕ)

def Letter.command : Letter → Command
  | request req _ => req.toCommand
  | timer player generation => .graceExpired player generation

def Letter.caller : Letter → Option ℕ
  | request _ k => some k
  | timer _ _ => none

/-- `todo` is what is left to do of the turn under way, `serving` the call that
its command came from. -/
structure Desk (σ : Type) where
  room : Room σ
  cmdCh : List Letter := []
  stopped : Bool := false
  serving : Option ℕ := none
  todo : List Output := []
  timers : List (PlayerID × ℕ) := []
  calls : Table ℕ (Call σ) := ∅

def capacity : ℕ := 64

/-- The cases of the two selects: send or find the room stopped; receive the
reply, find the room stopped or run out of time. -/
inductive Case
  | send
  | refuse
  | receive
  | giveUp
  | expire

inductive Label
  | call (k : ℕ) (req : Rooms.Request)
  | caller (k : ℕ) (a : Case)
  | take (now : Time)
  | tick (now : Time)
  | perform
  | fire (j : ℕ)
  | forget (j : ℕ)
  | stop

section Submission
variable {σ : Type}

def newDesk (σ : Type) (id : ID) (gameType : String) (now : Time) : Desk σ where
  room := newRoom σ id gameType now

/-- The calls whose command is in the channel. -/
def Desk.ids (s : Desk σ) : List ℕ := s.cmdCh.filterMap Letter.caller

/-- The replies that the turn under way has yet to send to a call. -/
def Desk.owes (s : Desk σ) (k : ℕ) : List CmdResult :=
  if s.serving = some k then results s.todo else []

def Desk.setCall (s : Desk σ) (k : ℕ) (c : Call σ) : Desk σ :=
  { s with calls := s.calls.insert k c }

/-- `submit` returns the zero result with an error. -/
def Call.fail (c : Call σ) (e : Err) : Call σ := { c with place := .returned {} (some e) }

/-- A caller takes a case that is ready; the second part is what it sends. -/
def Call.select (k : ℕ) (c : Call σ) (free stopped : Bool) (a : Case) :
    Option (Call σ × List Letter) :=
  match a, c.place with
  | .send, .sending =>
    if free then some ({ c with place := .waiting }, [.request c.request k]) else none
  | .refuse, .sending => if stopped then some (c.fail (.room .roomClosed), []) else none
  | .receive, .waiting =>
    match c.reply with
    | none => none
    | some res => some ({ c with place := .returned res res.err, reply := none }, [])
  | .giveUp, .waiting => if stopped then some (c.fail (.room .roomClosed), []) else none
  | .expire, .waiting => some (c.fail .deadlineExceeded, [])
  | _, _ => none

/-- The turn that handles a letter begins: the room changes, the outputs follow one by one. -/
def Desk.begin (s : Desk σ) (letter : Letter) (rest : List Letter) (x : Room σ × List Output) :
    Desk σ :=
  { s with
    room := x.1, cmdCh := rest, serving := letter.caller, todo := x.2,
    calls :=
      match letter with
      | .timer _ _ => s.calls
      | .request _ k =>
        match s.calls.lookup k with
        | none => s.calls
        | some c => s.calls.insert k { c with handled := some (s.room, x.1) } }

/-- The reply goes to the channel of the call; a send to a full channel would block. -/
def Desk.answer (s : Desk σ) (res : CmdResult) : Option (Desk σ) :=
  match s.serving with
  | none => some s
  | some k =>
    match s.calls.lookup k with
    | none => some s
    | some c => if c.reply.isNone then some (s.setCall k { c with reply := some res }) else none

def Desk.step (g : Game σ) (s : Desk σ) : Label → Option (Desk σ)
  | .call k req =>
    match s.calls.lookup k with
    | none => some (s.setCall k { request := req })
    | some _ => none
  | .caller k a =>
    match s.calls.lookup k with
    | none => none
    | some c =>
      match c.select k (s.cmdCh.length < capacity) s.stopped a with
      | none => none
      | some (c', sent) => some ({ s with cmdCh := s.cmdCh ++ sent }.setCall k c')
  | .take now =>
    match s.todo, s.cmdCh with
    | [], letter :: rest =>
      if s.room.lifecycle = .closed then none
      else some (s.begin letter rest (Rooms.step g s.room (.command now letter.command)))
    | _, _ => none
  | .tick now =>
    match s.todo with
    | [] =>
      if s.room.lifecycle = .closed then none
      else
        let x := Rooms.step g s.room (.tick now)
        some { s with room := x.1, serving := none, todo := x.2 }
    | _ :: _ => none
  | .perform =>
    match s.todo with
    | [] => none
    | .broadcast _ :: rest => some { s with todo := rest }
    | .afterFunc player generation :: rest =>
      some { s with todo := rest, timers := s.timers ++ [(player, generation)] }
    | .reply res :: rest => { s with todo := rest }.answer res
  | .fire j =>
    match s.timers[j]? with
    | none => none
    | some (player, generation) =>
      if s.cmdCh.length < capacity then
        some { s with cmdCh := s.cmdCh ++ [.timer player generation], timers := s.timers.eraseIdx j }
      else none
  | .forget j => if s.stopped then some { s with timers := s.timers.eraseIdx j } else none
  | .stop =>
    match s.todo with
    | [] => if s.room.lifecycle = .closed then some { s with stopped := true } else none
    | _ :: _ => none

/-! ## What a step can do -/

/-- A caller's step, case by case. -/
inductive Selected (k : ℕ) (c : Call σ) (stopped : Bool) : Case → Call σ → List Letter → Prop
  | send (hp : c.place = .sending) :
      Selected k c stopped .send { c with place := .waiting } [.request c.request k]
  | refuse (hp : c.place = .sending) (hs : stopped = true) :
      Selected k c stopped .refuse (c.fail (.room .roomClosed)) []
  | receive (res : CmdResult) (hp : c.place = .waiting) (hr : c.reply = some res) :
      Selected k c stopped .receive { c with place := .returned res res.err, reply := none } []
  | giveUp (hp : c.place = .waiting) (hs : stopped = true) :
      Selected k c stopped .giveUp (c.fail (.room .roomClosed)) []
  | expire (hp : c.place = .waiting) :
      Selected k c stopped .expire (c.fail .deadlineExceeded) []

theorem select_selected {k : ℕ} {c c' : Call σ} {free stopped : Bool} {a : Case}
    {sent : List Letter} (h : c.select k free stopped a = some (c', sent)) :
    Selected k c stopped a c' sent := by
  unfold Call.select at h
  split at h
  next hp =>
    split at h
    next =>
      cases h
      exact .send hp
    next => cases h
  next hp =>
    split at h
    next hs =>
      cases h
      exact .refuse hp hs
    next => cases h
  next hp =>
    split at h
    next => cases h
    next res hr =>
      cases h
      exact .receive res hp hr
  next hp =>
    split at h
    next hs =>
      cases h
      exact .giveUp hp hs
    next => cases h
  next hp =>
    cases h
    exact .expire hp
  next => cases h

/-- A step of the desk. The parts of `begin` and of a reply that concern the
one call they are about stay with that call. -/
inductive Moved (g : Game σ) (s : Desk σ) : Label → Desk σ → Prop
  | call (k : ℕ) (req : Rooms.Request) (hk : s.calls.lookup k = none) :
      Moved g s (.call k req) (s.setCall k { request := req })
  | caller (k : ℕ) (a : Case) (c c' : Call σ) (sent : List Letter)
      (hc : s.calls.lookup k = some c) (ha : Selected k c s.stopped a c' sent) :
      Moved g s (.caller k a) ({ s with cmdCh := s.cmdCh ++ sent }.setCall k c')
  | take (now : Time) (letter : Letter) (rest : List Letter) (hd : s.todo = [])
      (hq : s.cmdCh = letter :: rest) (ho : s.room.lifecycle ≠ .closed) :
      Moved g s (.take now)
        (s.begin letter rest (Rooms.step g s.room (.command now letter.command)))
  | tick (now : Time) (hd : s.todo = []) (ho : s.room.lifecycle ≠ .closed) :
      Moved g s (.tick now) { s with
        room := (Rooms.step g s.room (.tick now)).1, serving := none,
        todo := (Rooms.step g s.room (.tick now)).2 }
  | effect (o : Output) (rest : List Output) (timers : List (PlayerID × ℕ))
      (hd : s.todo = o :: rest) (ho : o.result = none) :
      Moved g s .perform { s with todo := rest, timers := timers }
  | reply (res : CmdResult) (rest : List Output) (s' : Desk σ) (hd : s.todo = .reply res :: rest)
      (hs : { s with todo := rest }.answer res = some s') : Moved g s .perform s'
  | fire (j : ℕ) (player : PlayerID) (generation : ℕ) :
      Moved g s (.fire j) { s with
        cmdCh := s.cmdCh ++ [.timer player generation], timers := s.timers.eraseIdx j }
  | forget (j : ℕ) : Moved g s (.forget j) { s with timers := s.timers.eraseIdx j }
  | stop (hd : s.todo = []) (hc : s.room.lifecycle = .closed) :
      Moved g s .stop { s with stopped := true }

theorem step_moved {g : Game σ} {s s' : Desk σ} {l : Label} (h : s.step g l = some s') :
    Moved g s l s' := by
  cases l with
  | call k req =>
    rw [Desk.step] at h
    split at h
    next hk =>
      cases h
      exact .call k req hk
    next => cases h
  | caller k a =>
    rw [Desk.step] at h
    split at h
    next => cases h
    next c hc =>
      split at h
      next => cases h
      next c' sent ha =>
        cases h
        exact .caller k a c c' sent hc (select_selected ha)
  | take now =>
    rw [Desk.step] at h
    split at h
    next letter rest hd hq =>
      split at h
      next => cases h
      next ho =>
        cases h
        exact .take now letter rest hd hq ho
    next => cases h
  | tick now =>
    rw [Desk.step] at h
    split at h
    next hd =>
      split at h
      next => cases h
      next ho =>
        cases h
        exact .tick now hd ho
    next => cases h
  | perform =>
    rw [Desk.step] at h
    split at h
    next => cases h
    next ev rest hd =>
      cases h
      exact .effect (.broadcast ev) rest s.timers hd rfl
    next p generation rest hd =>
      cases h
      exact .effect (.afterFunc p generation) rest _ hd rfl
    next res rest hd => exact .reply res rest s' hd h
  | fire j =>
    rw [Desk.step] at h
    split at h
    next => cases h
    next player generation ht =>
      split at h
      next =>
        cases h
        exact .fire j player generation
      next => cases h
  | forget j =>
    rw [Desk.step] at h
    split at h
    next =>
      cases h
      exact .forget j
    next => cases h
  | stop =>
    rw [Desk.step] at h
    split at h
    next hd =>
      split at h
      next hc =>
        cases h
        exact .stop hd hc
      next => cases h
    next => cases h

/-! ## What one turn answers -/

/-- State, seats, connection flags and version of the room are what they were. -/
structure Kept (r r' : Room σ) : Prop where
  state : r'.state = r.state
  seatOrder : r'.seatOrder = r.seatOrder
  players : r'.players = r.players
  serverSeq : r'.serverSeq = r.serverSeq

/-- `Init` does not return the sentinel of the room package. -/
def InitHonest (g : Game σ) : Prop :=
  ∀ players, g.init players none ≠ .error (.room .roomClosed)

theorem turn_answer {g : Game σ} (hg : InitHonest g) (r : Room σ) (now : Time)
    (req : Rooms.Request) (ho : r.lifecycle ≠ .closed) :
    ∃ res, results (Rooms.step g r (.command now req.toCommand)).2 = [res] ∧
      (res.err = some (.room .roomClosed) →
        Kept r (Rooms.step g r (.command now req.toCommand)).1) := by
  have hans := step_answers g r now req.toCommand ho
  generalize Rooms.step g r (.command now req.toCommand) = x at hans ⊢
  cases hans with
  | timer p generation hc hr => exact absurd hc (toCommand_ne_graceExpired req p generation)
  | accepted res hr he =>
    refine ⟨res, hr, ?_⟩
    intro hclosed
    rw [he] at hclosed
    cases hclosed
  | refused e hr hout =>
    rw [hr, hout]
    exact ⟨_, rfl, fun _ => ⟨rfl, rfl, rfl, rfl⟩⟩
  | unstarted p e hc hi hf hr hout =>
    rw [hout]
    refine ⟨{ err := some e }, rfl, ?_⟩
    intro hclosed
    rw [Option.some.inj hclosed] at hf
    exact absurd hf (hg _)

/-! ## The fate of a call -/

def Call.ToldClosed (c : Call σ) : Prop :=
  ∃ res, c.place = .returned res (some (.room .roomClosed))

/-- The turn that took the call's command, if there was one, kept the room. -/
def Call.Unapplied (c : Call σ) : Prop := ∀ r r', c.handled = some (r, r') → Kept r r'

/-- How far a call has come: its command is not sent, in the channel, being
handled with one reply to come, or answered. -/
inductive Fate (s : Desk σ) (k : ℕ) : Option (Call σ) → Prop
  | absent (hq : k ∉ s.ids) (ho : s.owes k = []) : Fate s k none
  | unsent (c : Call σ) (hn : c.handled = none) (hr : c.reply = none)
      (hp : c.place = .sending ∨ c.ToldClosed) (hq : k ∉ s.ids) (ho : s.owes k = []) :
      Fate s k (some c)
  | queued (c : Call σ) (hn : c.handled = none) (hr : c.reply = none) (hp : c.place ≠ .sending)
      (ht : c.ToldClosed → s.stopped = true) (hq : k ∈ s.ids) (ho : s.owes k = []) :
      Fate s k (some c)
  | underway (c : Call σ) (r r' : Room σ) (res : CmdResult) (hn : c.handled = some (r, r'))
      (hr : c.reply = none) (hp : c.place ≠ .sending) (ht : ¬ c.ToldClosed) (hq : k ∉ s.ids)
      (ho : s.owes k = [res]) (ha : res.err = some (.room .roomClosed) → Kept r r') :
      Fate s k (some c)
  | answered (c : Call σ) (r r' : Room σ) (hn : c.handled = some (r, r'))
      (hr : ∀ res, c.reply = some res → res.err = some (.room .roomClosed) → Kept r r')
      (hw : c.place = .waiting → c.reply ≠ none) (hp : c.place ≠ .sending)
      (ht : c.ToldClosed → Kept r r') (hq : k ∉ s.ids) (ho : s.owes k = []) : Fate s k (some c)

/-- A step that has nothing to do with a call leaves it where it is. -/
theorem Fate.frame {s s' : Desk σ} {k : ℕ} {o : Option (Call σ)} (h : Fate s k o)
    (hids : k ∈ s'.ids ↔ k ∈ s.ids) (howes : s'.owes k = s.owes k)
    (hstop : s.stopped = true → s'.stopped = true) : Fate s' k o := by
  cases h with
  | absent hq ho => exact .absent (mt hids.mp hq) (howes.trans ho)
  | unsent c hn hr hp hq ho => exact .unsent c hn hr hp (mt hids.mp hq) (howes.trans ho)
  | queued c hn hr hp ht hq ho =>
    exact .queued c hn hr hp (fun h => hstop (ht h)) (hids.mpr hq) (howes.trans ho)
  | underway c r r' res hn hr hp ht hq ho ha =>
    exact .underway c r r' res hn hr hp ht (mt hids.mp hq) (howes.trans ho) ha
  | answered c r r' hn hr hw hp ht hq ho =>
    exact .answered c r r' hn hr hw hp ht (mt hids.mp hq) (howes.trans ho)

theorem Fate.unapplied {s : Desk σ} {k : ℕ} {c : Call σ} (h : Fate s k (some c))
    (ht : c.ToldClosed) : c.Unapplied := by
  intro r r' hc
  cases h with
  | unsent _ hn | queued _ hn =>
    rw [hn] at hc
    cases hc
  | underway _ _ _ _ _ _ _ hnot => exact absurd ht hnot
  | answered _ _ _ hn _ _ _ hkept =>
    rw [hn] at hc
    cases hc
    exact hkept ht

structure Inv (s : Desk σ) : Prop where
  fate : ∀ k, Fate s k (s.calls.lookup k)
  nodup : s.ids.Nodup
  halted : s.stopped = true → s.todo = [] ∧ s.room.lifecycle = .closed

theorem newDesk_inv (id : ID) (gameType : String) (now : Time) : Inv (newDesk σ id gameType now) where
  fate := fun _ => .absent List.not_mem_nil (if_neg (by simp [newDesk]))
  nodup := List.nodup_nil
  halted := fun h => by cases h

theorem owes_nil {s : Desk σ} (h : s.todo = []) (k : ℕ) : s.owes k = [] := by
  unfold Desk.owes
  rw [h]
  exact ite_self []

theorem Inv.owes_stopped {s : Desk σ} (h : Inv s) (hs : s.stopped = true) (k : ℕ) :
    s.owes k = [] :=
  owes_nil (h.halted hs).1 k

/-- After a change of one call, that call's fate is what has to be shown. -/
theorem fate_setCall {s s' : Desk σ} {j k : ℕ} {c : Call σ} (h : Inv s)
    (hcalls : s'.calls = s.calls.insert k c) (hk : Fate s' k (some c))
    (hids : ∀ i ≠ k, i ∈ s'.ids ↔ i ∈ s.ids) (howes : ∀ i ≠ k, s'.owes i = s.owes i)
    (hstop : s.stopped = true → s'.stopped = true) : Fate s' j (s'.calls.lookup j) := by
  rw [hcalls, Table.lookup_insert_ite]
  by_cases hj : j = k
  · subst hj
    rw [if_pos rfl]
    exact hk
  · rw [if_neg hj]
    exact (h.fate j).frame (hids j hj) (howes j hj) hstop

/-- A step that changes no call. -/
theorem fate_keep {s s' : Desk σ} {j : ℕ} (h : Inv s) (hcalls : s'.calls = s.calls)
    (hids : s'.ids = s.ids) (howes : ∀ i, s'.owes i = s.owes i)
    (hstop : s.stopped = true → s'.stopped = true) : Fate s' j (s'.calls.lookup j) := by
  rw [hcalls]
  exact (h.fate j).frame (by rw [hids]) (howes j) hstop

/-! ## Steps of the callers -/

/-- The condition on a run: no caller turns to the closed `stopped` channel
while its reply is there to be received. -/
def Attentive (s : Desk σ) : Label → Prop
  | .caller k .giveUp => ((s.calls.lookup k).bind Call.reply).isNone = true
  | _ => True

instance (s : Desk σ) : (l : Label) → Decidable (Attentive s l)
  | .caller k .giveUp => inferInstanceAs (Decidable (((s.calls.lookup k).bind Call.reply).isNone = true))
  | .caller _ .send | .caller _ .refuse | .caller _ .receive | .caller _ .expire => isTrue trivial
  | .call _ _ | .take _ | .tick _ | .perform | .fire _ | .forget _ | .stop => isTrue trivial

theorem not_toldClosed_waiting {c : Call σ} (h : c.place = .waiting) : ¬ c.ToldClosed := by
  rintro ⟨res, hp⟩
  rw [h] at hp
  cases hp

theorem not_unsent_waiting {c : Call σ} (h : c.place = .waiting) :
    ¬ (c.place = .sending ∨ c.ToldClosed) := by
  rintro (hp | ht)
  · rw [h] at hp
    cases hp
  · exact not_toldClosed_waiting h ht

theorem not_toldClosed_expired (c : Call σ) : ¬ (c.fail .deadlineExceeded).ToldClosed := by
  rintro ⟨res, hp⟩
  cases hp

/-- A caller that takes one of its cases gets to the next stage, or returns with
what its stage allows. -/
theorem fate_selected {s s' : Desk σ} {k : ℕ} {a : Case} {c c' : Call σ} {sent : List Letter}
    (h : Inv s) (hc : s.calls.lookup k = some c) (ha : Selected k c s.stopped a c' sent)
    (hat : Attentive s (.caller k a)) (hids : s'.ids = s.ids ++ sent.filterMap Letter.caller)
    (howes : s'.owes k = s.owes k) (hstop : s'.stopped = s.stopped) : Fate s' k (some c') := by
  have hf := h.fate k
  rw [hc] at hf
  -- all cases but the first put nothing into the channel
  have hf' (he : sent = []) : Fate s' k (some c) := by
    rw [he, List.filterMap_nil, List.append_nil] at hids
    exact hf.frame (by rw [hids]) howes (by rw [hstop]; exact id)
  cases ha with
  | send hp =>
    have hq : k ∈ s'.ids := by
      rw [hids]
      exact List.mem_append_right _ List.mem_cons_self
    cases hf with
    | unsent _ hn hr _ _ ho =>
      exact .queued _ hn hr Place.noConfusion
        (fun ht => absurd ht (not_toldClosed_waiting rfl)) hq (howes.trans ho)
    | queued _ _ _ hne | underway _ _ _ _ _ _ hne | answered _ _ _ _ _ _ hne => exact absurd hp hne
  | refuse hp hs =>
    cases hf' rfl with
    | unsent _ hn hr _ hq ho => exact .unsent _ hn hr (Or.inr ⟨_, rfl⟩) hq ho
    | queued _ _ _ hne | underway _ _ _ _ _ _ hne | answered _ _ _ _ _ _ hne => exact absurd hp hne
  | receive res hp hr =>
    cases hf' rfl with
    | unsent _ _ hnone | queued _ _ hnone | underway _ _ _ _ _ hnone =>
      rw [hr] at hnone
      cases hnone
    | answered _ r r' hn hkept _ _ _ hq ho =>
      refine .answered _ r r' hn (fun _ h => by cases h) (fun h => by cases h) Place.noConfusion
        ?_ hq ho
      rintro ⟨res', hp'⟩
      injection hp' with _ herr
      exact hkept res hr herr
  | giveUp hp hs =>
    have hnone : c.reply = none := by
      change ((s.calls.lookup k).bind Call.reply).isNone = true at hat
      rw [hc] at hat
      exact Option.isNone_iff_eq_none.mp hat
    cases hf' rfl with
    | unsent _ _ _ hp' => exact absurd hp' (not_unsent_waiting hp)
    | queued _ hn hr _ _ hq ho =>
      exact .queued _ hn hr Place.noConfusion (fun _ => hstop.trans hs) hq ho
    | underway _ _ _ res _ _ _ _ _ ho =>
      -- the actor has left its loop, so no reply is still to come
      rw [howes, h.owes_stopped hs] at ho
      cases ho
    | answered _ _ _ _ _ hw => exact absurd hnone (hw hp)
  | expire hp =>
    have hnt := not_toldClosed_expired c
    cases hf' rfl with
    | unsent _ _ _ hp' => exact absurd hp' (not_unsent_waiting hp)
    | queued _ hn hr _ _ hq ho =>
      exact .queued _ hn hr Place.noConfusion (fun ht => absurd ht hnt) hq ho
    | underway _ r r' res hn hr _ _ hq ho hkept =>
      exact .underway _ r r' res hn hr Place.noConfusion hnt hq ho hkept
    | answered _ r r' hn hkept _ _ _ hq ho =>
      exact .answered _ r r' hn hkept (fun h => by cases h) Place.noConfusion
        (fun ht => absurd ht hnt) hq ho

/-! ## Steps of the actor -/

/-- The call whose command is taken was waiting for that; its one reply is now to come. -/
theorem fate_taken {g : Game σ} (hg : InitHonest g) {s s' : Desk σ} (h : Inv s)
    (now : Time) (req : Rooms.Request) {k : ℕ} {c : Call σ} (hc : s.calls.lookup k = some c)
    (hk : k ∈ s.ids) (ho : s.room.lifecycle ≠ .closed) (hnq : k ∉ s'.ids)
    (howes : s'.owes k = results (Rooms.step g s.room (.command now req.toCommand)).2) :
    Fate s' k (some { c with
      handled := some (s.room, (Rooms.step g s.room (.command now req.toCommand)).1) }) := by
  obtain ⟨res, hres, hkept⟩ := turn_answer hg s.room now req ho
  have hf := h.fate k
  rw [hc] at hf
  cases hf with
  | queued _ hn hr hp ht =>
    have hnt : ¬ c.ToldClosed := fun htold => ho (h.halted (ht htold)).2
    exact .underway _ _ _ res rfl hr hp hnt hnq (howes.trans hres) hkept
  | unsent _ _ _ _ hq | underway _ _ _ _ _ _ _ _ hq | answered _ _ _ _ _ _ _ _ hq =>
    exact absurd hk hq

theorem fate_begin {g : Game σ} (hg : InitHonest g) {s : Desk σ} (h : Inv s) (now : Time)
    (letter : Letter) (rest : List Letter) (hd : s.todo = []) (hq : s.cmdCh = letter :: rest)
    (ho : s.room.lifecycle ≠ .closed) (j : ℕ) :
    let s' := s.begin letter rest (Rooms.step g s.room (.command now letter.command))
    Fate s' j (s'.calls.lookup j) := by
  intro s'
  have hids : s.ids = (letter :: rest).filterMap Letter.caller := by rw [Desk.ids, hq]
  cases letter with
  | timer p generation =>
    refine fate_keep h rfl hids.symm ?_ id
    intro i
    rw [owes_nil hd]
    exact if_neg nofun
  | request req k =>
    change s.ids = k :: s'.ids at hids
    have hnd := h.nodup
    rw [hids] at hnd
    have hmem : k ∈ s.ids := by
      rw [hids]
      exact List.mem_cons_self
    cases hc : s.calls.lookup k with
    | none =>
      have hf := h.fate k
      rw [hc] at hf
      cases hf with
      | absent hnq => exact absurd hmem hnq
    | some c =>
      have hcalls : s'.calls = s.calls.insert k { c with
          handled := some (s.room, (Rooms.step g s.room (.command now req.toCommand)).1) } := by
        simp only [s', Desk.begin, hc, Letter.command]
      refine fate_setCall h hcalls
        (fate_taken hg h now req hc hmem ho (List.nodup_cons.mp hnd).1 (if_pos rfl)) ?_ ?_ id
      · intro i hi
        rw [hids, List.mem_cons, or_iff_right hi]
      · intro i hi
        rw [owes_nil hd]
        exact if_neg fun he => hi (Option.some.inj he).symm

/-- The call that is served gets the reply it was waiting for. -/
theorem fate_answer {s s' : Desk σ} (h : Inv s) (res : CmdResult) (rest : List Output)
    (hd : s.todo = .reply res :: rest) (hs : { s with todo := rest }.answer res = some s')
    (j : ℕ) : Fate s' j (s'.calls.lookup j) := by
  unfold Desk.answer at hs
  cases hk : s.serving with
  | none =>
    simp only [hk] at hs
    cases hs
    refine fate_keep h rfl rfl ?_ id
    intro i
    simp only [Desk.owes, hk, reduceCtorEq, if_false]
  | some k =>
    have howes : s.owes k = res :: results rest := by
      rw [Desk.owes, if_pos hk, hd]
      rfl
    have hf := h.fate k
    simp only [hk] at hs
    cases hc : s.calls.lookup k with
    | none =>
      rw [hc] at hf
      cases hf with
      | absent _ ho =>
        rw [howes] at ho
        cases ho
    | some c =>
      rw [hc] at hf
      simp only [hc] at hs
      split at hs
      next =>
        cases hs
        refine fate_setCall h rfl ?_ (fun _ _ => Iff.rfl) ?_ id
        · cases hf with
          | underway _ r r' res' hn hr hp ht hq ho ha =>
            rw [howes] at ho
            injection ho with hres hrest
            subst hres
            refine .answered _ r r' hn ?_ (fun _ => nofun) hp (fun h => absurd h ht) hq ?_
            · intro res' hr' herr
              cases hr'
              exact ha herr
            · exact (if_pos rfl).trans hrest
          | unsent _ _ _ _ _ ho | queued _ _ _ _ _ _ ho | answered _ _ _ _ _ _ _ _ _ ho =>
            rw [howes] at ho
            cases ho
        · intro i hi
          have hne : s.serving ≠ some i := by
            rw [hk]
            exact fun he => hi (Option.some.inj he).symm
          rw [Desk.owes, Desk.owes, if_neg hne]
          exact if_neg fun he => hi (Option.some.inj he).symm
      next => cases hs

theorem moved_fate {g : Game σ} (hg : InitHonest g) {s s' : Desk σ} {l : Label} (h : Inv s)
    (hat : Attentive s l) (hm : Moved g s l s') (j : ℕ) : Fate s' j (s'.calls.lookup j) := by
  cases hm with
  | call k req hk =>
    refine fate_setCall h rfl ?_ (fun _ _ => Iff.rfl) (fun _ _ => rfl) id
    have hf := h.fate k
    rw [hk] at hf
    cases hf with
    | absent hq ho => exact .unsent _ rfl rfl (Or.inl rfl) hq ho
  | caller k a c c' sent hc ha =>
    have hids : ({ s with cmdCh := s.cmdCh ++ sent }.setCall k c').ids =
        s.ids ++ sent.filterMap Letter.caller := List.filterMap_append
    refine fate_setCall h rfl (fate_selected h hc ha hat hids rfl rfl) ?_ (fun _ _ => rfl) id
    intro i hi
    rw [hids]
    cases ha with
    | send => simp [Letter.caller, hi]
    | refuse | receive | giveUp | expire => simp
  | take now letter rest hd hq ho => exact fate_begin hg h now letter rest hd hq ho j
  | tick now hd ho =>
    refine fate_keep h rfl rfl ?_ id
    intro i
    rw [owes_nil hd]
    exact if_neg nofun
  | effect o rest timers hd ho =>
    refine fate_keep h rfl rfl ?_ id
    intro i
    simp only [Desk.owes, hd, results, List.filterMap_cons, ho]
  | reply res rest _ hd hs => exact fate_answer h res rest hd hs j
  | fire k p generation =>
    refine fate_keep h rfl ?_ (fun _ => rfl) id
    simp [Desk.ids, Letter.caller]
  | forget k => exact fate_keep h rfl rfl (fun _ => rfl) id
  | stop hd hc => exact fate_keep h rfl rfl (fun _ => rfl) (fun _ => rfl)

theorem answer_eq {s s' : Desk σ} {res : CmdResult} (h : s.answer res = some s') :
    ∃ calls, s' = { s with calls := calls } := by
  unfold Desk.answer at h
  split at h
  next =>
    cases h
    exact ⟨s.calls, rfl⟩
  next k _ =>
    split at h
    next =>
      cases h
      exact ⟨s.calls, rfl⟩
    next c _ =>
      split at h
      next =>
        cases h
        exact ⟨_, rfl⟩
      next => cases h

theorem moved_nodup {g : Game σ} {s s' : Desk σ} {l : Label} (h : Inv s) (hm : Moved g s l s') :
    s'.ids.Nodup := by
  have hnd := h.nodup
  cases hm with
  | call | tick | effect | forget | stop => exact hnd
  | caller k a c c' sent hc ha =>
    change ((s.cmdCh ++ sent).filterMap Letter.caller).Nodup
    rw [List.filterMap_append]
    cases ha with
    | send hp =>
      have hf := h.fate k
      rw [hc] at hf
      refine List.nodup_append.mpr ⟨hnd, List.nodup_singleton k, ?_⟩
      intro i hi i' hi' heq
      rw [heq, List.mem_singleton.mp hi'] at hi
      cases hf with
      | unsent _ _ _ _ hq | underway _ _ _ _ _ _ _ _ hq | answered _ _ _ _ _ _ _ _ hq =>
        exact hq hi
      | queued _ _ _ hne => exact hne hp
    | refuse | receive | giveUp | expire =>
      rw [List.filterMap_nil, List.append_nil]
      exact hnd
  | take now letter rest hd hq ho =>
    have hsub : (rest.filterMap Letter.caller).Sublist s.ids := by
      unfold Desk.ids
      rw [hq]
      exact (List.sublist_cons_self letter rest).filterMap _
    exact hnd.sublist hsub
  | reply res rest _ hd hs =>
    obtain ⟨calls, rfl⟩ := answer_eq hs
    exact hnd
  | fire k p generation =>
    change ((s.cmdCh ++ [Letter.timer p generation]).filterMap Letter.caller).Nodup
    rw [List.filterMap_append]
    exact (List.append_nil s.ids).symm ▸ hnd

/-- The actor takes nothing any more once `stopped` is closed. -/
theorem moved_halted {g : Game σ} {s s' : Desk σ} {l : Label} (h : Inv s) (hm : Moved g s l s') :
    s'.stopped = true → s'.todo = [] ∧ s'.room.lifecycle = .closed := by
  intro hs
  cases hm with
  | call | caller | fire | forget => exact h.halted hs
  | take now letter rest hd hq ho => exact absurd (h.halted hs).2 ho
  | tick now hd ho => exact absurd (h.halted hs).2 ho
  | effect o rest timers hd =>
    have hnil := (h.halted hs).1
    rw [hd] at hnil
    cases hnil
  | reply res rest _ hd ha =>
    obtain ⟨calls, rfl⟩ := answer_eq ha
    have hnil := (h.halted hs).1
    rw [hd] at hnil
    cases hnil
  | stop hd hc => exact ⟨hd, hc⟩

theorem step_inv {g : Game σ} (hg : InitHonest g) (s : Desk σ) (l : Label) (s' : Desk σ)
    (hat : Attentive s l) (h : Inv s) (hs : s.step g l = some s') : Inv s' where
  fate := moved_fate hg h hat (step_moved hs)
  nodup := moved_nodup h (step_moved hs)
  halted := moved_halted h (step_moved hs)

/-! ## The answer `ErrRoomClosed` -/

/-- **A call that returns `ErrRoomClosed` was not applied**, in every run in
which no caller turns to `stopped` while its reply is there. -/
theorem toldClosed_unapplied (g : Game σ) (hg : InitHonest g) (id : ID) (gameType : String)
    (now : Time) (ls : List Label) (s : Desk σ) (k : ℕ) (c : Call σ)
    (hat : Meets (Desk.step g) Attentive (newDesk σ id gameType now) ls)
    (hrun : exec (Desk.step g) (newDesk σ id gameType now) ls = some s)
    (hc : s.calls.lookup k = some c) (ht : c.ToldClosed) : c.Unapplied := by
  have hinv : Inv s := exec_invariant (Desk.step g) Attentive Inv (step_inv hg) _ s
    (newDesk_inv id gameType now) ls hat hrun
  have hf := hinv.fate k
  rw [hc] at hf
  exact hf.unapplied ht

end Submission

theorem ticTacToe_initHonest : InitHonest TicTacToe.game := by
  intro players h
  simp only [TicTacToe.game, TicTacToe.init] at h
  split at h <;> cases h

/-- Alice sits alone, leaves and so closes the room; Bob's `Join` is still in the
channel when the actor stops. -/
def lateJoin : List Label :=
  [.call 0 (.join "alice"), .caller 0 .send, .take 0, .perform, .perform, .caller 0 .receive,
   .call 1 (.leave "alice"), .caller 1 .send, .call 2 (.join "bob"), .caller 2 .send,
   .take 1, .perform, .stop, .caller 1 .receive, .caller 2 .giveUp]

theorem lateJoin_unapplied :
    ∃ s c, exec (Desk.step TicTacToe.game) (newDesk GameState "r" "tictactoe" 0) lateJoin = some s ∧
      s.calls.lookup 2 = some c ∧ c.ToldClosed ∧ c.Unapplied :=
  ⟨_, _, rfl, rfl, ⟨_, rfl⟩, toldClosed_unapplied TicTacToe.game ticTacToe_initHonest "r" "tictactoe" 0
    lateJoin _ 2 _ (by decide) rfl rfl ⟨_, rfl⟩⟩

/-- Alice's `Leave` empties the room and is answered. The actor stops before its
caller wakes up, and the caller's select takes the closed `stopped` channel. -/
theorem left_seat_told_closed :
    ∃ s c r r', exec (Desk.step TicTacToe.game) (newDesk GameState "r" "tictactoe" 0)
        [.call 0 (.join "alice"), .caller 0 .send, .take 0, .perform, .perform, .caller 0 .receive,
         .call 1 (.leave "alice"), .caller 1 .send, .take 1, .perform, .stop,
         .caller 1 .giveUp] = some s ∧
      s.calls.lookup 1 = some c ∧ c.request = .leave "alice" ∧
      c.place = .returned {} (some (.room .roomClosed)) ∧ c.handled = some (r, r') ∧
      r.seatOrder = ["alice"] ∧ (r.players.lookup "alice").isSome = true ∧
      r'.seatOrder = [] ∧ (r'.players.lookup "alice").isSome = false ∧ ¬ c.Unapplied := by
  refine ⟨_, _, _, _, rfl, rfl, rfl, rfl, rfl, rfl, rfl, rfl, rfl, ?_⟩
  intro hun
  cases (hun _ _ rfl).seatOrder

end RealtimeEngine.Rooms.Submission
