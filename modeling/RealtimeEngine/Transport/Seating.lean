import RealtimeEngine.Room.Seats
import RealtimeEngine.Transport.Links

/-! One goroutine creates a room, joins its players and seats their pending
connections, each player once. Until it comes to a player, nothing on the node
knows that player in that room: no connection, no Hub entry, no message, no
session record, no command to drop the player. -/
namespace RealtimeEngine.Transport
open Foundations Domain Rooms Storage Matchmaking
set_option autoImplicit false
set_option maxHeartbeats 250000

section Seating
variable {σ : Type} {u : Setup σ} {s s' : Sys σ} {l : Label}

/-! ## Passes -/

/-- The room a goroutine is setting up, with the players it has yet to seat once
it knows them. -/
def Reader.pass : Reader → Option (ID × Option (List PlayerID))
  | .submit (.join room _ _) | .await (.join room _ _) _ | .status room => some (room, none)
  | .submit (.seat room p _ rest) | .await (.seat room p _ rest) _
  | .tell .setRoom (.seat room p _ rest) _ => some (room, some (p :: rest))
  | .tell _ (.seat room _ _ rest) _ => some (room, some rest)
  | .seat room players => some (room, some players)
  | .waitClosed _ (some (room, players)) => some (room, some players)
  | _ => none

/-- The players of a pass, with the one being seated. -/
def Reader.seats : Reader → List PlayerID
  | .submit (.seat _ p _ rest) | .await (.seat _ p _ rest) _
  | .tell _ (.seat _ p _ rest) _ => p :: rest
  | .seat _ players => players
  | .waitClosed _ (some (_, players)) => players
  | _ => []

/-- The player may still come up in a pass. -/
def Owed : Option (List PlayerID) → PlayerID → Prop
  | none, _ => True
  | some players, p => p ∈ players

/-- The players a pass has yet to seat, before and after a step: they become
known as the seats of the room, and are struck off. -/
def Shrinks (s : Sys σ) (R : ID) (ps ps' : Option (List PlayerID)) : Prop :=
  (∀ p, Owed ps' p → Owed ps p) ∧
    (ps'.isSome = true → ps.isSome = true ∨
      ∃ a, s.actor R = some a ∧ ps' = some a.room.seatOrder)

theorem Shrinks.refl (s : Sys σ) (R : ID) (ps : Option (List PlayerID)) : Shrinks s R ps ps :=
  ⟨fun _ h => h, fun h => Or.inl h⟩

/-- A pass goes on with fewer players, or starts with a new room. -/
theorem ReaderStep.pass_cases {c : ConnID} {pc pc' : Reader} {e : Effect σ} {R : ID}
    {ps' : Option (List PlayerID)} (h : ReaderStep u s c pc e pc') (hp : pc'.pass = some (R, ps')) :
    (∃ ps, pc.pass = some (R, ps) ∧ Shrinks s R ps ps') ∨
      s.actor R = none ∧ ps' = none ∧ ∃ gameType g, e = .createRoom R gameType g := by
  have hsame : ∀ {ps}, pc.pass = some (R, ps) → ps = ps' →
      (∃ ps, pc.pass = some (R, ps) ∧ Shrinks s R ps ps') ∨
        s.actor R = none ∧ ps' = none ∧ ∃ gameType g, e = .createRoom R gameType g := by
    rintro ps hps rfl
    exact Or.inl ⟨ps, hps, .refl s R ps⟩
  have htail : ∀ {p rest}, pc.pass = some (R, some (p :: rest)) → some rest = ps' →
      (∃ ps, pc.pass = some (R, ps) ∧ Shrinks s R ps ps') ∨
        s.actor R = none ∧ ps' = none ∧ ∃ gameType g, e = .createRoom R gameType g := by
    rintro p rest hps rfl
    exact Or.inl ⟨_, hps, fun q hq => List.mem_cons_of_mem _ hq, fun _ => Or.inl rfl⟩
  cases h with
  | submitted k ha => cases k <;> exact hsame hp rfl
  | refused k hs => cases k <;> first | exact hsame hp rfl | cases hp
  | failed k ch err hs => cases k <;> first | exact hsame hp rfl | cases hp
  | succeeded k ch res hr he =>
    cases k with
    | join room p rest => cases rest <;> exact hsame hp rfl
    | seat room p conn rest => exact hsame hp rfl
    | resume room => cases hp
    | resync room => cases hp
    | act room a => cases hp
  | setRoom k answer target ht =>
    cases k with
    | seat room p conn rest =>
      cases hp
      exact htail rfl rfl
    | _ => cases hp
  | registered k answer target ht => cases k <;> exact hsame hp rfl
  | bound k answer target ht => cases k <;> exact hsame hp rfl
  | told k answer target pc ht hpc =>
    rw [hpc] at hp
    cases k with
    | seat room p conn rest => split at hp <;> exact hsame hp rfl
    | _ => split at hp <;> cases hp
  | sent env pc hpc =>
    rw [hpc] at hp
    split at hp <;> cases hp
  | created gameType players id g hg hn =>
    right
    cases players <;> cases hp <;> exact ⟨hn, rfl, gameType, g, rfl⟩
  | observed room a ha ht =>
    cases hp
    exact Or.inl ⟨none, rfl, fun _ _ => trivial, fun _ => Or.inr ⟨a, ha, rfl⟩⟩
  | skipped room p rest hpend =>
    cases hp
    exact htail rfl rfl
  | popped room p rest conn hpend => exact hsame hp rfl
  | waited target rest hd =>
    cases rest with
    | none => cases hp
    | some x => exact hsame hp rfl
  | _ => cases hp

/-- The players of a pass come from the room's seats and are only ever struck off. -/
theorem ReaderStep.seats_cases {c : ConnID} {pc pc' : Reader} {e : Effect σ}
    (h : ReaderStep u s c pc e pc') :
    pc'.seats.Sublist pc.seats ∨
    ∃ room a, s.actor room = some a ∧ pc' = .seat room a.room.seatOrder := by
  cases h with
  | submitted k ha => exact Or.inl (by cases k <;> exact List.Sublist.refl _)
  | refused k hs =>
    left
    cases k with
    | seat room p conn rest => exact List.Sublist.refl _
    | _ => exact List.nil_sublist _
  | failed k ch err hs =>
    left
    cases k with
    | seat room p conn rest => exact List.Sublist.refl _
    | _ => exact List.nil_sublist _
  | succeeded k ch res hr he =>
    left
    cases k with
    | join room p rest => cases rest <;> exact List.nil_sublist _
    | seat room p conn rest => exact List.Sublist.refl _
    | _ => exact List.nil_sublist _
  | setRoom k answer target ht => exact Or.inl (by cases k <;> exact List.Sublist.refl _)
  | registered k answer target ht => exact Or.inl (by cases k <;> exact List.Sublist.refl _)
  | bound k answer target ht => exact Or.inl (by cases k <;> exact List.Sublist.refl _)
  | told k answer target pc ht hpc =>
    left
    rw [hpc]
    cases k with
    | seat room p conn rest => split <;> exact List.sublist_cons_self _ _
    | _ => split <;> exact List.nil_sublist _
  | sent env pc hpc =>
    left
    rw [hpc]
    split <;> exact List.nil_sublist _
  | created gameType players id g hg hn =>
    left
    cases players <;> exact List.nil_sublist _
  | observed room a ha ht => exact Or.inr ⟨room, a, ha, rfl⟩
  | skipped room p rest hp => exact Or.inl (List.sublist_cons_self _ _)
  | popped room p rest conn hp => exact Or.inl (List.Sublist.refl _)
  | waited target rest hd =>
    left
    cases rest <;> exact List.Sublist.refl _
  | _ => exact Or.inl (List.nil_sublist _)

theorem handleMessage_pass (now : Time) (x : Conn) (m : Incoming) :
    (handleMessage now x m).pass = none ∧ (handleMessage now x m).seats = [] := by
  obtain ⟨env, h, -⟩ | ⟨gameType, h⟩ | ⟨k, h, -, hk | ⟨a, hk⟩⟩ := handleMessage_cases now x m
  · rw [h]
    exact ⟨rfl, rfl⟩
  · rw [h]
    exact ⟨rfl, rfl⟩
  · rw [h, hk]
    exact ⟨rfl, rfl⟩
  · rw [h, hk]
    exact ⟨rfl, rfl⟩

theorem move_pass (hm : Move u s l s') (d : ConnID) (R : ID) (ps' : Option (List PlayerID))
    (h : (s'.conn d).reader.pass = some (R, ps')) :
    (∃ ps, (s.conn d).reader.pass = some (R, ps) ∧ Shrinks s R ps ps') ∨
      s.actor R = none ∧ ps' = none ∧ s'.actor R ≠ none ∧ ∃ choice, l = .run d choice := by
  obtain hr | ⟨sid, -, -, hr⟩ | ⟨m, -, -, hr⟩ | ⟨choice, e, rfl, hr⟩ := move_reader hm d
  · rw [hr] at h
    exact Or.inl ⟨ps', h, .refl s R ps'⟩
  · rw [hr] at h
    cases h
  · rw [hr, (handleMessage_pass _ _ _).1] at h
    cases h
  · obtain ⟨e', pc, hstep, rfl⟩ := hm.run_inv
    rw [goto_reader_self] at h
    obtain hps | ⟨hn, hnone, gameType, g, rfl⟩ := hstep.pass_cases h
    · exact Or.inl hps
    · refine Or.inr ⟨hn, hnone, ?_, choice, rfl⟩
      change (s.setActor R _).actor R ≠ none
      rw [setActor_self]
      exact Option.some_ne_none _

/-! ## Traces of a player in a room -/

/-- The calls a connection makes about itself. -/
def Call.own : Call → Bool
  | resume _ | resync _ | act _ _ => true
  | _ => false

/-- The goroutine deals with the room on behalf of its own connection. -/
def Reader.visits (R : ID) : Reader → Prop
  | .get rec => rec.roomID = R
  | .submit k | .await k _ | .tell _ k _ => k.own = true ∧ k.room = R
  | _ => False

def Closer.visits (R : ID) : Closer → Prop
  | .unregister room | .submit room | .await room _ | .bind room => room = R
  | _ => False

/-- Nothing on the node knows the player in the room. -/
structure Untouched (u : Setup σ) (s : Sys σ) (R : ID) (p : PlayerID) : Prop where
  room : ∀ c, Plays s p c → (s.conn c).room ≠ some R
  entry : s.hub.entry R p = none
  sent : ∀ c, Plays s p c → ∀ env ∈ (s.conn c).sent, versionOf R env = none
  targets : ∀ a env targets, s.actor R = some a → .deliver env targets ∈ a.todo →
    ∀ c ∈ targets, ¬ Plays s p c
  reader : ∀ c, Plays s p c → ¬ (s.conn c).reader.visits R
  closer : ∀ c, Plays s p c → ¬ (s.conn c).closer.visits R
  record : ∀ sid rec, s.sessions.recordOf sid = some rec → rec.roomID = R → u.owner sid ≠ p
  dropped : ∀ a t, s.actor R = some a → t ∈ a.queue → t.cmd ≠ .disconnect p

/-- The room does not exist yet, or its pass has yet to come to the player. -/
def Virgin (s : Sys σ) (R : ID) (p : PlayerID) : Prop :=
  s.actor R = none ∨ ∃ d ps, (s.conn d).reader.pass = some (R, ps) ∧ Owed ps p

structure Seated (u : Setup σ) (s : Sys σ) : Prop where
  tables : ∀ R a, s.actor R = some a → SeatTable a.game a.room
  created : ∀ d R ps, (s.conn d).reader.pass = some (R, ps) → s.actor R ≠ none
  unique : ∀ d d' R ps ps', (s.conn d).reader.pass = some (R, ps) →
    (s.conn d').reader.pass = some (R, ps') → d = d'
  nodup : ∀ d, (s.conn d).reader.seats.Nodup
  virgin : ∀ R p, Virgin s R p → Untouched u s R p

/-! ## Where a visit comes from -/

theorem failed_visits (now : Time) (e : Err) (k : Call) (R : ID) :
    ¬ (k.failed now e).visits R := by
  cases k with
  | seat room p conn rest => exact fun h => by cases h.1
  | _ => exact fun h => h

theorem ReaderStep.visits_cases {c : ConnID} {pc pc' : Reader} {e : Effect σ} {R : ID}
    (h : ReaderStep u s c pc e pc') (hv : pc'.visits R) :
    pc.visits R ∨ ∃ rec, pc = .load ∧
      s.sessions.loadSession s.now (s.conn c).sessionID = some rec ∧ rec.roomID = R := by
  cases h with
  | loaded rec hr => exact Or.inr ⟨rec, rfl, hr, hv⟩
  | found rec hl => exact Or.inl hv.2
  | submitted k ha => exact Or.inl hv
  | refused k hs => exact absurd hv (failed_visits _ _ k R)
  | failed k ch err hs => exact absurd hv (failed_visits _ _ k R)
  | succeeded k ch res hr he =>
    cases k with
    | join room p rest =>
      cases rest with
      | nil => exact absurd hv (fun h => h)
      | cons q rest => cases hv.1
    | act room a => exact absurd hv (fun h => h)
    | _ => exact Or.inl hv
  | setRoom k answer target ht => exact Or.inl hv
  | registered k answer target ht => exact Or.inl hv
  | bound k answer target ht => exact Or.inl hv
  | told k answer target pc ht hpc =>
    rw [hpc] at hv
    split at hv
    · generalize k.rest = rest at hv
      cases rest <;> exact absurd hv (fun h => h)
    · exact absurd hv (fun h => h)
  | sent env pc hpc =>
    rw [hpc] at hv
    split at hv <;> exact absurd hv (fun h => h)
  | created gameType players id g hg hn =>
    cases players with
    | nil => exact absurd hv (fun h => h)
    | cons q rest => cases hv.1
  | popped room p rest conn hp => cases hv.1
  | waited target rest hd => cases rest <;> exact absurd hv (fun h => h)
  | _ => exact absurd hv (fun h => h)

theorem CloserStep.visits_cases {c : ConnID} {pc pc' : Closer} {e : Effect σ} {R : ID}
    (h : CloserStep u s c pc e pc') (hv : pc'.visits R) :
    pc.visits R ∨ (s.conn c).room = some R := by
  cases h with
  | roomed room hr =>
    cases hv
    exact Or.inr hr
  | unregistered room => exact Or.inl hv
  | submitted room ha => exact Or.inl hv
  | refused room hs => exact Or.inl hv
  | answered room ch => exact Or.inl hv
  | searched hp => exact absurd hv (fun h => h)
  | unpended conn hp => exact absurd hv (fun h => h)
  | dequeued gameType => exact absurd hv (fun h => h)
  | roomless hr => exact absurd hv (fun h => h)
  | bound room => exact absurd hv (fun h => h)

/-! ## Passes over a run -/

theorem move_created (hm : Move u s l s') (R : ID) (h : s'.actor R = none) :
    s.actor R = none := by
  have hch := move_actor hm R
  rw [h] at hch
  generalize s.actor R = o at hch
  cases hch
  rfl

theorem Virgin.back (hm : Move u s l s') {R : ID} {p : PlayerID} (hv : Virgin s' R p) :
    Virgin s R p := by
  obtain hn | ⟨d, ps', hps, ho⟩ := hv
  · exact Or.inl (move_created hm R hn)
  · obtain ⟨ps, hps', hsub⟩ | ⟨hn, -⟩ := move_pass hm d R ps' hps
    · exact Or.inr ⟨d, ps, hps', hsub.1 p ho⟩
    · exact Or.inl hn

/-- The player being seated is off the list after the next step. -/
theorem ReaderStep.tell_pass {d c : ConnID} {stage : Stage} {room R : ID} {q : PlayerID}
    {rest : List PlayerID} {answer : Option CmdResult} {e : Effect σ} {pc : Reader}
    {ps : Option (List PlayerID)}
    (h : ReaderStep u s d (.tell stage (.seat room q c rest) answer) e pc)
    (hp : pc.pass = some (R, ps)) : ps = some rest := by
  cases h with
  | setRoom k answer target ht =>
    cases hp
    rfl
  | registered k answer target ht =>
    cases hp
    rfl
  | bound k answer target ht =>
    cases hp
    rfl
  | told k answer target pc ht hpc =>
    rw [hpc] at hp
    split at hp <;> cases hp <;> rfl

/-- A goroutine that is about to show a player's connection to a room is past that player. -/
theorem Seated.not_virgin (hk : Known u s) (hS : Seated u s) {d choice c stage}
    (hm : Move u s (.run d choice) s') {k : Call} {answer : Option CmdResult} {p : PlayerID}
    (hr : (s.conn d).reader = .tell stage k answer) (ht : k.target d = some c)
    (hc : Plays s p c) : ¬ Virgin s' k.room p := by
  intro hv
  have hcall : (s.conn d).reader.call = some k := by
    rw [hr]
    rfl
  have hself : k.own = true → c = d → False := by
    rintro hown rfl
    refine (hS.virgin k.room p (hv.back hm)).reader c hc ?_
    rw [hr]
    exact ⟨hown, rfl⟩
  cases k with
  | resume room =>
    cases ht
    exact hself rfl rfl
  | resync room =>
    cases ht
    exact hself rfl rfl
  | join room q rest => cases ht
  | act room a => cases ht
  | seat room q conn rest =>
    cases ht
    have hq : q = p := by
      rw [← (hk.call d room q c rest hcall).2]
      exact hc.2
    subst hq
    have hnd : q ∉ rest := by
      have hnodup := hS.nodup d
      rw [hr] at hnodup
      exact (List.nodup_cons.mp hnodup).1
    obtain ⟨ps, hpass⟩ : ∃ ps, (s.conn d).reader.pass = some (room, ps) := by
      rw [hr]
      cases stage <;> exact ⟨_, rfl⟩
    obtain hn | ⟨d', ps', hps', ho'⟩ := hv
    · exact hS.created d room ps hpass (move_created hm room hn)
    · obtain ⟨ps1, hps1, hsub⟩ | ⟨hn, -⟩ := move_pass hm d' room ps' hps'
      · have hdd := hS.unique d d' room ps ps1 hpass hps1
        subst hdd
        obtain ⟨e, pc, hstep, rfl⟩ := hm.run_inv
        rw [goto_reader_self] at hps'
        rw [hr] at hstep
        rw [hstep.tell_pass hps'] at ho'
        exact hnd ho'
      · exact hS.created d room ps hpass hn

/-! ## A room that has not come to a player stays unknown to it -/

section Keeps
variable {R : ID} {p : PlayerID}

theorem Untouched.room_move (hu : Untouched u s R p) (hk : Known u s) (hS : Seated u s)
    (hm : Move u s l s') (hv : Virgin s' R p) (c : ConnID) (hc : Plays s' p c) :
    (s'.conn c).room ≠ some R := by
  intro hroom
  obtain hold | ⟨sid, -, -, hnew⟩ := Plays.back hm hc
  · obtain h | ⟨sid, -, -, h⟩ | ⟨d, choice, k, answer, rfl, hr, ht, h⟩ := move_room hm c
    · exact hu.room c hold (h.symm.trans hroom)
    · rw [h] at hroom
      cases hroom
    · rw [h] at hroom
      cases hroom
      exact hS.not_virgin hk hm hr ht hold hv
  · rw [hnew] at hroom
    cases hroom

theorem Untouched.entry_move (hu : Untouched u s R p) (hk : Known u s) (hS : Seated u s)
    (hm : Move u s l s') (hv : Virgin s' R p) : s'.hub.entry R p = none := by
  obtain h | ⟨d, choice, k, answer, target, rfl, hr, ht, h⟩ | ⟨d, choice, room, -, -, h⟩ :=
    move_hub hm
  · rw [h]
    exact hu.entry
  · rw [h, Hub.entry_register, if_neg]
    · exact hu.entry
    · rintro ⟨rfl, rfl⟩
      exact hS.not_virgin hk hm hr ht (hk.target (by rw [hr]; rfl) ht) hv
  · rw [h, Hub.entry_unregister]
    split
    · rfl
    · exact hu.entry

theorem Untouched.sent_move (hu : Untouched u s R p) (hk : Known u s) (hL : Linked s)
    (hS : Seated u s) (hm : Move u s l s') (hv : Virgin s' R p) (c : ConnID) (hc : Plays s' p c) :
    ∀ env ∈ (s'.conn c).sent, versionOf R env = none := by
  obtain hold | ⟨sid, -, -, hnew⟩ := Plays.back hm hc
  · obtain ⟨h, -⟩ | ⟨env', given, happ, h, -⟩ := move_sent hm hk.fresh c
    · rw [h]
      exact hu.sent c hold
    · rw [h]
      intro env henv
      obtain henv | henv := List.mem_append.mp henv
      · exact hu.sent c hold env henv
      · rw [List.mem_singleton.mp henv]
        cases happ with
        | delivered id i a env' targets rest c ha ht hi =>
          have hmem : Op.deliver env' targets ∈ a.todo := by
            rw [ht]
            exact List.mem_cons_self
          apply if_neg
          rintro ⟨-, hroom⟩
          have hid := (hL.message id a env' targets ha hmem).1
          rw [hroom] at hid
          subst hid
          exact hu.targets a env' targets ha hmem c (List.mem_of_getElem? hi) hold
        | told d choice k answer c hr ht =>
          apply if_neg
          rintro ⟨-, rfl⟩
          exact hS.not_virgin hk hm hr ht hold hv
        | noted c choice env' hr =>
          apply if_neg
          rintro ⟨hver, -⟩
          rw [hk.note c env' hr] at hver
          cases hver
  · rw [hnew]
    exact List.forall_mem_nil _

theorem Untouched.targets_move (hu : Untouched u s R p) (hk : Known u s) (hL : Linked s)
    (hm : Move u s l s') (a' : Actor σ) (env : ServerEnvelope) (targets : List ConnID)
    (ha' : s'.actor R = some a') (h : .deliver env targets ∈ a'.todo) :
    ∀ c ∈ targets, ¬ Plays s' p c := by
  intro c hc hplays
  have hold : ∀ a targets', s.actor R = some a → .deliver env targets' ∈ a.todo →
      c ∈ targets' → False := by
    intro a targets' ha hmem hct
    obtain hold | ⟨sid, -, hcs, -⟩ := Plays.back hm hplays
    · exact hu.targets a env targets' ha hmem c hct hold
    · exact absurd hcs (Nat.ne_of_lt (hk.targets R a env targets' ha hmem c hct))
  obtain ⟨o, ho, hch⟩ := hm.actor_before ha'
  cases hch with
  | kept => exact hold a' targets ho h hc
  | created c' choice gameType players g hl hr hg => cases h
  | pushed a t timers hp hcn => exact hold a targets ho h hc
  | turned a t rest hl hq ht hop => exact absurd h deliver_not_mem_ofOutput
  | ticked a hl ht hop => exact absurd h deliver_not_mem_ofOutput
  | acted a a' i hl hp =>
    obtain ⟨event, rest, ht, -, rfl⟩ | ⟨targets', hmem, hsub⟩ := hp.deliver_mem h
    · obtain ⟨q, hq⟩ := (Hub.mem_connectionsFor _ _ _).mp hc
      rw [(hL.event R a event ho (by rw [ht]; exact List.mem_cons_self)).1] at hq
      have hqp : q = p := (hk.hub R q c hq).move hm |>.2.symm.trans hplays.2
      rw [hqp, hu.entry] at hq
      cases hq
    · exact hold a targets' ho hmem (hsub c hc)
  | flagged a listed stopped timers => exact hold a targets ho h hc

theorem Untouched.reader_move (hu : Untouched u s R p) (hk : Known u s) (hm : Move u s l s')
    (c : ConnID) (hc : Plays s' p c) : ¬ (s'.conn c).reader.visits R := by
  intro hvis
  obtain hold | ⟨sid, -, -, hnew⟩ := Plays.back hm hc
  · obtain hr | ⟨sid, -, -, hr⟩ | ⟨m, -, -, hr⟩ | ⟨choice, e, -, hr⟩ := move_reader hm c
    · rw [hr] at hvis
      exact hu.reader c hold hvis
    · rw [hr] at hvis
      exact hvis
    · rw [hr] at hvis
      obtain ⟨env, h, -⟩ | ⟨gameType, h⟩ | ⟨k, h, hroom, -⟩ := handleMessage_cases s.now (s.conn c) m
      · rw [h] at hvis
        exact hvis
      · rw [h] at hvis
        exact hvis
      · rw [h] at hvis
        rw [hvis.2] at hroom
        exact hu.room c hold hroom
    · obtain h | ⟨rec, -, hload, hrec⟩ := hr.visits_cases hvis
      · exact hu.reader c hold h
      · refine hu.record _ rec (SessionStore.recordOf_of_loadSession _ _ _ _ hload) hrec ?_
        rw [← hk.owner c hold.1]
        exact hold.2
  · rw [hnew] at hvis
    exact hvis

theorem Untouched.closer_move (hu : Untouched u s R p) (hm : Move u s l s') (c : ConnID)
    (hc : Plays s' p c) : ¬ (s'.conn c).closer.visits R := by
  intro hvis
  obtain hold | ⟨sid, -, -, hnew⟩ := Plays.back hm hc
  · obtain h | ⟨sid, -, -, h⟩ | ⟨-, h⟩ | ⟨choice, e, -, h⟩ := move_closer hm c
    · rw [h] at hvis
      exact hu.closer c hold hvis
    · rw [h] at hvis
      exact hvis
    · rw [h] at hvis
      exact hvis
    · obtain h | h := h.visits_cases hvis
      · exact hu.closer c hold h
      · exact hu.room c hold h
  · rw [hnew] at hvis
    exact hvis

theorem Untouched.record_move (hu : Untouched u s R p) (hk : Known u s) (hS : Seated u s)
    (hm : Move u s l s') (hv : Virgin s' R p) (sid : String) (rec : SessionRecord)
    (h : s'.sessions.recordOf sid = some rec) (hrec : rec.roomID = R) : u.owner sid ≠ p := by
  obtain hs | ⟨d, choice, k, answer, target, rfl, hr, ht, hs⟩ |
    ⟨d, choice, room, ttl, -, hc, hs⟩ | hs := move_sessions hm
  · rw [hs] at h
    exact hu.record sid rec h hrec
  · rw [hs, SessionStore.recordOf_saveSession] at h
    split at h
    · next heq =>
      cases h
      have hrec' : k.room = R := hrec
      subst hrec'
      intro howner
      have hplays := hk.target (by rw [hr]; rfl) ht
      refine hS.not_virgin hk hm hr ht ⟨hplays.1, ?_⟩ hv
      rw [hk.owner target hplays.1, ← heq]
      exact howner
    · exact hu.record sid rec h hrec
  · rw [hs, SessionStore.recordOf_saveSession] at h
    split at h
    · next heq =>
      cases h
      have hrec' : room = R := hrec
      subst hrec'
      intro howner
      have hd : d < s.conns := hk.closing d (by rw [hc]; exact Closer.noConfusion)
      refine hu.closer d ⟨hd, ?_⟩ (by rw [hc]; rfl)
      rw [hk.owner d hd, ← heq]
      exact howner
    · exact hu.record sid rec h hrec
  · rw [hs] at h
    exact hu.record sid rec (SessionStore.recordOf_of_sweep _ _ _ _ h) hrec

theorem Untouched.dropped_move (hu : Untouched u s R p) (hk : Known u s) (hm : Move u s l s')
    (a' : Actor σ) (t : Ticket) (ha' : s'.actor R = some a') (ht : t ∈ a'.queue) :
    t.cmd ≠ .disconnect p := by
  obtain ⟨a, ha, hin⟩ | ⟨hp, -⟩ := move_queued hm R a' t ha' ht
  · exact hu.dropped a t ha hin
  · cases hp with
    | call c choice k hr => cases k <;> exact fun h => by cases h
    | drop c choice room hc =>
      intro hcmd
      have hd : c < s.conns := hk.closing c (by rw [hc]; exact Closer.noConfusion)
      refine hu.closer c ⟨hd, ?_⟩ (by rw [hc]; rfl)
      exact Command.disconnect.inj hcmd
    | sweep choice now room rest hw => exact fun h => by cases h
    | grace id i player generation => exact fun h => by cases h

theorem Untouched.move (hu : Untouched u s R p) (hk : Known u s) (hL : Linked s)
    (hS : Seated u s) (hm : Move u s l s') (hv : Virgin s' R p) : Untouched u s' R p where
  room := hu.room_move hk hS hm hv
  entry := hu.entry_move hk hS hm hv
  sent := hu.sent_move hk hL hS hm hv
  targets := hu.targets_move hk hL hm
  reader := hu.reader_move hk hm
  closer := hu.closer_move hm
  record := hu.record_move hk hS hm hv
  dropped := hu.dropped_move hk hm

end Keeps

theorem Seated.tables_move (hS : Seated u s) (hm : Move u s l s') (R : ID) (a' : Actor σ)
    (ha' : s'.actor R = some a') : SeatTable a'.game a'.room := by
  obtain ⟨o, ho, hch⟩ := hm.actor_before ha'
  cases hch with
  | kept => exact hS.tables R a' ho
  | created c choice gameType players g hl hr hg => exact newRoom_seatTable g R gameType s.now
  | pushed a t timers hp hc => exact hS.tables R a ho
  | turned a t rest hl hq htodo hopen =>
    have h := exit_seatTable (step_exit a.game a.room (.command s.now t.cmd)) (hS.tables R a ho)
    exact h
  | ticked a hl htodo hopen =>
    have h := exit_seatTable (step_exit a.game a.room (.tick s.now)) (hS.tables R a ho)
    exact h
  | acted a a' i hl hp =>
    rw [hp.room_eq, hp.game_eq]
    exact hS.tables R a ho
  | flagged a listed stopped timers => exact hS.tables R a ho

theorem Seated.move (hS : Seated u s) (hk : Known u s) (hL : Linked s) (hm : Move u s l s') :
    Seated u s' := by
  have hkeep : ∀ R, s.actor R ≠ none → s'.actor R ≠ none := fun R h hn => h (move_created hm R hn)
  refine ⟨hS.tables_move hm, ?_, ?_, ?_, ?_⟩
  · intro d R ps' h
    obtain ⟨ps, hps, -⟩ | ⟨-, -, hc, -⟩ := move_pass hm d R ps' h
    · exact hkeep R (hS.created d R ps hps)
    · exact hc
  · intro d d' R ps ps' h h'
    obtain ⟨qs, hqs, -⟩ | ⟨hn, -, -, choice, hl⟩ := move_pass hm d R ps h
    · obtain ⟨qs', hqs', -⟩ | ⟨hn', -⟩ := move_pass hm d' R ps' h'
      · exact hS.unique d d' R qs qs' hqs hqs'
      · exact absurd hn' (hS.created d R qs hqs)
    · obtain ⟨qs', hqs', -⟩ | ⟨-, -, -, choice', hl'⟩ := move_pass hm d' R ps' h'
      · exact absurd hn (hS.created d' R qs' hqs')
      · rw [hl] at hl'
        cases hl'
        rfl
  · intro d
    obtain hr | ⟨sid, -, -, hr⟩ | ⟨m, -, -, hr⟩ | ⟨choice, e, -, hr⟩ := move_reader hm d
    · rw [hr]
      exact hS.nodup d
    · rw [hr]
      exact List.nodup_nil
    · rw [hr, (handleMessage_pass _ _ _).2]
      exact List.nodup_nil
    · obtain hsub | ⟨room, a, ha, hpc⟩ := hr.seats_cases
      · exact hsub.nodup (hS.nodup d)
      · rw [hpc]
        exact (hS.tables room a ha).nodup
  · intro R p hv
    exact (hS.virgin R p (hv.back hm)).move hk hL hS hm hv

theorem seated_start (u : Setup σ) : Seated u ({} : Sys σ) where
  tables := fun R a h => by cases h
  created := fun d R ps h => by cases h
  unique := fun d d' R ps ps' h => by cases h
  nodup := fun d => List.nodup_nil
  virgin := fun R p _ =>
    { room := fun c hc => absurd hc.1 (Nat.not_lt_zero c)
      entry := rfl
      sent := fun c hc => absurd hc.1 (Nat.not_lt_zero c)
      targets := fun a env targets h => by cases h
      reader := fun c hc => absurd hc.1 (Nat.not_lt_zero c)
      closer := fun c hc => absurd hc.1 (Nat.not_lt_zero c)
      record := fun sid rec h => by cases h
      dropped := fun a t h => by cases h }

/-! ## The invariants of every run -/

structure Sound (u : Setup σ) (s : Sys σ) : Prop where
  known : Known u s
  linked : Linked s
  seated : Seated u s

theorem Sound.move (hs : Sound u s) (hm : Move u s l s') : Sound u s' where
  known := hs.known.move hm
  linked := hs.linked.move hm
  seated := hs.seated.move hs.known hs.linked hm

theorem sound_start (u : Setup σ) : Sound u ({} : Sys σ) where
  known := known_start u
  linked := linked_start
  seated := seated_start u

/-- What every step that meets `C` preserves in a sound state holds at the end
of every run of the node whose steps all meet `C`. -/
theorem run_step_invariant (C : Sys σ → Label → Prop) (P : Sys σ → Prop)
    (hstep : ∀ s l s', C s l → Sound u s → P s → step u s l = some s' → P s') (hstart : P {})
    (ls : List Label) (s : Sys σ) (hc : Meets (step u) C {} ls) (hr : run u ls = some s) :
    Sound u s ∧ P s := by
  refine exec_invariant (step u) C (fun s => Sound u s ∧ P s) ?_ {} s ⟨sound_start u, hstart⟩ ls
    hc hr
  intro s l s' hl hs h
  exact ⟨hs.1.move (step_move u s s' l h), hstep s l s' hl hs.1 hs.2 h⟩

/-- The same for what the moves are known to do. -/
theorem run_invariant (C : Sys σ → Label → Prop) (P : Sys σ → Prop)
    (hstep : ∀ s l s', C s l → Sound u s → P s → Move u s l s' → P s') (hstart : P {})
    (ls : List Label) (s : Sys σ) (hc : Meets (step u) C {} ls) (hr : run u ls = some s) :
    Sound u s ∧ P s :=
  run_step_invariant C P
    (fun s l s' hl hs hP h => hstep s l s' hl hs hP (step_move u s s' l h)) hstart ls s hc hr

/-- What every move preserves in a sound state holds at the end of every run. -/
theorem run_always (P : Sys σ → Prop)
    (hstep : ∀ s l s', Sound u s → P s → Move u s l s' → P s') (hstart : P {})
    (ls : List Label) (s : Sys σ) (hr : run u ls = some s) : Sound u s ∧ P s :=
  run_invariant (fun _ _ => True) P (fun s l s' _ hs hP hm => hstep s l s' hs hP hm) hstart ls s
    (meets_of_forall (step u) _ (fun _ _ => trivial) {} ls) hr

end Seating
end RealtimeEngine.Transport
