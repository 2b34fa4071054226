import RealtimeEngine.Room.Replay
import RealtimeEngine.Transport.Delivery
import RealtimeEngine.Transport.Lives

/-! Where the messages of a node come from. Every state message about a room on
any channel comes out of the trace of the room's life: it is one of its
broadcasts, or it carries one of its answers. So what holds of every run of a room
holds of what the clients of a node are told. -/
namespace RealtimeEngine.Transport
open Foundations Domain Rooms Storage Matchmaking
set_option autoImplicit false
set_option maxHeartbeats 250000

section Provenance
variable {σ : Type} {u : Setup σ} {s s' : Sys σ} {l : Label}

/-! ## Where a message comes from -/

/-- A state message about the room `R`, out of a trace `h` of the room. The last
kind is the `ROOM_STARTED` of a seat whose `Snapshot` failed. -/
inductive Traced (R : ID) (h : List (Input × Output)) : ServerEnvelope → Prop
  | broadcast (i : Input) (ev : RoomEvent) (now : Time) (hin : (i, .broadcast ev) ∈ h) :
      Traced R h (buildEnvelope now ev)
  | answered (i : Input) (res : CmdResult) (k : Call) (now : Time) (hk : k.room = R)
      (hin : (i, .reply res) ∈ h)
      (hs : snapshotOf (i, .reply res) = some (res.serverSeq, res.snapshot)) :
      Traced R h (tellEnvelope now k (some res))
  | blank (p : PlayerID) (conn : ConnID) (rest : List PlayerID) (now : Time) :
      Traced R h (tellEnvelope now (.seat R p conn rest) none)

theorem Traced.mono {R : ID} {h h' : List (Input × Output)} {env : ServerEnvelope}
    (ht : Traced R h env) (hsub : ∀ e ∈ h, e ∈ h') : Traced R h' env := by
  cases ht with
  | broadcast i ev now hin => exact .broadcast i ev now (hsub _ hin)
  | answered i res k now hk hin hs => exact .answered i res k now hk (hsub _ hin) hs
  | blank p conn rest now => exact .blank p conn rest now

/-- Everything that is on its way from the room `R` comes out of the trace `h`. -/
structure Explained (s : Sys σ) (R : ID) (a : Actor σ) (h : List (Input × Output)) : Prop where
  event : ∀ ev, .broadcast ev ∈ a.todo → ∃ i, (i, .broadcast ev) ∈ h
  message : ∀ env targets, .deliver env targets ∈ a.todo → Traced R h env
  answer : ∀ d k res, (k, some res) ∈ holding s d → k.room = R → (k.target d).isSome = true →
    ∃ i, (i, .reply res) ∈ h ∧ snapshotOf (i, .reply res) = some (res.serverSeq, res.snapshot)
  failed : ∀ d k, (k, none) ∈ holding s d → k.room = R → (k.target d).isSome = true →
    k.rest.isSome = true
  sent : ∀ c env, env ∈ (s.conn c).sent → env.type.versioned = true → env.roomID = R →
    Traced R h env

/-- What a goroutine holds for a client is an answer of a room that exists. -/
theorem Sound.held_room (hS : Sound u s) {d : ConnID} {k : Call} {answer : Option CmdResult}
    (h : (k, answer) ∈ holding s d) (ht : (k.target d).isSome = true) :
    s.actor k.room ≠ none := by
  intro hnone
  have hcall := call_of_holding h
  have hd : d < s.conns := hS.known.busy d fun hi => by
    rw [hi] at hcall
    cases hcall
  have hfree := hS.seated.virgin k.room (s.conn d).playerID (Or.inl hnone)
  have hvisits := hfree.reader d ⟨hd, rfl⟩
  obtain ⟨ch, res, hr, -⟩ | ⟨stage, hr⟩ := (mem_holding s d k answer).mp h
  · rw [hr] at hvisits
    cases k with
    | seat room p conn rest => exact hS.seated.created d room _ (by rw [hr]; rfl) hnone
    | join room p rest => cases ht
    | _ => exact hvisits ⟨rfl, rfl⟩
  · rw [hr] at hvisits
    cases k with
    | seat room p conn rest =>
      cases stage <;> exact hS.seated.created d room _ (by rw [hr]; rfl) hnone
    | join room p rest => cases ht
    | _ => exact hvisits ⟨rfl, rfl⟩

/-- A state message put on a channel was being delivered by its room, or is told
by a goroutine that holds an answer of it. -/
theorem Appends.source (hS : Sound u s) {c : ConnID} {env : ServerEnvelope}
    {given : Option (ID × ℕ)} (happ : Appends s l c env given) (hv : env.type.versioned = true) :
    (∃ a targets, s.actor env.roomID = some a ∧ .deliver env targets ∈ a.todo) ∨
    ∃ d k answer, (k, answer) ∈ holding s d ∧ k.target d = some c ∧ k.room = env.roomID ∧
      env = tellEnvelope s.now k answer := by
  cases happ with
  | delivered id i a env targets rest c ha ht hc =>
    have hmem : Op.deliver env targets ∈ a.todo := by
      rw [ht]
      exact List.mem_cons_self
    refine Or.inl ⟨a, targets, ?_, hmem⟩
    rw [(hS.linked.message id a env targets ha hmem).1]
    exact ha
  | told d choice k answer c hr ht =>
    exact Or.inr ⟨d, k, answer, (mem_holding s d k answer).mpr (Or.inr ⟨_, hr⟩), ht, rfl, rfl⟩
  | noted d choice env hr =>
    rw [hS.known.note c env hr] at hv
    cases hv

/-! ## One move -/

/-- The answer that a turn gives to a call for a snapshot. -/
theorem Answers.snapshot {d : ConnID} {k : Call} {res : CmdResult} {a : Actor σ} {t : Ticket}
    {rest : List Ticket} (h : Answers s s' l d k res a t rest) (ht : (k.target d).isSome = true) :
    snapshotOf (.command s.now t.cmd, .reply res) = some (res.serverSeq, res.snapshot) := by
  rw [h.cmd]
  cases k with
  | resume room => exact if_pos h.ok
  | seat room p conn rest => exact if_pos h.ok
  | resync room => exact if_pos h.ok
  | join room p rest => cases ht
  | act room action => cases ht

/-- What a room has to do was there before, or comes out of its trace. -/
theorem Explained.todo {R : ID} {a a' : Actor σ} {h h' : List (Input × Output)}
    (hx : Explained s R a h) (hl : Life s l R a h a' h') :
    (∀ ev, .broadcast ev ∈ a'.todo → ∃ i, (i, .broadcast ev) ∈ h') ∧
    ∀ env targets, .deliver env targets ∈ a'.todo → Traced R h' env := by
  cases hl with
  | turn i ch queue hi ht =>
    refine ⟨fun ev hin => ⟨i, ?_⟩, fun env targets hin => absurd hin deliver_not_mem_ofOutput⟩
    exact List.mem_append_right _ (List.mem_map_of_mem (broadcast_mem_ofOutput hin))
  | acted a' i hl hp =>
    refine ⟨fun ev hin => hx.event ev (hp.broadcast_mem hin), fun env targets hin => ?_⟩
    obtain ⟨ev, rest, ht, rfl, -⟩ | ⟨targets', hmem, -⟩ := hp.deliver_mem hin
    · obtain ⟨j, hj⟩ := hx.event ev (by rw [ht]; exact List.mem_cons_self)
      exact .broadcast j ev s.now hj
    · exact hx.message env targets' hmem
  | kept a' hn hl' hg hr ht =>
    rw [ht]
    exact ⟨hx.event, hx.message⟩

/-- A move keeps everything explained, by a trace that has grown by what the
room has put out. -/
theorem Explained.move (hS : Sound u s) (hm : Move u s l s') {R : ID} {a a' : Actor σ}
    {h h' : List (Input × Output)} (hx : Explained s R a h) (ha : s.actor R = some a)
    (hl : Life s l R a h a' h') : Explained s' R a' h' := by
  obtain ⟨hevent, hmessage⟩ := hx.todo hl
  refine ⟨hevent, hmessage, ?_, ?_, ?_⟩
  · rintro d k res hin rfl ht
    obtain hold | ⟨b, t, rest, res', hres, -, hans⟩ | ⟨hnone, -⟩ :=
      move_holding hS.linked hm d k _ hin
    · obtain ⟨i, hi, hsnap⟩ := hx.answer d k res hold rfl ht
      exact ⟨i, hl.mono _ hi, hsnap⟩
    · cases hres
      have hb := hans.actor
      rw [ha] at hb
      cases hb
      have hlab := hans.label
      subst hlab
      exact ⟨_, hl.output (.command t rest hans.queue) hans.output, hans.snapshot ht⟩
    · cases hnone
  · rintro d k hin rfl ht
    obtain hold | ⟨b, t, rest, res', hres, -⟩ | ⟨-, hseat, -⟩ := move_holding hS.linked hm d k _ hin
    · exact hx.failed d k hold rfl ht
    · cases hres
    · exact hseat
  · rintro c env hin hv rfl
    obtain ⟨hsent, -⟩ | ⟨env', given, happ, hsent, -⟩ := move_sent hm hS.known.fresh c
    · rw [hsent] at hin
      exact (hx.sent c env hin hv rfl).mono hl.mono
    · rw [hsent] at hin
      obtain hin | hin := List.mem_append.mp hin
      · exact (hx.sent c env hin hv rfl).mono hl.mono
      · cases List.mem_singleton.mp hin
        obtain ⟨b, targets, hb, hmem⟩ | ⟨d, k, answer, hheld, ht, hroom, rfl⟩ :=
          happ.source hS hv
        · rw [ha] at hb
          cases hb
          exact (hx.message env targets hmem).mono hl.mono
        · cases answer with
          | none =>
            have hseat := hx.failed d k hheld hroom (by rw [ht]; rfl)
            cases k with
            | seat room p conn rest =>
              cases hroom
              exact .blank p conn rest s.now
            | _ => cases hseat
          | some res =>
            obtain ⟨i, hi, hsnap⟩ := hx.answer d k res hheld hroom (by rw [ht]; rfl)
            exact .answered i res k s.now hroom (hl.mono _ hi) hsnap

/-- Nothing is on its way from a room that was just made. -/
theorem explained_created (hS : Sound u s) (hm : Move u s l s') {R : ID} {a' : Actor σ}
    (hnone : s.actor R = none) (htodo : a'.todo = []) : Explained s' R a' [] where
  event := by
    intro ev hin
    rw [htodo] at hin
    cases hin
  message := by
    intro env targets hin
    rw [htodo] at hin
    cases hin
  answer := by
    rintro d k res hin rfl ht
    obtain hold | ⟨b, t, rest, res', -, -, hans⟩ | ⟨hn, -⟩ := move_holding hS.linked hm d k _ hin
    · exact absurd hnone (hS.held_room hold ht)
    · rw [hans.actor] at hnone
      cases hnone
    · cases hn
  failed := by
    rintro d k hin rfl ht
    obtain hold | ⟨b, t, rest, res', hres, -⟩ | ⟨-, hseat, -⟩ := move_holding hS.linked hm d k _ hin
    · exact absurd hnone (hS.held_room hold ht)
    · cases hres
    · exact hseat
  sent := by
    rintro c env hin hv rfl
    have hold : env ∉ (s.conn c).sent := by
      intro hold
      have hc : c < s.conns := hS.known.born c fun he => by
        rw [he] at hold
        cases hold
      have hfree := hS.seated.virgin env.roomID (s.conn c).playerID (Or.inl hnone)
      have hno := hfree.sent c ⟨hc, rfl⟩ env hold
      simp [versionOf, hv] at hno
    obtain ⟨hsent, -⟩ | ⟨env', given, happ, hsent, -⟩ := move_sent hm hS.known.fresh c
    · rw [hsent] at hin
      exact absurd hin hold
    · rw [hsent] at hin
      obtain hin | hin := List.mem_append.mp hin
      · exact absurd hin hold
      · cases List.mem_singleton.mp hin
        obtain ⟨b, targets, hb, -⟩ | ⟨d, k, answer, hheld, ht, hroom, -⟩ := happ.source hS hv
        · rw [hnone] at hb
          cases hb
        · rw [← hroom] at hnone
          exact absurd hnone (hS.held_room hheld (by rw [ht]; rfl))

/-! ## Whole runs -/

theorem run_explained (u : Setup σ) (ls : List Label) (s : Sys σ) (hr : run u ls = some s) :
    Chronicled u Explained s :=
  run_chronicled u (Sound u) (run_sound u) Explained
    (fun _ _ _ _ _ hS hm hnone _ htodo => explained_created hS hm hnone htodo)
    (fun _ _ _ _ _ _ _ _ hS hm ha hl hx => hx.move hS hm ha hl) ls s hr

/-- **The rooms of a node are rooms.** In every run of a node, of any length and
interleaving, each room is the room machine of a registered game after some list
of inputs, and every state message about the room on any channel is a broadcast
out of the trace of these inputs or carries a snapshot that the trace answered. -/
theorem node_runs_rooms (u : Setup σ) (ls : List Label) (s : Sys σ) (hr : run u ls = some s)
    (R : ID) (a : Actor σ) (ha : s.actor R = some a) :
    ∃ gameType t₀ is, u.games gameType = some a.game ∧
      a.room = final (Rooms.step a.game) (newRoom σ R gameType t₀) is ∧
      ∀ c, ∀ env ∈ (s.conn c).sent, env.type.versioned = true → env.roomID = R →
        Traced R (trace (Rooms.step a.game) (newRoom σ R gameType t₀) is) env := by
  obtain ⟨gameType, t₀, is, hlive, hx⟩ := run_explained u ls s hr R a ha
  exact ⟨gameType, t₀, is, hlive.game, hlive.room, fun c env hin hv hroom =>
    hx.sent c env hin hv hroom⟩

/-! ## What the messages say -/

/-- A state message agrees with a log of the room's game: a diff is the result of
the call that made its version, and a snapshot, if there is one, is the state of
the version it carries. -/
structure Accords (g : Game σ) (R : ID) (s₀ : Option σ) (log : List (GameCall × Result σ))
    (env : ServerEnvelope) : Prop where
  diff : env.type = .event .stateDiff → ∃ n e now, log[n]? = some e ∧
    env = buildEnvelope now (diffOf R (n + 1) e.1 e.2)
  snapshot : env.type ≠ .event .stateDiff → ∀ doc, env.snapshot = some doc →
    env.serverSeq ≤ log.length ∧ stateBytes g (versionState s₀ log env.serverSeq) = some doc

/-- Only the event that announces the start carries a snapshot. -/
theorem exit_event_snapshot {g : Game σ} {r r' : Room σ} {i : Input} {outs : List Output}
    (he : Exit g r i r' outs) (ev : RoomEvent) (ho : .broadcast ev ∈ outs) :
    ev.snapshot = none ∨ ev.kind = .roomStarted := by
  cases he with
  | stopped | tickIgnored | graceIgnored => cases ho
  | rejected | rejoined | ignored | left | emptied | snapshot => cases List.mem_singleton.mp ho
  | forfeited | ticked =>
    cases List.mem_singleton.mp ho
    exact Or.inl rfl
  | seated | initFailed | applied | forceClosed =>
    obtain h | h := List.mem_pair.mp ho
    · cases h
      exact Or.inl rfl
    · cases h
  | started =>
    obtain h | h := List.mem_cons.mp ho
    · cases h
      exact Or.inl rfl
    · obtain h | h := List.mem_pair.mp h
      · cases h
        exact Or.inr rfl
      · cases h
  | dropped now p cmd slot hopen hc hs hb =>
    obtain hin | hin := List.mem_append.mp ho
    · obtain h | h := List.mem_pair.mp hin
      · cases h
        exact Or.inl rfl
      · cases h
    · split at hin
      · cases List.mem_singleton.mp hin
      · cases hin
  | reconnected now p slot hopen hs =>
    obtain hin | hin := List.mem_append.mp ho
    · split at hin
      · cases hin
      · cases List.mem_singleton.mp hin
        exact Or.inl rfl
    · cases List.mem_singleton.mp hin

/-- The snapshot of an event in a trace is one the trace hands out. -/
theorem snapshotOf_event {g : Game σ} {r : Room σ} {is : List Input} {i : Input} {ev : RoomEvent}
    (hin : (i, .broadcast ev) ∈ trace (Rooms.step g) r is) {doc : Json}
    (hdoc : ev.snapshot = some doc) :
    snapshotOf (i, .broadcast ev) = some (ev.serverSeq, some doc) := by
  have hkind : ∀ e ∈ trace (Rooms.step g) r is, ∀ ev, e.2 = .broadcast ev →
      ev.snapshot = none ∨ ev.kind = .roomStarted := by
    refine trace_forall (Rooms.step g)
      (fun e => ∀ ev, e.2 = .broadcast ev → ev.snapshot = none ∨ ev.kind = .roomStarted) ?_ r is
    rintro r i o ho ev rfl
    exact exit_event_snapshot (step_exit g r i) ev ho
  obtain h | h := hkind _ hin ev rfl
  · rw [hdoc] at h
    cases h
  · rw [snapshotOf, if_pos h, hdoc]

/-- The snapshot a message carries is one that the trace it comes from hands out. -/
theorem Traced.snapshotOf {g : Game σ} {r : Room σ} {is : List Input} {R : ID}
    {env : ServerEnvelope} (ht : Traced R (trace (Rooms.step g) r is) env) {doc : Json}
    (hdoc : env.snapshot = some doc) :
    ∃ e ∈ trace (Rooms.step g) r is, Rooms.snapshotOf e = some (env.serverSeq, some doc) := by
  cases ht with
  | broadcast i ev now hin => exact ⟨_, hin, snapshotOf_event hin hdoc⟩
  | answered i res k now hk hin hs =>
    refine ⟨_, hin, hs.trans ?_⟩
    have hres : res.snapshot = some doc := hdoc
    rw [hres]
    rfl
  | blank p conn rest now => cases hdoc

/-- A diff that a message carries is one of the trace it comes from. -/
theorem Traced.diffEntry {R : ID} {h : List (Input × Output)} {env : ServerEnvelope}
    (ht : Traced R h env) (hd : env.type = .event .stateDiff) :
    ∃ c ev now, (c, ev) ∈ diffEntries h ∧ env = buildEnvelope now ev := by
  cases ht with
  | broadcast i ev now hin =>
    have hkind : ev.kind = .stateDiff := MessageType.event.inj hd
    refine ⟨i.call, ev, now, List.mem_filterMap.mpr ⟨_, hin, if_pos hkind⟩, rfl⟩
  | answered i res k now hk hin hs => cases k <;> cases hd
  | blank p conn rest now => cases hd

theorem Traced.accords {g : Game σ} {r : Room σ} {is : List Input} {R : ID}
    {env : ServerEnvelope} {players : List PlayerID} {s₀ : Option σ}
    {log : List (GameCall × Result σ)} (ht : Traced R (trace (Rooms.step g) r is) env)
    (hr : Replayed g (final (Rooms.step g) r is) (trace (Rooms.step g) r is) players s₀ log)
    (hid : r.id = R) : Accords g R s₀ log env where
  diff := by
    intro hd
    obtain ⟨c, ev, now, hin, rfl⟩ := ht.diffEntry hd
    rw [hr.diffs, final_id, hid] at hin
    obtain ⟨n, hn⟩ := List.mem_iff_getElem?.mp hin
    rw [announce_getElem?] at hn
    obtain ⟨e, he, heq⟩ := Option.map_eq_some_iff.mp hn
    cases heq
    exact ⟨n, e, now, he, rfl⟩
  snapshot := by
    intro _ doc hdoc
    obtain ⟨e, hin, hsnap⟩ := ht.snapshotOf hdoc
    obtain h | ⟨hle, hbytes⟩ := hr.shown e hin _ hsnap
    · cases (Prod.mk.inj h).2
    · exact ⟨hle, hbytes.symm⟩

/-- No channel has a diff or a snapshot of the room. -/
def Unheard (s : Sys σ) (R : ID) : Prop :=
  ∀ c, ∀ env ∈ (s.conn c).sent, env.type.versioned = true → env.roomID = R →
    env.type ≠ .event .stateDiff ∧ env.snapshot = none

/-- The room and everything said about it on any channel agree with a log of its game. -/
structure Documented (s : Sys σ) (R : ID) (a : Actor σ) (players : List PlayerID) (s₀ : Option σ)
    (log : List (GameCall × Result σ)) : Prop where
  played : GameLog a.game players s₀ log
  seats : players <+: a.room.seatOrder
  state : a.room.state = stateAfter Result.newState s₀ log
  seq : a.room.serverSeq = log.length
  accords : ∀ c, ∀ env ∈ (s.conn c).sent, env.type.versioned = true → env.roomID = R →
    Accords a.game R s₀ log env

theorem Chronicled.documented (hC : Chronicled u Explained s) {R : ID} {a : Actor σ}
    (ha : s.actor R = some a) :
    u.games a.room.gameType = some a.game ∧
    (a.room.state = none ∧ Unheard s R ∨ ∃ players s₀ log, Documented s R a players s₀ log) := by
  obtain ⟨gameType, t₀, is, hlive, hx⟩ := hC R a ha
  have htype : a.room.gameType = gameType := by
    rw [hlive.room, final_gameType]
    rfl
  refine ⟨by rw [htype]; exact hlive.game, ?_⟩
  obtain hu | ⟨players, s₀, log, hrep⟩ := run_replayed a.game R gameType t₀ is
  · left
    rw [hlive.room]
    refine ⟨hu.state, fun c env hin hv hroom => ?_⟩
    have ht := hx.sent c env hin hv hroom
    refine ⟨fun hd => ?_, ?_⟩
    · obtain ⟨c, ev, now, hin, -⟩ := ht.diffEntry hd
      rw [lifeTrace, hu.diffs] at hin
      cases hin
    · cases hdoc : env.snapshot with
      | none => rfl
      | some doc =>
        obtain ⟨e, hin, hsnap⟩ := Traced.snapshotOf ht hdoc
        cases (Prod.mk.inj (hu.blank e hin _ hsnap)).2
  · right
    refine ⟨players, s₀, log, hrep.played, ?_, ?_, ?_, ?_⟩
    · rw [hlive.room]
      exact hrep.seats
    · rw [hlive.room]
      exact hrep.state
    · rw [hlive.room]
      exact hrep.seq
    · intro c env hin hv hroom
      exact Traced.accords (hx.sent c env hin hv hroom) hrep rfl

/-- **State messages are true.** In every run of a node, of any length and
interleaving, and for each of its rooms: the game was not started and no channel
has a diff or a snapshot of it; or there is one log of the game by itself such
that the room's state and version are those the log leaves and every state
message about the room, on any channel, agrees with the log. -/
theorem messages_truthful (u : Setup σ) (ls : List Label) (s : Sys σ) (hr : run u ls = some s)
    (R : ID) (a : Actor σ) (ha : s.actor R = some a) :
    (a.room.state = none ∧ ∀ c, ∀ env ∈ (s.conn c).sent, env.type.versioned = true →
      env.roomID = R → env.type ≠ .event .stateDiff ∧ env.snapshot = none) ∨
    ∃ players s₀ log, GameLog a.game players s₀ log ∧ players <+: a.room.seatOrder ∧
      a.room.state = stateAfter Result.newState s₀ log ∧ a.room.serverSeq = log.length ∧
      ∀ c, ∀ env ∈ (s.conn c).sent, env.type.versioned = true → env.roomID = R →
        Accords a.game R s₀ log env := by
  obtain ⟨-, hquiet | ⟨players, s₀, log, h⟩⟩ := (run_explained u ls s hr).documented ha
  · exact Or.inl hquiet
  · exact Or.inr ⟨players, s₀, log, h.played, h.seats, h.state, h.seq, h.accords⟩

end Provenance

/-! ## The first move of a match -/

section Scenario
set_option maxRecDepth 100000

/-- The run in which alice has moved once, with what was computed of its end. -/
theorem firstMove_ends (test : Sys GameState → Actor GameState → Bool)
    (h : ((run aliceAndBob (seated ++ plays 0 0 0 1 5)).any fun s =>
      (s.actor "r").any fun a => test s a) = true) :
    ∃ s a, run aliceAndBob (seated ++ plays 0 0 0 1 5) = some s ∧ s.actor "r" = some a ∧
      test s a = true := by
  obtain ⟨s, hr, h⟩ := (Option.any_eq_true _ _).mp h
  obtain ⟨a, ha, h⟩ := (Option.any_eq_true _ _).mp h
  exact ⟨s, a, hr, ha, h⟩

/-- Two state messages about the room are on bob's channel, and the room accounts for both. -/
theorem first_move_traced : ∃ s a, run aliceAndBob (seated ++ plays 0 0 0 1 5) = some s ∧
    s.actor "r" = some a ∧
    ((s.conn 1).sent.filter fun env => env.type.versioned && env.roomID = "r").length = 2 ∧
    ∃ gameType t₀ is, aliceAndBob.games gameType = some a.game ∧
      a.room = final (Rooms.step a.game) (newRoom GameState "r" gameType t₀) is ∧
      ∀ c, ∀ env ∈ (s.conn c).sent, env.type.versioned = true → env.roomID = "r" →
        Traced "r" (trace (Rooms.step a.game) (newRoom GameState "r" gameType t₀) is) env := by
  obtain ⟨s, a, hr, ha, h⟩ := firstMove_ends (fun s _ => decide
    (((s.conn 1).sent.filter fun env => env.type.versioned && env.roomID = "r").length = 2))
    (by decide +kernel)
  exact ⟨s, a, hr, ha, of_decide_eq_true h, node_runs_rooms aliceAndBob _ s hr "r" a ha⟩

/-- The game has begun, so there is a log, and it has one entry. -/
theorem first_move_logged : ∃ s a, run aliceAndBob (seated ++ plays 0 0 0 1 5) = some s ∧
    s.actor "r" = some a ∧ ∃ players s₀ log, GameLog a.game players s₀ log ∧ log.length = 1 ∧
      ∀ c, ∀ env ∈ (s.conn c).sent, env.type.versioned = true → env.roomID = "r" →
        Accords a.game "r" s₀ log env := by
  obtain ⟨s, a, hr, ha, h⟩ := firstMove_ends
    (fun _ a => decide (a.room.serverSeq = 1) && a.room.state.isSome) (by decide +kernel)
  obtain ⟨hseq, hstate⟩ := Bool.and_eq_true_iff.mp h
  obtain ⟨hnone, -⟩ | ⟨players, s₀, log, hlog, -, -, hlen, hall⟩ :=
    messages_truthful aliceAndBob _ s hr "r" a ha
  · rw [hnone] at hstate
    cases hstate
  · exact ⟨s, a, hr, ha, players, s₀, log, hlog, hlen.symm.trans (of_decide_eq_true hseq), hall⟩

end Scenario
end RealtimeEngine.Transport
