import RealtimeEngine.Transport.Connected

/-! Several nodes that share one session store. Each runs as before, on its own
connections and rooms; what it saves and loads is in the shared store, where a
record may expire at any time. Room IDs are ULIDs: no two rooms of the cluster
have the same one. -/
namespace RealtimeEngine.Transport
open Foundations Domain Rooms Storage Matchmaking
set_option autoImplicit false
set_option maxHeartbeats 250000

section Housed
variable {σ : Type} {u : Setup σ} {s s' : Sys σ} {l : Label}

/-! ## The rooms a node speaks of -/

/-- The room a goroutine is busy with. -/
def Reader.room : Reader → Option ID
  | .submit k | .await k _ | .tell _ k _ => some k.room
  | .status R | .seat R _ => some R
  | .waitClosed _ rest => rest.map Prod.fst
  | _ => none

def Closer.room : Closer → Option ID
  | .unregister R | .submit R | .await R _ | .bind R => some R
  | _ => none

/-- Every room that the node's goroutines are busy with is one of its own. -/
structure Housed (s : Sys σ) : Prop where
  pointer : ∀ c R, (s.conn c).room = some R → (s.actor R).isSome = true
  reader : ∀ c R, (s.conn c).reader.room = some R → (s.actor R).isSome = true
  closer : ∀ c R, (s.conn c).closer.room = some R → (s.actor R).isSome = true

theorem move_actor_isSome (hm : Move u s l s') (R : ID) (h : (s.actor R).isSome = true) :
    (s'.actor R).isSome = true := by
  have hch := move_actor hm R
  generalize s.actor R = o at hch h
  generalize s'.actor R = o' at hch ⊢
  cases hch with
  | kept => exact h
  | created => rfl
  | pushed => rfl
  | turned => rfl
  | ticked => rfl
  | acted => rfl
  | flagged => rfl

theorem listed_isSome (s : Sys σ) (R : ID) (h : s.listed R = true) : (s.actor R).isSome = true := by
  unfold Sys.listed at h
  cases ha : s.actor R with
  | none =>
    rw [ha] at h
    cases h
  | some a => rfl

theorem failed_room (now : Time) (e : Err) (k : Call) (R : ID)
    (h : (k.failed now e).room = some R) : k.room = R := by
  cases k with
  | seat room p conn rest => exact Option.some.inj h
  | _ => cases h

theorem joining_room (room : ID) (players : List PlayerID) : (joining room players).room = some room := by
  cases players <;> rfl

theorem succeeded_room (res : CmdResult) (k : Call) (R : ID)
    (h : (k.succeeded res).room = some R) : k.room = R := by
  cases k with
  | resume room => exact Option.some.inj h
  | seat room p conn rest => exact Option.some.inj h
  | resync room => exact Option.some.inj h
  | join room p rest =>
    rw [Call.succeeded, joining_room] at h
    exact Option.some.inj h
  | act room a => cases h

theorem after_room (rest : Option (ID × List PlayerID)) : (Reader.after rest).room = rest.map Prod.fst := by
  cases rest <;> rfl

theorem rest_room (k : Call) (R : ID) (h : k.rest.map Prod.fst = some R) : k.room = R := by
  cases k with
  | seat room p conn rest => exact Option.some.inj h
  | _ => cases h

/-- A goroutine turns to a room it was busy with, to one that it found in the
manager's map, or to one that it has just created. -/
theorem ReaderStep.room_cases {c : ConnID} {pc pc' : Reader} {e : Effect σ} {R : ID}
    (h : ReaderStep u s c pc e pc') (hr : pc'.room = some R) :
    pc.room = some R ∨ s.listed R = true ∨ ∃ gameType g, e = .createRoom R gameType g := by
  cases h with
  | found rec hl =>
    cases hr
    exact Or.inr (Or.inl hl)
  | submitted k ha => exact Or.inl hr
  | refused k hs => exact Or.inl (congrArg some (failed_room _ _ k R hr))
  | failed k ch err hs => exact Or.inl (congrArg some (failed_room _ _ k R hr))
  | succeeded k ch res hres he => exact Or.inl (congrArg some (succeeded_room _ k R hr))
  | setRoom k answer target ht => exact Or.inl hr
  | registered k answer target ht => exact Or.inl hr
  | bound k answer target ht => exact Or.inl hr
  | told k answer target pc ht hp =>
    rw [hp] at hr
    refine Or.inl (congrArg some (rest_room k R ?_))
    split at hr
    · rwa [after_room] at hr
    · exact hr
  | sent env pc hp =>
    rw [hp] at hr
    split at hr <;> cases hr
  | created gameType players id g hg hn =>
    rw [joining_room] at hr
    cases hr
    exact Or.inr (Or.inr ⟨gameType, g, rfl⟩)
  | observed room a ha ht => exact Or.inl hr
  | skipped room p rest hp => exact Or.inl hr
  | popped room p rest conn hp => exact Or.inl hr
  | waited target rest hd =>
    rw [after_room] at hr
    exact Or.inl hr
  | _ => cases hr

theorem CloserStep.room_cases {c : ConnID} {pc pc' : Closer} {e : Effect σ} {R : ID}
    (h : CloserStep u s c pc e pc') (hr : pc'.room = some R) :
    pc.room = some R ∨ (s.conn c).room = some R := by
  cases h with
  | roomed room hroom =>
    cases hr
    exact Or.inr hroom
  | unregistered room => exact Or.inl hr
  | submitted room ha => exact Or.inl hr
  | refused room hs => exact Or.inl hr
  | answered room ch => exact Or.inl hr
  | _ => cases hr

theorem handleMessage_room (now : Time) (x : Conn) (m : Incoming) (R : ID)
    (h : (handleMessage now x m).room = some R) : x.room = some R := by
  obtain ⟨env, hm, -⟩ | ⟨gameType, hm⟩ | ⟨k, hm, hk, -⟩ := handleMessage_cases now x m
  · rw [hm] at h
    cases h
  · rw [hm] at h
    cases h
  · rw [hm] at h
    exact hk.trans h

theorem Housed.move (hh : Housed s) (hm : Move u s l s') : Housed s' where
  pointer := by
    intro c R h
    apply move_actor_isSome hm
    obtain hr | ⟨sid, -, -, hr⟩ | ⟨d, choice, k, answer, -, hr, -, hroom⟩ := move_room hm c
    · exact hh.pointer c R (hr.symm.trans h)
    · rw [hr] at h
      cases h
    · rw [hroom] at h
      refine hh.reader d R ?_
      rw [hr]
      exact h
  reader := by
    intro c R h
    obtain hr | ⟨sid, -, -, hr⟩ | ⟨m, -, -, hr⟩ | ⟨choice, -, rfl, -⟩ := move_reader hm c
    · rw [hr] at h
      exact move_actor_isSome hm R (hh.reader c R h)
    · rw [hr] at h
      cases h
    · rw [hr] at h
      exact move_actor_isSome hm R (hh.pointer c R (handleMessage_room _ _ _ _ h))
    · obtain ⟨e, pc, hstep, rfl⟩ := hm.run_inv
      rw [goto_reader_self] at h
      obtain hold | hl | ⟨gameType, g, rfl⟩ := hstep.room_cases h
      · exact move_actor_isSome hm R (hh.reader c R hold)
      · exact move_actor_isSome hm R (listed_isSome s R hl)
      · change ((s.setActor R _).actor R).isSome = true
        rw [setActor_self]
        rfl
  closer := by
    intro c R h
    apply move_actor_isSome hm
    obtain hcl | ⟨sid, -, -, hcl⟩ | ⟨-, hcl⟩ | ⟨choice, e, -, hstep⟩ := move_closer hm c
    · exact hh.closer c R (by rw [← hcl]; exact h)
    · rw [hcl] at h
      cases h
    · rw [hcl] at h
      cases h
    · obtain hold | hroom := hstep.room_cases h
      · exact hh.closer c R hold
      · exact hh.pointer c R hroom

theorem housed_start : Housed ({} : Sys σ) where
  pointer := fun c R h => by cases h
  reader := fun c R h => by cases h
  closer := fun c R h => by cases h

/-! ## Where a redirect comes from -/

/-- The step of `tryResume` after the record was loaded. -/
theorem step_get {c : ConnID} {choice : Choice} {rec : SessionRecord}
    (h : step u s (.run c choice) = some s') (hr : (s.conn c).reader = .get rec) :
    s' = s.goto c (resumeNext u s rec) := by
  obtain ⟨⟨e, pc⟩, hn, rfl⟩ := (step_run_iff hr).mp h
  cases choice with
  | go =>
    cases hn
    rfl
  | _ => cases hn

/-- A redirect names the owner of the record just loaded, which is another node. -/
theorem step_redirect (h : step u s l = some s') (c : ConnID) (env : ServerEnvelope)
    (hr : (s'.conn c).reader = .send env) (ht : env.type = .redirect) :
    (s.conn c).reader = .send env ∨
    ∃ rec, (s.conn c).reader = .get rec ∧ env.redirect = rec.ownerNode ∧
      rec.ownerNode ≠ u.nodeID := by
  have hm := step_move u s s' l h
  obtain hsame | ⟨sid, -, -, hload⟩ | ⟨m, -, -, hmsg⟩ | ⟨choice, e, rfl, hstep⟩ := move_reader hm c
  · exact Or.inl (hsame.symm.trans hr)
  · rw [hr] at hload
    cases hload
  · rw [handleMessage_note _ _ _ env (hmsg.symm.trans hr)] at ht
    cases ht
  · obtain herr | ⟨rec, hget, -⟩ := hstep.note_cases hr
    · rw [herr] at ht
      cases ht
    · refine Or.inr ⟨rec, hget, ?_⟩
      rw [step_get h hget, goto_reader_self] at hr
      unfold resumeNext at hr
      split at hr
      next => cases hr
      next =>
        split at hr
        next howner =>
          cases hr
          exact ⟨rfl, howner.2⟩
        next =>
          cases hr
          cases ht

/-! ## Messages on a connection -/

/-- `tryResume` has not come to `Register`. -/
def Reader.arriving : Reader → Bool
  | .load | .get _ | .submit (.resume _) | .await (.resume _) _ | .tell .setRoom (.resume _) _ => true
  | _ => false

/-- Nobody sends to the connection and nothing was sent to it: it does not wait for
a match, no goroutine seats it, the Hub does not have it, and no broadcast is on its
way to it. -/
structure Unnoticed (s : Sys σ) (c : ConnID) : Prop where
  hub : ∀ R p, s.hub.entry R p ≠ some c
  pending : ∀ p, s.pending.lookup p ≠ some c
  seats : ∀ d R p rest, (s.conn d).reader.call ≠ some (.seat R p c rest)
  targets : ∀ R a env targets, s.actor R = some a → .deliver env targets ∈ a.todo → c ∉ targets
  sent : (s.conn c).sent = []

/-- What a room broadcasts is an event, and a connection that has just arrived is unnoticed. -/
structure Mailed (s : Sys σ) : Prop where
  message : ∀ R a env targets, s.actor R = some a → .deliver env targets ∈ a.todo →
    env.type ≠ .redirect
  arriving : ∀ c, (s.conn c).reader.arriving = true → Unnoticed s c

section Unnoticed
variable {c : ConnID}

theorem unnoticed_fresh (hk : Known u s) : Unnoticed s s.conns where
  hub := fun R p h => Nat.lt_irrefl _ (hk.hub R p _ h).1
  pending := fun p h => Nat.lt_irrefl _ (hk.pending p _ h).1
  seats := fun d R p rest h => Nat.lt_irrefl _ (hk.call d R p _ rest h).1
  targets := fun R a env targets ha h hc => Nat.lt_irrefl _ (hk.targets R a env targets ha h _ hc)
  sent := by rw [hk.fresh]

/-- A connection is unnoticed until its own goroutine goes on from `setRoom`. -/
theorem Unnoticed.move (h : Unnoticed s c) (hk : Known u s) (hm : Move u s l s')
    (hl : (∀ choice, l ≠ .run c choice) ∨ (s.conn c).reader.arriving = true) : Unnoticed s' c := by
  have hself : ∀ d choice, l = .run d choice → (s.conn d).reader.arriving = false → d ≠ c := by
    rintro d choice hrun hgone rfl
    obtain hno | harr := hl
    · exact hno choice hrun
    · rw [hgone] at harr
      cases harr
  -- a message or an entry in the Hub is for the caller itself or for a connection it seats
  have htell : ∀ d choice stage k answer, l = .run d choice →
      (s.conn d).reader = .tell stage k answer → stage ≠ .setRoom → k.target d ≠ some c := by
    intro d choice stage k answer hrun hr hstage ht
    have hgone : (s.conn d).reader.arriving = false := by
      rw [hr]
      cases stage with
      | setRoom => exact absurd rfl hstage
      | _ => rfl
    cases k with
    | resume room => exact hself d choice hrun hgone (Option.some.inj ht)
    | resync room => exact hself d choice hrun hgone (Option.some.inj ht)
    | seat room p conn rest =>
      cases ht
      exact h.seats d room p rest (by rw [hr]; rfl)
    | join room p rest => cases ht
    | act room action => cases ht
  refine ⟨?_, ?_, ?_, ?_, ?_⟩
  · intro R p hin
    obtain hh | ⟨d, choice, k, answer, target, hrun, hr, ht, hh⟩ | ⟨d, choice, room, -, -, hh⟩ :=
      move_hub hm
    · rw [hh] at hin
      exact h.hub R p hin
    · rw [hh, Hub.entry_register] at hin
      split at hin
      · cases hin
        exact htell d choice _ k answer hrun hr nofun ht
      · exact h.hub R p hin
    · rw [hh] at hin
      exact h.hub R p (Hub.entry_of_unregister _ _ _ _ _ _ _ hin)
  · intro p hin
    obtain hp | ⟨d, choice, gameType, hrun, hr, hp⟩ | ⟨q, hp⟩ := move_pending hm
    · rw [hp] at hin
      exact h.pending p hin
    · rw [hp, Table.lookup_insert_ite] at hin
      split at hin
      · exact hself d choice hrun (by rw [hr]; rfl) (Option.some.inj hin)
      · exact h.pending p hin
    · rw [hp, Table.lookup_erase_ite] at hin
      split at hin
      · cases hin
      · exact h.pending p hin
  · intro d R p rest hcall
    obtain hr | ⟨sid, -, -, hr⟩ | ⟨m, -, -, hr⟩ | ⟨choice, e, -, hr⟩ := move_reader hm d
    · rw [hr] at hcall
      exact h.seats d R p rest hcall
    · rw [hr] at hcall
      cases hcall
    · rw [hr] at hcall
      obtain ⟨-, -, hk' | ⟨a, hk'⟩⟩ := handleMessage_call _ _ _ _ hcall <;> cases hk'
    · obtain hc | ⟨rec, -, hc⟩ | ⟨room, q, rest', hc⟩ | ⟨room, q, rest', conn, -, hp, hc⟩ :=
        hr.call_cases hcall
      · exact h.seats d R p rest hc
      · cases hc
      · cases hc
      · cases hc
        exact h.pending p hp
  · intro R a' env targets ha' hdel hc
    obtain ⟨o, ho, hch⟩ := hm.actor_before ha'
    cases hch with
    | kept => exact h.targets R a' env targets ho hdel hc
    | created => cases hdel
    | pushed a => exact h.targets R a env targets ho hdel hc
    | turned => exact absurd hdel deliver_not_mem_ofOutput
    | ticked => exact absurd hdel deliver_not_mem_ofOutput
    | acted a a' i hl hp =>
      obtain ⟨event, rest, -, -, rfl⟩ | ⟨targets', hmem, hsub⟩ := hp.deliver_mem hdel
      · obtain ⟨p, hpc⟩ := (Hub.mem_connectionsFor _ _ _).mp hc
        exact h.hub _ p hpc
      · exact h.targets R a env targets' ho hmem (hsub c hc)
    | flagged a => exact h.targets R a env targets ho hdel hc
  · obtain ⟨hs, -⟩ | ⟨env, given, happ, -, -⟩ := move_sent hm hk.fresh c
    · rw [hs, h.sent]
    · exfalso
      cases happ with
      | delivered id i a _ targets rest _ ha htodo hc =>
        exact h.targets id a env targets ha (by rw [htodo]; exact List.mem_cons_self)
          (List.mem_of_getElem? hc)
      | told d choice k answer _ hr hkt => exact htell d choice _ k answer rfl hr nofun hkt
      | noted d choice _ hr => exact hself c choice rfl (by rw [hr]; rfl) rfl

theorem ReaderStep.arriving_back {pc pc' : Reader} {e : Effect σ} (h : ReaderStep u s c pc e pc')
    (ha : pc'.arriving = true) : pc.arriving = true := by
  cases h with
  | loaded rec hload => rfl
  | found rec hl => rfl
  | submitted k hacc =>
    cases k with
    | resume room => rfl
    | _ => cases ha
  | refused k hs => cases k <;> cases ha
  | failed k ch err hs => cases k <;> cases ha
  | succeeded k ch res hr he =>
    cases k with
    | resume room => rfl
    | join room p rest => cases rest <;> cases ha
    | _ => cases ha
  | told k answer target pc ht hp =>
    rw [hp] at ha
    split at ha
    · generalize k.rest = rest at ha
      cases rest <;> cases ha
    · cases ha
  | sent env pc hp =>
    rw [hp] at ha
    split at ha <;> cases ha
  | created gameType players id g hg hn => cases players <;> cases ha
  | waited target rest hd => cases rest <;> cases ha
  | _ => cases ha

theorem Mailed.arriving_move (hM : Mailed s) (hk : Known u s) (hm : Move u s l s') (c : ConnID)
    (ha : (s'.conn c).reader.arriving = true) : Unnoticed s' c := by
  obtain hr | ⟨sid, rfl, rfl, -⟩ | ⟨m, -, -, hr⟩ | ⟨choice, e, -, hstep⟩ := move_reader hm c
  · rw [hr] at ha
    exact (hM.arriving c ha).move hk hm (Or.inr ha)
  · exact (unnoticed_fresh hk).move hk hm (Or.inl nofun)
  · rw [hr] at ha
    obtain ⟨env, hmsg, -⟩ | ⟨gameType, hmsg⟩ | ⟨k, hmsg, -, hres | ⟨action, hact⟩⟩ :=
      handleMessage_cases s.now (s.conn c) m
    · rw [hmsg] at ha
      cases ha
    · rw [hmsg] at ha
      cases ha
    · rw [hmsg, hres] at ha
      cases ha
    · rw [hmsg, hact] at ha
      cases ha
  · have hbefore := hstep.arriving_back ha
    exact (hM.arriving c hbefore).move hk hm (Or.inr hbefore)

end Unnoticed

theorem tellEnvelope_type (now : Time) (k : Call) (answer : Option CmdResult) :
    (tellEnvelope now k answer).type ≠ .redirect := by
  cases k <;> exact MessageType.noConfusion

/-- A redirect on the channel was the next thing to send of the connection's own goroutine. -/
theorem Mailed.sent_cases (hM : Mailed s) (hk : Known u s) (hm : Move u s l s') (c : ConnID)
    (env : ServerEnvelope) (h : env ∈ (s'.conn c).sent) (ht : env.type = .redirect) :
    env ∈ (s.conn c).sent ∨ (s.conn c).reader = .send env := by
  obtain ⟨hs, -⟩ | ⟨env', given, happ, hs, -⟩ := move_sent hm hk.fresh c
  · rw [hs] at h
    exact Or.inl h
  · rw [hs] at h
    obtain hold | hnew := List.mem_append.mp h
    · exact Or.inl hold
    · rw [List.mem_singleton] at hnew
      subst hnew
      cases happ with
      | delivered id i a _ targets rest _ ha htodo hc =>
        exact absurd ht (hM.message id a env targets ha (by rw [htodo]; exact List.mem_cons_self))
      | told d choice k answer _ hr hkt => exact absurd ht (tellEnvelope_type _ k answer)
      | noted d choice _ hr => exact Or.inr hr

/-- `tryResume` has not yet decided what to do with the session. -/
def Reader.early : Reader → Bool
  | .load | .get _ => true
  | _ => false

/-- A goroutine comes to `tryResume` when its connection is accepted. -/
theorem early_back (hm : Move u s l s') (c : ConnID) (h : (s'.conn c).reader.early = true) :
    c = s.conns ∨ (s'.conn c).reader = (s.conn c).reader ∨ (s.conn c).reader = .load := by
  obtain hr | ⟨sid, -, hc, -⟩ | ⟨m, -, -, hr⟩ | ⟨choice, e, -, hstep⟩ := move_reader hm c
  · exact Or.inr (Or.inl hr)
  · exact Or.inl hc
  · rw [hr] at h
    obtain ⟨env, hm', -⟩ | ⟨gameType, hm'⟩ | ⟨k, hm', -⟩ :=
      handleMessage_cases s.now (s.conn c) m <;> rw [hm'] at h <;> cases h
  · generalize (s.conn c).reader = pc at hstep ⊢
    generalize (s'.conn c).reader = pc' at hstep h
    cases hstep with
    | loaded rec hload => exact Or.inr (Or.inr rfl)
    | refused k hs => cases k <;> cases h
    | failed k ch err hs => cases k <;> cases h
    | succeeded k ch res hr he =>
      cases k with
      | join room p rest => cases rest <;> cases h
      | _ => cases h
    | told k answer target pc ht hp =>
      rw [hp] at h
      split at h
      · generalize k.rest = rest at h
        cases rest <;> cases h
      · cases h
    | sent env pc hp =>
      rw [hp] at h
      split at h <;> cases h
    | created gameType players id g hg hn => cases players <;> cases h
    | waited target rest hd => cases rest <;> cases h
    | _ => cases h

theorem Mailed.move (hM : Mailed s) (hk : Known u s) (hm : Move u s l s') : Mailed s' where
  message := by
    intro R a' env targets ha' h
    obtain ⟨o, ho, hch⟩ := hm.actor_before ha'
    cases hch with
    | kept => exact hM.message R a' env targets ho h
    | created => cases h
    | pushed a => exact hM.message R a env targets ho h
    | turned => exact absurd h deliver_not_mem_ofOutput
    | ticked => exact absurd h deliver_not_mem_ofOutput
    | acted a a' i hl hp =>
      obtain ⟨event, rest, -, rfl, -⟩ | ⟨targets', hmem, -⟩ := hp.deliver_mem h
      · exact MessageType.noConfusion
      · exact hM.message R a env targets' ho hmem
    | flagged a => exact hM.message R a env targets ho h
  arriving := hM.arriving_move hk hm

/-- No redirect was sent, none is about to be, and none will be decided on. -/
structure Unredirected (u : Setup σ) (x : Conn) : Prop where
  sent : ∀ env ∈ x.sent, env.type ≠ .redirect
  note : ∀ env, x.reader = .send env → env.type ≠ .redirect
  record : ∀ rec, x.reader = .get rec → rec.ownerNode = u.nodeID
  loaded : x.reader ≠ .load

theorem Unredirected.step (hM : Mailed s) (hk : Known u s) (h : step u s l = some s')
    {c : ConnID} (hc : c < s.conns) (hx : Unredirected u (s.conn c)) :
    Unredirected u (s'.conn c) := by
  have hm := step_move u s s' l h
  refine ⟨?_, ?_, ?_, ?_⟩
  · intro env henv ht
    obtain hold | hsend := hM.sent_cases hk hm c env henv ht
    · exact hx.sent env hold ht
    · exact hx.note env hsend ht
  · intro env hr ht
    obtain hold | ⟨rec, hget, -, hne⟩ := step_redirect h c env hr ht
    · exact hx.note env hold ht
    · exact hne (hx.record rec hget)
  · intro rec hr
    obtain hnew | hsame | hload := early_back hm c (by rw [hr]; rfl)
    · exact absurd hnew (Nat.ne_of_lt hc)
    · exact hx.record rec (hsame.symm.trans hr)
    · exact absurd hload hx.loaded
  · intro hr
    obtain hnew | hsame | hload := early_back hm c (by rw [hr]; rfl)
    · exact absurd hnew (Nat.ne_of_lt hc)
    · exact hx.loaded (hsame.symm.trans hr)
    · exact hx.loaded hload

/-- A connection finds a record that is in the store and has not expired. -/
theorem load_found {c : ConnID} {choice : Choice} {rec : SessionRecord}
    (hm : Move u s (.run c choice) s') (hr : (s.conn c).reader = .load)
    (hr' : (s'.conn c).reader = .get rec) :
    s.sessions.loadSession s.now (s.conn c).sessionID = some rec := by
  obtain ⟨e, pc, hstep, rfl⟩ := hm.run_inv
  rw [goto_reader_self] at hr'
  rw [hr] at hstep
  cases hstep with
  | unknown => cases hr'
  | loaded rec' hload =>
    cases hr'
    exact hload

/-! ## Rooms are created under their ID -/

/-- The room that a step creates. -/
def Label.creates : Label → Option ID
  | .run _ (.fresh id) => some id
  | _ => none

theorem next_fresh {c : ConnID} {id : ID} {pc pc' : Reader} {e : Effect σ}
    (h : pc.next u s c (.fresh id) = some (e, pc')) :
    ∃ gameType g, e = .createRoom id gameType g := by
  cases pc with
  | create gameType players =>
    rw [Reader.next] at h
    split at h
    next g hg hn =>
      cases h
      exact ⟨gameType, g, rfl⟩
    next => cases h
  | _ => cases h

theorem creates_isSome {id : ID} (hl : l.creates = some id) (h : step u s l = some s') :
    (s'.actor id).isSome = true := by
  cases l with
  | run c choice =>
    cases choice with
    | fresh id' =>
      cases hl
      obtain ⟨⟨e, pc⟩, hn, rfl⟩ := Option.map_eq_some_iff.mp h
      obtain ⟨gameType, g, rfl⟩ := next_fresh hn
      change ((s.setActor id _).actor id).isSome = true
      rw [setActor_self]
      rfl
    | _ => cases hl
  | _ => cases hl

theorem new_actor_created {R : ID} (h : step u s l = some s') (hn : s.actor R = none)
    (hs : (s'.actor R).isSome = true) : l.creates = some R := by
  have hch := move_actor (step_move u s s' l h) R
  rw [hn] at hch
  generalize ho : s'.actor R = o at hch
  cases hch with
  | kept =>
    rw [ho] at hs
    cases hs
  | created c choice gameType players g hl hr hg =>
    subst hl
    obtain ⟨⟨e, pc⟩, hnext, rfl⟩ := (step_run_iff hr).mp h
    cases choice with
    | fresh id =>
      obtain ⟨gt, g', rfl⟩ := next_fresh hnext
      by_cases hid : R = id
      · rw [hid]
        rfl
      · change ((s.setActor id _).actor R) = _ at ho
        rw [setActor_actor, if_neg hid, hn] at ho
        cases ho
    | _ => cases hnext

end Housed

/-! ## The cluster -/

/-- `creator` is history only: the node whose manager created a room. -/
structure Cluster (σ N : Type) where
  node : N → Sys σ := fun _ => {}
  sessions : SessionStore := ∅
  creator : ID → Option N := fun _ => none

/-- A step of one node, or the expiry of a record. -/
inductive ClusterLabel (N : Type)
  | node (n : N) (l : Label)
  | expire (sessionID : String)

section Cluster
variable {σ N : Type}

namespace Cluster

/-- What a node works on: the records of the store are there until they expire. -/
def view (s : Cluster σ N) (n : N) : Sys σ :=
  { s.node n with
    sessions := Table.mapVal (fun e => { e with expires := (s.node n).now }) s.sessions }

def step [DecidableEq N] (u : N → Setup σ) (s : Cluster σ N) : ClusterLabel N → Option (Cluster σ N)
  | .node n l =>
    if (l.creates.bind s.creator).isSome then none
    else
      (Transport.step (u n) (s.view n) l).map fun t =>
        { node := Function.update s.node n t, sessions := t.sessions,
          creator :=
            match l.creates with
            | none => s.creator
            | some id => Function.update s.creator id (some n) }
  | .expire sid => some { s with sessions := s.sessions.deleteSession sid }

end Cluster

variable {u : N → Setup σ} {s s' : Cluster σ N}

/-- The record's owner is the node that created its room. -/
def Truthful (u : N → Setup σ) (creator : ID → Option N) (rec : SessionRecord) : Prop :=
  ∃ m, creator rec.roomID = some m ∧ rec.ownerNode = (u m).nodeID

/-- The message sends the client of node `n` to another node, the creator of a room. -/
def Elsewhere (u : N → Setup σ) (creator : ID → Option N) (n : N) (env : ServerEnvelope) : Prop :=
  ∃ R m, creator R = some m ∧ m ≠ n ∧ env.redirect = (u m).nodeID

structure Cluster.Inv (u : N → Setup σ) (s : Cluster σ N) : Prop where
  created : ∀ n R, ((s.node n).actor R).isSome = true ↔ s.creator R = some n
  known : ∀ n, Known (u n) (s.node n)
  linked : ∀ n, Linked (s.node n)
  housed : ∀ n, Housed (s.node n)
  mailed : ∀ n, Mailed (s.node n)
  records : ∀ sid rec, s.sessions.recordOf sid = some rec → Truthful u s.creator rec
  loaded : ∀ n c rec, ((s.node n).conn c).reader = .get rec → Truthful u s.creator rec
  notes : ∀ n c env, ((s.node n).conn c).reader = .send env → env.type = .redirect →
    Elsewhere u s.creator n env
  sent : ∀ n c, ∀ env ∈ ((s.node n).conn c).sent, env.type = .redirect →
    Elsewhere u s.creator n env

theorem view_recordOf (s : Cluster σ N) (n : N) (sid : String) :
    (s.view n).sessions.recordOf sid = s.sessions.recordOf sid := by
  change ((Table.mapVal _ s.sessions).lookup sid).map _ = (s.sessions.lookup sid).map _
  rw [Table.lookup_mapVal, Option.map_map]
  rfl

theorem Cluster.Inv.viewKnown (hI : Cluster.Inv u s) (n : N) : Known (u n) (s.view n) :=
  let h := hI.known n
  ⟨h.unborn, h.owner, h.pending, h.hub, h.call, h.targets, h.note⟩

theorem Cluster.Inv.viewLinked (hI : Cluster.Inv u s) (n : N) : Linked (s.view n) :=
  let h := hI.linked n
  ⟨h.ids, h.queued, h.replying, h.replied, h.awaited, h.ticket, h.answer, h.event, h.message⟩

theorem Cluster.Inv.viewHoused (hI : Cluster.Inv u s) (n : N) : Housed (s.view n) :=
  let h := hI.housed n
  ⟨h.pointer, h.reader, h.closer⟩

theorem Cluster.Inv.viewMailed (hI : Cluster.Inv u s) (n : N) : Mailed (s.view n) :=
  let h := hI.mailed n
  ⟨h.message, fun c hc =>
    let ht := h.arriving c hc
    ⟨ht.hub, ht.pending, ht.seats, ht.targets, ht.sent⟩⟩

/-- A record that a node saves names the node and a room of its own. -/
theorem Cluster.Inv.bound (hI : Cluster.Inv u s) (n : N) (R : ID) (p : PlayerID)
    (h : ((s.node n).actor R).isSome = true) : Truthful u s.creator (bindRecord (u n) R p) :=
  ⟨n, (hI.created n R).mp h, rfl⟩

variable [DecidableEq N]

/-- A step of the node `n` as the cluster sees it. -/
structure NodeStep (u : N → Setup σ) (s s' : Cluster σ N) (n : N) (l : Label) (t : Sys σ) : Prop where
  step : Transport.step (u n) (s.view n) l = some t
  fresh : ∀ id, l.creates = some id → s.creator id = none
  node : s'.node = Function.update s.node n t
  sessions : s'.sessions = t.sessions
  creator : ∀ R, s'.creator R = if l.creates = some R then some n else s.creator R

theorem step_cases {l : ClusterLabel N} (h : s.step u l = some s') :
    (∃ n m t, l = .node n m ∧ NodeStep u s s' n m t) ∨
    ∃ sid, l = .expire sid ∧ s' = { s with sessions := s.sessions.deleteSession sid } := by
  cases l with
  | expire sid =>
    cases h
    exact Or.inr ⟨sid, rfl, rfl⟩
  | node n m =>
    rw [Cluster.step] at h
    split at h
    next => cases h
    next hfresh =>
      obtain ⟨t, ht, rfl⟩ := Option.map_eq_some_iff.mp h
      refine Or.inl ⟨n, m, t, rfl, ht, ?_, rfl, rfl, ?_⟩
      · intro id hid
        rw [hid, Option.bind_some, Option.not_isSome_iff_eq_none] at hfresh
        exact hfresh
      · intro R
        dsimp only
        cases hc : m.creates with
        | none => rfl
        | some id =>
          dsimp only
          rw [Function.update_apply]
          simp only [Option.some.injEq, eq_comm]

/-! ## Steps of one node -/

section NodeStep
variable {n : N} {l : Label} {t : Sys σ}

theorem NodeStep.self (h : NodeStep u s s' n l t) : s'.node n = t := by
  rw [h.node, Function.update_self]

theorem NodeStep.other (h : NodeStep u s s' n l t) {m : N} (hm : m ≠ n) :
    s'.node m = s.node m := by
  rw [h.node, Function.update_of_ne hm]

/-- A step of the cluster leaves a node as it is or is a step of that node. -/
theorem step_at (n : N) {l : ClusterLabel N} (h : s.step u l = some s') :
    (s'.node n = s.node n ∧ ∀ l', l ≠ .node n l') ∨
    ∃ l', l = .node n l' ∧ Transport.step (u n) (s.view n) l' = some (s'.node n) := by
  obtain ⟨m, l', t, rfl, hn⟩ | ⟨sid, rfl, rfl⟩ := step_cases h
  · by_cases hm : n = m
    · subst hm
      rw [hn.self]
      exact Or.inr ⟨l', rfl, hn.step⟩
    · refine Or.inl ⟨hn.other hm, ?_⟩
      rintro _ ⟨⟩
      exact hm rfl
  · refine Or.inl ⟨rfl, ?_⟩
    rintro _ ⟨⟩

/-- What holds of every node before holds of every node after, if it does of the one that moved. -/
theorem NodeStep.all (h : NodeStep u s s' n l t) (P : N → Sys σ → Prop)
    (hP : ∀ m, P m (s.node m)) (ht : P n t) (m : N) : P m (s'.node m) := by
  by_cases hm : m = n
  · subst hm
    rw [h.self]
    exact ht
  · rw [h.other hm]
    exact hP m

theorem NodeStep.move (h : NodeStep u s s' n l t) : Move (u n) (s.view n) l t :=
  step_move _ _ _ _ h.step

/-- The creator of a room never changes. -/
theorem NodeStep.creator_stays (h : NodeStep u s s' n l t) {R : ID} {m : N}
    (hc : s.creator R = some m) : s'.creator R = some m := by
  rw [h.creator R, if_neg, hc]
  intro hl
  rw [h.fresh R hl] at hc
  cases hc

theorem NodeStep.truthful (h : NodeStep u s s' n l t) {rec : SessionRecord}
    (ht : Truthful u s.creator rec) : Truthful u s'.creator rec :=
  ht.imp fun _ hm => ⟨h.creator_stays hm.1, hm.2⟩

theorem NodeStep.elsewhere (h : NodeStep u s s' n l t) {m : N} {env : ServerEnvelope}
    (he : Elsewhere u s.creator m env) : Elsewhere u s'.creator m env :=
  he.imp fun _ hR => hR.imp fun _ hm => ⟨h.creator_stays hm.1, hm.2⟩

/-! ## The invariant -/

theorem Cluster.Inv.created_step (hI : Cluster.Inv u s) (h : NodeStep u s s' n l t) (m : N)
    (R : ID) : ((s'.node m).actor R).isSome = true ↔ s'.creator R = some m := by
  by_cases hl : l.creates = some R
  · rw [h.creator R, if_pos hl]
    by_cases hm : m = n
    · subst hm
      rw [h.self]
      exact iff_of_true (creates_isSome hl h.step) rfl
    · rw [h.other hm, hI.created m R, h.fresh R hl]
      exact iff_of_false (fun he => by cases he) fun he => hm (Option.some.inj he).symm
  · rw [h.creator R, if_neg hl, ← hI.created m R]
    by_cases hm : m = n
    · subst hm
      rw [h.self]
      refine ⟨fun hs => ?_, move_actor_isSome h.move R⟩
      by_contra hnone
      exact hl (new_actor_created h.step (Option.not_isSome_iff_eq_none.mp hnone) hs)
    · rw [h.other hm]

theorem Cluster.Inv.records_step (hI : Cluster.Inv u s) (h : NodeStep u s s' n l t)
    (sid : String) (rec : SessionRecord) (hr : s'.sessions.recordOf sid = some rec) :
    Truthful u s'.creator rec := by
  apply h.truthful
  rw [h.sessions] at hr
  have hsave : ∀ id rec' ttl, Truthful u s.creator rec' →
      t.sessions = (s.view n).sessions.saveSession (s.view n).now id rec' ttl →
      Truthful u s.creator rec := by
    intro id rec' ttl ht hs
    rw [hs, SessionStore.recordOf_saveSession] at hr
    split at hr
    · cases hr
      exact ht
    · rw [view_recordOf] at hr
      exact hI.records sid rec hr
  obtain hs | ⟨c, choice, k, answer, target, -, hpc, -, hs⟩ | ⟨c, choice, room, ttl, -, hpc, hs⟩ | hs :=
    move_sessions h.move
  · rw [hs, view_recordOf] at hr
    exact hI.records sid rec hr
  · refine hsave _ _ _ (hI.bound n k.room _ ?_) hs
    exact (hI.viewHoused n).reader c k.room (by rw [hpc]; rfl)
  · refine hsave _ _ _ (hI.bound n room _ ?_) hs
    exact (hI.viewHoused n).closer c room (by rw [hpc]; rfl)
  · rw [hs] at hr
    have hold := SessionStore.recordOf_of_sweep _ _ sid rec hr
    rw [view_recordOf] at hold
    exact hI.records sid rec hold

/-- What a connection loads is in the store. -/
theorem Cluster.Inv.loaded_step (hI : Cluster.Inv u s) (h : NodeStep u s s' n l t) (c : ConnID)
    (rec : SessionRecord) (hr : (t.conn c).reader = .get rec) : Truthful u s.creator rec := by
  obtain hsame | ⟨choice, e, rfl, -, hent⟩ := move_enters h.move c (by rw [hr]; rfl)
  · exact hI.loaded n c rec (hsame.symm.trans hr)
  · rw [hr] at hent
    generalize hpc : ((s.view n).conn c).reader = pc at hent
    cases hent with
    | loaded =>
      have hrec := SessionStore.recordOf_of_loadSession _ _ _ _ (load_found h.move hpc hr)
      rw [view_recordOf] at hrec
      exact hI.records _ rec hrec

theorem Cluster.Inv.notes_step (hI : Cluster.Inv u s) (h : NodeStep u s s' n l t) (c : ConnID)
    (env : ServerEnvelope) (hr : (t.conn c).reader = .send env) (ht : env.type = .redirect) :
    Elsewhere u s.creator n env := by
  obtain hold | ⟨rec, hget, hred, hne⟩ := step_redirect h.step c env hr ht
  · exact hI.notes n c env hold ht
  · obtain ⟨m, hm, howner⟩ := hI.loaded n c rec hget
    refine ⟨rec.roomID, m, hm, ?_, hred.trans howner⟩
    rintro rfl
    exact hne howner

theorem Cluster.Inv.sent_step (hI : Cluster.Inv u s) (h : NodeStep u s s' n l t) (c : ConnID)
    (env : ServerEnvelope) (hmem : env ∈ (t.conn c).sent) (ht : env.type = .redirect) :
    Elsewhere u s.creator n env := by
  obtain hold | hsend := (hI.viewMailed n).sent_cases (hI.viewKnown n) h.move c env hmem ht
  · exact hI.sent n c env hold ht
  · exact hI.notes n c env hsend ht

theorem Cluster.Inv.nodeStep (hI : Cluster.Inv u s) (h : NodeStep u s s' n l t) :
    Cluster.Inv u s' where
  created := hI.created_step h
  known := h.all (fun m => Known (u m)) hI.known ((hI.viewKnown n).move h.move)
  linked := h.all (fun _ => Linked) hI.linked ((hI.viewLinked n).move h.move)
  housed := h.all (fun _ => Housed) hI.housed ((hI.viewHoused n).move h.move)
  mailed := h.all (fun _ => Mailed) hI.mailed ((hI.viewMailed n).move (hI.viewKnown n) h.move)
  records := hI.records_step h
  loaded := h.all (fun _ x => ∀ c rec, (x.conn c).reader = .get rec → Truthful u s'.creator rec)
    (fun m c rec hr => h.truthful (hI.loaded m c rec hr))
    (fun c rec hr => h.truthful (hI.loaded_step h c rec hr))
  notes := h.all (fun m x => ∀ c env, (x.conn c).reader = .send env → env.type = .redirect →
      Elsewhere u s'.creator m env)
    (fun m c env hr ht => h.elsewhere (hI.notes m c env hr ht))
    (fun c env hr ht => h.elsewhere (hI.notes_step h c env hr ht))
  sent := h.all (fun m x => ∀ c, ∀ env ∈ (x.conn c).sent, env.type = .redirect →
      Elsewhere u s'.creator m env)
    (fun m c env hmem ht => h.elsewhere (hI.sent m c env hmem ht))
    (fun c env hmem ht => h.elsewhere (hI.sent_step h c env hmem ht))

end NodeStep

theorem Cluster.Inv.step (hI : Cluster.Inv u s) {l : ClusterLabel N} (h : s.step u l = some s') :
    Cluster.Inv u s' := by
  obtain ⟨n, m, t, -, hn⟩ | ⟨sid, -, rfl⟩ := step_cases h
  · exact hI.nodeStep hn
  · refine { hI with records := ?_ }
    intro id rec hr
    refine hI.records id rec ?_
    change ((s.sessions.erase sid).lookup id).map _ = _ at hr
    rw [Table.lookup_erase_ite] at hr
    split at hr
    · cases hr
    · exact hr

/-! ## Runs -/

end Cluster
end RealtimeEngine.Transport
