import Mathlib.Data.Set.Finite.Basic
import RealtimeEngine.Transport.Cluster
import RealtimeEngine.Transport.Lives
import RealtimeEngine.Transport.Overflow
import RealtimeEngine.Transport.Sweeping
import RealtimeEngine.Transport.Waiting

/-! Circular waits. An actor that finds the send buffer of a connection full runs
its `Close`, and `Close` submits a `Disconnect`: `send` puts it on the command
channel of the connection's room and has no deadline. When that channel is full
and the actor that would empty it waits in the same way, nobody goes on. Such rooms
are stuck forever; and this is the only way in which a node can come to a halt
with work left to do. -/
namespace RealtimeEngine.Transport
open Foundations Domain Rooms Storage Matchmaking
set_option autoImplicit false
set_option maxHeartbeats 250000

section Deadlock
variable {σ : Type} {u : Setup σ} {s s' : Sys σ} {l : Label} {R : ID} {a : Actor σ}

/-- The actor of `R` waits for a `Close` that waits for a place on the channel of `R'`. -/
def WaitsFor (s : Sys σ) (R R' : ID) : Prop :=
  ∃ a c rest, s.actor R = some a ∧ a.todo = .waitClosed c :: rest ∧
    (s.conn c).closer = .submit R'

/-- The command channel of a room that has not stopped is full. -/
def Crowded (s : Sys σ) (R : ID) : Prop :=
  ∃ a, s.actor R = some a ∧ a.stopped = false ∧ cmdCap ≤ a.queue.length

/-- Every room of `K` waits for a place on the full channel of a room of `K`. -/
def Deadlocked (s : Sys σ) (K : Set ID) : Prop :=
  ∀ R ∈ K, ∃ R' ∈ K, WaitsFor s R R' ∧ Crowded s R'

/-! ## A deadlock lasts -/

/-- Commands may have come in; otherwise the actor is where it was. -/
structure Unmoved (a a' : Actor σ) : Prop where
  room : a'.room = a.room
  todo : a'.todo = a.todo
  stopped : a'.stopped = a.stopped
  listed : a'.listed = a.listed
  queue : a.queue.length ≤ a'.queue.length

theorem Unmoved.refl (a : Actor σ) : Unmoved a a := ⟨rfl, rfl, rfl, rfl, le_refl _⟩

theorem Unmoved.trans {a b c : Actor σ} (h : Unmoved a b) (h' : Unmoved b c) : Unmoved a c where
  room := h'.room.trans h.room
  todo := h'.todo.trans h.todo
  stopped := h'.stopped.trans h.stopped
  listed := h'.listed.trans h.listed
  queue := le_trans h.queue h'.queue

theorem push_unmoved (s : Sys σ) (id : ID) (cmd : Command) (ha : s.actor R = some a) :
    ∃ a', (s.push id cmd).actor R = some a' ∧ Unmoved a a' := by
  by_cases hR : R = id
  · subst hR
    refine ⟨_, push_self s cmd ha, rfl, rfl, rfl, rfl, ?_⟩
    simp
  · exact ⟨a, (push_other s cmd hR).trans ha, .refl a⟩

theorem apply_unmoved (e : Effect σ) (ha : s.actor R = some a)
    (he : ∀ id gameType g, e = .createRoom id gameType g → s.actor id = none) :
    ∃ a', (s.apply e).actor R = some a' ∧ Unmoved a a' := by
  cases e with
  | submit id cmd => exact push_unmoved s id cmd ha
  | enqueue c env given =>
    rw [Sys.apply, enqueue_rest s (fun s => s.actor R) (fun _ _ _ => rfl)]
    exact ⟨a, ha, .refl a⟩
  | createRoom id gameType g =>
    have hR : R ≠ id := by
      rintro rfl
      rw [he R gameType g rfl] at ha
      cases ha
    exact ⟨a, (setActor_actor s id R _).trans ((if_neg hR).trans ha), .refl a⟩
  | _ => exact ⟨a, ha, .refl a⟩

theorem ActStep.other {id : ID} {b : Actor σ} {i : ℕ} (h : ActStep u s id b i s') (hR : R ≠ id) :
    s'.actor R = s.actor R := by
  have hset : ∀ b', (s.setActor id b').actor R = s.actor R := fun b' =>
    (setActor_actor s id R b').trans (if_neg hR)
  cases h with
  | delivered env targets rest todo c ht hc hd =>
    rw [enqueue_rest _ (fun s => s.actor R) (fun _ _ _ => rfl)]
    exact hset _
  | _ => exact hset _

/-- An actor that waits for a `Close` is not moved by anything but the end of that `Close`. -/
theorem step_unmoved (h : step u s l = some s') (ha : s.actor R = some a) {c : ConnID}
    {rest : List Op} (ht : a.todo = .waitClosed c :: rest) (hc : (s.conn c).closer ≠ .done) :
    ∃ a', s'.actor R = some a' ∧ Unmoved a a' := by
  have hset : ∀ id b b', s.actor id = some b → (id = R → Unmoved b b') →
      ∃ a', (s.setActor id b').actor R = some a' ∧ Unmoved a a' := by
    intro id b b' hb hun
    rw [setActor_actor]
    by_cases hR : R = id
    · subst hR
      rw [ha] at hb
      cases hb
      exact ⟨b', if_pos rfl, hun rfl⟩
    · exact ⟨a, (if_neg hR).trans ha, .refl a⟩
  -- a turn, a tick and the end of the loop need an actor with nothing to do
  have hbusy : ∀ id b, s.actor id = some b → b.todo = [] → id ≠ R := by
    rintro id b hb hnil rfl
    rw [ha] at hb
    cases hb
    rw [ht] at hnil
    cases hnil
  have hm := step_move u s s' l h
  cases hm with
  | dial sid => exact ⟨a, ha, .refl a⟩
  | recv d m hp hi => exact ⟨a, ha, .refl a⟩
  | hangup d hp =>
    rw [close_rest s (fun s => s.actor R) (fun _ _ _ => rfl) d]
    exact ⟨a, ha, .refl a⟩
  | pump d hp => exact ⟨a, ha, .refl a⟩
  | run d choice e pc hr =>
    refine apply_unmoved e ha ?_
    rintro id gameType g rfl
    generalize (s.conn d).reader = r at hr
    cases hr with
    | created gameType players id g hg hn => exact hn
  | close d choice e pc hr =>
    refine apply_unmoved e ha ?_
    rintro id gameType g rfl
    generalize (s.conn d).closer = r at hr
    cases hr
  | turn id b t rest hb hq hnil hl => exact hset id b _ hb fun hR => absurd hR (hbusy id b hb hnil)
  | tick id b hb hnil hl => exact hset id b _ hb fun hR => absurd hR (hbusy id b hb hnil)
  | act id i b s' hb hact =>
    by_cases hR : id = R
    · subst hR
      simp [step, ha, roomStep, actNext, ht, hc] at h
    · exact ⟨a, (hact.other (Ne.symm hR)).trans ha, .refl a⟩
  | fire id i b timer hb =>
    refine hset id b _ hb fun _ => ⟨rfl, rfl, rfl, rfl, ?_⟩
    simp
  | flag l id b listed stopped timers hb hl =>
    refine hset id b _ hb ?_
    rintro rfl
    rw [ha] at hb
    cases hb
    have hleft : a.left = false := by simp [Actor.left, ht]
    obtain rfl | rfl | ⟨i, rfl⟩ := hl
    · simp [step, ha, roomStep, hleft] at h
    · simp [step, ha, roomStep, hleft] at h
    · -- `quit` only takes a timer away
      simp only [step, ha, Option.bind_some, roomStep] at h
      split at h
      · have hsame := congrFun (congrArg Sys.actor (Option.some.inj h)) id
        rw [setActor_self, setActor_self] at hsame
        rw [← Option.some.inj hsame]
        exact ⟨rfl, rfl, rfl, rfl, le_refl _⟩
      · cases h
  | sweepRooms rooms hi hl => exact ⟨a, ha, .refl a⟩
  | gc choice e w he =>
    refine apply_unmoved e ha ?_
    rintro id gameType g rfl
    obtain he | ⟨room, he⟩ := he.effect <;> cases he
  | sweepSessions => exact ⟨a, ha, .refl a⟩
  | clock t => exact ⟨a, ha, .refl a⟩

/-- A `Close` that waits for a place on a full channel waits on. -/
theorem step_waiting (hk : Known u s) (h : step u s l = some s') {c : ConnID}
    (hc : (s.conn c).closer = .submit R) (hfull : Crowded s R) :
    (s'.conn c).closer = .submit R := by
  obtain ⟨a, ha, hs, hq⟩ := hfull
  obtain heq | ⟨sid, -, rfl, -⟩ | ⟨hoff, -⟩ | ⟨choice, e, rfl, hstep⟩ :=
    move_closer (step_move u s s' l h) c
  · rw [heq, hc]
  · rw [hk.fresh] at hc
    cases hc
  · rw [hc] at hoff
    cases hoff
  · rw [hc] at hstep
    generalize (s'.conn c).closer = pc at hstep
    cases hstep with
    | submitted room hacc =>
      rw [Sys.accepts, ha, Option.any_some, decide_eq_true_iff] at hacc
      omega
    | refused room hst =>
      rw [Sys.stopped, ha, Option.any_some, hs] at hst
      cases hst

theorem Crowded.kept {a' : Actor σ} (h : Crowded s R) (ha : s.actor R = some a)
    (ha' : s'.actor R = some a') (hun : Unmoved a a') : Crowded s' R := by
  obtain ⟨b, hb, hs, hq⟩ := h
  rw [ha] at hb
  cases hb
  exact ⟨a', ha', hun.stopped.trans hs, le_trans hq hun.queue⟩

theorem Deadlocked.step {K : Set ID} (hk : Known u s) (hd : Deadlocked s K)
    (h : step u s l = some s') :
    Deadlocked s' K ∧ ∀ R ∈ K, ∀ a, s.actor R = some a →
      ∃ a', s'.actor R = some a' ∧ Unmoved a a' := by
  have hstill : ∀ R ∈ K, ∀ a, s.actor R = some a → ∃ a', s'.actor R = some a' ∧ Unmoved a a' := by
    intro R hR a ha
    obtain ⟨R', -, ⟨b, c, rest, hb, ht, hc⟩, -⟩ := hd R hR
    rw [ha] at hb
    cases hb
    refine step_unmoved h ha ht ?_
    rw [hc]
    exact Closer.noConfusion
  refine ⟨?_, hstill⟩
  intro R hR
  obtain ⟨R', hR', ⟨a, c, rest, ha, ht, hc⟩, hfull⟩ := hd R hR
  obtain ⟨a', ha', hun⟩ := hstill R hR a ha
  refine ⟨R', hR', ⟨a', c, rest, ha', hun.todo.trans ht, step_waiting hk h hc hfull⟩, ?_⟩
  obtain ⟨b, hb, -⟩ := id hfull
  obtain ⟨b', hb', hunb⟩ := hstill R' hR' b hb
  exact hfull.kept hb hb' hunb

/-- **A deadlock is forever.** Once every room of `K` waits for a place on the full
command channel of a room of `K`, this is so in every continuation of the run: none
of these rooms changes its state, sends anything, answers a status request, is taken
off the manager's map or stops. No deadline and no sweep gets it going again. -/
theorem deadlock_is_forever (u : Setup σ) (ls more : List Label) (s s' : Sys σ)
    (hr : run u ls = some s) (hx : exec (step u) s more = some s') (K : Set ID)
    (hd : Deadlocked s K) :
    Deadlocked s' K ∧ ∀ R ∈ K, ∀ a, s.actor R = some a →
      s'.status R = none ∧ ∃ a', s'.actor R = some a' ∧ Unmoved a a' := by
  obtain ⟨-, hd', hstill⟩ := exec_invariant (step u) (fun _ _ => True)
    (fun t => Known u t ∧ Deadlocked t K ∧ ∀ R ∈ K, ∀ a, s.actor R = some a →
      ∃ a', t.actor R = some a' ∧ Unmoved a a')
    (by
      rintro t l t' - ⟨hk, hd, hstill⟩ h
      obtain ⟨hd', hnow⟩ := hd.step hk h
      refine ⟨hk.move (step_move u t t' l h), hd', fun R hR a ha => ?_⟩
      obtain ⟨b, hb, hun⟩ := hstill R hR a ha
      obtain ⟨b', hb', hun'⟩ := hnow R hR b hb
      exact ⟨b', hb', hun.trans hun'⟩)
    s s' ⟨(run_sound u ls s hr).known, hd, fun R _ a ha => ⟨a, ha, .refl a⟩⟩ more
    (meets_of_forall (step u) _ (fun _ _ => trivial) s more) hx
  refine ⟨hd', fun R hR a ha => ⟨?_, hstill R hR a ha⟩⟩
  obtain ⟨R', -, ⟨b, c, rest, hb, ht, -⟩, -⟩ := hd' R hR
  simp [Sys.status, hb, ht]

/-! ## Goroutines that have something to do can do it -/

/-- A place at which a goroutine knows what it needs to go on. -/
def Reader.placed (u : Setup σ) (c : ConnID) : Reader → Prop
  | .create gameType _ => ∃ g, u.games gameType = some g
  | .tell _ k _ => ∃ target, k.target c = some target
  | _ => True

theorem joining_placed (c : ConnID) (room : ID) (players : List PlayerID) :
    (joining room players).placed u c := by
  cases players <;> trivial

theorem after_placed (c : ConnID) (rest : Option (ID × List PlayerID)) :
    (Reader.after rest).placed u c := by
  cases rest <;> trivial

theorem ReaderStep.placed {c : ConnID} {pc pc' : Reader} {e : Effect σ}
    (h : ReaderStep u s c pc e pc') : pc'.placed u c := by
  cases h with
  | refused k hs => cases k <;> first | trivial | exact ⟨_, rfl⟩
  | failed k ch err hs => cases k <;> first | trivial | exact ⟨_, rfl⟩
  | succeeded k ch res hr he =>
    cases k with
    | join room p rest => exact joining_placed c room rest
    | act room action => trivial
    | _ => exact ⟨_, rfl⟩
  | setRoom k answer target ht => exact ⟨target, ht⟩
  | registered k answer target ht => exact ⟨target, ht⟩
  | bound k answer target ht => exact ⟨target, ht⟩
  | told k answer target pc ht hp =>
    rw [hp]
    split
    · exact after_placed c k.rest
    · trivial
  | sent env pc hp =>
    rw [hp]
    split <;> trivial
  | matched gameType g queue players hg hq => exact ⟨g, hg⟩
  | created gameType players id g hg hn => exact joining_placed c id players
  | waited target rest hd => exact after_placed c rest
  | _ => trivial

/-- The rooms the sweep still has to visit. -/
def Sweeper.rooms : Sweeper → List ID
  | .idle => []
  | .visit _ rooms => rooms
  | .submit _ room rest | .await _ room _ rest => room :: rest

/-- An open room replies to the command. -/
def Responds (σ : Type) (cmd : Command) : Prop :=
  ∀ (g : Game σ) (r : Room σ) (now : Time), r.lifecycle ≠ .closed →
    ∃ res, .reply res ∈ (Rooms.step g r (.command now cmd)).2

theorem forceClose_responds : Responds σ .forceClose := by
  intro g r now hopen
  refine ⟨{ lifecycle := .closed }, ?_⟩
  simp [Rooms.step, handle, handleForceClose, hopen]

/-- The answer to a call of the room has come, is about to be sent, or the command is
still on the channel. -/
def AnswerOwed (s : Sys σ) (R : ID) (cmd : Command) (ch : ChanID) : Prop :=
  (s.replies ch).isSome = true ∨ ∃ a, s.actor R = some a ∧
    ((∃ res, .reply (some ch) res ∈ a.todo) ∨ ∃ t ∈ a.queue, t.reply = some ch ∧ t.cmd = cmd)

/-- What the goroutines of a node rely on when they wait. -/
structure Grounded (u : Setup σ) (s : Sys σ) : Prop where
  housed : Housed s
  placed : ∀ c, (s.conn c).reader.placed u c
  waits : ∀ c d rest, (s.conn c).reader = .waitClosed d rest → (s.conn d).closer ≠ .off
  closes : ∀ R a d, s.actor R = some a → .waitClosed d ∈ a.todo → (s.conn d).closer ≠ .off
  sweeps : ∀ R ∈ s.sweeper.rooms, (s.actor R).isSome = true
  owed : ∀ now R ch rest, s.sweeper = .await now R ch rest → AnswerOwed s R .forceClose ch
  few : {R | (s.actor R).isSome = true}.Finite

theorem enqueue_full (s : Sys σ) (c : ConnID) (env : ServerEnvelope) (given : Option (ID × ℕ))
    (hf : (s.conn c).fits = false) : ((s.enqueue c env given).conn c).closer ≠ .off := by
  unfold Sys.enqueue
  dsimp only
  rw [hf, if_neg Bool.false_ne_true]
  unfold Sys.close
  split
  · rw [gotoCloser_closer, if_pos rfl]
    exact Closer.noConfusion
  · next hc => exact hc

/-- A goroutine begins to wait for a `Close` it has just called. -/
theorem ReaderStep.waits {c d : ConnID} {pc : Reader} {e : Effect σ}
    {rest : Option (ID × List PlayerID)} (h : ReaderStep u s c pc e (.waitClosed d rest)) :
    ∃ env given, e = .enqueue d env given ∧ (s.conn d).fits = false := by
  have hfull : ∀ x (pc₁ : Reader) rest₁, (∀ d rest, pc₁ ≠ .waitClosed d rest) →
      Reader.waitClosed d rest = (if (s.conn x).fits then pc₁ else .waitClosed x rest₁) →
      d = x ∧ (s.conn x).fits = false := by
    intro x pc₁ rest₁ hne heq
    split at heq
    · exact absurd heq.symm (hne d rest)
    · next hf =>
      cases heq
      exact ⟨rfl, by simpa using hf⟩
  generalize hpc : Reader.waitClosed d rest = pc' at h
  cases h with
  | refused k hs => cases k <;> cases hpc
  | failed k ch err hs => cases k <;> cases hpc
  | succeeded k ch res hr he =>
    cases k with
    | join room p rest => cases rest <;> cases hpc
    | _ => cases hpc
  | told k answer target pc ht hp =>
    obtain ⟨rfl, hf⟩ := hfull target _ _ (fun d rest heq => by
      generalize k.rest = o at heq
      cases o <;> cases heq) (hpc.trans hp)
    exact ⟨_, _, rfl, hf⟩
  | sent env pc hp =>
    obtain ⟨rfl, hf⟩ := hfull c _ _ (fun d rest heq => by cases heq) (hpc.trans hp)
    exact ⟨_, _, rfl, hf⟩
  | created gameType players id g hg hn => cases players <;> cases hpc
  | waited target rest hd => cases rest <;> cases hpc
  | _ => cases hpc

/-- An actor that finds a full buffer has called `Close`. -/
theorem delivery_closes (h : step u s l = some s') {c : ConnID} (hn : s.nextDelivery l = some c)
    (hf : (s.conn c).fits = false) : (s'.conn c).closer ≠ .off := by
  cases l with
  | act id i =>
    obtain ⟨a, ha, hn⟩ := Option.bind_eq_some_iff.mp hn
    split at hn
    · next env targets rest ht =>
      have hne : targets.isEmpty = false := by
        cases targets with
        | nil => cases hn
        | cons d ds => rfl
      simp only [step, ha, Option.bind_some, roomStep, actNext, ht, hne, hn, Bool.false_eq_true,
        if_false, Option.some.injEq] at h
      rw [← h]
      exact enqueue_full _ c env none hf
    · cases hn
  | _ => cases hn

theorem SweepStep.rooms {w w' : Sweeper} {e : Effect σ} (h : SweepStep u s w e w') :
    ∀ R ∈ w'.rooms, R ∈ w.rooms := by
  intro R hR
  cases h with
  | ended now => cases hR
  | looked now room rest a ha =>
    split at hR
    · exact hR
    · exact List.mem_cons_of_mem _ hR
  | submitted now room rest hacc => exact hR
  | _ => exact List.mem_cons_of_mem _ hR

theorem replies_stay (hm : Move u s l s') {ch : ChanID} (h : (s.replies ch).isSome = true) :
    (s'.replies ch).isSome = true := by
  obtain heq | ⟨id, i, a, ch', res, rest, -, -, -, heq⟩ := move_replies hm
  · rw [heq]
    exact h
  · rw [heq, Function.update_apply]
    split
    · rfl
    · exact h

/-- An answer that is sent is on its channel. -/
theorem act_replies {i : ℕ} (hm : Move u s (.act R i) s') (ha : s.actor R = some a) {ch : ChanID}
    {res : CmdResult} {rest : List Op} (ht : a.todo = .reply (some ch) res :: rest) :
    (s'.replies ch).isSome = true := by
  obtain ⟨b, hb, hact⟩ := hm.act_inv
  rw [ha] at hb
  cases hb
  cases hact with
  | replied ch' res' rest' ht' =>
    rw [ht] at ht'
    cases ht'
    change (Function.update s.replies ch (some res) ch).isSome = true
    rw [Function.update_self]
    rfl
  | broadcast event rest' ht' | completed event rest' ht' | closed event rest' ht'
  | dropped event rest' ht' =>
    rw [ht] at ht'
    cases ht'
  | delivered env targets rest' todo c ht' =>
    rw [ht] at ht'
    cases ht'
  | armed player generation rest' timers ht' =>
    rw [ht] at ht'
    cases ht'

theorem AnswerOwed.move {cmd : Command} {ch : ChanID} (hcmd : Responds σ cmd)
    (h : AnswerOwed s R cmd ch) (hm : Move u s l s') : AnswerOwed s' R cmd ch := by
  obtain hrep | ⟨a, ha, hwork⟩ := h
  · exact Or.inl (replies_stay hm hrep)
  obtain ⟨o', ho', hch⟩ := hm.actor_after ha
  -- the command stays where it is unless it is taken
  have hkeep : ∀ a', s'.actor R = some a' → a'.todo = a.todo →
      (∀ t ∈ a.queue, t ∈ a'.queue) → AnswerOwed s' R cmd ch := by
    intro a' ha' htodo hqueue
    refine Or.inr ⟨a', ha', ?_⟩
    rw [htodo]
    refine hwork.imp_right ?_
    rintro ⟨t, ht, hrest⟩
    exact ⟨t, hqueue t ht, hrest⟩
  have hbusy : a.todo = [] → ∃ t ∈ a.queue, t.reply = some ch ∧ t.cmd = cmd := by
    intro hnil
    obtain ⟨res, hres⟩ | hq := hwork
    · rw [hnil] at hres
      cases hres
    · exact hq
  cases hch with
  | kept => exact hkeep a ho' rfl fun t ht => ht
  | pushed a t timers hp hc => exact hkeep _ ho' rfl fun t ht => List.mem_append_left _ ht
  | flagged a listed stopped timers => exact hkeep _ ho' rfl fun t ht => ht
  | turned a t₀ rest hl hq hnil hopen =>
    obtain ⟨t, ht, hreply, rfl⟩ := hbusy hnil
    rw [hq] at ht
    refine Or.inr ⟨_, ho', ?_⟩
    obtain rfl | ht := List.mem_cons.mp ht
    · left
      obtain ⟨res, hres⟩ := hcmd a.game a.room s.now hopen
      refine ⟨res, ?_⟩
      rw [turnWith_todo, hreply]
      exact List.mem_map.mpr ⟨.reply res, hres, rfl⟩
    · exact Or.inr ⟨t, ht, hreply, rfl⟩
  | ticked a hl hnil hopen =>
    refine Or.inr ⟨_, ho', Or.inr ?_⟩
    exact hbusy hnil
  | acted a a' i hl hp =>
    subst hl
    obtain ⟨res, hres⟩ | ⟨t, ht, hrest⟩ := hwork
    · obtain hin | ⟨rest, htodo⟩ := hp.mem_or_head hres
      · exact Or.inr ⟨a', ho', Or.inl ⟨res, hin⟩⟩
      · exact Or.inl (act_replies hm ha htodo)
    · refine Or.inr ⟨a', ho', Or.inr ⟨t, ?_, hrest⟩⟩
      rw [hp.queue_eq]
      exact ht

theorem push_owed (s : Sys σ) (cmd : Command) (ha : s.actor R = some a) :
    AnswerOwed (s.push R cmd) R cmd s.chans :=
  Or.inr ⟨_, push_self s cmd ha, Or.inr ⟨_, List.mem_concat_self, rfl, rfl⟩⟩

/-- A step makes at most one room. -/
theorem step_makes (hm : Move u s l s') :
    ∃ id, ∀ R, (s'.actor R).isSome = true → R = id ∨ (s.actor R).isSome = true := by
  by_cases hnew : ∃ id, s.actor id = none ∧ (s'.actor id).isSome = true
  swap
  · refine ⟨"", fun R hR => Or.inr ?_⟩
    by_contra hn
    exact hnew ⟨R, by simpa using hn, hR⟩
  obtain ⟨id, hid, hid'⟩ := hnew
  refine ⟨id, fun R hR => ?_⟩
  obtain ⟨a', ha'⟩ := Option.isSome_iff_exists.mp hid'
  obtain ⟨o, ho, hch⟩ := hm.actor_before ha'
  rw [hid] at ho
  subst ho
  cases hch with
  | created c choice gameType players g hl hr hg =>
    subst hl
    obtain ⟨e, pc, hstep, rfl⟩ := hm.run_inv
    rw [hr] at hstep
    cases hstep with
    | created gameType players id' g hg hn =>
      have hset : ∀ R₁, (((s.apply (.createRoom id' gameType g)).goto c
          (joining id' players)).actor R₁) = if R₁ = id' then
            some { game := g, room := newRoom σ id' gameType s.now } else s.actor R₁ :=
        fun R₁ => setActor_actor s id' R₁ _
      have hid₂ : id = id' := by
        by_contra hne
        rw [hset, if_neg hne, hid] at ha'
        cases ha'
      rw [hset] at hR
      split at hR
      · next heq => exact Or.inl (heq.trans hid₂.symm)
      · exact Or.inr hR

theorem Grounded.step (hg : Grounded u s) (hk : Known u s) (h : step u s l = some s') :
    Grounded u s' := by
  have hm := step_move u s s' l h
  have hopen : ∀ c, (s.conn c).closer ≠ .off → (s'.conn c).closer ≠ .off :=
    fun c hc hc' => hc (move_open hk hm c hc')
  refine ⟨hg.housed.move hm, ?_, ?_, ?_, ?_, ?_, ?_⟩
  · intro c
    obtain hr | ⟨sid, -, -, hr⟩ | ⟨m, -, -, hr⟩ | ⟨choice, e, -, hstep⟩ := move_reader hm c
    · rw [hr]
      exact hg.placed c
    · rw [hr]
      trivial
    · rw [hr]
      obtain ⟨env, hmsg, -⟩ | ⟨gameType, hmsg⟩ | ⟨k, hmsg, -⟩ :=
        handleMessage_cases s.now (s.conn c) m <;> rw [hmsg] <;> trivial
    · exact hstep.placed
  · intro c d rest hr'
    obtain hr | ⟨sid, -, -, hr⟩ | ⟨m, -, -, hr⟩ | ⟨choice, e, rfl, -⟩ := move_reader hm c
    · exact hopen d (hg.waits c d rest (hr.symm.trans hr'))
    · rw [hr] at hr'
      cases hr'
    · rw [hr] at hr'
      obtain ⟨env, hmsg, -⟩ | ⟨gameType, hmsg⟩ | ⟨k, hmsg, -⟩ :=
        handleMessage_cases s.now (s.conn c) m <;> rw [hmsg] at hr' <;> cases hr'
    · obtain ⟨e, pc, hstep, rfl⟩ := hm.run_inv
      rw [goto_reader_self] at hr'
      subst hr'
      obtain ⟨env, given, rfl, hf⟩ := hstep.waits
      rw [goto_closer]
      exact enqueue_full s d env given hf
  · intro R a' d ha' hd
    obtain ⟨a, ha, hold⟩ | ⟨hn, hf⟩ := step_waits h R a' d ha' hd
    · exact hopen d (hg.closes R a d ha hold)
    · exact delivery_closes h hn hf
  · intro R hR
    refine move_actor_isSome hm R ?_
    obtain hw | ⟨rooms, -, -, hall, rfl⟩ | ⟨choice, e, w, -, hstep, rfl⟩ := move_sweeper hm
    · rw [hw] at hR
      exact hg.sweeps R hR
    · exact listed_isSome s R (List.all_eq_true.mp hall R hR)
    · exact hg.sweeps R (hstep.rooms R hR)
  · intro now R ch rest hw'
    obtain hw | ⟨rooms, -, -, -, rfl⟩ | ⟨choice, e, w, -, hstep, rfl⟩ := move_sweeper hm
    · exact (hg.owed now R ch rest (hw.symm.trans hw')).move forceClose_responds hm
    · cases hw'
    · change w = .await now R ch rest at hw'
      subst hw'
      obtain ⟨-, rfl, rfl, hacc⟩ := hstep.to_await
      obtain ⟨a, ha⟩ := accepts_actor s R hacc
      exact push_owed s .forceClose ha
  · obtain ⟨id, hid⟩ := step_makes hm
    exact (hg.few.insert id).subset fun R hR => hid R hR

theorem grounded_start : Grounded u {} where
  housed := housed_start
  placed := fun c => trivial
  waits := fun c d rest h => by cases h
  closes := fun R a d h => by cases h
  sweeps := fun R h => by cases h
  owed := fun now R ch rest h => by cases h
  few := by
    have hnone : {R | ((({} : Sys σ)).actor R).isSome = true} = ∅ := by
      ext R
      simp
    rw [hnone]
    exact Set.finite_empty

/-! ## Where a node stops -/

/-- What a node does by itself: not what clients, timers, tickers and the clock do. -/
def Label.inner : Label → Bool
  | .run _ _ | .close _ _ | .turn _ | .act _ _ | .remove _ | .stop _ | .gc _ => true
  | _ => false

/-- Nothing is left to do: the goroutines of the connections wait for messages, no
connection is being closed, every room has handled its commands or has stopped, and no
sweep is going on. -/
structure AtRest (s : Sys σ) : Prop where
  reader : ∀ c, (s.conn c).reader = .idle
  closer : ∀ c, (s.conn c).closer = .off ∨ (s.conn c).closer = .done
  room : ∀ R a, s.actor R = some a →
    a.todo = [] ∧ (a.stopped = true ∨ a.room.lifecycle ≠ .closed ∧ a.queue = [])
  sweeper : s.sweeper = .idle

/-- No goroutine of the node can go on by itself. -/
def Halted (u : Setup σ) (s : Sys σ) : Prop := ∀ l, l.inner = true → step u s l = none

/-- A room that takes no command and has not stopped is crowded. -/
theorem crowded_of_blocked (hR : (s.actor R).isSome = true) (ha : s.accepts R ≠ true)
    (hs : s.stopped R ≠ true) : Crowded s R := by
  obtain ⟨a, hactor⟩ := Option.isSome_iff_exists.mp hR
  rw [Sys.accepts, hactor, Option.any_some] at ha
  rw [Sys.stopped, hactor, Option.any_some] at hs
  exact ⟨a, hactor, by simpa using hs, by simpa using ha⟩

section Halted
variable (hh : Halted u s)
include hh

theorem Halted.run {c : ConnID} {pc : Reader} (hr : (s.conn c).reader = pc) (choice : Choice) :
    pc.next u s c choice = none := by
  have h := hh (.run c choice) rfl
  rw [step, hr] at h
  exact Option.map_eq_none_iff.mp h

theorem Halted.close {c : ConnID} {pc : Closer} (hc : (s.conn c).closer = pc) (choice : Choice) :
    pc.next u s c choice = none := by
  have h := hh (.close c choice) rfl
  rw [step, hc] at h
  exact Option.map_eq_none_iff.mp h

/-- Whoever has called `Close` on a connection finds it closed, or waiting for a place
on a full channel. -/
theorem Halted.closer (hg : Grounded u s) (c : ConnID) (hoff : (s.conn c).closer ≠ .off) :
    (s.conn c).closer = .done ∨ ∃ R, (s.conn c).closer = .submit R ∧ Crowded s R := by
  have hgo := fun pc (hc : (s.conn c).closer = pc) choice => hh.close hc choice
  have hroom := hg.housed.closer c
  generalize (s.conn c).closer = pc at hoff hgo hroom ⊢
  cases pc with
  | off => exact absurd rfl hoff
  | start =>
    have h := hgo _ rfl .go
    simp only [Closer.next] at h
    split at h <;> cases h
  | dequeue gameType => cases hgo _ rfl .go
  | getRoom =>
    have h := hgo _ rfl .go
    simp only [Closer.next] at h
    split at h <;> cases h
  | unregister R => cases hgo _ rfl .go
  | submit R =>
    refine Or.inr ⟨R, rfl, crowded_of_blocked (hroom R rfl) ?_ ?_⟩
    · intro hacc
      have h := hgo _ rfl .go
      simp [Closer.next, hacc] at h
    · intro hst
      have h := hgo _ rfl .stopped
      simp [Closer.next, hst] at h
  | await R ch => cases hgo _ rfl .timeout
  | bind R => cases hgo _ rfl .go
  | done => exact Or.inl rfl

/-- A room with nothing to send has handled its commands or has stopped. -/
theorem Halted.room (ha : s.actor R = some a) (ht : a.todo = []) :
    a.stopped = true ∨ a.room.lifecycle ≠ .closed ∧ a.queue = [] := by
  by_cases hl : a.room.lifecycle = .closed
  · left
    have hleft : a.left = true := by simp [Actor.left, ht, hl]
    have hremove := hh (.remove R) rfl
    have hstop := hh (.stop R) rfl
    simp only [step, ha, Option.bind_some, roomStep, hleft, true_and] at hremove hstop
    by_cases hlisted : a.listed = true
    · rw [if_pos hlisted] at hremove
      cases hremove
    · by_contra hst
      rw [if_pos ⟨hlisted, hst⟩] at hstop
      cases hstop
  · right
    refine ⟨hl, ?_⟩
    have hturn := hh (.turn R) rfl
    have hready : a.ready = true := (ready_iff a).mpr ⟨ht, hl⟩
    simp only [step, ha, Option.bind_some, roomStep] at hturn
    cases hq : a.queue with
    | nil => rfl
    | cons t rest =>
      rw [hq] at hturn
      simp only [hready, if_true] at hturn
      cases hturn

/-- A crowded room is in the middle of a turn. -/
theorem Halted.busy (hc : Crowded s R) : ∃ a, s.actor R = some a ∧ a.todo ≠ [] := by
  obtain ⟨a, ha, hs, hq⟩ := hc
  refine ⟨a, ha, fun ht => ?_⟩
  obtain hst | ⟨-, hnil⟩ := hh.room ha ht
  · rw [hs] at hst
    cases hst
  · rw [hnil] at hq
    cases hq

/-- A room in the middle of a turn waits for a crowded room. -/
theorem Halted.waitsFor (hg : Grounded u s) (ha : s.actor R = some a) (ht : a.todo ≠ []) :
    ∃ R', WaitsFor s R R' ∧ Crowded s R' := by
  have hact := hh (.act R 0) rfl
  simp only [step, ha, Option.bind_some, roomStep, actNext] at hact
  cases htodo : a.todo with
  | nil => exact absurd htodo ht
  | cons op rest =>
    rw [htodo] at hact
    cases op with
    | broadcast event => cases hact
    | deliver env targets =>
      cases targets with
      | nil => cases hact
      | cons c cs => cases hact
    | waitClosed c =>
      have hoff := hg.closes R a c ha (by rw [htodo]; exact List.mem_cons_self)
      obtain hdone | ⟨R', hsub, hfull⟩ := hh.closer hg c hoff
      · simp [hdone] at hact
      · exact ⟨R', ⟨a, c, rest, ha, htodo, hsub⟩, hfull⟩
    | reply ch res => cases ch <;> cases hact
    | afterFunc player generation => cases hact

/-- With no channel full and every `Close` done, the goroutines wait for messages. -/
theorem Halted.reader (hg : Grounded u s) (hfree : ∀ R, ¬ Crowded s R)
    (hclosed : ∀ c, (s.conn c).closer ≠ .off → (s.conn c).closer = .done) (c : ConnID) :
    (s.conn c).reader = .idle := by
  have hgo := fun pc (hr : (s.conn c).reader = pc) choice => hh.run hr choice
  have hroom := hg.housed.reader c
  have hplaced := hg.placed c
  have hwaits := hg.waits c
  generalize (s.conn c).reader = pc at hgo hroom hplaced hwaits ⊢
  cases pc with
  | idle => rfl
  | load =>
    have h := hgo _ rfl .go
    simp only [Reader.next] at h
    split at h <;> cases h
  | get rec => cases hgo _ rfl .go
  | submit k =>
    refine absurd (crowded_of_blocked (hroom k.room rfl) ?_ ?_) (hfree k.room)
    · intro hacc
      have h := hgo _ rfl .go
      simp [Reader.next, hacc] at h
    · intro hst
      have h := hgo _ rfl .stopped
      simp [Reader.next, hst] at h
  | await k ch => cases hgo _ rfl .timeout
  | tell stage k answer =>
    obtain ⟨target, ht⟩ := hplaced
    have h := hgo _ rfl .go
    simp [Reader.next, ht] at h
  | send env => cases hgo _ rfl .go
  | pend gameType => cases hgo _ rfl .go
  | enqueue gameType => cases hgo _ rfl .go
  | create gameType players =>
    obtain ⟨g, hgame⟩ := hplaced
    obtain ⟨id, hid⟩ := hg.few.exists_notMem
    have hnone : s.actor id = none := by simpa using hid
    have h := hgo _ rfl (.fresh id)
    simp [Reader.next, hgame, hnone] at h
  | clearPending e => cases hgo _ rfl .go
  | status R => cases hgo _ rfl .timeout
  | seat R players => cases hgo _ rfl .go
  | waitClosed d rest =>
    have hdone := hclosed d (hwaits d rest rfl)
    have h := hgo _ rfl .go
    simp [Reader.next, hdone] at h

theorem Halted.sweeper (hg : Grounded u s) (hfree : ∀ R, ¬ Crowded s R)
    (hidle : ∀ R a, s.actor R = some a → a.todo = []) : s.sweeper = .idle := by
  have hgo : ∀ choice, s.sweeper.next u s choice = none := fun choice =>
    Option.map_eq_none_iff.mp (hh (.gc choice) rfl)
  have hrooms := hg.sweeps
  have howed := hg.owed
  -- a room between two turns answers, unless it has stopped
  have hserves : ∀ R, (s.actor R).isSome = true →
      s.stopped R = true ∨ (∃ view, s.status R = some view) ∧
        ∀ ch, AnswerOwed s R .forceClose ch → (s.replies ch).isSome = true := by
    intro R hR
    obtain ⟨a, ha⟩ := Option.isSome_iff_exists.mp hR
    obtain hst | ⟨hl, hq⟩ := hh.room ha (hidle R a ha)
    · left
      rw [Sys.stopped, ha]
      exact hst
    · right
      refine ⟨⟨_, by simp [Sys.status, ha, hidle R a ha, hl]; rfl⟩, ?_⟩
      rintro ch (hrep | ⟨b, hb, ⟨res, hres⟩ | ⟨t, ht, -⟩⟩)
      · exact hrep
      · rw [hidle R b hb] at hres
        cases hres
      · rw [ha] at hb
        cases hb
        rw [hq] at ht
        cases ht
  generalize s.sweeper = w at hgo hrooms howed ⊢
  cases w with
  | idle => rfl
  | visit now rooms =>
    cases rooms with
    | nil => cases hgo .go
    | cons R rest =>
      obtain hst | ⟨⟨view, hv⟩, -⟩ := hserves R (hrooms R List.mem_cons_self)
      · have h := hgo .stopped
        simp [Sweeper.next, hst] at h
      · have h := hgo .go
        simp [Sweeper.next, hv] at h
  | submit now R rest =>
    refine absurd (crowded_of_blocked (hrooms R List.mem_cons_self) ?_ ?_) (hfree R)
    · intro hacc
      have h := hgo .go
      simp [Sweeper.next, hacc] at h
    · intro hst
      have h := hgo .stopped
      simp [Sweeper.next, hst] at h
  | await now R ch rest =>
    obtain hst | ⟨-, hrep⟩ := hserves R (hrooms R List.mem_cons_self)
    · have h := hgo .stopped
      simp [Sweeper.next, hst] at h
    · have h := hgo .go
      simp [Sweeper.next, hrep ch (howed now R ch rest rfl)] at h

end Halted

/-- In a halted node the rooms in the middle of a turn are deadlocked. -/
theorem Halted.deadlocked (hh : Halted u s) (hg : Grounded u s) :
    Deadlocked s {R | ∃ a, s.actor R = some a ∧ a.todo ≠ []} := by
  rintro R ⟨a, ha, ht⟩
  obtain ⟨R', hw, hc⟩ := hh.waitsFor hg ha ht
  exact ⟨R', hh.busy hc, hw, hc⟩

/-- With every room between two turns, a halted node is at rest. -/
theorem Halted.atRest (hh : Halted u s) (hg : Grounded u s)
    (hidle : ∀ R a, s.actor R = some a → a.todo = []) : AtRest s := by
  have hfree : ∀ R, ¬ Crowded s R := by
    intro R hc
    obtain ⟨a, ha, ht⟩ := hh.busy hc
    exact ht (hidle R a ha)
  have hclosed : ∀ c, (s.conn c).closer ≠ .off → (s.conn c).closer = .done := by
    intro c hoff
    obtain hdone | ⟨R, -, hc⟩ := hh.closer hg c hoff
    · exact hdone
    · exact absurd hc (hfree R)
  refine ⟨hh.reader hg hfree hclosed, fun c => ?_, fun R a ha => ?_, hh.sweeper hg hfree hidle⟩
  · by_cases hoff : (s.conn c).closer = .off
    · exact Or.inl hoff
    · exact Or.inr (hclosed c hoff)
  · exact ⟨hidle R a ha, hh.room ha (hidle R a ha)⟩

theorem run_grounded (u : Setup σ) (ls : List Label) (s : Sys σ) (hr : run u ls = some s) :
    Grounded u s :=
  (run_step_invariant (fun _ _ => True) (Grounded u) (fun _ _ _ _ hs hg h => hg.step hs.known h)
    grounded_start ls s (meets_of_forall (step u) _ (fun _ _ => trivial) {} ls) hr).2

theorem halted_of_no_move (h : ¬ ∃ l s', l.inner = true ∧ step u s l = some s') : Halted u s := by
  intro l hl
  cases hs : step u s l with
  | none => rfl
  | some s' => exact absurd ⟨l, s', hl, hs⟩ h

theorem Halted.rests_or_deadlocked (hh : Halted u s) (hg : Grounded u s) :
    AtRest s ∨ ∃ K : Set ID, K.Nonempty ∧ Deadlocked s K := by
  by_cases hidle : ∀ R a, s.actor R = some a → a.todo = []
  · exact Or.inl (hh.atRest hg hidle)
  · right
    refine ⟨_, ?_, hh.deadlocked hg⟩
    by_contra hempty
    refine hidle fun R a ha => ?_
    by_contra ht
    exact hempty ⟨R, a, ha, ht⟩

/-- Nobody waits where every `Close` that a room waits for has returned. -/
theorem Unhindered.not_deadlocked (hu : Unhindered s) {K : Set ID} (hd : Deadlocked s K) :
    K = ∅ := by
  refine Set.eq_empty_iff_forall_notMem.mpr fun R hR => ?_
  obtain ⟨R', -, ⟨a, c, rest, ha, ht, hc⟩, -⟩ := hd R hR
  have hdone := hu R a c ha (by rw [ht]; exact List.mem_cons_self)
  rw [hc] at hdone
  cases hdone

/-- **A node stops only at rest or in a deadlock.** In every state that a run leads to,
some goroutine can go on by itself, or there is nothing left to do, or some rooms are
deadlocked: full channels, `Close` calls and answers that do not come make nobody
wait forever otherwise. As long as every delivery of a broadcast finds room in the send
buffer or a connection that is closed for good, there is no deadlock. -/
theorem moves_rests_or_deadlocked (u : Setup σ) (ls : List Label) (s : Sys σ)
    (hr : run u ls = some s) :
    ((∃ l s', l.inner = true ∧ step u s l = some s') ∨ AtRest s ∨
      ∃ K : Set ID, K.Nonempty ∧ Deadlocked s K) ∧
    (Meets (step u) (fun s l => deliversFreely s l = true) {} ls →
      ∀ K : Set ID, Deadlocked s K → K = ∅) := by
  constructor
  · by_cases hmove : ∃ l s', l.inner = true ∧ step u s l = some s'
    · exact Or.inl hmove
    · exact Or.inr ((halted_of_no_move hmove).rests_or_deadlocked (run_grounded u ls s hr))
  · intro hc K hd
    obtain ⟨-, hu⟩ := run_step_invariant (fun s l => deliversFreely s l = true) Unhindered
      (fun s l s' hl hs hu h => hu.step hs hl h) (fun id a c ha => by cases ha) ls s hc hr
    exact hu.not_deadlocked hd

end Deadlock

/-! ## A room that waits for itself -/

section Scenario
set_option maxRecDepth 100000

/-- The actor of the room waits for a place on its own channel. -/
def Sys.blocksItself (s : Sys GameState) (R : ID) : Bool :=
  (s.actor R).any fun a => !a.stopped && decide (cmdCap ≤ a.queue.length) &&
    match a.todo with
    | .waitClosed c :: _ => decide ((s.conn c).closer = .submit R)
    | _ => false

theorem blocksItself_deadlocked {s : Sys GameState} {R : ID} (h : s.blocksItself R = true) :
    Deadlocked s {R} := by
  obtain ⟨a, ha, h⟩ := (Option.any_eq_true _ _).mp h
  simp only [Bool.and_eq_true, Bool.not_eq_true', decide_eq_true_eq] at h
  obtain ⟨⟨hs, hq⟩, h⟩ := h
  rintro _ rfl
  refine ⟨_, rfl, ?_, a, ha, hs, hq⟩
  split at h
  · next c rest ht => exact ⟨a, c, rest, ha, ht, of_decide_eq_true h⟩
  · cases h

/-- Thirty answers leave room for alice's move. -/
theorem first_move_not_deadlocked :
    ∃ s, run aliceAndBob (seated ++ babbles 1 30 ++ plays 0 0 0 1 5) = some s ∧
      ((∃ l s', l.inner = true ∧ step aliceAndBob s l = some s') ∨ AtRest s) := by
  have hc : Meets (step aliceAndBob) (fun s l => deliversFreely s l = true) {}
      (seated ++ babbles 1 30 ++ plays 0 0 0 1 5) := by decide +kernel
  have hend : (run aliceAndBob (seated ++ babbles 1 30 ++ plays 0 0 0 1 5)).isSome = true := by
    decide +kernel
  obtain ⟨s, hs⟩ := Option.isSome_iff_exists.mp hend
  obtain ⟨hmoves | hrest | ⟨K, hK, hd⟩, hfree⟩ := moves_rests_or_deadlocked aliceAndBob _ s hs
  · exact ⟨s, hs, Or.inl hmoves⟩
  · exact ⟨s, hs, Or.inr hrest⟩
  · rw [hfree hc K hd] at hK
    exact absurd hK Set.not_nonempty_empty

/-- Alice asks `n` times for a snapshot and gives up each time. -/
def asksInVain (n : ℕ) : List Label :=
  (List.replicate n [.recv 0 (.message { type := "RESYNC" }), .run 0 .go, .run 0 .timeout,
    .run 0 .go, .pump 0]).flatten

/-- Bob does not read; alice's move makes the room close bob's connection, and before
`Close` has come to its `Disconnect` the room's channel is full. -/
def crowdsRoom : List Label :=
  seated ++ babbles 1 31 ++
    [.recv 0 (.message { type := "ACTION_MOVE", seq := 1,
                         payload := some (.obj [("x", .int 0), ("y", .int 0)]) }),
      .run 0 .go, .turn "r", .act "r" 0, .act "r" 0, .run 0 .timeout, .run 0 .go, .pump 0] ++
    asksInVain 64 ++ List.replicate 3 (.close 1 .go)

theorem room_blocked_forever :
    ∃ s s', run aliceAndBob crowdsRoom = some s ∧
      exec (step aliceAndBob) s [.clock 5000, .sweepRooms ["r"], .hangup 0, .close 0 .go] = some s' ∧
      Deadlocked s {"r"} ∧ s'.status "r" = none := by
  have hend : ((run aliceAndBob crowdsRoom).any fun s => s.blocksItself "r" &&
      (s.actor "r").isSome && (exec (step aliceAndBob) s
        [.clock 5000, .sweepRooms ["r"], .hangup 0, .close 0 .go]).isSome) = true := by
    decide +kernel
  obtain ⟨s, hs, h⟩ := (Option.any_eq_true _ _).mp hend
  simp only [Bool.and_eq_true] at h
  obtain ⟨⟨hb, ha⟩, hx⟩ := h
  obtain ⟨a, ha⟩ := Option.isSome_iff_exists.mp ha
  obtain ⟨s', hx⟩ := Option.isSome_iff_exists.mp hx
  have hd := blocksItself_deadlocked hb
  refine ⟨s, s', hs, hx, hd, ?_⟩
  exact ((deadlock_is_forever aliceAndBob crowdsRoom _ s s' hs hx {"r"} hd).2 "r" rfl a ha).1

end Scenario
end RealtimeEngine.Transport
