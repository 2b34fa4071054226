import RealtimeEngine.Transport.Delivery

/-! Whether a room's actor can get stuck inside a broadcast. `enqueue` on a full
send buffer runs `Close`, and `onConnectionClosed` submits a `Disconnect` to the
room and waits for the answer: when the caller is the actor of that room, it
waits for itself. It does not happen as long as every delivery of a broadcast
finds room in the buffer, or a connection whose `Close` has returned. -/
namespace RealtimeEngine.Transport
open Foundations Domain Rooms Storage Matchmaking
set_option autoImplicit false
set_option maxHeartbeats 250000

section Overflow
variable {σ : Type} {u : Setup σ} {s s' : Sys σ} {l : Label}

/-- The actor of the room waits for a `Close` that waits for the actor: for a
place on its command channel, or for the answer to the `Disconnect`. -/
def Sys.waitsOnItself (s : Sys σ) (id : ID) : Bool :=
  (s.actor id).any fun a =>
    match a.todo with
    | .waitClosed c :: _ =>
      match (s.conn c).closer with
      | .submit room => decide (room = id) && !s.accepts id
      | .await room ch => decide (room = id) && (s.replies ch).isNone
      | _ => false
    | _ => false

/-- The connection on which a step of a broadcast's loop enqueues. -/
def Sys.nextDelivery (s : Sys σ) : Label → Option ConnID
  | .act id i =>
    (s.actor id).bind fun a =>
      match a.todo with
      | .deliver _ targets :: _ => targets[i]?
      | _ => none
  | _ => none

def deliversFreely (s : Sys σ) (l : Label) : Bool :=
  (s.nextDelivery l).all fun c => (s.conn c).fits || decide ((s.conn c).closer = .done)

/-- The outputs that are done inside `Sink.Broadcast`. -/
def Op.broadcasting : Op → Bool
  | .broadcast _ | .deliver _ _ | .waitClosed _ => true
  | _ => false

/-! ## Where a wait comes from -/

theorem waitClosed_not_mem_ofOutput (outs : List Output) (ch : Option ChanID) (c : ConnID) :
    Op.waitClosed c ∉ outs.map (Op.ofOutput ch) := by
  intro h
  obtain ⟨o, -, heq⟩ := List.mem_map.mp h
  cases o <;> cases heq

theorem step_delivers (id : ID) (i : ℕ) (a : Actor σ) (env : ServerEnvelope)
    (targets : List ConnID) (rest : List Op) (c : ConnID)
    (h : step u s (.act id i) = some s') (ha : s.actor id = some a)
    (ht : a.todo = .deliver env targets :: rest) (hc : targets[i]? = some c)
    (hf : (s.conn c).fits = true) :
    s'.actor id = some { a with todo := .deliver env (targets.eraseIdx i) :: rest } := by
  have hne : targets.isEmpty = false := by
    cases targets with
    | nil => cases hc
    | cons c cs => rfl
  simp only [step, ha, Option.bind_some, roomStep, actNext, ht, hne, hc, hf, if_true,
    Bool.false_eq_true, if_false, Option.some.injEq] at h
  rw [← h, enqueue_rest _ (fun s => s.actor id) (fun _ _ _ => rfl) c env none, setActor_actor,
    if_pos rfl]

/-- A room waits for a `Close` it waited for before, or has just found the buffer full. -/
theorem step_waits (h : step u s l = some s') (id : ID) (a' : Actor σ) (c : ConnID)
    (ha' : s'.actor id = some a') (hw : .waitClosed c ∈ a'.todo) :
    (∃ a, s.actor id = some a ∧ .waitClosed c ∈ a.todo) ∨
    s.nextDelivery l = some c ∧ (s.conn c).fits = false := by
  obtain ⟨o, ho, hch⟩ := (step_move u s s' l h).actor_before ha'
  cases hch with
  | kept => exact Or.inl ⟨a', ho, hw⟩
  | created d choice gameType players g hl hr hg => cases hw
  | pushed a t timers hp hn => exact Or.inl ⟨a, ho, hw⟩
  | turned a t rest hl hq ht hlc => exact absurd hw (waitClosed_not_mem_ofOutput _ _ c)
  | ticked a hl ht hlc => exact absurd hw (waitClosed_not_mem_ofOutput _ _ c)
  | flagged a listed stopped timers => exact Or.inl ⟨a, ho, hw⟩
  | acted a b i hl hp =>
    subst hl
    cases hp with
    | broadcast event rest ht =>
      have hrest : Op.waitClosed c ∈ rest := by simpa using hw
      exact Or.inl ⟨a, ho, by simp [ht, hrest]⟩
    | completed env rest ht => exact Or.inl ⟨a, ho, by rw [ht]; exact List.mem_cons_of_mem _ hw⟩
    | done op rest timers ht hplain =>
      exact Or.inl ⟨a, ho, by rw [ht]; exact List.mem_cons_of_mem _ hw⟩
    | delivered env targets rest todo d ht hc hd =>
      have hrest : Op.waitClosed c ∈ rest →
          ∃ b, s.actor id = some b ∧ .waitClosed c ∈ b.todo :=
        fun hm => ⟨a, ho, by simp [ht, hm]⟩
      by_cases hf : (s.conn d).fits = true
      · have hs := step_delivers id i a env targets rest d h ho ht hc hf
        rw [ha', Option.some.injEq] at hs
        have htodo : todo = .deliver env (targets.eraseIdx i) :: rest := congrArg Actor.todo hs
        have hw' : Op.waitClosed c ∈ todo := hw
        rw [htodo] at hw'
        exact Or.inl (hrest (by simpa using hw'))
      · have hf' : (s.conn d).fits = false := by simpa using hf
        have hw' : Op.waitClosed c ∈ Op.waitClosed d :: .deliver env (targets.eraseIdx i) :: rest := by
          obtain rfl | rfl := hd
          · exact List.mem_cons_of_mem _ hw
          · exact hw
        obtain hcd | hw' := List.mem_cons.mp hw'
        · cases hcd
          exact Or.inr ⟨by simp [Sys.nextDelivery, ho, ht, hc], hf'⟩
        · exact Or.inl (hrest (by simpa using hw'))

/-- A connection that is closed stays so. -/
theorem move_done (hk : Known u s) (hm : Move u s l s') (c : ConnID)
    (h : (s.conn c).closer = .done) : (s'.conn c).closer = .done := by
  obtain hc | ⟨sid, -, rfl, -⟩ | ⟨hoff, -⟩ | ⟨choice, e, -, hstep⟩ := move_closer hm c
  · rw [hc, h]
  · rw [hk.fresh] at h
    cases h
  · rw [h] at hoff
    cases hoff
  · rw [h] at hstep
    cases hstep

/-! ## Runs without a full buffer -/

/-- Every `Close` that a room waits for has returned. -/
def Unhindered (s : Sys σ) : Prop :=
  ∀ id a c, s.actor id = some a → .waitClosed c ∈ a.todo → (s.conn c).closer = .done

theorem Unhindered.step (hs : Sound u s) (hu : Unhindered s) (hl : deliversFreely s l = true)
    (h : step u s l = some s') : Unhindered s' := by
  intro id a' c ha' hw
  have hm := step_move u s s' l h
  obtain ⟨a, ha, hold⟩ | ⟨hd, hf⟩ := step_waits h id a' c ha' hw
  · exact move_done hs.known hm c (hu id a c ha hold)
  · have hdone : (s.conn c).closer = .done := by
      simpa [deliversFreely, hd, hf] using hl
    exact move_done hs.known hm c hdone

/-- As long as every delivery finds room in the send buffer or a connection that
is closed for good, no actor waits on itself: inside a broadcast it can always
go on. -/
theorem broadcast_never_waits (u : Setup σ) (ls : List Label) (s : Sys σ)
    (hc : Meets (step u) (fun s l => deliversFreely s l = true) {} ls)
    (hr : run u ls = some s) (id : ID) :
    s.waitsOnItself id = false ∧
    ∀ a op rest, s.actor id = some a → a.todo = op :: rest → op.broadcasting = true →
      ∃ i s', Transport.step u s (.act id i) = some s' := by
  obtain ⟨-, hu⟩ := run_step_invariant (fun s l => deliversFreely s l = true) Unhindered
    (fun s l s' hl hs hu h => hu.step hs hl h) (fun id a c ha => by cases ha) ls s hc hr
  refine ⟨?_, ?_⟩
  · cases ha : s.actor id with
    | none => simp [Sys.waitsOnItself, ha]
    | some a =>
      cases ht : a.todo with
      | nil => simp [Sys.waitsOnItself, ha, ht]
      | cons op rest =>
        cases op with
        | waitClosed c =>
          have hdone := hu id a c ha (by simp [ht])
          simp [Sys.waitsOnItself, ha, ht, hdone]
        | _ => simp [Sys.waitsOnItself, ha, ht]
  · intro a op rest ha ht hb
    cases op with
    | broadcast event => exact ⟨0, _, by simp [Transport.step, ha, roomStep, actNext, ht]; rfl⟩
    | deliver env targets =>
      cases targets with
      | nil => exact ⟨0, _, by simp [Transport.step, ha, roomStep, actNext, ht]; rfl⟩
      | cons c cs => exact ⟨0, _, by simp [Transport.step, ha, roomStep, actNext, ht]; rfl⟩
    | waitClosed c =>
      have hdone := hu id a c ha (by simp [ht])
      exact ⟨0, _, by simp [Transport.step, ha, roomStep, actNext, ht, hdone]; rfl⟩
    | reply ch res => cases hb
    | afterFunc player generation => cases hb

end Overflow

/-! ## A client that does not read -/

section Scenario
set_option maxRecDepth 100000

/-- A client sends `n` messages that do not decode, and leaves the answers on the channel. -/
def babbles (c : ConnID) (n : ℕ) : List Label :=
  (List.replicate n [.recv c (.malformed "unexpected end of JSON input"), .run c .go]).flatten

/-- Thirty answers leave room for alice's move: room `r` comes to the end of its broadcast. -/
theorem broadcast_fits :
    Meets (step aliceAndBob) (fun s l => deliversFreely s l = true) {}
      (seated ++ babbles 1 30 ++ plays 0 0 0 1 5) ∧
    ∃ s, run aliceAndBob (seated ++ babbles 1 30 ++ plays 0 0 0 1 5) = some s ∧
      s.waitsOnItself "r" = false := by
  have hc : Meets (step aliceAndBob) (fun s l => deliversFreely s l = true) {}
      (seated ++ babbles 1 30 ++ plays 0 0 0 1 5) := by decide +kernel
  have hend : (run aliceAndBob (seated ++ babbles 1 30 ++ plays 0 0 0 1 5)).isSome = true := by
    decide +kernel
  obtain ⟨s, hr⟩ := Option.isSome_iff_exists.mp hend
  exact ⟨hc, s, hr, (broadcast_never_waits aliceAndBob _ s hc hr "r").1⟩

/-- One answer more fills bob's buffer: alice's move makes room `r` run bob's
`Close`, which waits for room `r` to answer a `Disconnect`. Until the deadline of
that call neither goes on. -/
theorem full_buffer_stalls_room :
    ((run aliceAndBob (seated ++ babbles 1 31 ++
        [.recv 0 (move 0 0 1), .run 0 .go, .turn "r", .act "r" 0, .act "r" 0] ++
        List.replicate 4 (.close 1 .go))).any fun s =>
      s.waitsOnItself "r" && (step aliceAndBob s (.turn "r")).isNone &&
      (step aliceAndBob s (.act "r" 0)).isNone && (step aliceAndBob s (.close 1 .go)).isNone) =
        true := by
  decide +kernel

end Scenario
end RealtimeEngine.Transport
