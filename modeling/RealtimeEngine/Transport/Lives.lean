import RealtimeEngine.Transport.Connected

/-! The life of a room on a node. Behind the channels, the Hub and the goroutines
each actor runs the room machine on the commands and ticks it takes, one at a
time, and does all outputs of one before it takes the next. What every move keeps
true of a room and the trace of its life holds in every run. -/
namespace RealtimeEngine.Transport
open Foundations Domain Rooms Storage Matchmaking
set_option autoImplicit false
set_option maxHeartbeats 250000

section Lives
variable {σ : Type} {u : Setup σ} {s s' : Sys σ} {l : Label}

/-! ## One move -/

/-- How a move carries on the life `h` of a room: the room handles an input, with
nothing left to do from the one before; or an output is done; or neither. -/
inductive Life (s : Sys σ) (l : Label) (R : ID) (a : Actor σ) (h : List (Input × Output)) :
    Actor σ → List (Input × Output) → Prop
  | turn (i : Input) (ch : Option ChanID) (queue : List Ticket) (hi : Handles s a R l i)
      (ht : a.todo = []) :
      Life s l R a h (turnWith a i ch queue)
        (h ++ (Rooms.step a.game a.room i).2.map fun o => (i, o))
  | acted (a' : Actor σ) (i : ℕ) (hl : l = .act R i) (hp : Progress s i a a') :
      Life s l R a h a' h
  | kept (a' : Actor σ) (hn : ∀ i, ¬ Handles s a R l i) (hl : ∀ i, l ≠ .act R i)
      (hg : a'.game = a.game) (hr : a'.room = a.room) (ht : a'.todo = a.todo) :
      Life s l R a h a' h

/-- A room that was made stays. -/
theorem Move.actor_stays (hm : Move u s l s') {R : ID} {a : Actor σ} (ha : s.actor R = some a) :
    ∃ a', s'.actor R = some a' ∧ ActorChange u s l s'.chans R (some a) (some a') := by
  obtain ⟨o', ho', hch⟩ := hm.actor_after ha
  have hsome : ∃ a', o' = some a' := by
    cases hch <;> exact ⟨_, rfl⟩
  obtain ⟨a', rfl⟩ := hsome
  exact ⟨a', ho', hch⟩

theorem push_self (s : Sys σ) {R : ID} {a : Actor σ} (cmd : Command) (ha : s.actor R = some a) :
    (s.push R cmd).actor R =
      some { a with queue := a.queue ++ [{ cmd := cmd, reply := some s.chans }] } := by
  unfold Sys.push
  rw [ha]
  exact (setActor_actor s R R _).trans (if_pos rfl)

theorem push_other (s : Sys σ) {R R' : ID} (cmd : Command) (hne : R' ≠ R) :
    (s.push R cmd).actor R' = s.actor R' := by
  unfold Sys.push
  split
  · rfl
  · exact (setActor_actor s R R' _).trans (if_neg hne)

theorem Handles.unique {R : ID} {a : Actor σ} {i j : Input} (hi : Handles s a R l i)
    (hj : Handles s a R l j) : i = j := by
  cases hi with
  | command t rest hq =>
    cases hj with
    | command t' rest' hq' =>
      rw [hq] at hq'
      cases hq'
      rfl
  | tick =>
    cases hj
    rfl

theorem Move.tick_inv {id : ID} (h : Move u s (.tick id) s') :
    ∃ a, s.actor id = some a ∧ a.todo = [] ∧
      s' = s.setActor id (turnWith a (.tick s.now) none a.queue) := by
  cases h with
  | tick id a ha ht hl => exact ⟨a, ha, ht, rfl⟩
  | flag l id a listed stopped timers ha hl => obtain hl | hl | ⟨i, hl⟩ := hl <;> cases hl

/-- A turn is taken with nothing left to do. -/
theorem Move.turn_todo {id : ID} (h : Move u s (.turn id) s') :
    ∃ a t rest, s.actor id = some a ∧ a.queue = t :: rest ∧ a.todo = [] ∧
      s' = s.setActor id (turnWith a (.command s.now t.cmd) t.reply rest) := by
  cases h with
  | turn id a t rest ha hq ht hl => exact ⟨a, t, rest, ha, hq, ht, rfl⟩
  | flag l id a listed stopped timers ha hl => obtain hl | hl | ⟨i, hl⟩ := hl <;> cases hl

theorem ActStep.progress {R : ID} {a : Actor σ} {i : ℕ} (h : ActStep u s R a i s') :
    ∃ a', s'.actor R = some a' ∧ Progress s i a a' := by
  have hset : ∀ a' : Actor σ, (s.setActor R a').actor R = some a' := by
    intro a'
    rw [setActor_self]
  cases h with
  | broadcast event rest ht => exact ⟨_, hset _, .broadcast event rest ht⟩
  | completed env rest ht => exact ⟨_, hset _, .completed env rest ht⟩
  | delivered env targets rest todo c ht hc hd =>
    refine ⟨_, ?_, .delivered env targets rest todo c ht hc hd⟩
    rw [enqueue_rest (s.setActor R { a with todo := todo }) (fun s => s.actor R)
      (fun _ _ _ => rfl) c env none]
    exact hset _
  | closed c rest ht => exact ⟨_, hset _, .done _ rest a.timers ht rfl⟩
  | dropped res rest ht => exact ⟨_, hset _, .done _ rest a.timers ht rfl⟩
  | replied ch res rest ht => exact ⟨_, hset _, .done _ rest a.timers ht rfl⟩
  | armed player generation rest timers ht => exact ⟨_, hset _, .done _ rest timers ht rfl⟩

theorem Move.life (hm : Move u s l s') {R : ID} {a : Actor σ} (ha : s.actor R = some a)
    (h : List (Input × Output)) : ∃ a' h', s'.actor R = some a' ∧ Life s l R a h a' h' := by
  by_cases hturn : l = .turn R
  · subst hturn
    obtain ⟨b, t, rest, hb, hq, ht, rfl⟩ := hm.turn_todo
    rw [ha] at hb
    cases hb
    refine ⟨_, _, ?_, .turn (.command s.now t.cmd) t.reply rest (.command t rest hq) ht⟩
    rw [setActor_self]
  by_cases htick : l = .tick R
  · subst htick
    obtain ⟨b, hb, ht, rfl⟩ := hm.tick_inv
    rw [ha] at hb
    cases hb
    refine ⟨_, _, ?_, .turn (.tick s.now) none a.queue .tick ht⟩
    rw [setActor_self]
  by_cases hact : ∃ i, l = .act R i
  · obtain ⟨i, rfl⟩ := hact
    obtain ⟨b, hb, hstep⟩ := hm.act_inv
    rw [ha] at hb
    cases hb
    obtain ⟨a', ha', hp⟩ := hstep.progress
    exact ⟨a', h, ha', .acted a' i rfl hp⟩
  have hl : ∀ i, l ≠ .act R i := fun i hi => hact ⟨i, hi⟩
  have hn : ∀ i, ¬ Handles s a R l i := by
    intro i hi
    cases hi with
    | command => exact hturn rfl
    | tick => exact htick rfl
  obtain ⟨o', ho', hch⟩ := hm.actor_after ha
  cases hch with
  | kept => exact ⟨a, h, ho', .kept a hn hl rfl rfl rfl⟩
  | pushed a t timers hp hc => exact ⟨_, h, ho', .kept _ hn hl rfl rfl rfl⟩
  | turned a t rest ht => exact absurd ht hturn
  | ticked a ht => exact absurd ht htick
  | acted a a' i hi => exact absurd hi (hl i)
  | flagged a listed stopped timers => exact ⟨_, h, ho', .kept _ hn hl rfl rfl rfl⟩

theorem Life.game_eq {R : ID} {a a' : Actor σ} {h h' : List (Input × Output)}
    (hl : Life s l R a h a' h') : a'.game = a.game := by
  cases hl with
  | turn i ch queue hi ht => rfl
  | acted a' i hl hp => exact hp.game_eq
  | kept a' hn hl' hg hr ht => exact hg

theorem Life.mono {R : ID} {a a' : Actor σ} {h h' : List (Input × Output)}
    (hl : Life s l R a h a' h') : ∀ e ∈ h, e ∈ h' := by
  intro e he
  cases hl with
  | turn i ch queue hi ht => exact List.mem_append_left _ he
  | acted a' i hl hp => exact he
  | kept a' hn hl' hg hr ht => exact he

/-- What the room puts out with the move is in the trace afterwards. -/
theorem Life.output {R : ID} {a a' : Actor σ} {h h' : List (Input × Output)}
    (hl : Life s l R a h a' h') {i : Input} (hi : Handles s a R l i) {o : Output}
    (ho : o ∈ (Rooms.step a.game a.room i).2) : (i, o) ∈ h' := by
  cases hl with
  | turn j ch queue hj ht =>
    rw [hj.unique hi]
    exact List.mem_append_right _ (List.mem_map_of_mem ho)
  | acted a' j hl hp =>
    subst hl
    cases hi
  | kept a' hn hl' hg hr ht => exact absurd hi (hn i)

/-! ## Whole runs -/

/-- The room `R` was made at `t₀` for a registered game and has handled the inputs `is`. -/
structure Lived (u : Setup σ) (R : ID) (a : Actor σ) (gameType : String) (t₀ : Time)
    (is : List Input) : Prop where
  game : u.games gameType = some a.game
  room : a.room = final (Rooms.step a.game) (newRoom σ R gameType t₀) is

/-- The trace of a room's life. -/
def lifeTrace (R : ID) (a : Actor σ) (gameType : String) (t₀ : Time) (is : List Input) :
    List (Input × Output) :=
  trace (Rooms.step a.game) (newRoom σ R gameType t₀) is

theorem Lived.life {R : ID} {a a' : Actor σ} {gameType : String} {t₀ : Time} {is : List Input}
    {h' : List (Input × Output)} (hlive : Lived u R a gameType t₀ is)
    (hl : Life s l R a (lifeTrace R a gameType t₀ is) a' h') :
    ∃ is', Lived u R a' gameType t₀ is' ∧ h' = lifeTrace R a' gameType t₀ is' := by
  cases hl with
  | turn i ch queue hi ht =>
    refine ⟨is ++ [i], ⟨hlive.game, ?_⟩, ?_⟩
    · rw [turnWith_room, hlive.room]
      exact (final_concat _ _ is i).symm
    · rw [lifeTrace, hlive.room]
      exact (trace_concat _ _ is i).symm
  | acted a' i hl hp =>
    refine ⟨is, ⟨?_, ?_⟩, ?_⟩
    · rw [hp.game_eq]
      exact hlive.game
    · rw [hp.game_eq, hp.room_eq]
      exact hlive.room
    · rw [lifeTrace, lifeTrace, hp.game_eq]
  | kept a' hn hl' hg hr ht =>
    refine ⟨is, ⟨?_, ?_⟩, ?_⟩
    · rw [hg]
      exact hlive.game
    · rw [hg, hr]
      exact hlive.room
    · rw [lifeTrace, lifeTrace, hg]

/-- Each room of the node has lived a life that `P` holds of. -/
def Chronicled (u : Setup σ) (P : Sys σ → ID → Actor σ → List (Input × Output) → Prop)
    (s : Sys σ) : Prop :=
  ∀ R a, s.actor R = some a → ∃ gameType t₀ is, Lived u R a gameType t₀ is ∧
    P s R a (lifeTrace R a gameType t₀ is)

theorem run_sound (u : Setup σ) (ls : List Label) (s : Sys σ) (hr : run u ls = some s) :
    Sound u s :=
  (run_always (fun _ => True) (fun _ _ _ _ _ _ => trivial) trivial ls s hr).1

/-- What is true of a new room and its empty life, and stays true with every move
from a state that runs lead to, is true of every room and its life in every run. -/
theorem run_chronicled (u : Setup σ) (G : Sys σ → Prop) (hG : ∀ ls s, run u ls = some s → G s)
    (P : Sys σ → ID → Actor σ → List (Input × Output) → Prop)
    (hmade : ∀ s l s' R a', G s → Move u s l s' → s.actor R = none →
      s'.actor R = some a' → a'.todo = [] → P s' R a' [])
    (hlife : ∀ s l s' R a a' h h', G s → Move u s l s' → s.actor R = some a →
      Life s l R a h a' h' → P s R a h → P s' R a' h')
    (ls : List Label) (s : Sys σ) (hr : run u ls = some s) : Chronicled u P s := by
  refine (run_step_invariant (fun _ _ => True)
    (fun s => (∃ ls, run u ls = some s) ∧ Chronicled u P s) ?_ ⟨⟨[], rfl⟩, fun R a h => by cases h⟩
    ls s (meets_of_forall (step u) _ (fun _ _ => trivial) {} ls) hr).2.2
  rintro s l s' - - ⟨⟨ls, hrun⟩, hC⟩ hstep
  refine ⟨⟨ls ++ [l], ?_⟩, fun R a' ha' => ?_⟩
  · rw [run] at hrun ⊢
    rw [exec_append, hrun, Option.bind_some, exec_cons _ hstep]
    rfl
  have hS := hG ls s hrun
  have hm := step_move u s s' l hstep
  cases ha : s.actor R with
  | none =>
    obtain ⟨o, ho, hch⟩ := hm.actor_before ha'
    rw [ha] at ho
    cases hch with
    | kept => cases ho
    | created c choice gameType players g hl hr hg =>
      exact ⟨gameType, s.now, [], ⟨hg, rfl⟩, hmade s l s' R _ hS hm ha ha' rfl⟩
    | pushed => cases ho
    | turned => cases ho
    | ticked => cases ho
    | acted => cases ho
    | flagged => cases ho
  | some a =>
    obtain ⟨gameType, t₀, is, hlive, hP⟩ := hC R a ha
    obtain ⟨b, h', hb, hl⟩ := hm.life ha (lifeTrace R a gameType t₀ is)
    rw [ha'] at hb
    cases hb
    have hP' := hlife s l s' R a a' _ h' hS hm ha hl hP
    obtain ⟨is', hlive', rfl⟩ := hlive.life hl
    exact ⟨gameType, t₀, is', hlive', hP'⟩

end Lives
end RealtimeEngine.Transport
