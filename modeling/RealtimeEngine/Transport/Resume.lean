import Mathlib.Tactic.Linarith
import RealtimeEngine.Room.Timers
import RealtimeEngine.Transport.Connected
import RealtimeEngine.Transport.Waiting

/-! Coming back within the grace period. `onConnectionClosed` leaves a session
record that outlives the period, the seat of a started game is never given up,
and a `Reconnect` puts every earlier timer out of date, so `tryResume` finds the
player's place and shows it to the new connection. It does so only if it takes
the room's answer: the room has marked the player as connected by then, and
nothing takes that back when `tryResume` gives up at its deadline. -/
namespace RealtimeEngine.Transport
open Foundations Domain Rooms Storage Matchmaking
set_option autoImplicit false
set_option maxHeartbeats 250000

section Resume
variable {σ : Type} {u : Setup σ} {s s' : Sys σ} {l : Label} {R : ID} {P : PlayerID}

/-! ## The seat -/

/-- `y` is a later state of the slot `x`: without a new generation it has not been dropped. -/
structure Later (x y : PlayerSlot) : Prop where
  generation : x.generation ≤ y.generation
  dropped : y.connected = false → y.generation = x.generation → x.connected = false

theorem Later.refl (x : PlayerSlot) : Later x x := ⟨Nat.le_refl _, fun h _ => h⟩

theorem Later.trans {x y z : PlayerSlot} (hxy : Later x y) (hyz : Later y z) : Later x z where
  generation := Nat.le_trans hxy.generation hyz.generation
  dropped := by
    intro hz hsame
    have hle := hxy.generation
    have hle' := hyz.generation
    exact hxy.dropped (hyz.dropped hz (by omega)) (by omega)

/-- Once the game has started, `P` keeps the seat: the slot is a later state of `x`. -/
def Keeps (R : ID) (P : PlayerID) (x : PlayerSlot) (s : Sys σ) : Prop :=
  ∃ a y, s.actor R = some a ∧ a.room.lifecycle ≠ .waiting ∧
    a.room.players.lookup P = some y ∧ Later x y

theorem Keeps.move {x : PlayerSlot} (h : Keeps R P x s) (hm : Move u s l s') :
    Keeps R P x s' := by
  obtain ⟨a, y, ha, hw, hs, hlater⟩ := h
  obtain ⟨a', ha', hroom | ⟨i, -, -, hroom⟩⟩ := move_turn hm ha
  · refine ⟨a', y, ha', ?_, ?_, hlater⟩
    · rw [hroom]
      exact hw
    · rw [hroom]
      exact hs
  · have he := step_exit a.game a.room i
    have hchange := exit_slot he P
    rw [hs] at hchange
    obtain ⟨z, hz, hle, hdrop⟩ := slotChange_started hw hchange
    refine ⟨a', z, ha', ?_, ?_, hlater.trans ⟨hle, fun hc hg => (hdrop hc hg).1⟩⟩
    · rw [hroom]
      exact (exit_seatOrder_grows he hw).2
    · rw [hroom]
      exact hz

/-- What every move preserves holds at the end of every execution. -/
theorem exec_moves (Q : Sys σ → Prop) (hQ : ∀ s l s', Q s → Move u s l s' → Q s')
    {ls : List Label} (hx : exec (step u) s ls = some s') (hs : Q s) : Q s' :=
  exec_invariant (step u) (fun _ _ => True) Q
    (fun s l s' _ hq h => hQ s l s' hq (step_move u s s' l h)) s s' hs ls
    (meets_of_forall (step u) _ (fun _ _ => trivial) s ls) hx

theorem Keeps.run {x : PlayerSlot} (h : Keeps R P x s) {ls : List Label}
    (hx : exec (step u) s ls = some s') : Keeps R P x s' :=
  exec_moves (Keeps R P x) (fun _ _ _ hk hm => hk.move hm) hx h

/-- After a `Reconnect` no timer set before it finds its player dropped at its generation. -/
theorem Later.outdates {x y : PlayerSlot} (h : Later x y) (hx : x.connected = true) (k : ℕ)
    (hk : k ≤ x.generation) : y.connected = true ∨ y.generation ≠ k := by
  cases hy : y.connected with
  | true => exact Or.inl rfl
  | false =>
    right
    intro hgen
    have hle := h.generation
    have hdropped := h.dropped hy (by omega)
    rw [hx] at hdropped
    cases hdropped

/-! ## The room -/

/-- A room that is open at the end of an execution was open before. -/
theorem open_back {a a' : Actor σ} {ls : List Label} (hx : exec (step u) s ls = some s')
    (ha : s.actor R = some a) (ha' : s'.actor R = some a') (ho : a'.room.lifecycle ≠ .closed) :
    a.room.lifecycle ≠ .closed := by
  intro hc
  have hstays : ∃ b, s'.actor R = some b ∧ b.room.lifecycle = .closed := by
    refine exec_moves (fun t => ∃ b, t.actor R = some b ∧ b.room.lifecycle = .closed) ?_ hx
      ⟨a, ha, hc⟩
    rintro t l t' ⟨b, hb, hclosed⟩ hm
    obtain ⟨b', hb', hroom | ⟨i, -, hopen, -⟩⟩ := move_turn hm hb
    · refine ⟨b', hb', ?_⟩
      rw [hroom]
      exact hclosed
    · exact absurd hclosed hopen
  obtain ⟨b, hb, hclosed⟩ := hstays
  rw [ha'] at hb
  cases hb
  exact ho hclosed

/-- The manager's map loses a room only after its actor has left its loop. -/
def ListsOpen (s : Sys σ) : Prop := ClosedWhen (fun a => !a.listed) s

theorem ListsOpen.listed (h : ListsOpen s) {a : Actor σ} (ha : s.actor R = some a)
    (ho : a.room.lifecycle ≠ .closed) : s.listed R = true := by
  unfold Sys.listed
  rw [ha, Option.any_some]
  cases hl : a.listed with
  | true => rfl
  | false =>
    refine absurd (h R a ha ?_) ho
    change (!a.listed) = true
    rw [hl]
    rfl

/-! ## The record -/

/-- The clock does not go back. -/
def forward (s : Sys σ) : Label → Bool
  | .clock t => decide (s.now ≤ t)
  | _ => true

/-- The session whose record the step writes. -/
def savesSession (s : Sys σ) : Label → Option String
  | .run c _ =>
    match (s.conn c).reader with
    | .tell .bind k _ => (k.target c).map fun target => (s.conn target).sessionID
    | _ => none
  | .close c _ =>
    match (s.conn c).closer with
    | .bind _ => some (s.conn c).sessionID
    | _ => none
  | _ => none

theorem move_now (hm : Move u s l s') : s'.now = s.now ∨ l = .clock s'.now := by
  have happ : ∀ e : Effect σ, (s.apply e).now = s.now := by
    intro e
    cases e with
    | enqueue c env given => exact enqueue_rest s Sys.now (fun _ _ _ => rfl) c env given
    | submit room cmd => exact push_rest s Sys.now room cmd fun _ _ => rfl
    | _ => rfl
  cases hm with
  | hangup c hp => exact Or.inl (close_rest s Sys.now (fun _ _ _ => rfl) c)
  | run c choice e pc hr => exact Or.inl (happ e)
  | close c choice e pc hr => exact Or.inl (happ e)
  | act id i a s' ha hact =>
    left
    cases hact with
    | delivered env targets rest todo c ht hc hd =>
      exact enqueue_rest (s.setActor id { a with todo := todo }) Sys.now (fun _ _ _ => rfl) c env
        none
    | _ => rfl
  | gc choice e w he => exact Or.inl (happ e)
  | clock t => exact Or.inr rfl
  | _ => exact Or.inl rfl

theorem now_le (hm : Move u s l s') (hf : forward s l = true) : s.now ≤ s'.now := by
  obtain h | rfl := move_now hm
  · exact h.ge
  · exact of_decide_eq_true hf

/-- A record is there until it expires, unless somebody writes another. -/
theorem record_move (hm : Move u s l s') (hf : forward s l = true) {sid : String}
    (hq : savesSession s l ≠ some sid) {entry : SessionEntry}
    (h : entry.expires < s.now ∨ s.sessions.lookup sid = some entry) :
    entry.expires < s'.now ∨ s'.sessions.lookup sid = some entry := by
  have hle := now_le hm hf
  obtain h | h := h
  · exact Or.inl (lt_of_lt_of_le h hle)
  by_cases hexp : entry.expires < s.now
  · exact Or.inl (lt_of_lt_of_le hexp hle)
  right
  obtain hs | ⟨c, choice, k, answer, target, rfl, hr, ht, hs⟩ | ⟨c, choice, room, ttl, rfl, hr, hs⟩ |
    hs := move_sessions hm
  · rw [hs]
    exact h
  · have hne : sid ≠ (s.conn target).sessionID := by
      rintro rfl
      refine hq ?_
      simp only [savesSession, hr, ht, Option.map_some]
    rw [hs, SessionStore.saveSession, Table.lookup_insert_ite, if_neg hne]
    exact h
  · have hne : sid ≠ (s.conn c).sessionID := by
      rintro rfl
      refine hq ?_
      simp only [savesSession, hr]
    rw [hs, SessionStore.saveSession, Table.lookup_insert_ite, if_neg hne]
    exact h
  · rw [hs, SessionStore.sweep, Table.lookup_keep, h]
    simp [hexp]

/-- The record that is written when a connection is closed is found at any time
before it expires. -/
theorem record_found {ls : List Label} {sid : String} {entry : SessionEntry}
    (hx : exec (step u) s ls = some s')
    (hf : Meets (step u) (fun s l => forward s l = true) s ls)
    (hq : Meets (step u) (fun s l => savesSession s l ≠ some sid) s ls)
    (h : s.sessions.lookup sid = some entry) (hin : s'.now ≤ entry.expires) :
    s'.sessions.loadSession s'.now sid = some entry.record := by
  have hkeep : ∀ (ls : List Label) (s : Sys σ), exec (step u) s ls = some s' →
      Meets (step u) (fun s l => forward s l = true) s ls →
      Meets (step u) (fun s l => savesSession s l ≠ some sid) s ls →
      (entry.expires < s.now ∨ s.sessions.lookup sid = some entry) →
      entry.expires < s'.now ∨ s'.sessions.lookup sid = some entry := by
    intro ls
    induction ls with
    | nil =>
      intro s hx hf hq h
      cases hx
      exact h
    | cons l ls ih =>
      intro s hx hf hq h
      obtain ⟨t, ht, hx'⟩ := Option.bind_eq_some_iff.mp hx
      exact ih t hx' (hf.2 t ht) (hq.2 t ht)
        (record_move (step_move u s t l ht) hf.1 hq.1 h)
  have hend := hkeep ls s hx hf hq (Or.inr h)
  have hlook : s'.sessions.lookup sid = some entry := by
    obtain hlt | hlook := hend
    · exact absurd hin (not_le.mpr hlt)
    · exact hlook
  unfold SessionStore.loadSession
  rw [hlook]
  exact if_neg (not_lt.mpr hin)

theorem now_le_exec {ls : List Label} (hx : exec (step u) s ls = some s')
    (hf : Meets (step u) (fun s l => forward s l = true) s ls) : s.now ≤ s'.now :=
  exec_invariant (step u) (fun s l => forward s l = true) (fun t => s.now ≤ t.now)
    (fun t l t' hl hle h => le_trans hle (now_le (step_move u t t' l h) hl)) s s' (le_refl _) ls hf
    hx

/-! ## The answer -/

/-- `res` is the one answer that is or will be on the channel. -/
structure Answered (s : Sys σ) (R : ID) (ch : ChanID) (res : CmdResult) : Prop where
  there : (∃ a, s.actor R = some a ∧ .reply (some ch) res ∈ a.todo) ∨ s.replies ch = some res
  todo : ∀ a res', s.actor R = some a → .reply (some ch) res' ∈ a.todo → res' = res
  sent : ∀ res', s.replies ch = some res' → res' = res
  queue : ∀ a t, s.actor R = some a → t ∈ a.queue → t.reply ≠ some ch

/-- An answer still to be sent stays to be sent, or is sent. -/
theorem move_todo (hm : Move u s l s') {a : Actor σ} {ch : ChanID} {res : CmdResult}
    (ha : s.actor R = some a) (h : .reply (some ch) res ∈ a.todo) :
    (∃ a', s'.actor R = some a' ∧ .reply (some ch) res ∈ a'.todo) ∨ s'.replies ch = some res := by
  obtain ⟨o', ho', hch⟩ := hm.actor_after ha
  cases hch with
  | kept => exact Or.inl ⟨a, ho', h⟩
  | pushed a t timers hp hn => exact Or.inl ⟨_, ho', h⟩
  | turned a t rest hl hq htodo hopen =>
    rw [htodo] at h
    cases h
  | ticked a hl htodo hopen =>
    rw [htodo] at h
    cases h
  | flagged a listed stopped timers => exact Or.inl ⟨_, ho', h⟩
  | acted a a' i hl hp =>
    subst hl
    obtain hin | ⟨rest, ht⟩ := hp.mem_or_head h
    · exact Or.inl ⟨a', ho', hin⟩
    · right
      obtain ⟨b, hb, hact⟩ := hm.act_inv
      rw [ha] at hb
      cases hb
      cases hact with
      | replied ch' res' rest' ht' =>
        rw [ht] at ht'
        cases ht'
        exact Function.update_self ..
      | broadcast event rest' ht' | completed env rest' ht' | closed c rest' ht'
      | dropped res' rest' ht' | delivered env targets rest' todo c ht' hc hd
      | armed player generation rest' timers' ht' =>
        rw [ht] at ht'
        cases ht'

theorem Answered.move {ch : ChanID} {res : CmdResult} (h : Answered s R ch res) (hL : Linked s)
    (hm : Move u s l s') {d : ConnID} {k : Call} (hr : (s.conn d).reader = .await k ch)
    (hk : k.room = R) : Answered s' R ch res := by
  have htodo : ∀ a' res', s'.actor R = some a' → .reply (some ch) res' ∈ a'.todo → res' = res := by
    intro a' res' ha' hin
    obtain ⟨a, ha, hold⟩ | ⟨a, t, rest, -, ha, hq, hch, -⟩ := move_replying hm R a' ch res' ha' hin
    · exact h.todo a res' ha hold
    · refine absurd hch (h.queue a t ha ?_)
      rw [hq]
      exact List.mem_cons_self
  have hsent : ∀ res', s'.replies ch = some res' → res' = res := by
    intro res' hres
    obtain hsame | ⟨id, i, b, ch', res'', rest, -, hb, ht, hupd⟩ := move_replies hm
    · rw [hsame] at hres
      exact h.sent res' hres
    · rw [hupd, Function.update_apply] at hres
      split at hres
      · next heq =>
        cases hres
        subst heq
        have hin : Op.reply (some ch) res' ∈ b.todo := by
          rw [ht]
          exact List.mem_cons_self
        have hid := hL.answer id b ch res' d k hb hin hr
        rw [hk] at hid
        subst hid
        exact h.todo b res' hb hin
      · exact h.sent res' hres
  refine ⟨?_, htodo, hsent, ?_⟩
  · obtain ⟨a, ha, hin⟩ | hres := h.there
    · exact move_todo hm ha hin
    · right
      obtain hsame | ⟨id, i, b, ch', res'', rest, -, hb, ht, hupd⟩ := move_replies hm
      · rw [hsame]
        exact hres
      · by_cases hch : ch = ch'
        · have hnew : s'.replies ch = some res'' := by
            rw [hupd, hch]
            exact Function.update_self ..
          rw [hnew, hsent res'' hnew]
        · rw [hupd, Function.update_of_ne hch]
          exact hres
  · intro a' t ha' ht hch
    obtain ⟨a, ha, hin⟩ | ⟨-, hnew⟩ := move_queued hm R a' t ha' ht
    · exact h.queue a t ha hin hch
    · have hlt := hL.awaited d k ch hr
      rw [(hnew ch hch).1] at hlt
      exact absurd hlt (Nat.lt_irrefl _)

/-! ## The rest of `tryResume` -/

def Label.isRun (c : ConnID) : Label → Bool
  | .run d _ => decide (d = c)
  | _ => false

/-- `tryResume` on `c` takes the room's answer and finds room for the snapshot in
the connection's buffer. -/
def takesAnswer (c : ConnID) (s : Sys σ) : Label → Bool
  | .run d choice =>
    if d = c then
      match (s.conn c).reader with
      | .await (.resume _) _ => decide (choice = .go)
      | .tell .send (.resume _) _ => (s.conn c).fits
      | _ => true
    else true
  | _ => true

/-- How many accesses `tryResume` on `c` has made since the room answered `res`. -/
inductive Course (s : Sys σ) (c : ConnID) (R : ID) (res : CmdResult) : ℕ → Prop
  | waits (ch : ChanID) (hr : (s.conn c).reader = .await (.resume R) ch)
      (ha : Answered s R ch res) : Course s c R res 0
  | answered (hr : (s.conn c).reader = .tell .setRoom (.resume R) (some res)) : Course s c R res 1
  | placed (hr : (s.conn c).reader = .tell .register (.resume R) (some res)) : Course s c R res 2
  | registered (hr : (s.conn c).reader = .tell .bind (.resume R) (some res)) : Course s c R res 3
  | bound (hr : (s.conn c).reader = .tell .send (.resume R) (some res)) : Course s c R res 4
  | told (n : ℕ) (now : Time)
      (h : tellEnvelope now (.resume R) (some res) ∈ (s.conn c).sent) : Course s c R res (n + 5)

variable {c : ConnID} {res : CmdResult} {n : ℕ}

/-- Nobody but its own goroutine moves a goroutine that is at a call. -/
theorem reader_stays (hS : Sound u s) (hm : Move u s l s') (hl : l.isRun c = false)
    (hb : (s.conn c).reader ≠ .idle) : (s'.conn c).reader = (s.conn c).reader := by
  obtain h | ⟨choice, rfl⟩ := busy_reader hm c (hS.known.busy c hb) hb
  · exact h
  · simp [Label.isRun] at hl

theorem Course.rest (h : Course s c R res n) (hS : Sound u s) (hm : Move u s l s')
    (hl : l.isRun c = false) : Course s' c R res n := by
  have hkeep : ∀ pc, (s.conn c).reader = pc → pc ≠ .idle → (s'.conn c).reader = pc := by
    intro pc hr hb
    rw [reader_stays hS hm hl (by rw [hr]; exact hb), hr]
  cases h with
  | waits ch hr ha => exact .waits ch (hkeep _ hr nofun) (ha.move hS.linked hm hr rfl)
  | answered hr => exact .answered (hkeep _ hr nofun)
  | placed hr => exact .placed (hkeep _ hr nofun)
  | registered hr => exact .registered (hkeep _ hr nofun)
  | bound hr => exact .bound (hkeep _ hr nofun)
  | told n now hin => exact .told n now (sent_stays hS.known hm c _ hin)

/-- The goroutine of `c` goes on with what it does at its place. -/
theorem run_tell {choice : Choice} {stage : Stage} {answer : Option CmdResult}
    (hr : (s.conn c).reader = .tell stage (.resume R) answer)
    (h : step u s (.run c choice) = some s') :
    s' = (s.apply (tellNext u s c c stage (.resume R) answer).1).goto c
      (tellNext u s c c stage (.resume R) answer).2 := by
  obtain ⟨next, hn, rfl⟩ := (step_run_iff hr).mp h
  cases choice with
  | go =>
    cases hn
    rfl
  | _ => cases hn

theorem Course.own {choice : Choice} (h : Course s c R res n) (hok : res.err = none)
    (hS : Sound u s) (hl : takesAnswer c s (.run c choice) = true)
    (hstep : step u s (.run c choice) = some s') : Course s' c R res (n + 1) := by
  cases h with
  | waits ch hr ha =>
    have hgo : choice = .go := by simpa [takesAnswer, hr] using hl
    subst hgo
    obtain ⟨next, hn, rfl⟩ := (step_run_iff hr).mp hstep
    simp only [Reader.next] at hn
    split at hn
    · cases hn
    · next res' hres =>
      rw [ha.sent res' hres, hok] at hn
      cases hn
      refine .answered ?_
      rw [goto_reader_self]
      rfl
  | answered hr =>
    refine .placed ?_
    rw [run_tell hr hstep, goto_reader_self]
    rfl
  | placed hr =>
    refine .registered ?_
    rw [run_tell hr hstep, goto_reader_self]
    rfl
  | registered hr =>
    refine .bound ?_
    rw [run_tell hr hstep, goto_reader_self]
    rfl
  | bound hr =>
    have hfits : (s.conn c).fits = true := by simpa [takesAnswer, hr] using hl
    refine .told 0 s.now ?_
    rw [run_tell hr hstep, goto_sent]
    change _ ∈ ((s.enqueue c (tellEnvelope s.now (.resume R) (some res)) _).conn c).sent
    unfold Sys.enqueue
    rw [if_pos hfits, setConn_self]
    exact List.mem_append_right _ List.mem_cons_self
  | told n now hin =>
    exact .told (n + 1) now (sent_stays hS.known (step_move u s s' _ hstep) c _ hin)

theorem Course.advance (h : Course s c R res n) (hok : res.err = none) (hS : Sound u s)
    (hl : takesAnswer c s l = true) (hstep : step u s l = some s') :
    Course s' c R res (n + if l.isRun c then 1 else 0) := by
  cases hrun : l.isRun c with
  | false => exact h.rest hS (step_move u s s' l hstep) hrun
  | true =>
    cases l with
    | run d choice =>
      obtain rfl : d = c := of_decide_eq_true hrun
      exact h.own hok hS hl hstep
    | _ => cases hrun

/-- The access after which the Hub has the connection. -/
theorem register_enters {choice : Choice}
    (hr : (s.conn c).reader = .tell .register (.resume R) (some res))
    (hstep : step u s (.run c choice) = some s') :
    s'.hub.entry R (s.conn c).playerID = some c := by
  rw [run_tell hr hstep]
  change (s.hub.register R (s.conn c).playerID c).entry R (s.conn c).playerID = some c
  rw [Hub.entry_register, if_pos ⟨rfl, rfl⟩]

/-- A run of the node takes `tryResume` as far as its goroutine makes accesses. -/
theorem Course.run (hok : res.err = none) {ls : List Label} (h : Course s c R res n)
    (hS : Sound u s) (hc : Meets (step u) (fun s l => takesAnswer c s l = true) s ls)
    (hx : exec (step u) s ls = some s') :
    Course s' c R res (n + ls.countP (Label.isRun c)) := by
  induction ls generalizing s n with
  | nil =>
    cases hx
    exact h
  | cons l ls ih =>
    obtain ⟨t, ht, hx'⟩ := Option.bind_eq_some_iff.mp hx
    have hnext := h.advance hok hS hc.1 ht
    have hend := ih hnext (hS.move (step_move u s t l ht)) (hc.2 t ht) hx'
    rw [List.countP_cons, Nat.add_comm (ls.countP _), ← Nat.add_assoc]
    exact hend

theorem Course.busy (h : Course s c R res n) (hn : n ≤ 2) : (s.conn c).reader ≠ .idle := by
  cases h with
  | waits ch hr ha =>
    rw [hr]
    nofun
  | answered hr =>
    rw [hr]
    nofun
  | placed hr =>
    rw [hr]
    nofun
  | registered | bound | told => omega

/-- A run in which `tryResume` makes its third access passes a state where the
Hub has the connection. -/
theorem Course.visits (hok : res.err = none) {ls : List Label} (h : Course s c R res n)
    (hS : Sound u s) (hP : (s.conn c).playerID = P)
    (hc : Meets (step u) (fun s l => takesAnswer c s l = true) s ls)
    (hx : exec (step u) s ls = some s') (hn : n ≤ 2) (hend : 3 ≤ n + ls.countP (Label.isRun c)) :
    Visits (step u) (fun s => s.hub.entry R P = some c) s ls := by
  induction ls generalizing s n with
  | nil =>
    rw [List.countP_nil] at hend
    omega
  | cons l ls ih =>
    obtain ⟨t, ht, hx'⟩ := Option.bind_eq_some_iff.mp hx
    refine Or.inr ⟨t, ht, ?_⟩
    have hm := step_move u s t l ht
    have hnext := h.advance hok hS hc.1 ht
    by_cases hpast : n + (if l.isRun c then 1 else 0) ≤ 2
    · have hP' : (t.conn c).playerID = P := by
        obtain hp | ⟨sid, -, hd⟩ := move_fixed Conn.playerID (fun _ _ _ _ _ _ _ _ => rfl) hm c
        · exact hp.trans hP
        · have hlt := hS.known.busy c (h.busy hn)
          rw [hd] at hlt
          exact absurd hlt (Nat.lt_irrefl _)
      refine ih hnext (hS.move hm) hP' (hc.2 t ht) hx' hpast ?_
      rw [List.countP_cons] at hend
      omega
    · -- this is the access that enters the connection
      have hrun : l.isRun c = true := by
        by_contra hno
        rw [if_neg hno] at hpast
        omega
      rw [if_pos hrun] at hpast
      obtain rfl : n = 2 := by omega
      refine visits_start (step u) _ t ls ?_
      cases l with
      | run d choice =>
        obtain rfl : d = c := of_decide_eq_true hrun
        cases h with
        | placed hr =>
          rw [← hP]
          exact register_enters hr ht
      | _ => cases hrun

/-- Once the room has done its outputs, nothing keeps the goroutine from its next access. -/
theorem Course.enabled (h : Course s c R res n) (hn : n < 5)
    (hdone : ∀ a, s.actor R = some a → a.todo = []) (hok : res.err = none) :
    (step u s (.run c .go)).isSome = true := by
  have htell : ∀ stage, (s.conn c).reader = .tell stage (.resume R) (some res) →
      (step u s (.run c .go)).isSome = true := by
    intro stage hr
    change (((s.conn c).reader.next u s c .go).map _).isSome = true
    rw [hr]
    rfl
  cases h with
  | waits ch hr ha =>
    have hres : s.replies ch = some res := by
      obtain ⟨a, hactor, hin⟩ | hres := ha.there
      · rw [hdone a hactor] at hin
        cases hin
      · exact hres
    change (((s.conn c).reader.next u s c .go).map _).isSome = true
    rw [hr]
    simp only [Reader.next, hres, hok]
    rfl
  | answered hr => exact htell _ hr
  | placed hr => exact htell _ hr
  | registered hr => exact htell _ hr
  | bound hr => exact htell _ hr
  | told n => omega

/-! ## The turns of the room -/

/-- An active room is about to take a command. -/
structure Handling (s : Sys σ) (R : ID) (a : Actor σ) (cmd : Command) (reply : Option ChanID) :
    Prop where
  actor : s.actor R = some a
  active : a.room.lifecycle = .active
  next : a.queue.head? = some { cmd := cmd, reply := reply }

theorem Handling.turn {a : Actor σ} {cmd : Command} {reply : Option ChanID}
    (h : Handling s R a cmd reply) (hstep : step u s (.turn R) = some s') :
    ∃ rest, a.queue = { cmd := cmd, reply := reply } :: rest ∧
      s' = s.setActor R (turnWith a (.command s.now cmd) reply rest) := by
  obtain ⟨b, t, rest, hb, hq, -, rfl⟩ := (step_move u s s' _ hstep).turn_inv
  rw [h.actor] at hb
  cases hb
  have hnext := h.next
  rw [hq, List.head?_cons] at hnext
  cases hnext
  exact ⟨rest, hq, rfl⟩

/-- The slot after the `Disconnect`. -/
theorem Handling.drops {a : Actor σ} {reply : Option ChanID} {slot : PlayerSlot}
    (h : Handling s R a (.disconnect P) reply) (hs : a.room.players.lookup P = some slot)
    (hup : slot.connected = true) (hstep : step u s (.turn R) = some s') :
    Keeps R P { slot with connected := false, generation := slot.generation + 1 } s' := by
  obtain ⟨rest, -, rfl⟩ := h.turn hstep
  have hopen : a.room.lifecycle ≠ .closed := by
    rw [h.active]
    nofun
  have hw : a.room.lifecycle ≠ .waiting := by
    rw [h.active]
    nofun
  have he := step_exit a.game a.room (.command s.now (.disconnect P))
  refine ⟨turnWith a (.command s.now (.disconnect P)) reply rest, _, ?_,
    (exit_seatOrder_grows he hw).2, ?_, .refl _⟩
  · rw [setActor_self]
  · rw [turnWith_room]
    unfold Rooms.step
    rw [if_neg hopen]
    change (handleDisconnect (touch s.now a.room) P).1.players.lookup P = _
    simp [handleDisconnect, hs, hup, setSlot_players]

/-- The answer to the `Reconnect` of a player with a seat. -/
def resumeAnswer (a : Actor σ) (slot : PlayerSlot) : CmdResult where
  seat := slot.seat
  lifecycle := a.room.lifecycle
  snapshot := snapshotBytes a.game a.room
  serverSeq := a.room.serverSeq

/-- The `Reconnect` connects the player and is answered with the room's snapshot. -/
theorem Handling.resumes {a : Actor σ} {ch : ChanID} {slot : PlayerSlot}
    (h : Handling s R a (.reconnect P) (some ch)) (hU : Unanswered s)
    (hs : a.room.players.lookup P = some slot)
    (hr : (s.conn c).reader = .await (.resume R) ch) (hstep : step u s (.turn R) = some s') :
    (∃ a', s'.actor R = some a' ∧ a'.room.lifecycle ≠ .waiting ∧
      a'.room.players.lookup P = some { slot with connected := true }) ∧
      Course s' c R (resumeAnswer a slot) 0 := by
  obtain ⟨rest, hq, rfl⟩ := h.turn hstep
  have hopen : a.room.lifecycle ≠ .closed := by
    rw [h.active]
    nofun
  have hw : a.room.lifecycle ≠ .waiting := by
    rw [h.active]
    nofun
  have he := step_exit a.game a.room (.command s.now (.reconnect P))
  have hturn := step_reconnect a.game a.room s.now P slot hs hopen
  have hactor : (s.setActor R (turnWith a (.command s.now (.reconnect P)) (some ch) rest)).actor R =
      some (turnWith a (.command s.now (.reconnect P)) (some ch) rest) := by
    rw [setActor_self]
  have htodo : ∀ res, .reply (some ch) res ∈
      (turnWith a (.command s.now (.reconnect P)) (some ch) rest).todo ↔
      res = resumeAnswer a slot := by
    intro res
    rw [turnWith_todo, hturn]
    cases slot.connected <;>
      simp [Op.ofOutput, snapshotReply, resumeAnswer, playerEvent]
  constructor
  · refine ⟨_, hactor, ?_, ?_⟩
    · exact (exit_seatOrder_grows he hw).2
    · rw [turnWith_room, hturn, setSlot_players, Table.lookup_insert_ite, if_pos rfl]
  · -- the command is the only one with its channel, and it had no answer before
    have hreply : Ticket.reply { cmd := .reconnect P, reply := some ch } = some ch := rfl
    have hnodup := hU.nodup R a h.actor
    rw [hq, List.filterMap_cons_some hreply] at hnodup
    have hnone := (hU.waiting c (.resume R) ch a _ hr h.actor
      (by rw [hq]; exact List.mem_cons_self) rfl).1
    refine .waits ch hr ⟨Or.inl ⟨_, hactor, (htodo _).mpr rfl⟩, ?_, ?_, ?_⟩
    · intro b res hb hin
      rw [hactor] at hb
      cases hb
      exact (htodo res).mp hin
    · intro res hres
      change s.replies ch = some res at hres
      rw [hnone] at hres
      cases hres
    · intro b t hb ht hch
      rw [hactor] at hb
      cases hb
      exact (List.nodup_cons.mp hnodup).1 (List.mem_filterMap.mpr ⟨t, ht, hch⟩)

/-! ## Coming back -/

/-- Invariants that the run up to the `Disconnect` has established. -/
structure Prepared (u : Setup σ) (s : Sys σ) : Prop where
  sound : Sound u s
  listsOpen : ListsOpen s
  unanswered : Unanswered s

theorem Prepared.step (h : Prepared u s) (hstep : step u s l = some s') : Prepared u s' where
  sound := h.sound.move (step_move u s s' l hstep)
  listsOpen := ClosedWhen.step exitFlag_unlisted h.listsOpen hstep
  unanswered := h.unanswered.move h.sound.linked (step_move u s s' l hstep)

theorem prepared_start (u : Setup σ) : Prepared u ({} : Sys σ) where
  sound := sound_start u
  listsOpen := fun R a ha => by cases ha
  unanswered := unanswered_start

theorem Prepared.run (h : Prepared u s) {ls : List Label}
    (hx : exec (Transport.step u) s ls = some s') : Prepared u s' :=
  exec_invariant (Transport.step u) (fun _ _ => True) (Prepared u)
    (fun _ _ _ _ hp hstep => hp.step hstep) s s' h ls
    (meets_of_forall (Transport.step u) _ (fun _ _ => trivial) s ls) hx

/-- As long as the room will be open later, `tryResume` finds it and the seat. -/
theorem Prepared.findable (h : Prepared u s) {x : PlayerSlot} (hkeep : Keeps R P x s)
    {ls : List Label} (hx : exec (Transport.step u) s ls = some s') {a' : Actor σ}
    (ha' : s'.actor R = some a') (hopen : a'.room.lifecycle ≠ .closed) :
    s.listed R = true ∧
      ∃ a seat, s.actor R = some a ∧ a.room.players.lookup P = some seat := by
  obtain ⟨a, seat, ha, -, hseat, -⟩ := hkeep
  exact ⟨h.listsOpen.listed ha (open_back hx ha ha' hopen), a, seat, ha, hseat⟩

/-- `onConnectionClosed` leaves a record of the room. -/
theorem close_saves {room : ID} (hc : (s.conn c).closer = .bind room)
    (hstep : step u s (.close c .go) = some s') :
    s'.now = s.now ∧ s'.sessions.lookup (s.conn c).sessionID =
      some { record := bindRecord u room (s.conn c).playerID,
             expires := s.now + u.recordTTL } := by
  obtain ⟨next, hn, rfl⟩ := Option.map_eq_some_iff.mp hstep
  rw [hc] at hn
  cases hn
  refine ⟨rfl, ?_⟩
  change (s.sessions.saveSession s.now (s.conn c).sessionID _ _).lookup _ = _
  rw [SessionStore.saveSession, Table.lookup_insert_ite, if_pos rfl]

theorem recordTTL_exact (hpos : 0 < u.graceDuration) (hfits : u.graceDuration + 5000000000 < 2 ^ 63) :
    u.recordTTL = u.graceDuration + 5000000000 := by
  unfold Setup.recordTTL
  apply Int.bmod_eq_of_le
  · omega
  · omega

/-- The record is there for the grace period and five seconds more, so whoever looks the
session up within the grace period finds it, if nobody has written another one. -/
theorem record_within_grace {away : List Label} (hfits : u.graceDuration + 5000000000 < 2 ^ 63)
    (hbind : (s.conn c).closer = .bind R)
    (hx : exec (step u) s (.close c .go :: away) = some s')
    (hclock : Meets (step u) (fun s l => forward s l = true) s (.close c .go :: away))
    (hspare : ∀ t, step u s (.close c .go) = some t →
      Meets (step u) (fun t l => savesSession t l ≠ some (s.conn c).sessionID) t away)
    (hin : s'.now < s.now + u.graceDuration) :
    s'.sessions.loadSession s'.now (s.conn c).sessionID =
      some (bindRecord u R (s.conn c).playerID) := by
  obtain ⟨t, ht, hx'⟩ := Option.bind_eq_some_iff.mp hx
  obtain ⟨-, hsaved⟩ := close_saves hbind ht
  have hnow : s.now ≤ s'.now := now_le_exec hx hclock
  have hpos : 0 < u.graceDuration := by linarith
  refine record_found hx' (hclock.2 t ht) (hspare t ht) hsaved ?_
  change s'.now ≤ s.now + u.recordTTL
  rw [recordTTL_exact hpos hfits]
  linarith

theorem load_finds {rec : SessionRecord} (hr : (s.conn c).reader = .load)
    (hl : s.sessions.loadSession s.now (s.conn c).sessionID = some rec)
    (hstep : step u s (.run c .go) = some s') : (s'.conn c).reader = .get rec := by
  obtain ⟨next, hn, rfl⟩ := (step_run_iff hr).mp hstep
  simp only [Reader.next, hl] at hn
  cases hn
  rw [goto_reader_self]

/-- An active room handles the `Disconnect` of a player with a seat, then
`onConnectionClosed` saves the session and returns; within the grace period
`tryResume` on a connection of that session looks the session up, and the room,
still active, handles its `Reconnect`. If nobody else writes the session's record
before the lookup and the grace period and five seconds fit into an `int64`, the record
is found, and up to the `Reconnect` the room is in the manager's map and has the seat. The `Reconnect` connects the player. If
`tryResume` takes the answer and the buffer has room for the snapshot, then after
five accesses of its goroutine, each of which it can make once the room's outputs
are done, the Hub has had the connection and the snapshot is sent with the version
that the room had at the `Reconnect`. The grace timer of the `Disconnect` does
nothing from then on. -/
theorem resumes_within_grace (u : Setup σ) (R : ID) (P : PlayerID) (c c' : ConnID)
    (slot : PlayerSlot) (before closing away waiting later : List Label) (s₁ s₂ s₃ s₄ s₅ : Sys σ)
    (a₁ a₄ : Actor σ) (reply : Option ChanID) (ch : ChanID)
    (hfits : u.graceDuration + 5000000000 < 2 ^ 63)
    (h₁ : run u before = some s₁) (hdrop : Handling s₁ R a₁ (.disconnect P) reply)
    (hseat : a₁.room.players.lookup P = some slot) (hup : slot.connected = true)
    (h₂ : exec (step u) s₁ (.turn R :: closing) = some s₂)
    (hclock₂ : Meets (step u) (fun s l => forward s l = true) s₁ (.turn R :: closing))
    (hbind : (s₂.conn c).closer = .bind R) (hP : (s₂.conn c).playerID = P)
    (h₃ : exec (step u) s₂ (.close c .go :: away) = some s₃)
    (hclock₃ : Meets (step u) (fun s l => forward s l = true) s₂ (.close c .go :: away))
    (hspare : ∀ s, step u s₂ (.close c .go) = some s →
      Meets (step u) (fun t l => savesSession t l ≠ some (s₂.conn c).sessionID) s away)
    (hload : (s₃.conn c').reader = .load)
    (hsid : (s₃.conn c').sessionID = (s₂.conn c).sessionID)
    (hin : s₃.now < s₁.now + u.graceDuration)
    (h₄ : exec (step u) s₃ (.run c' .go :: waiting) = some s₄)
    (hback : Handling s₄ R a₄ (.reconnect P) (some ch))
    (hwait : (s₄.conn c').reader = .await (.resume R) ch)
    (h₅ : exec (step u) s₄ (.turn R :: later) = some s₅)
    (htake : Meets (step u) (fun s l => takesAnswer c' s l = true) s₄ (.turn R :: later)) :
    s₃.sessions.loadSession s₃.now (s₃.conn c').sessionID = some (bindRecord u R P) ∧
    (∃ s, step u s₃ (.run c' .go) = some s ∧ (s.conn c').reader = .get (bindRecord u R P)) ∧
    (∀ w w' s, waiting = w ++ w' → exec (step u) s₃ (.run c' .go :: w) = some s →
      s.listed R = true ∧
        ∃ a seat, s.actor R = some a ∧ a.room.players.lookup P = some seat) ∧
    (∃ s a seat, step u s₄ (.turn R) = some s ∧ s.actor R = some a ∧
      a.room.players.lookup P = some seat ∧ seat.connected = true) ∧
    (5 ≤ later.countP (Label.isRun c') →
      Visits (step u) (fun s => s.hub.entry R P = some c') s₄ (.turn R :: later) ∧
      ∃ env ∈ (s₅.conn c').sent, env.type = .event .stateSnapshot ∧ env.roomID = R ∧
        env.serverSeq = a₄.room.serverSeq ∧ env.snapshot = snapshotBytes a₄.game a₄.room) ∧
    (later.countP (Label.isRun c') < 5 → (∀ a, s₅.actor R = some a → a.todo = []) →
      (step u s₅ (.run c' .go)).isSome = true) ∧
    ∀ a now, s₅.actor R = some a → a.room.lifecycle ≠ .closed →
      Rooms.step a.game a.room (.command now (.graceExpired P (slot.generation + 1))) =
        (touch now a.room, []) := by
  obtain ⟨s₁', hs₁', hx₂⟩ := Option.bind_eq_some_iff.mp h₂
  obtain ⟨s₃', hs₃', hx₄⟩ := Option.bind_eq_some_iff.mp h₄
  obtain ⟨s₄', hs₄', hx₅⟩ := Option.bind_eq_some_iff.mp h₅
  have hprep₁ : Prepared u s₁ := (prepared_start u).run h₁
  have hprep₃ : Prepared u s₃ := (hprep₁.run h₂).run h₃
  have hprep₄ : Prepared u s₄ := hprep₃.run h₄
  -- the seat, from the `Disconnect` on
  have hkeep₁ := hdrop.drops hseat hup hs₁'
  have hkeep₃ := (hkeep₁.run hx₂).run h₃
  obtain ⟨b, seat, hb, -, hseat₄, hlater⟩ := hkeep₃.run h₄
  rw [hback.actor] at hb
  cases hb
  -- the record, from the end of `onConnectionClosed` to the lookup
  have hrecord : s₃.sessions.loadSession s₃.now (s₃.conn c').sessionID =
      some (bindRecord u R P) := by
    have hd : s₁.now ≤ s₂.now := now_le_exec h₂ hclock₂
    rw [hsid, ← hP]
    exact record_within_grace hfits hbind h₃ hclock₃ hspare (by linarith)
  -- the answer, from the `Reconnect` on
  obtain ⟨⟨b, hb, hw, hback₄⟩, hcourse⟩ := hback.resumes hprep₄.unanswered hseat₄ hwait hs₄'
  have hsound₄' := (hprep₄.step hs₄').sound
  have hplayer : (s₄'.conn c').playerID = P := by
    obtain ⟨rest, hq, rfl⟩ := hback.turn hs₄'
    have hticket := (hprep₄.sound.linked.ticket R a₄ _ ch c' (.resume R) hback.actor
      (by rw [hq]; exact List.mem_cons_self) rfl hwait).2
    exact (Command.reconnect.inj hticket).symm
  have hend := hcourse.run rfl hsound₄' (htake.2 s₄' hs₄') hx₅
  rw [Nat.zero_add] at hend
  refine ⟨hrecord, ⟨s₃', hs₃', load_finds hload hrecord hs₃'⟩, ?_, ?_, ?_, ?_, ?_⟩
  · rintro w w' s rfl hw
    rw [← List.cons_append, exec_append, hw, Option.bind_some] at h₄
    exact (hprep₃.run hw).findable (hkeep₃.run hw) h₄ hback.actor (by rw [hback.active]; nofun)
  · exact ⟨s₄', b, { seat with connected := true }, hs₄', hb, hback₄, rfl⟩
  · intro hfive
    constructor
    · refine Or.inr ⟨s₄', hs₄', ?_⟩
      exact hcourse.visits rfl hsound₄' hplayer (htake.2 s₄' hs₄') hx₅ (by omega) (by omega)
    · generalize later.countP (Label.isRun c') = n at hend hfive
      cases hend with
      | told n now henv => exact ⟨_, henv, rfl, rfl, rfl, rfl⟩
      | _ => omega
  · intro hfew hdone
    exact hend.enabled hfew hdone rfl
  · intro a now ha hopen
    have hkeep₄ : Keeps R P { seat with connected := true } s₄' := ⟨b, _, hb, hw, hback₄, .refl _⟩
    obtain ⟨d, y, hd, -, hy, hsince⟩ := hkeep₄.run hx₅
    rw [ha] at hd
    cases hd
    exact grace_stale a.game a.room now P _ y hy
      (hsince.outdates rfl _ hlater.generation) hopen

end Resume

/-! ## Alice comes back after ten seconds -/

section Scenario
variable {σ : Type} {s : Sys σ} {R : ID} {P : PlayerID}
set_option maxRecDepth 100000

def halfMinute : Setup GameState :=
  { aliceAndBob with graceDuration := 30000000000, sessionTTL := 3600000000000 }

/-- Alice's connection is closed, up to the `Disconnect` on the room's channel. -/
def hangsUp : List Label := seated ++ .hangup 0 :: List.replicate 4 (.close 0 .go)

def closes : List Label := List.replicate 5 (.act "r" 0) ++ [.close 0 .go]

def dialsAgain : List Label := [.clock 10000000000, .sweepSessions, .dial "a"]

def comesBack : List Label := List.replicate 4 (.act "r" 0) ++ runs 2 5

def isDisconnect (P : PlayerID) : Command → Bool
  | .disconnect q => decide (q = P)
  | _ => false

def isReconnect (P : PlayerID) : Command → Bool
  | .reconnect q => decide (q = P)
  | _ => false

def Reader.isLoad : Reader → Bool
  | .load => true
  | _ => false

def Reader.resumesOn (R : ID) (ch : ChanID) : Reader → Bool
  | .await (.resume room) ch' => decide (room = R) && decide (ch' = ch)
  | _ => false

theorem of_isDisconnect {cmd : Command} (h : isDisconnect P cmd = true) :
    cmd = .disconnect P := by
  cases cmd with
  | disconnect q => rw [of_decide_eq_true h]
  | _ => cases h

theorem of_isReconnect {cmd : Command} (h : isReconnect P cmd = true) :
    cmd = .reconnect P := by
  cases cmd with
  | reconnect q => rw [of_decide_eq_true h]
  | _ => cases h

theorem of_isLoad {pc : Reader} (h : pc.isLoad = true) : pc = .load := by
  cases pc with
  | load => rfl
  | _ => cases h

theorem of_resumesOn {ch : ChanID} {pc : Reader} (h : pc.resumesOn R ch = true) :
    pc = .await (.resume R) ch := by
  unfold Reader.resumesOn at h
  split at h
  · obtain ⟨hroom, hch⟩ := Bool.and_eq_true_iff.mp h
    rw [of_decide_eq_true hroom, of_decide_eq_true hch]
  · cases h

/-- The room is active and its next command, to be answered on `ch`, passes the test. -/
def Sys.upNext (s : Sys σ) (R : ID) (test : Command → Bool) (ch : ChanID) : Bool :=
  (s.actor R).any fun a => decide (a.room.lifecycle = .active) &&
    a.queue.head?.any fun t => test t.cmd && decide (t.reply = some ch)

theorem handling_of_upNext {test : Command → Bool} {ch : ChanID} (h : s.upNext R test ch = true) :
    ∃ a cmd, test cmd = true ∧ Handling s R a cmd (some ch) := by
  obtain ⟨a, ha, h⟩ := (Option.any_eq_true _ _).mp h
  obtain ⟨hactive, h⟩ := Bool.and_eq_true_iff.mp h
  obtain ⟨t, ht, h⟩ := (Option.any_eq_true _ _).mp h
  obtain ⟨htest, hch⟩ := Bool.and_eq_true_iff.mp h
  refine ⟨a, t.cmd, htest, ha, of_decide_eq_true hactive, ?_⟩
  rw [ht, ← of_decide_eq_true hch]

/-- Alice dials again ten seconds after the loss, past a sweep of the session
store, and is back in the room. -/
theorem alice_resumes :
    ∃ s₄ s₅, run halfMinute (hangsUp ++ .turn "r" :: closes ++ .close 0 .go :: dialsAgain ++
        .run 2 .go :: runs 2 2) = some s₄ ∧
      exec (step halfMinute) s₄ (.turn "r" :: comesBack) = some s₅ ∧
      Visits (step halfMinute) (fun s => s.hub.entry "r" "alice" = some 2) s₄
        (.turn "r" :: comesBack) ∧
      ∃ env ∈ (s₅.conn 2).sent, env.type = .event .stateSnapshot ∧ env.roomID = "r" := by
  have hrun : ((run halfMinute hangsUp).any fun s₁ =>
      s₁.upNext "r" (isDisconnect "alice") 4 &&
      ((s₁.actor "r").any fun a =>
        (a.room.players.lookup "alice").any fun slot => slot.connected) &&
      decide (Meets (step halfMinute) (fun s l => forward s l = true) s₁ (.turn "r" :: closes)) &&
      (exec (step halfMinute) s₁ (.turn "r" :: closes)).any fun s₂ =>
        decide ((s₂.conn 0).closer = .bind "r") && decide ((s₂.conn 0).playerID = "alice") &&
        decide (Meets (step halfMinute) (fun s l => forward s l = true) s₂
          (.close 0 .go :: dialsAgain)) &&
        ((step halfMinute s₂ (.close 0 .go)).all fun s =>
          decide (Meets (step halfMinute)
            (fun t l => savesSession t l ≠ some (s₂.conn 0).sessionID) s dialsAgain)) &&
        (exec (step halfMinute) s₂ (.close 0 .go :: dialsAgain)).any fun s₃ =>
          (s₃.conn 2).reader.isLoad &&
          decide ((s₃.conn 2).sessionID = (s₂.conn 0).sessionID) &&
          decide (s₃.now < s₁.now + halfMinute.graceDuration) &&
          (exec (step halfMinute) s₃ (.run 2 .go :: runs 2 2)).any fun s₄ =>
            s₄.upNext "r" (isReconnect "alice") 5 &&
            (s₄.conn 2).reader.resumesOn "r" 5 &&
            decide (Meets (step halfMinute) (fun s l => takesAnswer 2 s l = true) s₄
              (.turn "r" :: comesBack)) &&
            (exec (step halfMinute) s₄ (.turn "r" :: comesBack)).isSome) = true := by
    decide +kernel
  obtain ⟨s₁, h₁, hrun⟩ := (Option.any_eq_true _ _).mp hrun
  simp only [Bool.and_eq_true, decide_eq_true_iff, Option.any_eq_true, Option.all_eq_true] at hrun
  obtain ⟨⟨⟨hdrop, a, ha, slot, hseat, hup⟩, hclock₂⟩, s₂, h₂,
    ⟨⟨⟨hbind, hP⟩, hclock₃⟩, hspare⟩, s₃, h₃, ⟨⟨hload, hsid⟩, hin⟩, s₄, h₄,
    ⟨⟨hback, hwait⟩, htake⟩, hend⟩ := hrun
  obtain ⟨s₅, h₅⟩ := Option.isSome_iff_exists.mp hend
  obtain ⟨a₁, cmd₁, hcmd₁, hdrop⟩ := handling_of_upNext hdrop
  obtain ⟨a₄, cmd₄, hcmd₄, hback⟩ := handling_of_upNext hback
  rw [of_isDisconnect hcmd₁] at hdrop
  rw [of_isReconnect hcmd₄] at hback
  rw [hdrop.actor] at ha
  cases ha
  have hres := resumes_within_grace halfMinute "r" "alice" 0 2 slot hangsUp closes dialsAgain
    (runs 2 2) comesBack s₁ s₂ s₃ s₄ s₅ a a₄ (some 4) 5 (by decide) h₁
    hdrop hseat hup h₂ hclock₂ hbind hP h₃ hclock₃ hspare (of_isLoad hload) hsid hin h₄ hback
    (of_resumesOn hwait) h₅ htake
  obtain ⟨-, -, -, -, htold, -, -⟩ := hres
  obtain ⟨hvisits, env, hmem, htype, hroom, -⟩ := htold (by decide)
  refine ⟨s₄, s₅, ?_, h₅, hvisits, env, hmem, htype, hroom⟩
  unfold run at h₁ ⊢
  rw [exec_append, exec_append, exec_append, h₁, Option.bind_some, h₂, Option.bind_some, h₃,
    Option.bind_some, h₄]

/-- The room is busy, so it answers alice's `Reconnect` when the deadline of two
seconds has passed, and `tryResume` takes the deadline. Alice has the record, the
room and the seat, within the grace period, and the room takes them for connected
from then on; but their connection is in no room, the Hub does not have it, and it
was sent no snapshot. The grace timer does not end the game either. -/
theorem deadline_strands_alice :
    ((run halfMinute (hangsUp ++ .turn "r" :: closes ++ .close 0 .go :: dialsAgain ++
        .run 2 .go :: runs 2 2 ++ [.clock 12000000000])).any fun s =>
      s.upNext "r" (isReconnect "alice") 5 && (s.conn 2).reader.resumesOn "r" 5) = true ∧
    ((run halfMinute (hangsUp ++ .turn "r" :: closes ++ .close 0 .go :: dialsAgain ++
        .run 2 .go :: runs 2 2 ++ [.clock 12000000000] ++ turns "r" 4 ++
        [.run 2 .timeout, .run 2 .go, .clock 45000000000, .fire "r" 0, .turn "r"])).any fun s =>
      s.quiet "r" && decide (s.hub.entry "r" "alice" = none) &&
      (s.conn 2).isOpen && decide ((s.conn 2).room = none) &&
      ((s.conn 2).sent.all fun env => decide (env.type ≠ .event .stateSnapshot)) &&
      (s.actor "r").any fun a => decide (a.room.lifecycle = .active) &&
        (a.room.players.lookup "alice").any fun slot => slot.connected) = true := by
  decide +kernel

end Scenario
end RealtimeEngine.Transport
