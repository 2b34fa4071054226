import RealtimeEngine.Transport.Provenance

/-! Every call of a room is served once, in order, and answered with its own result
(`Room.submit`, `Room.send` and `Room.run`). A book kept beside the node notes for each
room what it has handled and on which reply channel. Channels are numbered as calls are
made; the book shows that each number is in exactly one place, on the command channel of
one room or among what that room has handled, and that both are in the order of the
numbers. -/
namespace RealtimeEngine.Transport
open Foundations Domain Rooms Storage Matchmaking
set_option autoImplicit false
set_option maxHeartbeats 250000

/-- An input a room has handled, with the reply channel of the command. -/
abbrev Service := Input × Option ChanID

/-- When and for which game a room was made, and what it has handled since. -/
structure Book where
  gameType : String := ""
  born : Time := 0
  served : List Service := []

section Ledger
variable {σ : Type} {u : Setup σ} {s s' : Sys σ} {l : Label} {R : ID} {a a' : Actor σ} {e e' : Book}

/-! ## The book of a room -/

/-- What the room put out, beside the service it came from. -/
def Book.log (e : Book) (R : ID) (a : Actor σ) : List (Service × Output) :=
  trace (fun r (x : Service) => Rooms.step a.game r x.1) (newRoom σ R e.gameType e.born) e.served

/-- The reply channels of the commands handled, and then of those on the command channel. -/
def Book.channels (e : Book) (a : Actor σ) : List ChanID :=
  e.served.filterMap Prod.snd ++ a.queue.filterMap Ticket.reply

def Book.add (e : Book) (x : Service) : Book := { e with served := e.served ++ [x] }

structure Account (u : Setup σ) (R : ID) (a : Actor σ) (e : Book) : Prop where
  lived : Lived u R a e.gameType e.born (e.served.map Prod.fst)
  order : (e.channels a).Pairwise (· < ·)
  replying : ∀ ch res, .reply (some ch) res ∈ a.todo →
    ∃ i, ((i, some ch), Output.reply res) ∈ e.log R a

/-- How a book goes on: nothing is struck out, and a command leaves the channel for the book. -/
structure Grows (R : ID) (a a' : Actor σ) (e e' : Book) : Prop where
  log : ∀ x ∈ e.log R a, x ∈ e'.log R a'
  served : ∀ x ∈ e.served, x ∈ e'.served
  queue : ∀ t ∈ a.queue, t ∈ a'.queue ∨ ∃ now, (Input.command now t.cmd, t.reply) ∈ e'.served

theorem log_add (e : Book) (R : ID) (a : Actor σ) (x : Service) :
    (e.add x).log R a = e.log R a ++ (Rooms.step a.game
      (final (fun r (x : Service) => Rooms.step a.game r x.1) (newRoom σ R e.gameType e.born)
        e.served) x.1).2.map fun o => (x, o) :=
  trace_concat _ _ e.served x

/-- The room behind the book. -/
theorem Account.room (hA : Account u R a e) :
    final (fun r (x : Service) => Rooms.step a.game r x.1) (newRoom σ R e.gameType e.born) e.served =
      a.room := by
  rw [hA.lived.room]
  have h := final_simulates (fun r (x : Service) => Rooms.step a.game r x.1) (Rooms.step a.game) id
    Prod.fst (fun _ _ => rfl) (newRoom σ R e.gameType e.born) e.served
  exact h.symm

theorem channels_add_tick (e : Book) (now : Time) (h : a'.queue = a.queue) :
    (e.add (.tick now, none)).channels a' = e.channels a := by
  simp [Book.channels, Book.add, List.filterMap_append, h]

theorem channels_add_command {t : Ticket} (e : Book) (now : Time) (h : a.queue = t :: a'.queue) :
    (e.add (.command now t.cmd, t.reply)).channels a' = e.channels a := by
  unfold Book.channels Book.add
  rw [h, List.filterMap_append, List.append_assoc, List.filterMap_cons, List.filterMap_cons]
  cases t.reply with
  | none => rfl
  | some ch => rfl

theorem log_eq_of_game (h : a'.game = a.game) : e.log R a' = e.log R a := by
  unfold Book.log
  rw [h]

/-- The book stays as it is when no input is handled. -/
theorem Account.keep (hA : Account u R a e) (hg : a'.game = a.game) (hr : a'.room = a.room)
    (hq : (e.channels a').Pairwise (· < ·))
    (ht : ∀ ch res, .reply (some ch) res ∈ a'.todo → .reply (some ch) res ∈ a.todo) :
    Account u R a' e where
  lived := ⟨hg ▸ hA.lived.game, by rw [hr, hg]; exact hA.lived.room⟩
  order := hq
  replying := by
    intro ch res h
    rw [log_eq_of_game hg]
    exact hA.replying ch res (ht ch res h)

theorem grows_keep (hg : a'.game = a.game) (hq : ∀ t ∈ a.queue, t ∈ a'.queue) : Grows R a a' e e where
  log := fun x hx => by rwa [log_eq_of_game hg]
  served := fun _ hx => hx
  queue := fun t ht => Or.inl (hq t ht)

/-- An input is handled and entered, with the channel its answer will go to. -/
theorem Account.handle (hA : Account u R a e) (x : Service) (queue : List Ticket)
    (hc : (e.add x).channels (turnWith a x.1 x.2 queue) = e.channels a) :
    Account u R (turnWith a x.1 x.2 queue) (e.add x) where
  lived := by
    refine ⟨hA.lived.game, ?_⟩
    rw [turnWith_room, hA.lived.room]
    change _ = final _ _ ((e.served ++ [x]).map Prod.fst)
    rw [List.map_append, List.map_singleton, final_concat]
    rfl
  order := by
    rw [hc]
    exact hA.order
  replying := by
    intro ch res h
    obtain ⟨hch, hout⟩ := reply_mem_ofOutput (turnWith_todo a x.1 x.2 queue ▸ h)
    refine ⟨x.1, ?_⟩
    change _ ∈ (e.add x).log R a
    rw [log_add, hA.room]
    refine List.mem_append_right _ (List.mem_map.mpr ⟨_, hout, ?_⟩)
    rw [hch]

theorem grows_handle (x : Service) (queue : List Ticket)
    (hq : ∀ t ∈ a.queue, t ∈ queue ∨ ∃ now, (Input.command now t.cmd, t.reply) = x) :
    Grows R a (turnWith a x.1 x.2 queue) e (e.add x) where
  log := by
    intro y hy
    change y ∈ (e.add x).log R a
    rw [log_add]
    exact List.mem_append_left _ hy
  served := fun y hy => List.mem_append_left _ hy
  queue := by
    intro t ht
    obtain h | ⟨now, h⟩ := hq t ht
    · exact Or.inl h
    · exact Or.inr ⟨now, h ▸ List.mem_append_right _ List.mem_cons_self⟩

/-- A command was put on the channel of the room, with the next reply channel. -/
def Called (s : Sys σ) (l : Label) (R : ID) (a a' : Actor σ) : Prop :=
  ∃ t, Pushes s l R t ∧ a'.queue = a.queue ++ [t] ∧ t.reply = some s.chans

theorem Account.change {chans : ℕ} (hA : Account u R a e) (hk : ∀ ch ∈ e.channels a, ch < s.chans)
    (h : ActorChange u s l chans R (some a) (some a')) :
    ∃ e', Account u R a' e' ∧ Grows R a a' e e' ∧
      (e'.channels a' = e.channels a ∨
        e'.channels a' = e.channels a ++ [s.chans] ∧ chans = s.chans + 1 ∧ Called s l R a a') := by
  cases h with
  | kept => exact ⟨e, hA, grows_keep rfl fun _ h => h, Or.inl rfl⟩
  | pushed _ t timers hp hc =>
    have hgrows : Grows R a { a with queue := a.queue ++ [t], timers := timers } e e :=
      grows_keep rfl fun _ h => List.mem_append_left _ h
    cases hreply : t.reply with
    | none =>
      have hsame : e.channels { a with queue := a.queue ++ [t], timers := timers } =
          e.channels a := by
        simp [Book.channels, List.filterMap_append, hreply]
      exact ⟨e, hA.keep rfl rfl (hsame ▸ hA.order) fun _ _ h => h, hgrows, Or.inl hsame⟩
    | some ch =>
      obtain ⟨rfl, hchans⟩ := hc ch hreply
      have hnext : e.channels { a with queue := a.queue ++ [t], timers := timers } =
          e.channels a ++ [s.chans] := by
        simp [Book.channels, List.filterMap_append, hreply]
      refine ⟨e, hA.keep rfl rfl ?_ fun _ _ h => h, hgrows,
        Or.inr ⟨hnext, hchans, t, hp, rfl, hreply⟩⟩
      rw [hnext, List.pairwise_append]
      refine ⟨hA.order, List.pairwise_singleton _ _, fun ch hch ch' hch' => ?_⟩
      rw [List.mem_singleton.mp hch']
      exact hk ch hch
  | turned _ t rest hl hq ht ho =>
    have hc : (e.add (.command s.now t.cmd, t.reply)).channels
        (turnWith a (.command s.now t.cmd) t.reply rest) = e.channels a :=
      channels_add_command e s.now hq
    refine ⟨e.add (.command s.now t.cmd, t.reply),
      hA.handle (.command s.now t.cmd, t.reply) rest hc, ?_, Or.inl hc⟩
    refine grows_handle (.command s.now t.cmd, t.reply) rest fun t' ht' => ?_
    rw [hq] at ht'
    obtain rfl | ht' := List.mem_cons.mp ht'
    · exact Or.inr ⟨s.now, rfl⟩
    · exact Or.inl ht'
  | ticked _ hl ht ho =>
    have hc : (e.add (.tick s.now, none)).channels (turnWith a (.tick s.now) none a.queue) =
        e.channels a := channels_add_tick e s.now rfl
    exact ⟨e.add (.tick s.now, none), hA.handle (.tick s.now, none) a.queue hc,
      grows_handle (.tick s.now, none) a.queue fun _ h => Or.inl h, Or.inl hc⟩
  | acted _ _ i hl hp =>
    have hsame : e.channels a' = e.channels a := by
      unfold Book.channels
      rw [hp.queue_eq]
    exact ⟨e, hA.keep hp.game_eq hp.room_eq (hsame ▸ hA.order) fun _ _ h => hp.reply_mem h,
      grows_keep hp.game_eq fun _ h => hp.queue_eq ▸ h, Or.inl hsame⟩
  | flagged _ listed stopped timers =>
    exact ⟨e, hA.keep rfl rfl hA.order fun _ _ h => h, grows_keep rfl fun _ h => h, Or.inl rfl⟩

theorem account_made {chans : ℕ} (h : ActorChange u s l chans R none (some a')) :
    ∃ e', Account u R a' e' ∧ e'.channels a' = [] := by
  cases h with
  | created c choice gameType players g hl hr hg =>
    refine ⟨⟨gameType, s.now, []⟩, ⟨⟨hg, rfl⟩, List.Pairwise.nil, ?_⟩, rfl⟩
    intro ch res hin
    cases hin

/-! ## The books of a node -/

/-- At most one call of one room was made, and it got the next channel. -/
def OneCall (s s' : Sys σ) : Prop :=
  s'.chans = s.chans ∨ s'.chans = s.chans + 1 ∧ ∃ R a t, s.actor R = some a ∧
    s'.actor R = some { a with queue := a.queue ++ [t] } ∧ t.reply = some s.chans ∧
    ∀ R', R' ≠ R → s'.actor R' = s.actor R'

theorem push_oneCall (s : Sys σ) (room : ID) (cmd : Command) : OneCall s (s.push room cmd) := by
  cases ha : s.actor room with
  | none =>
    left
    unfold Sys.push
    rw [ha]
  | some a =>
    exact Or.inr ⟨push_chans s room cmd a ha, room, a, _, ha, push_self s cmd ha, rfl,
      fun R' hne => push_other s cmd hne⟩

theorem apply_oneCall (s : Sys σ) (e : Effect σ) : OneCall s (s.apply e) := by
  cases e with
  | submit room cmd => exact push_oneCall s room cmd
  | enqueue c env given => exact Or.inl (enqueue_rest s Sys.chans (fun _ _ _ => rfl) c env given)
  | _ => exact Or.inl rfl

theorem move_oneCall (hm : Move u s l s') : OneCall s s' := by
  cases hm with
  | hangup c hp => exact Or.inl (close_rest s Sys.chans (fun _ _ _ => rfl) c)
  | run c choice e pc hr => exact apply_oneCall s e
  | close c choice e pc hr => exact apply_oneCall s e
  | act id i a s' ha hact =>
    left
    cases hact with
    | delivered env targets rest todo c ht hc hd =>
      exact enqueue_rest (s.setActor id { a with todo := todo }) Sys.chans (fun _ _ _ => rfl) c env
        none
    | _ => rfl
  | gc choice e w he => exact apply_oneCall s e
  | _ => exact Or.inl rfl

/-- The goroutine of a connection, its `Close` or the sweep waits on the channel for the
answer of the room to the command. -/
inductive Awaits (s : Sys σ) : ID → Command → ChanID → Prop
  | reader (c : ConnID) (k : Call) (ch : ChanID) (h : (s.conn c).reader = .await k ch) :
      Awaits s k.room (k.command (s.conn c).playerID) ch
  | closer (c : ConnID) (room : ID) (ch : ChanID) (h : (s.conn c).closer = .await room ch) :
      Awaits s room (.disconnect (s.conn c).playerID) ch
  | sweeper (now : Time) (room : ID) (ch : ChanID) (rest : List ID)
      (h : s.sweeper = .await now room ch rest) : Awaits s room .forceClose ch

structure Ledger (u : Setup σ) (s : Sys σ) (b : ID → Book) : Prop where
  account : ∀ R a, s.actor R = some a → Account u R a (b R)
  made : ∀ R a ch, s.actor R = some a → ch ∈ (b R).channels a → ch < s.chans
  placed : ∀ ch, ch < s.chans → ∃ R a, s.actor R = some a ∧ ch ∈ (b R).channels a
  apart : ∀ ch R a R' a', s.actor R = some a → s.actor R' = some a' →
    ch ∈ (b R).channels a → ch ∈ (b R').channels a' → R = R'
  replied : ∀ ch res, s.replies ch = some res → ∃ R a i, s.actor R = some a ∧
    ((i, some ch), Output.reply res) ∈ (b R).log R a
  call : ∀ R cmd ch, Awaits s R cmd ch → ∃ a, s.actor R = some a ∧
    ({ cmd := cmd, reply := some ch } ∈ a.queue ∨
      ∃ now, (.command now cmd, some ch) ∈ (b R).served)

/-- What one move does to the books. -/
structure Turns (u : Setup σ) (s : Sys σ) (l : Label) (s' : Sys σ) (b b' : ID → Book) : Prop where
  account : ∀ R a', s'.actor R = some a' → Account u R a' (b' R)
  grows : ∀ R a, s.actor R = some a → ∃ a', s'.actor R = some a' ∧ Grows R a a' (b R) (b' R)
  channels : ∀ R a a', s.actor R = some a → s'.actor R = some a' →
    (b' R).channels a' = (b R).channels a ∨
      (b' R).channels a' = (b R).channels a ++ [s.chans] ∧ s'.chans = s.chans + 1 ∧
        Called s l R a a'
  fresh : ∀ R a', s.actor R = none → s'.actor R = some a' → (b' R).channels a' = []

theorem Ledger.turns {b : ID → Book} (hL : Ledger u s b) (hm : Move u s l s') :
    ∃ b', Turns u s l s' b b' := by
  have hroom : ∀ R, ∃ e', (∀ a', s'.actor R = some a' → Account u R a' e') ∧
      (∀ a, s.actor R = some a → ∃ a', s'.actor R = some a' ∧ Grows R a a' (b R) e' ∧
        (e'.channels a' = (b R).channels a ∨
          e'.channels a' = (b R).channels a ++ [s.chans] ∧ s'.chans = s.chans + 1 ∧
            Called s l R a a')) ∧
      ∀ a', s.actor R = none → s'.actor R = some a' → e'.channels a' = [] := by
    intro R
    cases ha : s.actor R with
    | none =>
      cases ha' : s'.actor R with
      | none => exact ⟨{}, fun a' h => (by cases h), fun a h => (by cases h), fun a' _ h => (by cases h)⟩
      | some a' =>
        have hch := move_actor hm R
        rw [ha, ha'] at hch
        obtain ⟨e', hA, hnone⟩ := account_made hch
        refine ⟨e', ?_, fun a h => (by cases h), ?_⟩
        · intro a'' h
          cases h
          exact hA
        · intro a'' _ h
          cases h
          exact hnone
    | some a =>
      obtain ⟨a', ho', hch⟩ := hm.actor_stays ha
      obtain ⟨e', hA, hG, hC⟩ := (hL.account R a ha).change (hL.made R a · ha) hch
      refine ⟨e', ?_, ?_, fun a'' h => (by cases h)⟩
      · intro a'' h
        rw [ho'] at h
        cases h
        exact hA
      · intro a'' h
        cases h
        exact ⟨a', ho', hG, hC⟩
  choose b' hacc hgrow hfresh using hroom
  refine ⟨b', hacc, ?_, ?_, hfresh⟩
  · intro R a ha
    obtain ⟨a', ha', hG, -⟩ := hgrow R a ha
    exact ⟨a', ha', hG⟩
  · intro R a a' ha ha'
    obtain ⟨a'', ha'', -, hC⟩ := hgrow R a ha
    rw [ha'] at ha''
    cases ha''
    exact hC

/-- Whoever waits has waited before, or has just made the call that the move made. -/
theorem Awaits.back {cmd : Command} {ch : ChanID} (hm : Move u s l s') (h : Awaits s' R cmd ch) :
    Awaits s R cmd ch ∨ ch = s.chans ∧ s'.chans = s.chans + 1 ∧
      ∀ R' t, Pushes s l R' t → R' = R ∧ t.cmd = cmd := by
  cases h with
  | reader c k ch h =>
    rw [move_awaiting_player hm c k ch h]
    obtain hold | ⟨⟨choice, rfl⟩, hsubmit, rfl, hchans⟩ := move_await hm c k ch h
    · exact Or.inl (.reader c k ch hold)
    · refine Or.inr ⟨rfl, hchans, fun R' t hp => ?_⟩
      cases hp with
      | call _ _ k' hr =>
        cases hsubmit.symm.trans hr
        exact ⟨rfl, rfl⟩
  | closer c room ch h =>
    obtain ⟨hplayer, hold | ⟨choice, rfl, hsubmit, rfl, hchans⟩⟩ := move_closer_await hm h
    · rw [hplayer]
      exact Or.inl (.closer c R ch hold)
    · refine Or.inr ⟨rfl, hchans, fun R' t hp => ?_⟩
      cases hp with
      | drop _ _ room' hc =>
        cases hsubmit.symm.trans hc
        rw [hplayer]
        exact ⟨rfl, rfl⟩
  | sweeper now room ch rest h =>
    obtain hw | ⟨rooms, -, -, -, rfl⟩ | ⟨choice, e, w, rfl, hstep, rfl⟩ := move_sweeper hm
    · exact Or.inl (.sweeper now R ch rest (hw.symm.trans h))
    · cases h
    · change w = .await now R ch rest at h
      subst h
      obtain ⟨hw, rfl, rfl, hacc⟩ := hstep.to_await
      obtain ⟨a, ha⟩ := accepts_actor s R hacc
      refine Or.inr ⟨rfl, push_chans s R .forceClose a ha, fun R' t hp => ?_⟩
      cases hp with
      | sweep _ now' room' rest' hw' =>
        cases hw.symm.trans hw'
        exact ⟨rfl, rfl⟩

section Step
variable {b b' : ID → Book} (hT : Turns u s l s' b b')
include hT

/-- A channel in the books was there before, or it is the new one and its call was just made. -/
theorem Turns.channel_back {R : ID} {a' : Actor σ} {ch : ChanID} (ha' : s'.actor R = some a')
    (h : ch ∈ (b' R).channels a') :
    (∃ a, s.actor R = some a ∧ ch ∈ (b R).channels a) ∨
      ch = s.chans ∧ s'.chans = s.chans + 1 ∧ s'.actor R ≠ s.actor R := by
  cases ha : s.actor R with
  | none =>
    rw [hT.fresh R a' ha ha'] at h
    cases h
  | some a =>
    obtain hsame | ⟨hnext, hchans, t, -, hq, -⟩ := hT.channels R a a' ha ha'
    · exact Or.inl ⟨a, rfl, hsame ▸ h⟩
    · rw [hnext] at h
      obtain h | h := List.mem_append.mp h
      · exact Or.inl ⟨a, rfl, h⟩
      · refine Or.inr ⟨List.mem_singleton.mp h, hchans, ?_⟩
        rw [ha']
        intro heq
        cases heq
        have hlen := congrArg List.length hq
        simp at hlen

variable (hL : Ledger u s b) (hm : Move u s l s')
include hL hm

theorem Turns.made {R : ID} {a' : Actor σ} {ch : ChanID} (ha' : s'.actor R = some a')
    (h : ch ∈ (b' R).channels a') : ch < s'.chans := by
  obtain ⟨a, ha, h⟩ | ⟨rfl, hchans, -⟩ := hT.channel_back ha' h
  · exact lt_of_lt_of_le (hL.made R a ch ha h) (move_chans hm)
  · rw [hchans]
    exact Nat.lt_succ_self _

theorem Turns.placed {ch : ChanID} (h : ch < s'.chans) :
    ∃ R a', s'.actor R = some a' ∧ ch ∈ (b' R).channels a' := by
  by_cases hold : ch < s.chans
  · obtain ⟨R, a, ha, hin⟩ := hL.placed ch hold
    obtain ⟨a', ha', -⟩ := hT.grows R a ha
    refine ⟨R, a', ha', ?_⟩
    obtain hsame | ⟨hnext, -⟩ := hT.channels R a a' ha ha'
    · rw [hsame]
      exact hin
    · rw [hnext]
      exact List.mem_append_left _ hin
  · obtain hsame | ⟨hchans, R, a, t, ha, ha', ht, -⟩ := move_oneCall hm
    · exact absurd (hsame ▸ h) hold
    · rw [hchans] at h
      have hch : ch = s.chans := Nat.le_antisymm (Nat.lt_succ_iff.mp h) (Nat.not_lt.mp hold)
      refine ⟨R, _, ha', List.mem_append_right _ ?_⟩
      rw [List.filterMap_append, hch]
      exact List.mem_append_right _ (List.mem_filterMap.mpr ⟨t, List.mem_cons_self, ht⟩)

theorem Turns.apart {ch : ChanID} {R R' : ID} {a a' : Actor σ} (ha : s'.actor R = some a)
    (ha' : s'.actor R' = some a') (h : ch ∈ (b' R).channels a) (h' : ch ∈ (b' R').channels a') :
    R = R' := by
  obtain ⟨c, hc, hin⟩ | ⟨rfl, hchans, hne⟩ := hT.channel_back ha h
  · obtain ⟨c', hc', hin'⟩ | ⟨rfl, -⟩ := hT.channel_back ha' h'
    · exact hL.apart ch R c R' c' hc hc' hin hin'
    · exact absurd (hL.made R c _ hc hin) (Nat.lt_irrefl _)
  · obtain ⟨c', hc', hin'⟩ | ⟨-, -, hne'⟩ := hT.channel_back ha' h'
    · exact absurd (hL.made R' c' _ hc' hin') (Nat.lt_irrefl _)
    · obtain hsame | ⟨-, R₀, -, -, -, -, -, hothers⟩ := move_oneCall hm
      · rw [hsame] at hchans
        exact absurd hchans (Nat.succ_ne_self _).symm
      · have hR : R = R₀ := by_contra fun h => hne (hothers R h)
        have hR' : R' = R₀ := by_contra fun h => hne' (hothers R' h)
        rw [hR, hR']

theorem Turns.replied {ch : ChanID} {res : CmdResult} (h : s'.replies ch = some res) :
    ∃ R a' i, s'.actor R = some a' ∧ ((i, some ch), Output.reply res) ∈ (b' R).log R a' := by
  have hold : ∀ R a i, s.actor R = some a → ((i, some ch), Output.reply res) ∈ (b R).log R a →
      ∃ R a' i, s'.actor R = some a' ∧ ((i, some ch), Output.reply res) ∈ (b' R).log R a' := by
    intro R a i ha hin
    obtain ⟨a', ha', hG⟩ := hT.grows R a ha
    exact ⟨R, a', i, ha', hG.log _ hin⟩
  have hbefore : s.replies ch = some res → ∃ R a' i, s'.actor R = some a' ∧
      ((i, some ch), Output.reply res) ∈ (b' R).log R a' := by
    intro h
    obtain ⟨R, a, i, ha, hin⟩ := hL.replied ch res h
    exact hold R a i ha hin
  obtain hsame | ⟨R, i, a, ch', res', rest, -, ha, ht, hnew⟩ := move_replies hm
  · rw [hsame] at h
    exact hbefore h
  · rw [hnew] at h
    by_cases hch : ch = ch'
    · subst hch
      rw [Function.update_self] at h
      cases h
      obtain ⟨j, hin⟩ := (hL.account R a ha).replying ch res (by rw [ht]; exact List.mem_cons_self)
      exact hold R a j ha hin
    · rw [Function.update_of_ne hch] at h
      exact hbefore h

theorem Turns.call {R : ID} {cmd : Command} {ch : ChanID} (h : Awaits s' R cmd ch) :
    ∃ a', s'.actor R = some a' ∧
      ({ cmd := cmd, reply := some ch } ∈ a'.queue ∨
        ∃ now, (.command now cmd, some ch) ∈ (b' R).served) := by
  obtain hold | ⟨rfl, hchans, hsame⟩ := h.back hm
  · obtain ⟨a, ha, hin⟩ := hL.call R cmd ch hold
    obtain ⟨a', ha', hG⟩ := hT.grows R a ha
    refine ⟨a', ha', ?_⟩
    obtain hin | ⟨now, hin⟩ := hin
    · obtain hq | ⟨now, hs⟩ := hG.queue _ hin
      · exact Or.inl hq
      · exact Or.inr ⟨now, hs⟩
    · exact Or.inr ⟨now, hG.served _ hin⟩
  · -- the channel is new, and the only call that was made is this one
    have hnew : s.chans < s'.chans := by
      rw [hchans]
      exact Nat.lt_succ_self _
    obtain ⟨R', a', ha', hin⟩ := hT.placed hL hm hnew
    cases ha : s.actor R' with
    | none =>
      rw [hT.fresh R' a' ha ha'] at hin
      cases hin
    | some a =>
      obtain hsame' | ⟨-, -, t, hp, hq, hreply⟩ := hT.channels R' a a' ha ha'
      · rw [hsame'] at hin
        exact absurd (hL.made R' a _ ha hin) (Nat.lt_irrefl _)
      · obtain ⟨rfl, rfl⟩ := hsame R' t hp
        refine ⟨a', ha', Or.inl ?_⟩
        rw [hq, ← hreply]
        exact List.mem_append_right _ List.mem_cons_self

end Step

theorem Ledger.move {b : ID → Book} (hL : Ledger u s b) (hm : Move u s l s') :
    ∃ b', Ledger u s' b' := by
  obtain ⟨b', hT⟩ := hL.turns hm
  exact ⟨b', hT.account, fun R a' ch ha' h => hT.made hL hm ha' h, fun ch h => hT.placed hL hm h,
    fun ch R a R' a' ha ha' h h' => hT.apart hL hm ha ha' h h',
    fun ch res h => hT.replied hL hm h, fun R cmd ch h => hT.call hL hm h⟩

theorem ledger_start : Ledger u ({} : Sys σ) (fun _ => {}) where
  account := fun R a ha => by cases ha
  made := fun R a ch ha => by cases ha
  placed := fun ch h => absurd h (Nat.not_lt_zero ch)
  apart := fun ch R a R' a' ha => by cases ha
  replied := fun ch res h => by cases h
  call := by
    rintro R cmd ch (⟨c, k, ch, h⟩ | ⟨c, room, ch, h⟩ | ⟨now, room, ch, rest, h⟩) <;> cases h

/-- A channel stands for one service. -/
theorem service_unique {services : List Service}
    (h : (services.filterMap Prod.snd).Pairwise (· < ·)) {x y : Service} {ch : ChanID}
    (hx : x ∈ services) (hy : y ∈ services) (hxc : x.2 = some ch) (hyc : y.2 = some ch) : x = y := by
  induction services with
  | nil => cases hx
  | cons z zs ih =>
    have hlater : ∀ w ∈ zs, w.2 = some ch → z.2 ≠ some ch := by
      intro w hw hwc hzc
      rw [List.filterMap_cons, hzc, List.pairwise_cons] at h
      exact Nat.lt_irrefl ch (h.1 ch (List.mem_filterMap.mpr ⟨w, hw, hwc⟩))
    have htail : (zs.filterMap Prod.snd).Pairwise (· < ·) :=
      h.sublist ((List.sublist_cons_self z zs).filterMap _)
    obtain rfl | hxs := List.mem_cons.mp hx
    · obtain rfl | hys := List.mem_cons.mp hy
      · rfl
      · exact absurd hxc (hlater y hys hyc)
    · obtain rfl | hys := List.mem_cons.mp hy
      · exact absurd hyc (hlater x hxs hxc)
      · exact ih htail hxs hys

theorem mem_served_of_log {x : Service} {o : Output} (h : (x, o) ∈ e.log R a) : x ∈ e.served :=
  mem_of_mem_trace _ h

/-- A command on a channel has not been answered. -/
theorem Ledger.queued_unanswered {b : ID → Book} (hL : Ledger u s b) (ha : s.actor R = some a)
    {t : Ticket} {ch : ChanID} (hq : t ∈ a.queue) (hr : t.reply = some ch) :
    s.replies ch = none := by
  by_contra hn
  obtain ⟨res, hres⟩ := Option.ne_none_iff_exists'.mp hn
  obtain ⟨R', a', i, ha', hlog⟩ := hL.replied ch res hres
  have hserved : ch ∈ (b R').served.filterMap Prod.snd :=
    List.mem_filterMap.mpr ⟨_, mem_served_of_log hlog, rfl⟩
  have hqueued : ch ∈ a.queue.filterMap Ticket.reply := List.mem_filterMap.mpr ⟨t, hq, hr⟩
  obtain rfl := hL.apart ch R' a' R a ha' ha (List.mem_append_left _ hserved)
    (List.mem_append_right _ hqueued)
  obtain rfl := Option.some.inj (ha.symm.trans ha')
  obtain ⟨-, -, hbefore⟩ := List.pairwise_append.mp (hL.account R' a ha).order
  exact Nat.lt_irrefl ch (hbefore ch hserved ch hqueued)

/-- Whoever waits on a channel finds the answer to the command they sent. -/
theorem Ledger.answer {b : ID → Book} (hL : Ledger u s b) {R : ID} {cmd : Command} {ch : ChanID}
    {res : CmdResult} (hw : Awaits s R cmd ch) (hres : s.replies ch = some res) :
    ∃ a now, s.actor R = some a ∧
      ((Input.command now cmd, some ch), Output.reply res) ∈ (b R).log R a := by
  obtain ⟨R', a', i, ha', hlog⟩ := hL.replied ch res hres
  obtain ⟨a, ha, hcall⟩ := hL.call R cmd ch hw
  have hserved : (i, some ch) ∈ (b R').served := mem_served_of_log hlog
  have hin : ch ∈ (b R).channels a := by
    obtain hq | ⟨now, hs⟩ := hcall
    · exact List.mem_append_right _ (List.mem_filterMap.mpr ⟨_, hq, rfl⟩)
    · exact List.mem_append_left _ (List.mem_filterMap.mpr ⟨_, hs, rfl⟩)
  have hin' : ch ∈ (b R').channels a' :=
    List.mem_append_left _ (List.mem_filterMap.mpr ⟨_, hserved, rfl⟩)
  have hR := hL.apart ch R' a' R a ha' ha hin' hin
  subst hR
  obtain rfl := Option.some.inj (ha.symm.trans ha')
  obtain hq | ⟨now, hs⟩ := hcall
  · -- a command that was answered is no longer on the channel
    cases (hL.queued_unanswered ha hq rfl).symm.trans hres
  · have horder := (List.pairwise_append.mp (hL.account R' a ha).order).1
    have heq := service_unique horder hserved hs rfl rfl
    rw [heq] at hlog
    exact ⟨a, now, ha, hlog⟩

end Ledger
end RealtimeEngine.Transport
