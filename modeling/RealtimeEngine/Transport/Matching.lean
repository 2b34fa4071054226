import RealtimeEngine.Matchmaking.Matchmaker
import RealtimeEngine.Transport.Freshness

/-! The node's searches for a match: the matchmaker's queues and the Server's
`pending` and `pendingGT`. Here is what each step does to them, that the queues
are always those of a matchmaker after some requests, and what the three calls
`findMatch` of an unknown game type, `Enqueue` of a match that fails and
`onConnectionClosed` leave behind. -/
namespace RealtimeEngine.Transport
open Foundations Domain Rooms Storage Matchmaking
set_option autoImplicit false
set_option maxHeartbeats 250000

section Matching
variable {σ : Type} {u : Setup σ} {s s' : Sys σ} {l : Label}

/-! ## Accesses -/

/-- What the next step of a connection's goroutine asks of the matchmaker. -/
def Reader.request (player : PlayerID) : Reader → Option Matchmaking.Request
  | .enqueue gameType => some (.enqueue gameType player)
  | _ => none

def Closer.request (player : PlayerID) : Closer → Option Matchmaking.Request
  | .dequeue gameType => some (.dequeue gameType player)
  | _ => none

def Sys.queueRequest (s : Sys σ) : Label → Option Matchmaking.Request
  | .run c _ => (s.conn c).reader.request (s.conn c).playerID
  | .close c _ => (s.conn c).closer.request (s.conn c).playerID
  | _ => none

/-- A player whose entries in `pending` and `pendingGT` the next step of a
connection's goroutine writes, with the entries it leaves. -/
abbrev PendingWrite := PlayerID × Option (ConnID × String)

/-- `delete` on an entry that is there. -/
def removes (s : Sys σ) (p : PlayerID) : Option PendingWrite :=
  if (s.pending.lookup p).isSome then some (p, none) else none

def Sys.pendingWrite (s : Sys σ) : Label → Option PendingWrite
  | .run c _ =>
    match (s.conn c).reader with
    | .pend gameType => some ((s.conn c).playerID, some (c, gameType))
    | .clearPending _ => some ((s.conn c).playerID, none)
    | .seat _ (p :: _) => removes s p
    | _ => none
  | .close c _ =>
    match (s.conn c).closer with
    | .start => removes s (s.conn c).playerID
    | _ => none
  | _ => none

theorem apply_queues (s : Sys σ) (e : Effect σ) :
    (s.apply e).queues = match e with
      | .setQueue gameType queue => Function.update s.queues gameType queue
      | _ => s.queues := by
  cases e <;> first
    | rfl
    | exact enqueue_rest s Sys.queues (fun _ _ _ => rfl) _ _ _
    | exact push_rest s Sys.queues _ _ fun _ _ => rfl

theorem apply_pendingGT (s : Sys σ) (e : Effect σ) :
    (s.apply e).pendingGT = match e with
      | .pend player _ gameType => s.pendingGT.insert player gameType
      | .unpend player => s.pendingGT.erase player
      | _ => s.pendingGT := by
  cases e <;> first
    | rfl
    | exact enqueue_rest s Sys.pendingGT (fun _ _ _ => rfl) _ _ _
    | exact push_rest s Sys.pendingGT _ _ fun _ _ => rfl

/-- A part of the node that only the goroutines of connections write. -/
theorem move_searches {α : Type} (f : Sys σ → α) (hconn : ∀ s c x, f (Sys.setConn s c x) = f s)
    (hactor : ∀ s id a, f (Sys.setActor s id a) = f s)
    (hrest : ∀ s conns replies now w sessions,
      f { s with conns := conns, replies := replies, now := now, sweeper := w,
                 sessions := sessions } = f s)
    (hpush : ∀ s room cmd, f (Sys.push s room cmd) = f s) (hm : Move u s l s') :
    (∃ c choice e pc, l = .run c choice ∧ ReaderStep u s c (s.conn c).reader e pc ∧
      f s' = f (s.apply e)) ∨
    (∃ c choice e pc, l = .close c choice ∧ CloserStep u s c (s.conn c).closer e pc ∧
      f s' = f (s.apply e)) ∨
    (∀ c choice, l ≠ .run c choice ∧ l ≠ .close c choice) ∧ f s' = f s := by
  obtain h | ⟨c, choice, e, pc, hl, hr, h⟩ | ⟨c, choice, e, pc, hl, hr, h⟩ | ⟨hl, h⟩ :=
    move_table f hconn hactor (fun s conns replies now w => hrest s conns replies now w s.sessions)
      hpush hm
  · by_cases hrun : ∃ c choice, l = .run c choice
    · obtain ⟨c, choice, rfl⟩ := hrun
      obtain ⟨e, pc, hr, rfl⟩ := hm.run_inv
      exact Or.inl ⟨c, choice, e, pc, rfl, hr, hconn (s.apply e) c _⟩
    by_cases hclose : ∃ c choice, l = .close c choice
    · obtain ⟨c, choice, rfl⟩ := hclose
      obtain ⟨e, pc, hr, rfl⟩ := hm.close_inv
      exact Or.inr (Or.inl ⟨c, choice, e, pc, rfl, hr, hconn (s.apply e) c _⟩)
    refine Or.inr (Or.inr ⟨fun c choice => ⟨?_, ?_⟩, h⟩)
    · exact fun hl => hrun ⟨c, choice, hl⟩
    · exact fun hl => hclose ⟨c, choice, hl⟩
  · exact Or.inl ⟨c, choice, e, pc, hl, hr, h⟩
  · exact Or.inr (Or.inl ⟨c, choice, e, pc, hl, hr, h⟩)
  · refine Or.inr (Or.inr ⟨fun c choice => ?_, h.trans (hrest s s.conns s.replies s.now s.sweeper _)⟩)
    rw [hl]
    exact ⟨Label.noConfusion, Label.noConfusion⟩

/-- Every step leaves the queues alone or makes one request. -/
theorem move_queues (hm : Move u s l s') :
    s'.queues = match s.queueRequest l with
      | none => s.queues
      | some r => (request u.games s.queues r).1 := by
  obtain ⟨c, choice, e, pc, rfl, hr, h⟩ | ⟨c, choice, e, pc, rfl, hr, h⟩ | ⟨hl, h⟩ :=
    move_searches Sys.queues (fun _ _ _ => rfl) (fun _ _ _ => rfl) (fun _ _ _ _ _ _ => rfl)
      (fun s room cmd => push_rest s Sys.queues room cmd fun _ _ => rfl) hm
  · rw [h, apply_queues, Sys.queueRequest]
    generalize hpc : (s.conn c).reader = r at hr
    cases hr with
    | unlisted gameType hg => simp [Reader.request, request, hg]
    | queued gameType g queue hg hq => simp [Reader.request, request, hg, hq]
    | matched gameType g queue players hg hq => simp [Reader.request, request, hg, hq]
    | _ => rfl
  · rw [h, apply_queues, Sys.queueRequest]
    generalize hpc : (s.conn c).closer = r at hr
    cases hr <;> rfl
  · rw [h]
    cases l with
    | run c choice => exact absurd rfl (hl c choice).1
    | close c choice => exact absurd rfl (hl c choice).2
    | _ => rfl

/-- Every step writes the entries of at most one player. -/
theorem move_entries (hm : Move u s l s') (p : PlayerID) :
    s'.pending.lookup p = (match s.pendingWrite l with
      | none => s.pending.lookup p
      | some (q, entry) => if p = q then entry.map Prod.fst else s.pending.lookup p) ∧
    s'.pendingGT.lookup p = match s.pendingWrite l with
      | none => s.pendingGT.lookup p
      | some (q, entry) => if p = q then entry.map Prod.snd else s.pendingGT.lookup p := by
  have hsplit : ∀ (e : Effect σ), (s'.pending, s'.pendingGT) = ((s.apply e).pending, (s.apply e).pendingGT) →
      s'.pending = (s.apply e).pending ∧ s'.pendingGT = (s.apply e).pendingGT :=
    fun e h => Prod.mk.inj h
  obtain ⟨c, choice, e, pc, rfl, hr, h⟩ | ⟨c, choice, e, pc, rfl, hr, h⟩ | ⟨hl, h⟩ :=
    move_searches (fun s => (s.pending, s.pendingGT)) (fun _ _ _ => rfl) (fun _ _ _ => rfl)
      (fun _ _ _ _ _ _ => rfl)
      (fun s room cmd => push_rest s (fun s => (s.pending, s.pendingGT)) room cmd fun _ _ => rfl) hm
  · obtain ⟨hp, hg⟩ := hsplit e h
    rw [hp, hg, apply_pending, apply_pendingGT, Sys.pendingWrite]
    generalize (s.conn c).reader = r at hr
    cases hr with
    | pended gameType => simp [Table.lookup_insert_ite]
    | cleared err => simp [Table.lookup_erase_ite]
    | popped room q rest conn hq => simp [removes, hq, Table.lookup_erase_ite]
    | skipped room q rest hq => simp [removes, hq]
    | _ => exact ⟨rfl, rfl⟩
  · obtain ⟨hp, hg⟩ := hsplit e h
    rw [hp, hg, apply_pending, apply_pendingGT, Sys.pendingWrite]
    generalize (s.conn c).closer = r at hr
    cases hr with
    | unpended conn hq => simp [removes, hq, Table.lookup_erase_ite]
    | searched hq => simp [removes, hq]
    | _ => exact ⟨rfl, rfl⟩
  · obtain ⟨hp, hg⟩ := Prod.mk.inj h
    rw [hp, hg]
    cases l with
    | run c choice => exact absurd rfl (hl c choice).1
    | close c choice => exact absurd rfl (hl c choice).2
    | _ => exact ⟨rfl, rfl⟩

/-! ## Every run -/

/-- The queues are those of a matchmaker after some requests, and `pending` and
`pendingGT` have their entries together. -/
structure Searching (u : Setup σ) (s : Sys σ) : Prop where
  queues : ∃ rs, s.queues = queuesAfter u.games rs
  keyed : ∀ p, s.pending.lookup p = none ↔ s.pendingGT.lookup p = none

theorem Searching.move (h : Searching u s) (hm : Move u s l s') : Searching u s' where
  queues := by
    obtain ⟨rs, hrs⟩ := h.queues
    have hq := move_queues hm
    cases hreq : s.queueRequest l with
    | none => exact ⟨rs, by rw [hq, hreq, hrs]⟩
    | some r =>
      refine ⟨rs ++ [r], ?_⟩
      rw [hq, hreq, hrs, queuesAfter, queuesAfter, final_concat]
  keyed := by
    intro p
    obtain ⟨hp, hg⟩ := move_entries hm p
    rw [hp, hg]
    cases s.pendingWrite l with
    | none => exact h.keyed p
    | some w =>
      obtain ⟨q, entry⟩ := w
      dsimp only
      by_cases hpq : p = q
      · rw [if_pos hpq, if_pos hpq, Option.map_eq_none_iff, Option.map_eq_none_iff]
      · rw [if_neg hpq, if_neg hpq]
        exact h.keyed p

theorem run_searching (u : Setup σ) (ls : List Label) (s : Sys σ) (hr : run u ls = some s) :
    Sound u s ∧ Searching u s :=
  run_always (Searching u) (fun _ _ _ _ h hm => h.move hm)
    ⟨⟨[], rfl⟩, fun _ => ⟨fun _ => rfl, fun _ => rfl⟩⟩ ls s hr

theorem Searching.nodup (h : Searching u s) (gameType : String) :
    (s.queues gameType).Nodup := by
  obtain ⟨rs, hrs⟩ := h.queues
  rw [hrs]
  exact queuesAfter_nodup u.games rs gameType

/-- Nobody waits for an unknown game. -/
theorem Searching.unlisted (h : Searching u s) (gameType : String)
    (hg : u.games gameType = none) : s.queues gameType = [] := by
  obtain ⟨rs, hrs⟩ := h.queues
  have ho := allOrderly_after u.games rs gameType
  rw [hg] at ho
  rw [hrs]
  exact ho

theorem Searching.orderly (h : Searching u s) (gameType : String) (g : Game σ)
    (hg : u.games gameType = some g) (hmax : 1 ≤ g.maxPlayers) :
    ∃ events, Orderly g.maxPlayers events (s.queues gameType) := by
  obtain ⟨rs, hrs⟩ := h.queues
  rw [hrs]
  exact ⟨_, orderly_after u.games rs gameType g hg hmax⟩

theorem request_of_reader {pc : Reader} {p q : PlayerID} {gameType : String}
    (h : pc.request q = some (.enqueue gameType p)) : pc = .enqueue gameType ∧ q = p := by
  cases pc with
  | enqueue gt =>
    cases h
    exact ⟨rfl, rfl⟩
  | _ => cases h

/-- A player in a queue was there before the step or is put there by it. -/
theorem queued_back (hm : Move u s l s') (p : PlayerID) (gameType : String)
    (hp : p ∈ s'.queues gameType) :
    p ∈ s.queues gameType ∨
    ∃ c choice, l = .run c choice ∧ (s.conn c).reader = .enqueue gameType ∧
      (s.conn c).playerID = p := by
  rw [move_queues hm] at hp
  cases hq : s.queueRequest l with
  | none =>
    rw [hq] at hp
    exact Or.inl hp
  | some r =>
    rw [hq] at hp
    obtain hold | rfl := mem_request u.games s.queues r gameType p hp
    · exact Or.inl hold
    · right
      cases l with
      | run c choice =>
        simp only [Sys.queueRequest] at hq
        obtain ⟨hr, hplayer⟩ := request_of_reader hq
        exact ⟨c, choice, rfl, hr, hplayer⟩
      | close c choice =>
        simp only [Sys.queueRequest] at hq
        generalize (s.conn c).closer = pc at hq
        cases pc <;> cases hq
      | _ => cases hq

/-! ## A search for an unknown game -/

/-- `findMatch` has found the game type unknown, has deleted the entry it made,
and is about to answer. -/
def Sys.turnedAway (s : Sys σ) (c : ConnID) (gameType : String) : Sys σ :=
  let asking := (s.apply (.pend (s.conn c).playerID c gameType)).goto c (.enqueue gameType)
  let refused := asking.goto c (.clearPending (.room .unknownGameType))
  (refused.apply (.unpend (s.conn c).playerID)).goto c
    (.send (failureEnvelope s.now (.room .unknownGameType)))

theorem turnedAway_field (s : Sys σ) (c : ConnID) (gameType : String) {α : Type} (f : Conn → α)
    (h : ∀ x pc pumping, f { x with reader := pc, pumping := pumping } = f x) :
    f ((s.turnedAway c gameType).conn c) = f (s.conn c) := by
  unfold Sys.turnedAway
  rw [goto_field _ f c c _ h]
  exact (goto_field _ f c c _ h).trans (goto_field _ f c c _ h)

theorem findMatch_turnedAway (s : Sys σ) (c : ConnID) (gameType : String)
    (hpc : (s.conn c).reader = .pend gameType) (hg : u.games gameType = none) :
    exec (step u) s (runs c 3) = some (s.turnedAway c gameType) := by
  let asking := (s.apply (.pend (s.conn c).playerID c gameType)).goto c (.enqueue gameType)
  let refused := asking.goto c (.clearPending (.room .unknownGameType))
  have hasks : step u s (.run c .go) = some asking :=
    (step_run_iff hpc).mpr ⟨_, rfl, rfl⟩
  have hrefuses : step u asking (.run c .go) = some refused := by
    have hr : (asking.conn c).reader = .enqueue gameType := by rw [goto_reader_self]
    have hn : enqueueNext u asking (asking.conn c).playerID gameType =
        (.silent, .clearPending (.room .unknownGameType)) := by
      unfold enqueueNext
      rw [hg]
    refine (step_run_iff hr).mpr ⟨_, rfl, ?_⟩
    rw [hn]
    rfl
  have hclears : step u refused (.run c .go) = some (s.turnedAway c gameType) := by
    have hr : (refused.conn c).reader = .clearPending (.room .unknownGameType) := by
      rw [goto_reader_self]
    have hp : (refused.conn c).playerID = (s.conn c).playerID :=
      (goto_field _ Conn.playerID c c _ fun _ _ _ => rfl).trans
        (goto_field _ Conn.playerID c c _ fun _ _ _ => rfl)
    refine (step_run_iff hr).mpr ⟨_, rfl, ?_⟩
    rw [hp]
    rfl
  calc exec (step u) s (runs c 3)
      = exec (step u) asking (runs c 2) := exec_cons _ hasks _
    _ = exec (step u) refused (runs c 1) := exec_cons _ hrefuses _
    _ = some (s.turnedAway c gameType) := exec_cons _ hclears []

/-- `findMatch` with a game type that is not registered, from its first access
to the answer: it deletes whatever entry the player had. -/
theorem findMatch_unknown (s : Sys σ) (c : ConnID) (gameType : String)
    (hpc : (s.conn c).reader = .pend gameType) (hg : u.games gameType = none) :
    ∃ s', exec (step u) s (runs c 4) = some s' ∧
      s'.pending = s.pending.erase (s.conn c).playerID ∧
      s'.pendingGT = s.pendingGT.erase (s.conn c).playerID ∧ s'.queues = s.queues ∧
      ((s.conn c).fits = true → (s'.conn c).reader = .idle ∧
        (s'.conn c).sent = (s.conn c).sent ++ [failureEnvelope s.now (.room .unknownGameType)]) := by
  let env := failureEnvelope s.now (.room .unknownGameType)
  let t := s.turnedAway c gameType
  have hr : (t.conn c).reader = .send env := by
    change (((Sys.goto _ c _).conn c).reader) = _
    rw [goto_reader_self]
  have hanswers : step u t (.run c .go) =
      some ((t.apply (.enqueue c env none)).goto c (enqueueThen t c env none none).2) :=
    (step_run_iff hr).mpr ⟨_, rfl, rfl⟩
  have hrun : exec (step u) s (runs c 4) =
      some ((t.apply (.enqueue c env none)).goto c (enqueueThen t c env none none).2) := by
    change exec (step u) s (runs c 3 ++ [.run c .go]) = _
    rw [exec_append, findMatch_turnedAway s c gameType hpc hg]
    exact exec_cons _ hanswers []
  refine ⟨_, hrun, ?_, ?_, ?_, ?_⟩
  · calc ((t.apply (.enqueue c env none)).goto c _).pending
        = t.pending := apply_pending t (.enqueue c env none)
      _ = (s.pending.insert (s.conn c).playerID c).erase (s.conn c).playerID := rfl
      _ = _ := Table.erase_insert_self _ _ _
  · calc ((t.apply (.enqueue c env none)).goto c _).pendingGT
        = t.pendingGT := apply_pendingGT t (.enqueue c env none)
      _ = (s.pendingGT.insert (s.conn c).playerID gameType).erase (s.conn c).playerID := rfl
      _ = _ := Table.erase_insert_self _ _ _
  · exact apply_queues t (.enqueue c env none)
  · intro hf
    have hsent : (t.conn c).sent = (s.conn c).sent :=
      turnedAway_field s c gameType Conn.sent fun _ _ _ => rfl
    have hfits : (t.conn c).fits = true :=
      (turnedAway_field s c gameType Conn.fits fun _ _ _ => rfl).trans hf
    have hnext : (enqueueThen t c env none none).2 = .idle := if_pos hfits
    have htold : ((t.apply (.enqueue c env none)).conn c).sent = (t.conn c).sent ++ [env] := by
      change ((t.enqueue c env none).conn c).sent = _
      unfold Sys.enqueue
      dsimp only
      rw [if_pos hfits, setConn_self]
    rw [hnext, goto_reader_self, goto_sent, htold, hsent]
    exact ⟨rfl, rfl⟩

/-- A `FIND_MATCH` of an unknown game leaves the searches as they were exactly
when the player had none. -/
theorem unknown_search_undone_iff (u : Setup σ) (ls : List Label) (s : Sys σ)
    (hr : run u ls = some s) (c : ConnID) (gameType : String)
    (hpc : (s.conn c).reader = .pend gameType) (hg : u.games gameType = none) :
    ∃ s', exec (step u) s (runs c 4) = some s' ∧
      ((s.conn c).fits = true → (s'.conn c).reader = .idle ∧
        (s'.conn c).sent = (s.conn c).sent ++ [failureEnvelope s.now (.room .unknownGameType)]) ∧
      (s'.pending = s.pending ∧ s'.pendingGT = s.pendingGT ∧ s'.queues = s.queues ↔
        s.pending.lookup (s.conn c).playerID = none) := by
  obtain ⟨-, hS⟩ := run_searching u ls s hr
  obtain ⟨s', hx, hp, hgt, hq, hanswer⟩ := findMatch_unknown s c gameType hpc hg
  refine ⟨s', hx, hanswer, ?_⟩
  rw [hp, hgt, Table.erase_eq_self_iff, Table.erase_eq_self_iff, ← hS.keyed]
  exact ⟨fun h => h.1, fun h => ⟨h, h, hq⟩⟩

/-! ## Closing a connection -/

/-- The step is one of the `closeOnce` body of `c`, or touches no search. -/
def closesAlone (c : ConnID) (s : Sys σ) (l : Label) : Bool :=
  (match l with
    | .close d _ => decide (d = c)
    | _ => false) ||
  (s.queueRequest l).isNone && (s.pendingWrite l).isNone

/-- A player who is in the queue stays there, and nobody gets ahead. -/
def KeepsPlace (p : PlayerID) (q q' : List PlayerID) : Prop :=
  (p ∈ q → p ∈ q') ∧ (q'.takeWhile (fun x => x ≠ p)).Sublist (q.takeWhile fun x => x ≠ p)

theorem keepsPlace_erase (p x : PlayerID) (hne : x ≠ p) (q : List PlayerID) :
    KeepsPlace p q (q.erase x) := by
  refine ⟨fun h => (List.mem_erase_of_ne (Ne.symm hne)).mpr h, ?_⟩
  induction q with
  | nil => exact List.Sublist.refl _
  | cons y q ih =>
    by_cases hyx : y = x
    · subst hyx
      simp only [List.erase_cons_head, List.takeWhile_cons, hne, ne_eq, not_false_eq_true,
        decide_true, if_true]
      exact List.sublist_cons_self _ _
    · rw [List.erase_cons_tail (by simpa using hyx)]
      by_cases hyp : y = p
      · simp [hyp]
      · simpa [List.takeWhile_cons, hyp] using ih

/-- The searches of `t` are those of `s` without the entries of `p`. -/
def Unpended (p : PlayerID) (s t : Sys σ) : Prop :=
  ∀ q, t.pending.lookup q = (if q = p then none else s.pending.lookup q) ∧
    t.pendingGT.lookup q = if q = p then none else s.pendingGT.lookup q

/-- How far the `closeOnce` body of a connection of `p` has come since `s`. -/
inductive Closes (p : PlayerID) (s t : Sys σ) : Closer → Prop
  | start (hp : ∀ q, t.pending.lookup q = s.pending.lookup q)
      (hg : ∀ q, t.pendingGT.lookup q = s.pendingGT.lookup q) (hq : t.queues = s.queues) :
      Closes p s t .start
  | dequeue (gameType : String) (hu : Unpended p s t) (hq : t.queues = s.queues) :
      Closes p s t (.dequeue gameType)
  | past (pc : Closer) (hoff : pc ≠ .off) (hstart : pc ≠ .start)
      (hdeq : ∀ gameType, pc ≠ .dequeue gameType) (hu : Unpended p s t)
      (hq : ∀ gameType, t.queues gameType = s.queues gameType ∨
        t.queues gameType = (s.queues gameType).erase p) : Closes p s t pc

theorem Closes.ne_off {p : PlayerID} {s t : Sys σ} {pc : Closer} (h : Closes p s t pc) :
    pc ≠ .off := by
  cases h with
  | start => exact Closer.noConfusion
  | dequeue => exact Closer.noConfusion
  | past _ hoff => exact hoff

/-- A step that touches no search. -/
theorem Closes.frame {p : PlayerID} {s t t' : Sys σ} {pc : Closer} (h : Closes p s t pc)
    (hp : ∀ q, t'.pending.lookup q = t.pending.lookup q ∧
      t'.pendingGT.lookup q = t.pendingGT.lookup q) (hq : t'.queues = t.queues) :
    Closes p s t' pc := by
  have hun : Unpended p s t → Unpended p s t' := by
    intro hu q
    rw [(hp q).1, (hp q).2]
    exact hu q
  cases h with
  | start hp' hg' hq' =>
    exact .start (fun q => (hp q).1.trans (hp' q)) (fun q => (hp q).2.trans (hg' q))
      (hq.trans hq')
  | dequeue gameType hu hq' => exact .dequeue gameType (hun hu) (hq.trans hq')
  | past _ hoff hstart hdeq hu hq' =>
    refine .past pc hoff hstart hdeq (hun hu) ?_
    intro gameType
    rw [hq]
    exact hq' gameType

theorem Closes.at_start {p : PlayerID} {s t : Sys σ} (h : Closes p s t .start) :
    (∀ q, t.pending.lookup q = s.pending.lookup q ∧
      t.pendingGT.lookup q = s.pendingGT.lookup q) ∧ t.queues = s.queues := by
  cases h with
  | start hp hg hq => exact ⟨fun q => ⟨hp q, hg q⟩, hq⟩
  | past _ _ hstart => exact absurd rfl hstart

theorem Closes.at_dequeue {p : PlayerID} {s t : Sys σ} {gameType : String}
    (h : Closes p s t (.dequeue gameType)) : Unpended p s t ∧ t.queues = s.queues := by
  cases h with
  | dequeue _ hu hq => exact ⟨hu, hq⟩
  | past _ _ _ hdeq => exact absurd rfl (hdeq gameType)

/-- After `Dequeue` the body only moves on. -/
theorem Closes.onward {p : PlayerID} {s t : Sys σ} {pc pc' : Closer} (h : Closes p s t pc)
    (hstart : pc ≠ .start) (hdeq : ∀ gameType, pc ≠ .dequeue gameType) (hoff' : pc' ≠ .off)
    (hstart' : pc' ≠ .start) (hdeq' : ∀ gameType, pc' ≠ .dequeue gameType) :
    Closes p s t pc' := by
  cases h with
  | start => exact absurd rfl hstart
  | dequeue gameType => exact absurd rfl (hdeq gameType)
  | past _ _ _ _ hu hq => exact .past pc' hoff' hstart' hdeq' hu hq

theorem Unpended.of_absent {p : PlayerID} {s t : Sys σ} (hp : s.pending.lookup p = none)
    (hg : s.pendingGT.lookup p = none)
    (h : ∀ q, t.pending.lookup q = s.pending.lookup q ∧
      t.pendingGT.lookup q = s.pendingGT.lookup q) : Unpended p s t := by
  intro q
  rw [(h q).1, (h q).2]
  by_cases hqp : q = p
  · rw [if_pos hqp, if_pos hqp, hqp]
    exact ⟨hp, hg⟩
  · rw [if_neg hqp, if_neg hqp]
    exact ⟨rfl, rfl⟩

theorem Closes.own {p : PlayerID} {s t t' : Sys σ} {c : ConnID} {choice : Choice}
    (hS : Searching u s) (hp : (t.conn c).playerID = p) (h : Closes p s t (t.conn c).closer)
    (hm : Move u t (.close c choice) t') : Closes p s t' (t'.conn c).closer := by
  have hentries := move_entries hm
  have hqueues := move_queues hm
  obtain ⟨e, pc, hr, ht'⟩ := hm.close_inv
  have hpc' : (t'.conn c).closer = pc := by
    rw [ht', gotoCloser_closer, if_pos rfl]
  rw [hpc']
  rw [Sys.queueRequest] at hqueues
  simp only [Sys.pendingWrite] at hentries
  generalize (t.conn c).closer = r at h hr hentries hqueues
  -- from here on the body's place decides what was written
  cases hr with
  | searched hn =>
    simp only [removes, hn, Option.isSome_none, Bool.false_eq_true, if_false] at hentries
    obtain ⟨hsame, hq⟩ := (h.frame hentries hqueues).at_start
    rw [hp, (h.at_start.1 p).1] at hn
    exact .past _ Closer.noConfusion Closer.noConfusion (fun _ => Closer.noConfusion)
      (.of_absent hn ((hS.keyed p).mp hn) hsame) (fun gameType => Or.inl (congrFun hq gameType))
  | unpended conn hn =>
    simp only [removes, hn, Option.isSome_some, if_true, Option.map_none, hp] at hentries
    obtain ⟨hsame, hq⟩ := h.at_start
    refine .dequeue _ ?_ (hqueues.trans hq)
    intro q
    rw [(hentries q).1, (hentries q).2, (hsame q).1, (hsame q).2]
    exact ⟨rfl, rfl⟩
  | dequeued gameType =>
    obtain ⟨hu, hq⟩ := h.at_dequeue
    have hq' : t'.queues = Function.update t.queues gameType ((t.queues gameType).erase p) := by
      rw [hqueues, ← hp, ← dequeue_fst]
      rfl
    refine .past _ Closer.noConfusion Closer.noConfusion (fun _ => Closer.noConfusion) ?_ ?_
    · intro q
      rw [(hentries q).1, (hentries q).2]
      exact hu q
    · intro other
      rw [hq', hq]
      by_cases ho : other = gameType
      · subst ho
        exact Or.inr (Function.update_self _ _ _)
      · exact Or.inl (Function.update_of_ne ho _ _)
  | _ =>
    exact (h.frame hentries hqueues).onward Closer.noConfusion (fun _ => Closer.noConfusion)
      Closer.noConfusion Closer.noConfusion (fun _ => Closer.noConfusion)

/-- Another goroutine's step that touches no search. -/
theorem Closes.other {p : PlayerID} {s t t' : Sys σ} {c : ConnID} (hc : c < t.conns)
    (h : Closes p s t (t.conn c).closer) (hl : ∀ choice, l ≠ .close c choice)
    (hq : t.queueRequest l = none) (hp : t.pendingWrite l = none) (hm : Move u t l t') :
    Closes p s t' (t'.conn c).closer := by
  have hentries := move_entries hm
  have hqueues := move_queues hm
  rw [hp] at hentries
  rw [hq] at hqueues
  have hcloser : (t'.conn c).closer = (t.conn c).closer := by
    obtain hcl | ⟨choice, hcl⟩ := busy_closer hm c hc h.ne_off
    · exact hcl
    · exact absurd hcl (hl choice)
  rw [hcloser]
  exact h.frame hentries hqueues

/-- `onConnectionClosed` of `c₁` leaves the search of another connection alone
exactly when it is a connection of another player. -/
theorem close_spares_search_iff (u : Setup σ) (ls : List Label) (s : Sys σ)
    (hr : run u ls = some s) (c₁ c₂ : ConnID) (hstart : (s.conn c₁).closer = .start)
    (hpend : s.pending.lookup (s.conn c₂).playerID = some c₂)
    (ks : List Label) (s' : Sys σ)
    (halone : Meets (step u) (fun t l => closesAlone c₁ t l = true) s ks)
    (hx : exec (step u) s ks = some s') (hdone : (s'.conn c₁).closer = .done) :
    (s'.pending.lookup (s.conn c₂).playerID = some c₂ ∧
      s'.pendingGT.lookup (s.conn c₂).playerID = s.pendingGT.lookup (s.conn c₂).playerID ∧
      ∀ gameType, KeepsPlace (s.conn c₂).playerID (s.queues gameType) (s'.queues gameType)) ↔
    (s.conn c₁).playerID ≠ (s.conn c₂).playerID := by
  obtain ⟨hsound, hS⟩ := run_searching u ls s hr
  have hc : c₁ < s.conns := hsound.known.closing c₁ (by rw [hstart]; exact Closer.noConfusion)
  have hend := exec_invariant (step u) (fun t l => closesAlone c₁ t l = true)
    (fun t => c₁ < t.conns ∧ (t.conn c₁).playerID = (s.conn c₁).playerID ∧
      Closes (s.conn c₁).playerID s t (t.conn c₁).closer)
    (by
      rintro t l t' hl ⟨hct, hpt, hcl⟩ hstep
      have hm := step_move u t t' l hstep
      refine ⟨Nat.lt_of_lt_of_le hct (move_conns_le hm), (move_player hm c₁ hct).trans hpt, ?_⟩
      by_cases hown : ∃ choice, l = .close c₁ choice
      · obtain ⟨choice, rfl⟩ := hown
        exact hcl.own hS hpt hm
      · have hl' : ∀ choice, l ≠ .close c₁ choice := fun choice he => hown ⟨choice, he⟩
        have hfree : t.queueRequest l = none ∧ t.pendingWrite l = none := by
          cases l with
          | close d choice =>
            have hd : d ≠ c₁ := fun hd => hl' choice (by rw [hd])
            simpa [closesAlone, hd] using hl
          | _ => simpa [closesAlone] using hl
        exact hcl.other hct hl' hfree.1 hfree.2 hm)
    s s' ⟨hc, rfl, by rw [hstart]; exact .start (fun _ => rfl) (fun _ => rfl) rfl⟩ ks halone hx
  obtain ⟨-, -, hcl⟩ := hend
  rw [hdone] at hcl
  cases hcl with
  | past _ _ _ _ hu hq =>
    rw [(hu _).1, (hu _).2]
    constructor
    · rintro ⟨hkeep, -⟩ heq
      rw [if_pos heq.symm] at hkeep
      cases hkeep
    · intro hdiff
      rw [if_neg (Ne.symm hdiff), if_neg (Ne.symm hdiff)]
      refine ⟨hpend, rfl, fun gameType => ?_⟩
      obtain h | h := hq gameType
      · rw [h]
        exact ⟨fun hmem => hmem, List.Sublist.refl _⟩
      · rw [h]
        exact keepsPlace_erase _ _ hdiff _

/-! ## A match that fails -/

/-- The goroutine is inside `Enqueue`. -/
def Reader.enqueuing : Reader → Bool
  | .enqueue _ | .create _ _ | .submit (.join _ _ _) | .await (.join _ _ _) _ => true
  | _ => false

/-- The goroutine of `c` is inside `Enqueue`, and nobody else makes a request. -/
def enqueuesAlone (c : ConnID) (s : Sys σ) (l : Label) : Bool :=
  (s.conn c).reader.enqueuing &&
  ((match l with
    | .run d _ => decide (d = c)
    | _ => false) || (s.queueRequest l).isNone)

/-- How far a call of `Enqueue` for a game has come that found `q` in its queue. -/
inductive Enqueues (gameType : String) (q : List PlayerID) (t : Sys σ) : Reader → Prop
  | asking (hq : t.queues gameType = q) : Enqueues gameType q t (.enqueue gameType)
  | creating (players : List PlayerID) (hq : players = [] ∨ t.queues gameType = []) :
      Enqueues gameType q t (.create gameType players)
  | joining (k : Call) (pc : Reader) (hk : ∃ room p rest, k = .join room p rest)
      (hpc : pc = .submit k ∨ ∃ ch, pc = .await k ch) (hq : t.queues gameType = []) :
      Enqueues gameType q t pc
  | failed (e : Err) (hq : t.queues gameType = []) : Enqueues gameType q t (.clearPending e)
  | settled (pc : Reader) (hpc : pc.enqueuing = false) (he : ∀ e, pc ≠ .clearPending e) :
      Enqueues gameType q t pc

theorem Enqueues.frame {gameType : String} {q : List PlayerID} {t t' : Sys σ} {pc : Reader}
    (h : Enqueues gameType q t pc) (hq : t'.queues = t.queues) : Enqueues gameType q t' pc := by
  cases h with
  | asking hq' => exact .asking (by rw [hq, hq'])
  | creating players hq' => exact .creating players (by rwa [hq])
  | joining k _ hk hpc hq' => exact .joining k pc hk hpc (by rw [hq, hq'])
  | failed e hq' => exact .failed e (by rw [hq, hq'])
  | settled _ hpc he => exact .settled pc hpc he

/-- The next Join of `CreateRoom`, or its return. -/
theorem Enqueues.next {gameType : String} {q : List PlayerID} {t : Sys σ} (room : ID)
    (players : List PlayerID) (hq : players = [] ∨ t.queues gameType = []) :
    Enqueues gameType q t (Transport.joining room players) := by
  cases players with
  | nil => exact .settled _ rfl (fun e => Reader.noConfusion)
  | cons p rest =>
    have hq' : t.queues gameType = [] := hq.resolve_left (by simp)
    exact .joining (.join room p rest) _ ⟨room, p, rest, rfl⟩ (Or.inl rfl) hq'

theorem Enqueues.own {gameType : String} {q : List PlayerID} {t t' : Sys σ} {c : ConnID}
    {choice : Choice} (hS : Searching u t) (hnone : u.games gameType = none → q = [])
    (h : Enqueues gameType q t (t.conn c).reader) (hin : (t.conn c).reader.enqueuing = true)
    (hm : Move u t (.run c choice) t') : Enqueues gameType q t' (t'.conn c).reader := by
  have hqueues := move_queues hm
  obtain ⟨e, pc, hr, ht'⟩ := hm.run_inv
  have hpc' : (t'.conn c).reader = pc := by
    rw [ht', goto_reader_self]
  rw [hpc']
  rw [Sys.queueRequest] at hqueues
  generalize (t.conn c).reader = r at h hin hr hqueues
  cases h with
  | failed e hq => cases hin
  | settled _ hpc he =>
    rw [hpc] at hin
    cases hin
  | asking hq =>
    cases hr with
    | unlisted _ hg =>
      have hsame : t'.queues = t.queues := by
        simpa [Reader.request, request, hg] using hqueues
      exact .failed _ (by rw [hsame, hq, hnone hg])
    | queued _ g queue hg hq' => exact .settled _ rfl (fun e => Reader.noConfusion)
    | matched _ g queue players hg hq' =>
      have hnew : t'.queues gameType = queue := by
        simp [hqueues, Reader.request, request, hg, hq']
      refine .creating players ?_
      by_cases hmax : 1 ≤ g.maxPlayers
      · obtain ⟨events, ho⟩ := hS.orderly gameType g hg hmax
        have hempty := enqueue_empties _ _ _ ho (t.conn c).playerID players (by rw [hq'])
        rw [hq'] at hempty
        exact Or.inr (hnew.trans hempty)
      · have hzero : g.maxPlayers = 0 := by omega
        left
        unfold enqueue at hq'
        split at hq'
        · cases hq'
        · simp [hzero] at hq'
          exact hq'.2
  | creating players hq =>
    cases hr with
    | created _ _ id g hg hn =>
      have hsame : t'.queues = t.queues := hqueues
      exact Enqueues.next id players (by rwa [hsame])
  | joining k _ hk hpc hq =>
    obtain ⟨room, p, rest, rfl⟩ := hk
    obtain rfl | ⟨ch, rfl⟩ := hpc
    · have hsame : t'.queues = t.queues := hqueues
      cases hr with
      | submitted _ ha =>
        exact .joining _ _ ⟨room, p, rest, rfl⟩ (Or.inr ⟨_, rfl⟩) (by rw [hsame, hq])
      | refused _ hs => exact .failed _ (by rw [hsame, hq])
    · have hsame : t'.queues = t.queues := hqueues
      cases hr with
      | failed _ _ err hs => exact .failed _ (by rw [hsame, hq])
      | succeeded _ _ res hres he => exact Enqueues.next room rest (Or.inr (by rw [hsame, hq]))

/-- `Enqueue` returns an error with everybody who was in the queue still in it,
in order, exactly when nobody was. -/
theorem failed_match_keeps_queue_iff (u : Setup σ) (ls : List Label) (s : Sys σ)
    (hr : run u ls = some s) (c : ConnID) (gameType : String)
    (hpc : (s.conn c).reader = .enqueue gameType) (ks : List Label) (s' : Sys σ)
    (halone : Meets (step u) (fun t l => enqueuesAlone c t l = true) s ks)
    (hx : exec (step u) s ks = some s') (e : Err)
    (hfail : (s'.conn c).reader = .clearPending e) :
    (s.queues gameType).Sublist (s'.queues gameType) ↔ s.queues gameType = [] := by
  obtain ⟨hsound, hS⟩ := run_searching u ls s hr
  have hc : c < s.conns := hsound.known.busy c (by rw [hpc]; exact Reader.noConfusion)
  have hend := exec_invariant (step u) (fun t l => enqueuesAlone c t l = true)
    (fun t => c < t.conns ∧ Searching u t ∧
      Enqueues gameType (s.queues gameType) t (t.conn c).reader)
    (by
      rintro t l t' hl ⟨hct, hSt, hen⟩ hstep
      have hm := step_move u t t' l hstep
      refine ⟨Nat.lt_of_lt_of_le hct (move_conns_le hm), hSt.move hm, ?_⟩
      obtain ⟨hin, hl⟩ := Bool.and_eq_true_iff.mp hl
      by_cases hown : ∃ choice, l = .run c choice
      · obtain ⟨choice, rfl⟩ := hown
        exact hen.own hSt (hS.unlisted gameType) hin hm
      · have hl' : ∀ choice, l ≠ .run c choice := fun choice he => hown ⟨choice, he⟩
        have hfree : t.queueRequest l = none := by
          cases l with
          | run d choice =>
            have hd : d ≠ c := fun hd => hl' choice (by rw [hd])
            simpa [hd] using hl
          | _ => simpa using hl
        have hreader : (t'.conn c).reader = (t.conn c).reader := by
          have hb : (t.conn c).reader ≠ .idle := fun hidle => by
            rw [hidle] at hin
            cases hin
          obtain h | ⟨choice, h⟩ := busy_reader hm c hct hb
          · exact h
          · exact absurd h (hl' choice)
        have hq := move_queues hm
        rw [hfree] at hq
        rw [hreader]
        exact hen.frame hq)
    s s' ⟨hc, hS, by rw [hpc]; exact .asking rfl⟩ ks halone hx
  obtain ⟨-, -, hen⟩ := hend
  rw [hfail] at hen
  have hempty : s'.queues gameType = [] := by
    cases hen with
    | failed _ hq => exact hq
    | joining k _ hk hpc' hq => exact hq
    | settled _ hpc' he => exact absurd rfl (he e)
  rw [hempty]
  exact List.sublist_nil

end Matching

/-! ## Searches of alice and bob -/

section Scenario
set_option maxRecDepth 100000

def findGame (gameType : String) : Incoming :=
  .message { type := "FIND_MATCH", payload := some (.obj [("gameType", .str gameType)]) }

/-- A new connection `c` with the session asks for a game. -/
def asks (sid : String) (c : ConnID) (gameType : String) : List Label :=
  [.dial sid, .run c .go, .recv c (findGame gameType)]

/-- A new connection asks for a game and is queued for it. -/
def queuesUp (sid : String) (c : ConnID) (gameType : String) : List Label :=
  asks sid c gameType ++ runs c 2

/-- Alice asks for a game nobody knows: nothing is left of it. -/
theorem unknown_search_undone :
    ∃ s s', run aliceAndBob (asks "a" 0 "chess") = some s ∧
      exec (step aliceAndBob) s (runs 0 4) = some s' ∧
      s'.pending = s.pending ∧ s'.pendingGT = s.pendingGT ∧ s'.queues = s.queues := by
  obtain ⟨s, hr, hpc, hn⟩ : ∃ s, run aliceAndBob (asks "a" 0 "chess") = some s ∧
      (s.conn 0).reader = .pend "chess" ∧ s.pending.lookup (s.conn 0).playerID = none :=
    ⟨_, rfl, rfl, rfl⟩
  obtain ⟨s', hx, -, hiff⟩ := unknown_search_undone_iff aliceAndBob _ s hr 0 "chess" hpc rfl
  exact ⟨s, s', hr, hx, hiff.mpr hn⟩

/-- Alice is queued for tic-tac-toe and asks for a game nobody knows: the answer
takes the entry of the first search with it, and alice stays in the queue. -/
theorem unknown_search_forgets_first :
    ((run aliceAndBob (queuesUp "a" 0 "tictactoe" ++ [.recv 0 (findGame "chess")])).any fun s =>
      decide (s.pending.lookup "alice" = some 0) &&
      decide (s.pendingGT.lookup "alice" = some "tictactoe") &&
      decide (s.queues "tictactoe" = ["alice"])) = true ∧
    ((run aliceAndBob (queuesUp "a" 0 "tictactoe" ++ [.recv 0 (findGame "chess")] ++
        runs 0 4)).any fun s =>
      (s.conn 0).isOpen && (s.conn 0).reader.isIdle &&
      decide (s.pending.lookup "alice" = none) && decide (s.pendingGT.lookup "alice" = none) &&
      decide (s.queues "tictactoe" = ["alice"])) = true := by
  decide +kernel

/-- Alice and bob wait for different games, and alice hangs up. -/
def aliceHangsUp : List Label :=
  queuesUp "a" 0 "tictactoe" ++ queuesUp "b" 1 "pingpong" ++ [.hangup 0]

theorem bob_keeps_searching :
    ∃ s s', run aliceAndBob aliceHangsUp = some s ∧
      Meets (step aliceAndBob) (fun t l => closesAlone 0 t l = true) s
        (List.replicate 3 (.close 0 .go)) ∧
      exec (step aliceAndBob) s (List.replicate 3 (.close 0 .go)) = some s' ∧
      s'.pending.lookup "bob" = some 1 ∧ s'.pendingGT.lookup "bob" = some "pingpong" ∧
      KeepsPlace "bob" (s.queues "pingpong") (s'.queues "pingpong") := by
  obtain ⟨s, s', hr, hm, hx, hstart, hdone, hpend, hgt, hp₁, hp₂⟩ :
      ∃ s s', run aliceAndBob aliceHangsUp = some s ∧
        Meets (step aliceAndBob) (fun t l => closesAlone 0 t l = true) s
          (List.replicate 3 (.close 0 .go)) ∧
        exec (step aliceAndBob) s (List.replicate 3 (.close 0 .go)) = some s' ∧
        (s.conn 0).closer = .start ∧ (s'.conn 0).closer = .done ∧
        s.pending.lookup "bob" = some 1 ∧ s.pendingGT.lookup "bob" = some "pingpong" ∧
        (s.conn 0).playerID = "alice" ∧ (s.conn 1).playerID = "bob" :=
    ⟨_, _, rfl, by decide +kernel, rfl, rfl, rfl, rfl, rfl, rfl, rfl⟩
  have hiff := close_spares_search_iff aliceAndBob _ s hr 0 1 hstart (by rw [hp₂, hpend]) _ s' hm
    hx hdone
  rw [hp₁, hp₂, hgt] at hiff
  obtain ⟨hpend', hgt', hkeep⟩ := hiff.mpr (by decide)
  exact ⟨s, s', hr, hm, hx, hpend', hgt', hkeep "pingpong"⟩

/-- Alice has two connections and searches on the second; the first one closes,
and the search is over. -/
theorem old_close_cancels_search :
    ((run aliceAndBob ([.dial "a", .run 0 .go] ++ queuesUp "a" 1 "tictactoe" ++
        [.hangup 0])).any fun s =>
      decide (s.pending.lookup "alice" = some 1) &&
      decide (s.pendingGT.lookup "alice" = some "tictactoe") &&
      decide (s.queues "tictactoe" = ["alice"])) = true ∧
    ((run aliceAndBob ([.dial "a", .run 0 .go] ++ queuesUp "a" 1 "tictactoe" ++ [.hangup 0] ++
        List.replicate 3 (.close 0 .go))).any fun s =>
      (s.conn 1).isOpen && (s.conn 1).reader.isIdle && decide ((s.conn 0).closer = .done) &&
      decide (s.pending.lookup "alice" = none) && decide (s.pendingGT.lookup "alice" = none) &&
      decide (s.queues "tictactoe" = [])) = true := by
  decide +kernel

/-- A search for an unknown game fails in `Enqueue`, where nobody was waiting. -/
theorem unknown_game_keeps_queue :
    ∃ s s', run aliceAndBob (asks "a" 0 "chess" ++ runs 0 1) = some s ∧
      Meets (step aliceAndBob) (fun t l => enqueuesAlone 0 t l = true) s (runs 0 1) ∧
      exec (step aliceAndBob) s (runs 0 1) = some s' ∧
      (s.queues "chess").Sublist (s'.queues "chess") := by
  obtain ⟨s, s', hr, hpc, hm, hx, hfail, hq⟩ :
      ∃ s s', run aliceAndBob (asks "a" 0 "chess" ++ runs 0 1) = some s ∧
        (s.conn 0).reader = .enqueue "chess" ∧
        Meets (step aliceAndBob) (fun t l => enqueuesAlone 0 t l = true) s (runs 0 1) ∧
        exec (step aliceAndBob) s (runs 0 1) = some s' ∧
        (s'.conn 0).reader = .clearPending (.room .unknownGameType) ∧ s.queues "chess" = [] :=
    ⟨_, _, rfl, rfl, by decide +kernel, rfl, rfl, rfl⟩
  exact ⟨s, s', hr, hm, hx, (failed_match_keeps_queue_iff aliceAndBob _ s hr 0 "chess" hpc _ s' hm
    hx _ hfail).mpr hq⟩

/-- Alice is queued, and bob's request is about to look at the queue. -/
def bobArrives : List Label :=
  queuesUp "a" 0 "tictactoe" ++ asks "b" 1 "tictactoe" ++ runs 1 1

/-- `CreateRoom` gives up when the context expires before alice's Join is answered. -/
def joinExpires : List Label := [.run 1 .go, .run 1 (.fresh "r"), .run 1 .go, .run 1 .timeout]

/-- The match fails: bob is told so, and alice, who was queued and still waits
on an open connection, is in no queue. -/
theorem failed_match_loses_alice :
    ((run aliceAndBob bobArrives).any fun s => decide (s.queues "tictactoe" = ["alice"]) &&
      decide (Meets (step aliceAndBob) (fun t l => enqueuesAlone 1 t l = true) s joinExpires)) =
        true ∧
    ((run aliceAndBob (bobArrives ++ joinExpires ++ runs 1 2)).any fun s =>
      (s.conn 0).isOpen && (s.conn 0).reader.isIdle && (s.conn 1).reader.isIdle &&
      decide ((s.conn 1).sent.map (fun env => env.type) = [.error]) &&
      decide (s.queues "tictactoe" = []) && decide (s.pending.lookup "alice" = some 0) &&
      decide ((s.conn 0).room = none)) = true := by
  decide +kernel

end Scenario
end RealtimeEngine.Transport
