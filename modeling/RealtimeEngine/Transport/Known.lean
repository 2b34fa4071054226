import RealtimeEngine.Transport.ActorMoves

/-! Where connections are referred to: waiting in the matchmaker, in the Hub,
in the hands of a goroutine that seats them, or among the targets of a
broadcast, a connection has been accepted, and it is the one of the player it is
filed under. -/
namespace RealtimeEngine.Transport
open Foundations Domain Rooms Storage Matchmaking
set_option autoImplicit false
set_option maxHeartbeats 250000

section Known
variable {σ : Type} {u : Setup σ} {s s' : Sys σ} {l : Label}

/-- The call a goroutine is in. -/
def Reader.call : Reader → Option Call
  | .submit k | .await k _ | .tell _ k _ => some k
  | _ => none

/-- `c` is a connection of `p`. -/
def Plays (s : Sys σ) (p : PlayerID) (c : ConnID) : Prop :=
  c < s.conns ∧ (s.conn c).playerID = p

structure Known (u : Setup σ) (s : Sys σ) : Prop where
  unborn : ∀ c, s.conns ≤ c → s.conn c = {}
  owner : ∀ c, c < s.conns → (s.conn c).playerID = u.owner (s.conn c).sessionID
  pending : ∀ p c, s.pending.lookup p = some c → Plays s p c
  hub : ∀ R p c, s.hub.entry R p = some c → Plays s p c
  call : ∀ d R p c rest, (s.conn d).reader.call = some (.seat R p c rest) → Plays s p c
  targets : ∀ R a env targets, s.actor R = some a → .deliver env targets ∈ a.todo →
    ∀ c ∈ targets, c < s.conns
  note : ∀ d env, (s.conn d).reader = .send env → env.type.versioned = false

theorem Known.fresh (hk : Known u s) : s.conn s.conns = {} := hk.unborn _ (Nat.le_refl _)

/-- Whatever sets a connection apart from a new one shows that it was accepted. -/
theorem Known.born (hk : Known u s) (c : ConnID) (h : s.conn c ≠ {}) : c < s.conns :=
  Nat.lt_of_not_le fun hle => h (hk.unborn c hle)

theorem Known.busy (hk : Known u s) (c : ConnID) (h : (s.conn c).reader ≠ .idle) : c < s.conns :=
  hk.born c fun hc => h (by rw [hc])

theorem Known.closing (hk : Known u s) (c : ConnID) (h : (s.conn c).closer ≠ .off) :
    c < s.conns :=
  hk.born c fun hc => h (by rw [hc])

/-- The connection a call is about belongs to the player it presents. -/
theorem Known.target (hk : Known u s) {d c : ConnID} {k : Call}
    (hr : (s.conn d).reader.call = some k) (ht : k.target d = some c) :
    Plays s (k.player (s.conn d).playerID) c := by
  have hd : d < s.conns := hk.busy d fun hi => by
    rw [hi] at hr
    cases hr
  cases k with
  | resume room =>
    cases ht
    exact ⟨hd, rfl⟩
  | resync room =>
    cases ht
    exact ⟨hd, rfl⟩
  | seat room p conn rest =>
    cases ht
    exact hk.call d room p c rest hr
  | join room p rest => cases ht
  | act room a => cases ht

theorem Plays.move (hm : Move u s l s') {p : PlayerID} {c : ConnID} (h : Plays s p c) :
    Plays s' p c := by
  obtain ⟨hc, hp⟩ := h
  refine ⟨Nat.lt_of_lt_of_le hc (move_conns_le hm), ?_⟩
  obtain h | ⟨sid, -, h⟩ := move_fixed Conn.playerID (fun _ _ _ _ _ _ _ _ => rfl) hm c
  · rw [h, hp]
  · exact absurd h (Nat.ne_of_lt hc)

/-- A connection of a player was one before, or has just been accepted. -/
theorem Plays.back (hm : Move u s l s') {p : PlayerID} {c : ConnID} (h : Plays s' p c) :
    Plays s p c ∨ ∃ sid, l = .dial sid ∧ c = s.conns ∧
      s'.conn c = { playerID := u.owner sid, sessionID := sid, reader := .load } := by
  obtain ⟨hc, hp⟩ := h
  by_cases hcs : c < s.conns
  · left
    obtain h | ⟨sid, -, h⟩ := move_fixed Conn.playerID (fun _ _ _ _ _ _ _ _ => rfl) hm c
    · exact ⟨hcs, h.symm.trans hp⟩
    · exact absurd h (Nat.ne_of_lt hcs)
  · right
    obtain h | ⟨⟨sid, rfl⟩, h⟩ := move_conns hm
    · rw [h] at hc
      exact absurd hc hcs
    · rw [h] at hc
      have hce : c = s.conns := Nat.le_antisymm (Nat.le_of_lt_succ hc) (Nat.le_of_not_lt hcs)
      subst hce
      refine ⟨sid, rfl, rfl, ?_⟩
      rw [hm.dial_inv]
      change (s.setConn s.conns _).conn s.conns = _
      rw [setConn_self]

/-! ## Open connections -/

/-- `Close` was not called. -/
def Conn.isOpen (x : Conn) : Bool := decide (x.closer = .off)

theorem isOpen_iff (x : Conn) : x.isOpen = true ↔ x.closer = .off := decide_eq_true_iff

/-- What is on the channel of a connection stays there. -/
theorem sent_stays (hk : Known u s) (hm : Move u s l s') (c : ConnID) (env : ServerEnvelope)
    (h : env ∈ (s.conn c).sent) : env ∈ (s'.conn c).sent := by
  obtain ⟨hs, -⟩ | ⟨env', given, -, hs, -⟩ := move_sent hm hk.fresh c
  · rwa [hs]
  · rw [hs]
    exact List.mem_append_left _ h

/-- An open connection was open before the move. -/
theorem move_open (hk : Known u s) (hm : Move u s l s') (c : ConnID)
    (h : (s'.conn c).closer = .off) : (s.conn c).closer = .off := by
  obtain hc | ⟨sid, -, rfl, -⟩ | ⟨-, hc⟩ | ⟨choice, e, -, hc⟩ := move_closer hm c
  · exact hc.symm.trans h
  · rw [hk.fresh]
  · rw [hc] at h
    cases h
  · rw [h] at hc
    generalize (s.conn c).closer = pc at hc
    cases hc

theorem move_player (hm : Move u s l s') (d : ConnID) (hd : d < s.conns) :
    (s'.conn d).playerID = (s.conn d).playerID :=
  (Plays.move hm ⟨hd, rfl⟩).2

/-! ## Calls -/

/-- What a message makes the goroutine do first. -/
theorem handleMessage_cases (now : Time) (x : Conn) (m : Incoming) :
    (∃ env, handleMessage now x m = .send env ∧ env.type = .error) ∨
    (∃ gameType, handleMessage now x m = .pend gameType) ∨
    ∃ k, handleMessage now x m = .submit k ∧ x.room = some k.room ∧
      (k = .resync k.room ∨ ∃ a, k = .act k.room a) := by
  cases m with
  | limited => exact Or.inl ⟨_, rfl, rfl⟩
  | malformed text => exact Or.inl ⟨_, rfl, rfl⟩
  | message env =>
    unfold handleMessage
    dsimp only
    split
    · unfold handleFindMatch
      split
      · exact Or.inl ⟨_, rfl, rfl⟩
      · split
        · exact Or.inl ⟨_, rfl, rfl⟩
        · next gameType hg => exact Or.inr (Or.inl ⟨gameType, rfl⟩)
    · split
      · unfold handleResync
        split
        · exact Or.inl ⟨_, rfl, rfl⟩
        · next room hr => exact Or.inr (Or.inr ⟨.resync room, rfl, hr, Or.inl rfl⟩)
      · unfold handleGameAction
        split
        · exact Or.inl ⟨_, rfl, rfl⟩
        · next room hr => exact Or.inr (Or.inr ⟨.act room _, rfl, hr, Or.inr ⟨_, rfl⟩⟩)

/-- A goroutine is at such a place because it was, or because it has just come there. -/
theorem move_enters (hm : Move u s l s') (d : ConnID) (h : (s'.conn d).reader.entered = true) :
    (s'.conn d).reader = (s.conn d).reader ∨
    ∃ choice e, l = .run d choice ∧ s' = (s.apply e).goto d (s'.conn d).reader ∧
      Enters u s d (s.conn d).reader e (s'.conn d).reader := by
  obtain hr | ⟨sid, -, -, hr⟩ | ⟨m, -, -, hr⟩ | ⟨choice, -, rfl, -⟩ := move_reader hm d
  · exact Or.inl hr
  · rw [hr] at h
    cases h
  · rw [hr] at h
    obtain ⟨env, hm, -⟩ | ⟨gameType, hm⟩ | ⟨k, hm, -, hk | ⟨a, hk⟩⟩ := handleMessage_cases s.now
      (s.conn d) m
    · rw [hm] at h
      cases h
    · rw [hm] at h
      cases h
    · rw [hm, hk] at h
      cases h
    · rw [hm, hk] at h
      cases h
  · obtain ⟨e, pc, hstep, rfl⟩ := hm.run_inv
    rw [goto_reader_self] at h ⊢
    exact Or.inr ⟨choice, e, rfl, rfl, hstep.enters h⟩

/-- A goroutine in the middle of something stays there until it moves itself. -/
theorem busy_reader (hm : Move u s l s') (d : ConnID) (hd : d < s.conns)
    (hb : (s.conn d).reader ≠ .idle) :
    (s'.conn d).reader = (s.conn d).reader ∨ ∃ choice, l = .run d choice := by
  obtain h | ⟨sid, -, rfl, -⟩ | ⟨m, -, hidle, -⟩ | ⟨choice, e, hl, -⟩ := move_reader hm d
  · exact Or.inl h
  · exact absurd hd (Nat.lt_irrefl _)
  · exact absurd hidle hb
  · exact Or.inr ⟨choice, hl⟩

/-- So does the body of `Close`. -/
theorem busy_closer (hm : Move u s l s') (c : ConnID) (hc : c < s.conns)
    (hb : (s.conn c).closer ≠ .off) :
    (s'.conn c).closer = (s.conn c).closer ∨ ∃ choice, l = .close c choice := by
  obtain h | ⟨sid, -, rfl, -⟩ | ⟨hoff, -⟩ | ⟨choice, e, hl, -⟩ := move_closer hm c
  · exact Or.inl h
  · exact absurd hc (Nat.lt_irrefl _)
  · exact absurd hoff hb
  · exact Or.inr ⟨choice, hl⟩

/-- A message starts a resync or an action in the connection's own room, or no call at all. -/
theorem handleMessage_call (now : Time) (x : Conn) (m : Incoming) (k : Call)
    (h : (handleMessage now x m).call = some k) :
    handleMessage now x m = .submit k ∧ x.room = some k.room ∧
      (k = .resync k.room ∨ ∃ a, k = .act k.room a) := by
  obtain ⟨env, hm, -⟩ | ⟨gameType, hm⟩ | ⟨k', hm, hk⟩ := handleMessage_cases now x m
  · rw [hm] at h
    cases h
  · rw [hm] at h
    cases h
  · rw [hm] at h
    cases h
    exact ⟨hm, hk⟩

theorem after_call (rest : Option (ID × List PlayerID)) : (Reader.after rest).call = none := by
  cases rest <;> rfl

theorem joining_call (room : ID) (players : List PlayerID) (k : Call)
    (h : (joining room players).call = some k) :
    ∃ p rest, players = p :: rest ∧ k = .join room p rest := by
  cases players with
  | nil => cases h
  | cons p rest =>
    cases h
    exact ⟨p, rest, rfl, rfl⟩

theorem failed_call (now : Time) (e : Err) (k k' : Call)
    (h : (k.failed now e).call = some k') : k' = k := by
  cases k with
  | seat room p conn rest =>
    cases h
    rfl
  | resume room => cases h
  | join room p rest => cases h
  | resync room => cases h
  | act room a => cases h

/-- Where the call of a goroutine comes from. -/
theorem ReaderStep.call_cases {c : ConnID} {pc pc' : Reader} {e : Effect σ} {k : Call}
    (h : ReaderStep u s c pc e pc') (hc : pc'.call = some k) :
    pc.call = some k ∨
    (∃ rec, pc = .get rec ∧ k = .resume rec.roomID) ∨
    (∃ room p rest, k = .join room p rest) ∨
    ∃ room p rest conn, pc = .seat room (p :: rest) ∧ s.pending.lookup p = some conn ∧
      k = .seat room p conn rest := by
  cases h with
  | found rec hl =>
    cases hc
    exact Or.inr (Or.inl ⟨rec, rfl, rfl⟩)
  | submitted k' ha => exact Or.inl hc
  | refused k' hs => exact Or.inl (by rw [failed_call _ _ k' k hc]; rfl)
  | failed k' ch err hs => exact Or.inl (by rw [failed_call _ _ k' k hc]; rfl)
  | succeeded k' ch res hr he =>
    cases k' with
    | resume room => exact Or.inl hc
    | seat room p conn rest => exact Or.inl hc
    | resync room => exact Or.inl hc
    | join room p rest =>
      obtain ⟨q, rest', -, rfl⟩ := joining_call room rest k hc
      exact Or.inr (Or.inr (Or.inl ⟨room, q, rest', rfl⟩))
    | act room a => cases hc
  | setRoom k' answer target ht => exact Or.inl hc
  | registered k' answer target ht => exact Or.inl hc
  | bound k' answer target ht => exact Or.inl hc
  | told k' answer target pc ht hp =>
    rw [hp] at hc
    split at hc
    · rw [after_call] at hc
      cases hc
    · cases hc
  | sent env pc hp =>
    rw [hp] at hc
    split at hc <;> cases hc
  | created gameType players id g hg hn =>
    obtain ⟨q, rest, -, rfl⟩ := joining_call id players k hc
    exact Or.inr (Or.inr (Or.inl ⟨id, q, rest, rfl⟩))
  | popped room p rest conn hp =>
    cases hc
    exact Or.inr (Or.inr (Or.inr ⟨room, p, rest, conn, rfl, hp, rfl⟩))
  | waited target rest hd =>
    rw [after_call] at hc
    cases hc
  | unknown => cases hc
  | loaded rec hr => cases hc
  | missing rec env hv => cases hc
  | pended gameType => cases hc
  | unlisted gameType hg => cases hc
  | queued gameType g queue hg hq => cases hc
  | matched gameType g queue players hg hq => cases hc
  | cleared err => cases hc
  | observed room a ha ht => cases hc
  | unobserved room => cases hc
  | finished room => cases hc
  | skipped room p rest hp => cases hc

/-! ## Every run keeps it -/

/-- The connection whose record an access changes. -/
def Effect.target : Effect σ → Option ConnID
  | .setRoom c _ | .enqueue c _ _ => some c
  | _ => none

theorem apply_other (s : Sys σ) (e : Effect σ) (d : ConnID) (h : e.target ≠ some d) :
    (s.apply e).conn d = s.conn d := by
  cases e with
  | setRoom c room =>
    have hd : d ≠ c := fun hd => h (by rw [hd]; rfl)
    exact Function.update_of_ne hd _ _
  | enqueue c env given =>
    have hd : d ≠ c := fun hd => h (by rw [hd]; rfl)
    change (s.enqueue c env given).conn d = s.conn d
    unfold Sys.enqueue Sys.close Sys.gotoCloser
    dsimp only
    split
    · exact Function.update_of_ne hd _ _
    · split
      · exact Function.update_of_ne hd _ _
      · rfl
  | submit room cmd => exact push_rest s (fun s => s.conn d) room cmd fun _ _ => rfl
  | silent => rfl
  | register room player c => rfl
  | unregister room player c => rfl
  | saveSession sid rec ttl => rfl
  | pend player c gameType => rfl
  | unpend player => rfl
  | setQueue gameType queue => rfl
  | createRoom id gameType game => rfl

theorem ReaderStep.target_born (hk : Known u s) {c t : ConnID} {e : Effect σ} {pc : Reader}
    (h : ReaderStep u s c (s.conn c).reader e pc) (ht : e.target = some t) : t < s.conns := by
  generalize hpc : (s.conn c).reader = r at h
  have hcall : ∀ k stage answer, (s.conn c).reader = .tell stage k answer →
      k.target c = some t → t < s.conns := by
    intro k stage answer hr hkt
    exact (hk.target (by rw [hr]; rfl) hkt).1
  cases h with
  | setRoom k answer target hkt =>
    cases ht
    exact hcall k _ answer hpc hkt
  | told k answer target pc hkt hp =>
    cases ht
    exact hcall k _ answer hpc hkt
  | sent env pc hp =>
    cases ht
    exact hk.busy c fun hi => by
      rw [hi] at hpc
      cases hpc
  | _ => cases ht

theorem Known.unborn_move (hk : Known u s) (hm : Move u s l s') (c : ConnID)
    (hc : s'.conns ≤ c) : s'.conn c = {} := by
  have hsc : s.conns ≤ c := Nat.le_trans (move_conns_le hm) hc
  have hn : s.conn c = {} := hk.unborn c hsc
  have hset : ∀ (t : Sys σ) (d : ConnID) (x : Conn), c ≠ d → t.conn c = {} →
      (t.setConn d x).conn c = {} := by
    intro t d x hd ht
    rw [setConn_conn, if_neg hd, ht]
  have hpump : ∀ d, (s.conn d).pumping = true → c ≠ d := by
    rintro d hp rfl
    rw [hn] at hp
    cases hp
  have hborn : ∀ d, d < s.conns → c ≠ d := fun d hd hcd => absurd hsc (by rw [hcd]; omega)
  cases hm with
  | dial sid =>
    refine hset s s.conns _ ?_ hn
    rintro rfl
    exact absurd hc (Nat.not_succ_le_self _)
  | recv d m hp hi => exact hset s d _ (hpump d hp) hn
  | hangup d hp =>
    unfold Sys.close
    split
    · exact hset s d _ (hpump d hp) hn
    · exact hn
  | pump d hp => exact hset s d _ (hpump d hp) hn
  | run d choice e pc hr =>
    have hd : c ≠ d := by
      rintro rfl
      rw [hn] at hr
      cases hr
    refine hset (s.apply e) d _ hd ?_
    rw [apply_other s e c fun ht => hborn c (hr.target_born hk ht) rfl, hn]
  | close d choice e pc hr =>
    have hd : c ≠ d := by
      rintro rfl
      rw [hn] at hr
      cases hr
    refine hset (s.apply e) d _ hd ?_
    rw [apply_other s e c, hn]
    generalize hpc : (s.conn d).closer = r at hr
    cases hr <;> exact fun h => by cases h
  | act id i a s' ha hact =>
    cases hact with
    | delivered env targets rest todo d ht hd hdo =>
      have hmem : d ∈ targets := List.mem_of_getElem? hd
      have hcd : c ≠ d := hborn d (hk.targets id a env targets ha (by rw [ht]; exact
        List.mem_cons_self) d hmem)
      have h := apply_other (s.setActor id { a with todo := todo }) (.enqueue d env none) c
        fun hcd' => hcd (Option.some.inj hcd').symm
      exact h.trans hn
    | _ => exact hn
  | gc choice e w he =>
    refine (apply_other s e c ?_).trans hn
    obtain rfl | ⟨room, rfl⟩ := he.effect <;> exact fun h => by cases h
  | _ => exact hn

theorem Known.owner_move (hk : Known u s) (hm : Move u s l s') (c : ConnID)
    (hc : c < s'.conns) : (s'.conn c).playerID = u.owner (s'.conn c).sessionID := by
  obtain ⟨hcs, -⟩ | ⟨sid, -, -, hnew⟩ := Plays.back hm (p := (s'.conn c).playerID) ⟨hc, rfl⟩
  · obtain h | ⟨sid, -, h⟩ := move_fixed (fun x => (x.playerID, x.sessionID))
      (fun _ _ _ _ _ _ _ _ => rfl) hm c
    · obtain ⟨hp, hs⟩ := Prod.mk.inj h
      rw [hp, hs]
      exact hk.owner c hcs
    · exact absurd h (Nat.ne_of_lt hcs)
  · rw [hnew]

theorem Known.pending_move (hk : Known u s) (hm : Move u s l s') (p : PlayerID) (c : ConnID)
    (h : s'.pending.lookup p = some c) : Plays s' p c := by
  apply Plays.move hm
  obtain hp | ⟨d, choice, gameType, -, hr, hp⟩ | ⟨q, hp⟩ := move_pending hm
  · rw [hp] at h
    exact hk.pending p c h
  · rw [hp, Table.lookup_insert_ite] at h
    split at h
    · next heq =>
      cases h
      exact ⟨hk.busy c (by rw [hr]; exact Reader.noConfusion), heq.symm⟩
    · exact hk.pending p c h
  · rw [hp, Table.lookup_erase_ite] at h
    split at h
    · cases h
    · exact hk.pending p c h

theorem Known.hub_move (hk : Known u s) (hm : Move u s l s') (R : ID) (p : PlayerID) (c : ConnID)
    (h : s'.hub.entry R p = some c) : Plays s' p c := by
  apply Plays.move hm
  obtain hh | ⟨d, choice, k, answer, target, -, hr, ht, hh⟩ | ⟨d, choice, room, -, -, hh⟩ :=
    move_hub hm
  · rw [hh] at h
    exact hk.hub R p c h
  · rw [hh, Hub.entry_register] at h
    split at h
    · next heq =>
      cases h
      rw [heq.2]
      exact hk.target (by rw [hr]; rfl) ht
    · exact hk.hub R p c h
  · rw [hh] at h
    exact hk.hub R p c (Hub.entry_of_unregister _ _ _ _ _ _ _ h)

theorem Known.call_move (hk : Known u s) (hm : Move u s l s') (d : ConnID) (R : ID) (p : PlayerID)
    (c : ConnID) (rest : List PlayerID)
    (h : (s'.conn d).reader.call = some (.seat R p c rest)) : Plays s' p c := by
  apply Plays.move hm
  obtain hr | ⟨sid, -, -, hr⟩ | ⟨m, -, -, hr⟩ | ⟨choice, e, -, hr⟩ := move_reader hm d
  · rw [hr] at h
    exact hk.call d R p c rest h
  · rw [hr] at h
    cases h
  · rw [hr] at h
    obtain ⟨-, -, hk' | ⟨a, hk'⟩⟩ := handleMessage_call _ _ _ _ h <;> cases hk'
  · obtain hc | ⟨rec, -, hc⟩ | ⟨room, q, rest', hc⟩ | ⟨room, q, rest', conn, -, hp, hc⟩ :=
      hr.call_cases h
    · exact hk.call d R p c rest hc
    · cases hc
    · cases hc
    · cases hc
      exact hk.pending p c hp

theorem Progress.deliver_mem {i : ℕ} {a a' : Actor σ} (hp : Progress s i a a')
    {env : ServerEnvelope} {targets : List ConnID} (h : Op.deliver env targets ∈ a'.todo) :
    (∃ event rest, a.todo = .broadcast event :: rest ∧ env = buildEnvelope s.now event ∧
      targets = Table.values (s.hub.connectionsFor event.roomID)) ∨
    ∃ targets', Op.deliver env targets' ∈ a.todo ∧ ∀ c ∈ targets, c ∈ targets' := by
  have hold : ∀ op rest, a.todo = op :: rest → Op.deliver env targets ∈ rest →
      ∃ targets', Op.deliver env targets' ∈ a.todo ∧ ∀ c ∈ targets, c ∈ targets' := by
    intro op rest ht hmem
    exact ⟨targets, by rw [ht]; exact List.mem_cons_of_mem _ hmem, fun _ hc => hc⟩
  cases hp with
  | broadcast event rest ht =>
    obtain hh | hh := List.mem_cons.mp h
    · cases hh
      exact Or.inl ⟨event, rest, ht, rfl, rfl⟩
    · exact Or.inr (hold _ rest ht hh)
  | completed env' rest ht => exact Or.inr (hold _ rest ht h)
  | delivered env' targets' rest todo c ht hc hd =>
    right
    have hmem : Op.deliver env targets ∈ Op.deliver env' (targets'.eraseIdx i) :: rest := by
      obtain rfl | rfl := hd
      · exact h
      · obtain hh | hh := List.mem_cons.mp h
        · cases hh
        · exact hh
    obtain hh | hh := List.mem_cons.mp hmem
    · cases hh
      exact ⟨targets', by rw [ht]; exact List.mem_cons_self,
        fun d hd => List.mem_of_mem_eraseIdx hd⟩
    · exact hold _ rest ht hh
  | done op rest timers ht hop => exact Or.inr (hold _ rest ht h)

theorem Known.targets_move (hk : Known u s) (hm : Move u s l s') (R : ID) (a' : Actor σ)
    (env : ServerEnvelope) (targets : List ConnID) (ha' : s'.actor R = some a')
    (h : .deliver env targets ∈ a'.todo) : ∀ c ∈ targets, c < s'.conns := by
  intro c hc
  refine Nat.lt_of_lt_of_le ?_ (move_conns_le hm)
  obtain ⟨o, ho, hch⟩ := hm.actor_before ha'
  cases hch with
  | kept => exact hk.targets R a' env targets ho h c hc
  | created c' choice gameType players g hl hr hg => cases h
  | pushed a t timers hp hcn => exact hk.targets R a env targets ho h c hc
  | turned a t rest hl hq ht hop => exact absurd h deliver_not_mem_ofOutput
  | ticked a hl ht hop => exact absurd h deliver_not_mem_ofOutput
  | acted a a' i hl hp =>
    obtain ⟨event, rest, ht, -, rfl⟩ | ⟨targets', hmem, hsub⟩ := hp.deliver_mem h
    · obtain ⟨p, hpc⟩ := (Hub.mem_connectionsFor _ _ _).mp hc
      exact (hk.hub _ p c hpc).1
    · exact hk.targets R a env targets' ho hmem c (hsub c hc)
  | flagged a listed stopped timers => exact hk.targets R a env targets ho h c hc

theorem handleMessage_note (now : Time) (x : Conn) (m : Incoming) (env : ServerEnvelope)
    (h : handleMessage now x m = .send env) : env.type = .error := by
  obtain ⟨env', hm, ht⟩ | ⟨gameType, hm⟩ | ⟨k, hm, -⟩ := handleMessage_cases now x m
  · rw [hm] at h
    cases h
    exact ht
  · rw [hm] at h
    cases h
  · rw [hm] at h
    cases h

theorem failed_error (now : Time) (e : Err) (k : Call) (env : ServerEnvelope)
    (h : k.failed now e = .send env) : env.type = .error := by
  cases k with
  | resume room =>
    cases h
    rfl
  | resync room =>
    cases h
    rfl
  | act room a =>
    cases h
    rfl
  | join room p rest => cases h
  | seat room p conn rest => cases h

/-- A goroutine is about to send an error, or it has just looked at a record. -/
theorem ReaderStep.note_cases {c : ConnID} {pc pc' : Reader} {e : Effect σ} {env : ServerEnvelope}
    (h : ReaderStep u s c pc e pc') (hpc : pc' = .send env) :
    env.type = .error ∨ ∃ rec, pc = .get rec ∧ env.type.versioned = false := by
  cases h with
  | missing rec env' hv =>
    cases hpc
    exact Or.inr ⟨rec, rfl, hv⟩
  | refused k hs => exact Or.inl (failed_error _ _ k env hpc)
  | failed k ch err hs => exact Or.inl (failed_error _ _ k env hpc)
  | cleared err =>
    cases hpc
    exact Or.inl rfl
  | succeeded k ch res hr he =>
    cases k with
    | join room p rest => cases rest <;> cases hpc
    | _ => cases hpc
  | told k answer target pc ht hp =>
    rw [hp] at hpc
    split at hpc
    · generalize k.rest = rest at hpc
      cases rest <;> cases hpc
    · cases hpc
  | sent env' pc hp =>
    rw [hp] at hpc
    split at hpc <;> cases hpc
  | created gameType players id g hg hn => cases players <;> cases hpc
  | waited target rest hd => cases rest <;> cases hpc
  | _ => cases hpc

theorem Known.note_move (hk : Known u s) (hm : Move u s l s') (d : ConnID) (env : ServerEnvelope)
    (h : (s'.conn d).reader = .send env) : env.type.versioned = false := by
  obtain hr | ⟨sid, -, -, hr⟩ | ⟨m, -, -, hr⟩ | ⟨choice, e, -, hr⟩ := move_reader hm d
  · exact hk.note d env (hr.symm.trans h)
  · rw [h] at hr
    cases hr
  · rw [handleMessage_note _ _ _ env (hr.symm.trans h)]
    rfl
  · obtain herr | ⟨rec, -, hv⟩ := hr.note_cases h
    · rw [herr]
      rfl
    · exact hv

theorem Known.move (hk : Known u s) (hm : Move u s l s') : Known u s' where
  unborn := hk.unborn_move hm
  owner := hk.owner_move hm
  pending := hk.pending_move hm
  hub := hk.hub_move hm
  call := hk.call_move hm
  targets := hk.targets_move hm
  note := hk.note_move hm

theorem known_start (u : Setup σ) : Known u ({} : Sys σ) where
  unborn := fun _ _ => rfl
  owner := fun c hc => absurd hc (Nat.not_lt_zero c)
  pending := fun p c h => by cases h
  hub := fun R p c h => by cases h
  call := fun d R p c rest h => by cases h
  targets := fun R a env targets h => by cases h
  note := fun d env h => by cases h

end Known
end RealtimeEngine.Transport
