import RealtimeEngine.Transport.Matching

/-! Whether everybody in a matchmaking queue is recorded in `pending` as
searching for that game, on an open connection. A player has one entry in
`pending` but may be in several queues, and the entry is made before `Enqueue`
and deleted before `Dequeue`. The two agree as long as requests of one player do
not overlap and ask for one game at a time. -/
namespace RealtimeEngine.Transport
open Foundations Domain Rooms Storage Matchmaking
set_option autoImplicit false
set_option maxHeartbeats 250000

section Searches
variable {σ : Type} {u : Setup σ} {s s' : Sys σ} {l : Label}

/-- No connection is inside a handler or a `Close`. -/
def Sys.resting (s : Sys σ) : Bool :=
  (List.range s.conns).all fun c => (s.conn c).reader.isIdle &&
    ((s.conn c).isOpen || decide ((s.conn c).closer = .done))

/-- A request of the player has recorded its search and not yet called `Enqueue`. -/
def Sys.asking (s : Sys σ) (p : PlayerID) : Bool :=
  (List.range s.conns).any fun c =>
    decide ((s.conn c).playerID = p) && ((s.conn c).reader.request p).isSome

/-- The player is in no queue that the entry speaks of, nor about to be. -/
def Sys.unqueued (s : Sys σ) (p : PlayerID) : Bool :=
  (s.pendingGT.lookup p).all (fun gameType => decide (p ∉ s.queues gameType)) && !s.asking p

/-- A search is recorded on an open connection and over none for another game,
and an entry is deleted while no request of the player is under way; after an
error and when the player is seated, also not while the player is queued. -/
def keepsSearches (s : Sys σ) : Label → Bool
  | .run c _ =>
    match (s.conn c).reader with
    | .pend gameType =>
      (s.conn c).isOpen &&
        (s.pendingGT.lookup (s.conn c).playerID).all (fun g => decide (g = gameType))
    | .clearPending _ => s.unqueued (s.conn c).playerID
    | .seat _ (p :: _) => s.unqueued p
    | _ => true
  | .close c _ =>
    match (s.conn c).closer with
    | .start => !s.asking (s.conn c).playerID
    | _ => true
  | _ => true

/-- The player's search for the game is recorded, on a connection whose `Close`
has not looked at it yet. -/
def Recorded (s : Sys σ) (p : PlayerID) (gameType : String) : Prop :=
  ∃ c, s.pending.lookup p = some c ∧ s.pendingGT.lookup p = some gameType ∧
    ((s.conn c).closer = .off ∨ (s.conn c).closer = .start)

structure Accounted (s : Sys σ) : Prop where
  queued : ∀ p gameType, p ∈ s.queues gameType → Recorded s p gameType ∨
    ∃ c, c < s.conns ∧ (s.conn c).playerID = p ∧ (s.conn c).closer = .dequeue gameType
  asking : ∀ c gameType, (s.conn c).reader = .enqueue gameType →
    Recorded s (s.conn c).playerID gameType

/-! ## Entries -/

theorem asking_of_reader (hk : Known u s) (c : ConnID) (gameType : String)
    (hr : (s.conn c).reader = .enqueue gameType) : s.asking (s.conn c).playerID = true := by
  have hc : c < s.conns := hk.busy c (by rw [hr]; exact Reader.noConfusion)
  exact List.any_eq_true.mpr ⟨c, List.mem_range.mpr hc, by simp [hr, Reader.request]⟩

/-- A recorded search stays recorded until a step writes the player's entry. -/
theorem Recorded.move (hk : Known u s) (hm : Move u s l s') (p : PlayerID) (gameType : String)
    (h : Recorded s p gameType) :
    Recorded s' p gameType ∨ ∃ entry, s.pendingWrite l = some (p, entry) := by
  obtain ⟨c, hp, hg, hc⟩ := h
  by_cases hw : ∃ entry, s.pendingWrite l = some (p, entry)
  · exact Or.inr hw
  left
  have hsame : s'.pending.lookup p = s.pending.lookup p ∧
      s'.pendingGT.lookup p = s.pendingGT.lookup p := by
    have hent := move_entries hm p
    cases hwrite : s.pendingWrite l with
    | none =>
      rw [hwrite] at hent
      exact hent
    | some w =>
      obtain ⟨q, entry⟩ := w
      have hpq : p ≠ q := fun heq => hw ⟨entry, by rw [hwrite, heq]⟩
      rw [hwrite] at hent
      simpa only [if_neg hpq] using hent
  obtain ⟨hborn, hplayer⟩ := hk.pending p c hp
  refine ⟨c, hsame.1.trans hp, hsame.2.trans hg, ?_⟩
  obtain hcl | ⟨sid, -, rfl, -⟩ | ⟨-, hcl⟩ | ⟨choice, e, rfl, hstep⟩ := move_closer hm c
  · rw [hcl]
    exact hc
  · exact absurd hborn (Nat.lt_irrefl _)
  · exact Or.inr hcl
  · -- the connection's own `Close` would find the entry
    obtain hc | hc := hc
    · rw [hc] at hstep
      cases hstep
    · subst hplayer
      exact absurd ⟨none, by simp [Sys.pendingWrite, hc, removes, hp]⟩ hw

/-- A request on an open connection records its search. -/
theorem recorded_pend {c : ConnID} {choice : Choice} {gameType : String}
    (hm : Move u s (.run c choice) s') (hr : (s.conn c).reader = .pend gameType)
    (ho : (s.conn c).closer = .off) : Recorded s' (s.conn c).playerID gameType := by
  obtain ⟨hp, hg⟩ := move_entries hm (s.conn c).playerID
  simp only [Sys.pendingWrite, hr, if_true, Option.map_some] at hp hg
  refine ⟨c, hp, hg, ?_⟩
  obtain hcl | ⟨sid, hl, -⟩ | ⟨-, hcl⟩ | ⟨choice', e, hl, -⟩ := move_closer hm c
  · exact Or.inl (hcl.trans ho)
  · cases hl
  · exact Or.inr hcl
  · cases hl

theorem removes_some {p q : PlayerID} {entry : Option (ConnID × String)}
    (h : removes s q = some (p, entry)) : q = p := by
  unfold removes at h
  split at h
  · cases h
    rfl
  · cases h

/-- What becomes of a recorded search that a step writes over. -/
theorem Recorded.written (hm : Move u s l s') (hl : keepsSearches s l = true) (p : PlayerID)
    (gameType : String) (entry : Option (ConnID × String)) (h : Recorded s p gameType)
    (hw : s.pendingWrite l = some (p, entry)) :
    Recorded s' p gameType ∨ s.unqueued p = true ∨
    s.asking p = false ∧ ∃ c choice, l = .close c choice ∧ (s.conn c).closer = .start ∧
      (s.conn c).playerID = p := by
  obtain ⟨d, hp, hg, -⟩ := h
  cases l with
  | run c choice =>
    simp only [Sys.pendingWrite] at hw
    simp only [keepsSearches] at hl
    split at hw
    next gt hr =>
      simp only [hr, Bool.and_eq_true] at hl
      obtain ⟨ho, hgt⟩ := hl
      cases hw
      rw [hg] at hgt
      have hgt' : gameType = gt := by simpa using hgt
      rw [hgt']
      exact Or.inl (recorded_pend hm hr ((isOpen_iff _).mp ho))
    next err hr =>
      simp only [hr] at hl
      cases hw
      exact Or.inr (Or.inl hl)
    next room q rest hr =>
      simp only [hr] at hl
      rw [← removes_some hw]
      exact Or.inr (Or.inl hl)
    next => cases hw
  | close c choice =>
    simp only [Sys.pendingWrite] at hw
    simp only [keepsSearches] at hl
    split at hw
    next hc =>
      have hplayer := removes_some hw
      simp only [hc, hplayer, Bool.not_eq_true'] at hl
      exact Or.inr (Or.inr ⟨hl, c, choice, rfl, hc, hplayer⟩)
    next => cases hw
  | _ => cases hw

/-! ## The invariant -/

theorem Accounted.asking_move (hA : Accounted s) (hk : Known u s) (hm : Move u s l s')
    (hl : keepsSearches s l = true) (c : ConnID) (gameType : String)
    (hr' : (s'.conn c).reader = .enqueue gameType) :
    Recorded s' (s'.conn c).playerID gameType := by
  obtain hr | ⟨choice, e, rfl, -, hent⟩ := move_enters hm c (by rw [hr']; rfl)
  · rw [hr] at hr'
    have hc : c < s.conns := hk.busy c (by rw [hr']; exact Reader.noConfusion)
    have hask := asking_of_reader hk c gameType hr'
    rw [move_player hm c hc]
    have hrec := hA.asking c gameType hr'
    obtain h | ⟨entry, hw⟩ := hrec.move hk hm
    · exact h
    · obtain h | hun | ⟨hno, -⟩ := hrec.written hm hl _ _ entry hw
      · exact h
      · simp [Sys.unqueued, hask] at hun
      · rw [hask] at hno
        cases hno
  · rw [hr'] at hent
    generalize hpend : (s.conn c).reader = pc at hent
    cases hent with
    | pended =>
      have hc : c < s.conns := hk.busy c (by rw [hpend]; exact Reader.noConfusion)
      simp only [keepsSearches, hpend, Bool.and_eq_true] at hl
      rw [move_player hm c hc]
      exact recorded_pend hm hpend ((isOpen_iff _).mp hl.1)

/-- `Close` takes the search it finds recorded to `Dequeue`. -/
theorem Recorded.closed {c : ConnID} {choice : Choice} (hm : Move u s (.close c choice) s')
    (hst : (s.conn c).closer = .start) (gameType : String)
    (h : Recorded s (s.conn c).playerID gameType) :
    (s'.conn c).closer = .dequeue gameType := by
  obtain ⟨d, hp, hg, -⟩ := h
  obtain ⟨e, hstep⟩ := close_step hm
  rw [hst] at hstep
  generalize hpc : (s'.conn c).closer = pc at hstep
  cases hstep with
  | searched hnone =>
    rw [hp] at hnone
    cases hnone
  | unpended conn hsome => simp [hg]

/-- Nobody is left in a queue that `Close` has taken them from. -/
theorem dequeued_absent {c : ConnID} {choice : Choice} (hS : Searching u s)
    (hm : Move u s (.close c choice) s') (gameType : String)
    (hdq : (s.conn c).closer = .dequeue gameType) :
    (s.conn c).playerID ∉ s'.queues gameType := by
  have hq := move_queues hm
  simp only [Sys.queueRequest, hdq, Closer.request] at hq
  rw [hq, request_dequeue]
  exact (hS.nodup gameType).not_mem_erase

theorem Accounted.queued_move (hA : Accounted s) (hk : Known u s) (hS : Searching u s)
    (hm : Move u s l s') (hl : keepsSearches s l = true) (p : PlayerID) (gameType : String)
    (hp : p ∈ s'.queues gameType) :
    Recorded s' p gameType ∨
    ∃ c, c < s'.conns ∧ (s'.conn c).playerID = p ∧ (s'.conn c).closer = .dequeue gameType := by
  obtain hold | ⟨c, choice, rfl, hr, rfl⟩ := queued_back hm p gameType hp
  · obtain hrec | ⟨c, hc, hplayer, hdq⟩ := hA.queued p gameType hold
    · obtain h | ⟨entry, hw⟩ := hrec.move hk hm
      · exact Or.inl h
      · obtain h | hun | ⟨-, c, choice, rfl, hst, hplayer⟩ := hrec.written hm hl _ _ entry hw
        · exact Or.inl h
        · obtain ⟨d, -, hg, -⟩ := hrec
          simp [Sys.unqueued, hg, hold] at hun
        · subst hplayer
          have hc : c < s.conns := hk.closing c (by rw [hst]; exact Closer.noConfusion)
          exact Or.inr ⟨c, Nat.lt_of_lt_of_le hc (move_conns_le hm), move_player hm c hc,
            hrec.closed hm hst⟩
    · subst hplayer
      have hborn := Nat.lt_of_lt_of_le hc (move_conns_le hm)
      have hplayer := move_player hm c hc
      obtain hcl | ⟨choice, rfl⟩ := busy_closer hm c hc (by rw [hdq]; exact Closer.noConfusion)
      · exact Or.inr ⟨c, hborn, hplayer, hcl.trans hdq⟩
      · exact absurd hp (dequeued_absent hS hm gameType hdq)
  · have hrec := hA.asking c gameType hr
    obtain h | ⟨entry, hw⟩ := hrec.move hk hm
    · exact Or.inl h
    · simp [Sys.pendingWrite, hr] at hw

theorem Accounted.move (hA : Accounted s) (hk : Known u s) (hS : Searching u s)
    (hm : Move u s l s') (hl : keepsSearches s l = true) : Accounted s' where
  queued := hA.queued_move hk hS hm hl
  asking := hA.asking_move hk hm hl

theorem run_accounted (u : Setup σ) (ls : List Label) (s : Sys σ)
    (hc : Meets (step u) (fun t l => keepsSearches t l = true) {} ls) (hr : run u ls = some s) :
    Sound u s ∧ Searching u s ∧ Accounted s := by
  refine run_invariant (fun t l => keepsSearches t l = true)
    (fun t => Searching u t ∧ Accounted t) ?_ ⟨?_, ?_⟩ ls s hc hr
  · intro t l t' hl hs h hm
    exact ⟨h.1.move hm, h.2.move hs.known h.1 hm hl⟩
  · exact (run_searching u [] {} rfl).2
  · exact ⟨fun p gameType hp => absurd hp List.not_mem_nil,
      fun c gameType hr => Reader.noConfusion hr⟩

theorem resting_conn (hs : s.resting = true) (c : ConnID) (hc : c < s.conns) :
    (s.conn c).reader = .idle ∧ ((s.conn c).closer = .off ∨ (s.conn c).closer = .done) := by
  have h := List.all_eq_true.mp hs c (List.mem_range.mpr hc)
  rw [Bool.and_eq_true, Bool.or_eq_true, isOpen_iff, decide_eq_true_iff] at h
  obtain ⟨hidle, hcl⟩ := h
  refine ⟨?_, hcl⟩
  generalize (s.conn c).reader = r at hidle
  cases r with
  | idle => rfl
  | _ => cases hidle

/-- In a run that keeps its searches, whoever waits in a queue while no handler
is in progress is recorded as searching for that game on an open connection. -/
theorem queued_players_recorded (u : Setup σ) (ls : List Label) (s : Sys σ)
    (hc : Meets (step u) (fun t l => keepsSearches t l = true) {} ls) (hr : run u ls = some s)
    (hrest : s.resting = true) (p : PlayerID) (gameType : String)
    (hp : p ∈ s.queues gameType) :
    ∃ c, s.pending.lookup p = some c ∧ (s.conn c).isOpen = true ∧
      s.pendingGT.lookup p = some gameType := by
  obtain ⟨hs, -, hA⟩ := run_accounted u ls s hc hr
  obtain ⟨c, hpend, hg, hcl⟩ | ⟨c, hborn, -, hdq⟩ := hA.queued p gameType hp
  · have hborn := (hs.known.pending p c hpend).1
    refine ⟨c, hpend, (isOpen_iff _).mpr ?_, hg⟩
    obtain h | h := (resting_conn hrest c hborn).2
    · exact h
    · rw [h] at hcl
      obtain h | h := hcl <;> cases h
  · obtain h | h := (resting_conn hrest c hborn).2
    · rw [h] at hdq
      cases hdq
    · rw [h] at hdq
      cases hdq

end Searches

/-! ## Two searches at once -/

section Scenario
set_option maxRecDepth 100000

/-- Alice and bob wait for different games. -/
def twoSearches : List Label := queuesUp "a" 0 "tictactoe" ++ queuesUp "b" 1 "pingpong"

theorem twoSearches_recorded :
    ∃ s, run aliceAndBob twoSearches = some s ∧ s.queues "tictactoe" = ["alice"] ∧
      ∃ c, s.pending.lookup "alice" = some c ∧ (s.conn c).isOpen = true ∧
        s.pendingGT.lookup "alice" = some "tictactoe" := by
  obtain ⟨s, hr, hm, hrest, hq⟩ : ∃ s, run aliceAndBob twoSearches = some s ∧
      Meets (step aliceAndBob) (fun t l => keepsSearches t l = true) {} twoSearches ∧
      s.resting = true ∧ s.queues "tictactoe" = ["alice"] :=
    ⟨_, rfl, by decide +kernel, rfl, rfl⟩
  have hmem : "alice" ∈ s.queues "tictactoe" := by
    rw [hq]
    exact List.mem_singleton.mpr rfl
  exact ⟨s, hr, hq, queued_players_recorded _ _ s hm hr hrest "alice" "tictactoe" hmem⟩

/-- Alice asks for one game, then for another, and hangs up: `Close` dequeues the
second search only. -/
def searchesTwice : List Label :=
  queuesUp "a" 0 "tictactoe" ++ [.recv 0 (findGame "pingpong")] ++ runs 0 2 ++ [.hangup 0] ++
    List.replicate 3 (.close 0 .go)

/-- The closed alice is still in the queue for the first game, and bob is matched
with them. -/
theorem closed_player_stays_queued :
    ((run aliceAndBob searchesTwice).any fun s => s.resting &&
      decide (s.queues "tictactoe" = ["alice"]) && decide (s.pending.lookup "alice" = none) &&
      decide ((s.conn 0).closer = .done) && decide (s.conns = 1)) = true ∧
    ((run aliceAndBob (searchesTwice ++ queuesUp "b" 1 "tictactoe")).any fun s =>
      match (s.conn 1).reader with
      | .create gameType players =>
        decide (gameType = "tictactoe") && decide (players = ["alice", "bob"])
      | _ => false) = true := by
  decide +kernel

end Scenario
end RealtimeEngine.Transport
