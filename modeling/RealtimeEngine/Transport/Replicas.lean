import RealtimeEngine.Domain.Following
import RealtimeEngine.Foundations.Replicas
import RealtimeEngine.Transport.Freshness
import RealtimeEngine.Transport.Provenance

/-! A client that keeps its own copy of a room from what is put on its channel.
It takes snapshots as they come unless they are old, applies a diff if it is the
next one, and waits for a snapshot after a gap. Whatever the node does, the copy
is the document of some version of the room, for every client and at every point
of its channel. If no diff was lost and nothing was overtaken, it is the document
of the version the room is at. -/
namespace RealtimeEngine.Transport
open Foundations Domain Rooms Storage Matchmaking
set_option autoImplicit false
set_option maxHeartbeats 250000

section Replicas
variable {σ : Type} {u : Setup σ} {s s' : Sys σ} {l : Label}

/-! ## Messages as updates -/

/-- What a message says about the state of the room; a message without a snapshot
that is not a diff says nothing. -/
def updateOf (R : ID) (env : ServerEnvelope) : Option (Update Json RawMessage) :=
  if env.type.versioned ∧ env.roomID = R then
    if env.type = .event .stateDiff then some (.delta env.serverSeq env.diff)
    else env.snapshot.map (.snapshot env.serverSeq)
  else none

/-- The version and document that a client has who has read these messages. -/
def replica (absorb : Json → RawMessage → Json) (R : ID) (sent : List ServerEnvelope) :
    Option (ℕ × Json) :=
  replicate absorb (sent.filterMap (updateOf R))

/-- `doc` is the snapshot of version `n` in the log. -/
def IsVersion (g : Game σ) (s₀ : Option σ) (log : List (GameCall × Result σ)) (n : ℕ)
    (doc : Json) : Prop :=
  n ≤ log.length ∧ stateBytes g (versionState s₀ log n) = some doc

theorem updateOf_cases {R : ID} {env : ServerEnvelope} {x : Update Json RawMessage}
    (h : updateOf R env = some x) :
    env.type.versioned = true ∧ env.roomID = R ∧
      (env.type = .event .stateDiff ∧ x = .delta env.serverSeq env.diff ∨
        env.type ≠ .event .stateDiff ∧
          ∃ doc, env.snapshot = some doc ∧ x = .snapshot env.serverSeq doc) := by
  unfold updateOf at h
  split at h
  · next hv =>
    refine ⟨hv.1, hv.2, ?_⟩
    split at h
    · next hd =>
      cases h
      exact Or.inl ⟨hd, rfl⟩
    · next hd =>
      obtain ⟨doc, hdoc, rfl⟩ := Option.map_eq_some_iff.mp h
      exact Or.inr ⟨hd, doc, hdoc, rfl⟩
  · cases h

theorem updateOf_version {R : ID} {env : ServerEnvelope} {x : Update Json RawMessage}
    (h : updateOf R env = some x) : versionOf R env = some x.version := by
  obtain ⟨hv, hroom, h⟩ := updateOf_cases h
  rw [versionOf, if_pos ⟨hv, hroom⟩]
  obtain ⟨-, rfl⟩ | ⟨-, doc, -, rfl⟩ := h <;> rfl

/-- A message that agrees with a log of a game is a faithful update. -/
theorem Accords.faithful {g : Game σ} {absorb : Json → RawMessage → Json} {R : ID}
    {players : List PlayerID} {s₀ : Option σ} {log : List (GameCall × Result σ)}
    {env : ServerEnvelope} {x : Update Json RawMessage} (h : Accords g R s₀ log env)
    (hf : Follows g absorb) (hlog : GameLog g players s₀ log) (hx : updateOf R env = some x) :
    Faithful (IsVersion g s₀ log) absorb x := by
  obtain ⟨-, -, ⟨hd, rfl⟩ | ⟨hd, doc, hdoc, rfl⟩⟩ := updateOf_cases hx
  · obtain ⟨k, e, now, he, rfl⟩ := h.diff hd
    rintro m v hn ⟨-, hv⟩
    have hkm : k = m := Nat.succ.inj hn
    subst hkm
    exact ⟨(List.getElem?_eq_some_iff.mp he).1, hf players s₀ log hlog k e he v hv⟩
  · exact h.snapshot hd doc hdoc

/-! ## What a client has is a version of the room -/

theorem Unheard.replica {R : ID} (h : Unheard s R) (absorb : Json → RawMessage → Json)
    (c : ConnID) {sent : List ServerEnvelope} (hsub : ∀ env ∈ sent, env ∈ (s.conn c).sent) :
    replica absorb R sent = none := by
  have hnone : ∀ env ∈ sent, updateOf R env = none := by
    intro env hin
    cases hx : updateOf R env with
    | none => rfl
    | some x =>
      obtain ⟨hv, hroom, hx⟩ := updateOf_cases hx
      obtain ⟨hdiff, hsnap⟩ := h c env (hsub env hin) hv hroom
      obtain ⟨hd, -⟩ | ⟨-, doc, hdoc, -⟩ := hx
      · exact absurd hd hdiff
      · rw [hsnap] at hdoc
        cases hdoc
  rw [Transport.replica, List.filterMap_eq_nil_iff.mpr hnone]
  rfl

theorem Documented.replica {absorb : Json → RawMessage → Json} {R : ID} {a : Actor σ}
    {players : List PlayerID} {s₀ : Option σ} {log : List (GameCall × Result σ)}
    (h : Documented s R a players s₀ log) (hf : Follows a.game absorb) (c : ConnID)
    {sent : List ServerEnvelope} (hsub : ∀ env ∈ sent, env ∈ (s.conn c).sent) {n : ℕ} {doc : Json}
    (hrep : replica absorb R sent = some (n, doc)) : IsVersion a.game s₀ log n doc := by
  refine replicate_faithful ?_ hrep
  intro x hx
  obtain ⟨env, hin, hx⟩ := List.mem_filterMap.mp hx
  obtain ⟨hv, hroom, -⟩ := updateOf_cases hx
  exact (h.accords c env (hsub env hin) hv hroom).faithful hf h.played hx

/-- **Every copy is a version of the room.** In every run of a node with the
registered games, of any length and interleaving, for every room, every channel
and every point of it: a client that follows the room from the channel has
nothing, or has exactly the document that a snapshot of the room was at the
version it believes to have. The versions of all clients are those of one log of
the game, which the room itself is at the end of. -/
theorem replicas_show_versions (u : Setup GameState) (hu : u.games = registry) (ls : List Label)
    (s : Sys GameState) (hr : run u ls = some s) (R : ID) (a : Actor GameState)
    (ha : s.actor R = some a) :
    (a.room.state = none ∧
      ∀ c m, replica (absorbOf a.room.gameType) R ((s.conn c).sent.take m) = none) ∨
    ∃ players s₀ log, GameLog a.game players s₀ log ∧
      a.room.state = stateAfter Result.newState s₀ log ∧ a.room.serverSeq = log.length ∧
      ∀ c m n doc, replica (absorbOf a.room.gameType) R ((s.conn c).sent.take m) = some (n, doc) →
        IsVersion a.game s₀ log n doc := by
  obtain ⟨hgame, ⟨hstate, hquiet⟩ | ⟨players, s₀, log, h⟩⟩ :=
    (run_explained u ls s hr).documented ha
  · exact Or.inl ⟨hstate, fun c m => hquiet.replica _ c fun env hin => List.mem_of_mem_take hin⟩
  · rw [hu] at hgame
    have hf := registry_follows _ _ hgame
    refine Or.inr ⟨players, s₀, log, h.played, h.state, h.seq, fun c m n doc hrep => ?_⟩
    exact h.replica hf c (fun env hin => List.mem_of_mem_take hin) hrep

/-! ## When a client has the last version -/

/-- No diff misses a subscriber at this step, and no message overtakes an older answer. -/
def orderly (s : Sys σ) (l : Label) : Bool := reachesSubscribers s l && overtakesNone s l

theorem Fresh.updates (hF : Fresh s) (R : ID) (c : ConnID) :
    ((s.conn c).sent.filterMap (updateOf R)).Pairwise fun x y => x.version ≤ y.version := by
  have hsorted := hF.sorted R c
  rw [versions, List.pairwise_filterMap] at hsorted
  rw [List.pairwise_filterMap]
  refine hsorted.imp ?_
  intro env env' h x hx x' hx'
  exact h _ (updateOf_version hx) _ (updateOf_version hx')

/-- With nothing left to do for the room, its diffs after the first snapshot are on the channel. -/
theorem Delivered.deltas (hD : Delivered s) {R : ID} {c : ConnID} {v : ℕ} {a : Actor σ}
    (hg : (R, v) ∈ (s.conn c).given) (ho : (s.conn c).isOpen = true) (ha : s.actor R = some a)
    (hq : a.todo = []) (n : ℕ) (hv : v < n) (hn : n ≤ a.room.serverSeq) :
    ∃ diff, .delta n diff ∈ (s.conn c).sent.filterMap (updateOf R) := by
  obtain ⟨b, hb, hreach⟩ := hD.reached R c v (Or.inl hg) ((isOpen_iff _).mp ho)
  rw [ha] at hb
  cases hb
  obtain ⟨op, hop, -⟩ | ⟨env, hin, htype, hroom, rfl⟩ := hreach n hv hn
  · rw [hq] at hop
    cases hop
  · refine ⟨env.diff, List.mem_filterMap.mpr ⟨env, hin, ?_⟩⟩
    have hversioned : env.type.versioned = true := by
      rw [htype]
      rfl
    rw [updateOf, if_pos ⟨hversioned, hroom⟩, if_pos htype]

/-- **A client that lost nothing is up to date.** In every run of a node with the
registered games in which each diff is broadcast while all open subscribers are in
the Hub and no state message overtakes an older answer: when a room has nothing
left to send, an open connection that was given a first snapshot of it, with a
document, has the current version and exactly the document that a snapshot of the
room would be now. -/
theorem replica_catches_up (u : Setup GameState) (hu : u.games = registry) (ls : List Label)
    (s : Sys GameState) (hc : Meets (step u) (fun s l => orderly s l = true) {} ls)
    (hr : run u ls = some s) (R : ID) (a : Actor GameState) (ha : s.actor R = some a)
    (hq : a.todo = []) (c : ConnID) (ho : (s.conn c).isOpen = true) (env : ServerEnvelope)
    (henv : env ∈ (s.conn c).sent) (v : ℕ) (first : Json)
    (hfirst : updateOf R env = some (.snapshot v first)) (hg : (R, v) ∈ (s.conn c).given) :
    ∃ doc, replica (absorbOf a.room.gameType) R (s.conn c).sent = some (a.room.serverSeq, doc) ∧
      snapshotBytes a.game a.room = some doc := by
  obtain ⟨-, hD, hF⟩ := run_invariant (fun s l => orderly s l = true)
    (fun t => Delivered t ∧ Fresh t)
    (fun s l s' hl hS h hm =>
      ⟨h.1.move hS hm (Bool.and_eq_true_iff.mp hl).1,
        h.2.move hS hm (Bool.and_eq_true_iff.mp hl).2⟩)
    ⟨delivered_start, fresh_start⟩ ls s hc hr
  have hin : .snapshot v first ∈ (s.conn c).sent.filterMap (updateOf R) :=
    List.mem_filterMap.mpr ⟨env, henv, hfirst⟩
  have hle : v ≤ a.room.serverSeq := by
    have hv : v ∈ versions s R c := List.mem_filterMap.mpr ⟨env, henv, updateOf_version hfirst⟩
    obtain ⟨b, hb, hle⟩ := hF.bounded R c v (Or.inl hv)
    rw [ha] at hb
    cases hb
    exact hle
  obtain ⟨⟨n, doc⟩, hrep, hn⟩ := replicate_reaches (absorbOf a.room.gameType) (hF.updates R c) hin
    hle (hD.deltas hg ho ha hq)
  obtain ⟨hgame, ⟨-, hquiet⟩ | ⟨players, s₀, log, h⟩⟩ :=
    (run_explained u ls s hr).documented ha
  · have hnone := hquiet.replica (absorbOf a.room.gameType) c fun env hin => hin
    rw [replica, hrep] at hnone
    cases hnone
  · rw [hu] at hgame
    obtain ⟨hbound, hbytes⟩ := h.replica (registry_follows _ _ hgame) c (fun env hin => hin) hrep
    have hlast : n = a.room.serverSeq := by
      change a.room.serverSeq ≤ n at hn
      rw [← h.seq] at hbound
      omega
    subst hlast
    refine ⟨doc, hrep, ?_⟩
    rw [snapshotBytes_eq, h.state, ← versionState_length, ← h.seq]
    exact hbytes

end Replicas

/-! ## The first move of a match -/

section Scenario
set_option maxRecDepth 100000

/-- Bob has a copy of version 1 once alice has moved. -/
theorem bob_has_version : ∃ s a n doc,
    run aliceAndBob (seated ++ plays 0 0 0 1 5) = some s ∧ s.actor "r" = some a ∧
    replica (absorbOf a.room.gameType) "r" (s.conn 1).sent = some (n, doc) ∧ n = 1 ∧
    ∃ players s₀ log, GameLog a.game players s₀ log ∧ IsVersion a.game s₀ log n doc := by
  obtain ⟨s, a, hr, ha, h⟩ := firstMove_ends (fun s a => decide
    ((replica (absorbOf a.room.gameType) "r" (s.conn 1).sent).map Prod.fst = some 1))
    (by decide +kernel)
  obtain ⟨⟨n, doc⟩, hrep, hn⟩ := Option.map_eq_some_iff.mp (of_decide_eq_true h)
  have htake : (s.conn 1).sent.take (s.conn 1).sent.length = (s.conn 1).sent := List.take_length
  obtain ⟨-, hnone⟩ | ⟨players, s₀, log, hlog, -, -, hall⟩ :=
    replicas_show_versions aliceAndBob rfl _ s hr "r" a ha
  · have hcopy := hnone 1 (s.conn 1).sent.length
    rw [htake, hrep] at hcopy
    cases hcopy
  · have hversion := hall 1 (s.conn 1).sent.length n doc
    rw [htake] at hversion
    exact ⟨s, a, n, doc, hr, ha, hrep, hn, players, s₀, log, hlog,
      hversion hrep⟩

def firstSnapshot (env : ServerEnvelope) : Bool :=
  match updateOf "r" env with
  | some (.snapshot 0 _) => true
  | _ => false

/-- Bob's copy is what a snapshot of the room is. -/
theorem bob_catches_up :
    Meets (step aliceAndBob) (fun s l => orderly s l = true) {} (seated ++ plays 0 0 0 1 5) ∧
    ∃ s a doc, run aliceAndBob (seated ++ plays 0 0 0 1 5) = some s ∧ s.actor "r" = some a ∧
      a.room.serverSeq = 1 ∧
      replica (absorbOf a.room.gameType) "r" (s.conn 1).sent = some (a.room.serverSeq, doc) ∧
      snapshotBytes a.game a.room = some doc := by
  have hc : Meets (step aliceAndBob) (fun s l => orderly s l = true) {}
      (seated ++ plays 0 0 0 1 5) := by decide +kernel
  obtain ⟨s, a, hr, ha, h⟩ := firstMove_ends (fun s a =>
    decide (a.room.serverSeq = 1) && a.todo.isEmpty && (s.conn 1).isOpen &&
    decide (("r", 0) ∈ (s.conn 1).given) && (s.conn 1).sent.any firstSnapshot) (by decide +kernel)
  simp only [Bool.and_eq_true, decide_eq_true_eq, List.isEmpty_iff, List.any_eq_true] at h
  obtain ⟨⟨⟨⟨hseq, hq⟩, ho⟩, hg⟩, env, henv, hfirst⟩ := h
  unfold firstSnapshot at hfirst
  split at hfirst
  · next first hup =>
    obtain ⟨doc, hrep, hbytes⟩ := replica_catches_up aliceAndBob rfl _ s hc hr "r" a ha hq 1 ho env
      henv 0 first hup hg
    exact ⟨hc, s, a, doc, hr, ha, hseq, hrep, hbytes⟩
  · cases hfirst

end Scenario
end RealtimeEngine.Transport
