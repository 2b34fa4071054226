import RealtimeEngine.Domain.Duel
import RealtimeEngine.Foundations.Lines
import RealtimeEngine.Foundations.Runs
import RealtimeEngine.Matchmaking.Queue

/-! The matchmaker with its join queue for each game type (`matchmaker.go`).
Whatever goroutines call `Enqueue` and `Dequeue`, the mutex puts what they do to
the queues in a sequence of requests. The outputs of a request are the events of
the waiting line it works on. -/
namespace RealtimeEngine.Matchmaking
open Foundations Domain
set_option autoImplicit false
set_option maxHeartbeats 250000

abbrev Queues := String → List PlayerID

inductive Request
  | enqueue (gameType : String) (player : PlayerID)
  | dequeue (gameType : String) (player : PlayerID)
  deriving DecidableEq

def Request.gameType : Request → String
  | enqueue gameType _ | dequeue gameType _ => gameType

/-- A player who is already queued is ignored; a group is served to `CreateRoom`. -/
def enqueueEvents (q : List PlayerID) (player : PlayerID) (matched : Option (List PlayerID)) :
    List (Line.Event PlayerID) :=
  if player ∈ q then [] else .joined player :: matched.toList.map .served

/-! ## One queue -/

section OneQueue

theorem enqueue_mem (capacity : ℕ) (q : List PlayerID) (player : PlayerID) (hp : player ∈ q) :
    enqueue capacity q player = (q, none) := if_pos hp

theorem enqueue_short (capacity : ℕ) (q : List PlayerID) (player : PlayerID) (hp : player ∉ q)
    (hq : q.length + 1 < capacity) : enqueue capacity q player = (q ++ [player], none) := by
  simp [enqueue, hp, hq]

/-- The player who fills the queue up empties it. -/
theorem enqueue_full (capacity : ℕ) (q : List PlayerID) (player : PlayerID) (hp : player ∉ q)
    (hq : q.length + 1 = capacity) :
    enqueue capacity q player = ([], some (q ++ [player])) := by
  have hl : (q ++ [player]).length = capacity := by simpa using hq
  have hn : ¬ (q ++ [player]).length < capacity := by omega
  simp only [enqueue, if_neg hp, if_neg hn]
  rw [← hl, List.drop_length, List.take_length]

theorem dequeue_fst (q : List PlayerID) (player : PlayerID) :
    (dequeue q player).1 = q.erase player := by
  by_cases hp : player ∈ q
  · simp [dequeue, hp]
  · simp [dequeue, hp, List.erase_of_not_mem hp]

theorem mem_enqueue (capacity : ℕ) (q : List PlayerID) (player x : PlayerID)
    (hx : x ∈ (enqueue capacity q player).1) : x ∈ q ∨ x = player := by
  by_cases hp : player ∈ q
  · rw [enqueue_mem capacity q player hp] at hx
    exact Or.inl hx
  · simp only [enqueue, if_neg hp] at hx
    have hx' : x ∈ q ++ [player] := by
      split at hx
      · exact hx
      · exact List.mem_of_mem_drop hx
    simpa using hx'

theorem enqueue_nodup (capacity : ℕ) (q : List PlayerID) (player : PlayerID) (hq : q.Nodup) :
    (enqueue capacity q player).1.Nodup := by
  by_cases hp : player ∈ q
  · rw [enqueue_mem capacity q player hp]
    exact hq
  · have hn : (q ++ [player]).Nodup := by simpa using hq.concat hp
    simp only [enqueue, if_neg hp]
    split
    · exact hn
    · exact hn.sublist (List.drop_sublist _ _)

/-- A match is made of different players, who were queued or just asked, and none
of them stays queued. -/
theorem enqueue_matched (capacity : ℕ) (q queue players : List PlayerID) (player : PlayerID)
    (hq : q.Nodup) (h : enqueue capacity q player = (queue, some players)) :
    players.Nodup ∧ ∀ x ∈ players, (x ∈ q ∨ x = player) ∧ x ∉ queue := by
  by_cases hp : player ∈ q
  · rw [enqueue_mem capacity q player hp] at h
    cases h
  have hn : (q ++ [player]).Nodup := by simpa using hq.concat hp
  simp only [enqueue, if_neg hp] at h
  split at h
  · cases h
  · cases h
    refine ⟨hn.sublist (List.take_sublist _ _), fun x hx => ⟨?_, ?_⟩⟩
    · have hx' := List.mem_of_mem_take hx
      simpa using hx'
    · exact fun hd => List.disjoint_take_drop hn (le_refl capacity) hx hd

/-- What the queue of a game with `capacity` players is, together with its history. -/
structure Orderly (capacity : ℕ) (h : List (Line.Event PlayerID)) (q : List PlayerID) : Prop where
  balanced : Line.Balanced h q
  short : q.length < capacity
  full : ∀ group ∈ Line.groups h, group.length = capacity ∧ group.Nodup

theorem orderly_nil (capacity : ℕ) (hc : 1 ≤ capacity) : Orderly capacity [] [] where
  balanced := Line.balanced_nil
  short := hc
  full := by simp [Line.groups]

theorem Orderly.enqueue (capacity : ℕ) (h : List (Line.Event PlayerID)) (q : List PlayerID)
    (ho : Orderly capacity h q) (player : PlayerID) :
    Orderly capacity
      (h ++ enqueueEvents q player (enqueue capacity q player).2) (enqueue capacity q player).1 := by
  by_cases hp : player ∈ q
  · simpa [enqueueEvents, hp, enqueue_mem] using ho
  have hj := ho.balanced.join h q player hp
  have hcases : q.length + 1 < capacity ∨ q.length + 1 = capacity := by
    have hs := ho.short
    omega
  rcases hcases with hq | hq
  · rw [enqueue_short capacity q player hp hq]
    refine ⟨by simpa [enqueueEvents, hp] using hj, by simpa using hq, ?_⟩
    intro group hg
    exact ho.full group (by simpa [enqueueEvents, hp, Line.groups_append, Line.groups] using hg)
  · rw [enqueue_full capacity q player hp hq]
    have hb := Line.Balanced.serve _ (q ++ [player]) [] (by simpa using hj)
    have hpos : 0 < capacity := by omega
    refine ⟨by simpa [enqueueEvents, hp] using hb, hpos, ?_⟩
    intro group hg
    have hg' : group ∈ Line.groups h ∨ group = q ++ [player] := by
      simpa [enqueueEvents, hp, Line.groups_append, Line.groups] using hg
    rcases hg' with hg' | rfl
    · exact ho.full group hg'
    · exact ⟨by simpa using hq, hj.nodup⟩

/-- A match is as large as the game allows, and nobody is in it twice. -/
theorem enqueue_group (capacity : ℕ) (h : List (Line.Event PlayerID)) (q : List PlayerID)
    (ho : Orderly capacity h q) (player : PlayerID) (group : List PlayerID)
    (hg : (enqueue capacity q player).2 = some group) :
    group.length = capacity ∧ group.Nodup := by
  by_cases hp : player ∈ q
  · rw [enqueue_mem capacity q player hp] at hg
    cases hg
  have he := (ho.enqueue capacity h q player).full group
  rw [hg] at he
  exact he (by simp [enqueueEvents, hp, Line.groups_append, Line.groups])

/-- A match takes everybody out of the queue. -/
theorem enqueue_empties (capacity : ℕ) (h : List (Line.Event PlayerID)) (q : List PlayerID)
    (ho : Orderly capacity h q) (player : PlayerID) (group : List PlayerID)
    (hg : (enqueue capacity q player).2 = some group) : (enqueue capacity q player).1 = [] := by
  have hs := ho.short
  by_cases hp : player ∈ q
  · rw [enqueue_mem capacity q player hp] at hg
    cases hg
  by_cases hq : q.length + 1 < capacity
  · rw [enqueue_short capacity q player hp hq] at hg
    cases hg
  · rw [enqueue_full capacity q player hp (by omega)]

theorem Orderly.dequeue (capacity : ℕ) (h : List (Line.Event PlayerID)) (q : List PlayerID)
    (ho : Orderly capacity h q) (player : PlayerID) :
    Orderly capacity
      (h ++ if (dequeue q player).2 then [.left player] else []) (dequeue q player).1 := by
  by_cases hp : player ∈ q
  · have hb := ho.balanced.leave h q player hp
    have hl : (q.erase player).length ≤ q.length := List.length_erase_le
    have hs := ho.short
    simp only [Matchmaking.dequeue, if_pos hp, if_true]
    refine ⟨hb, by omega, ?_⟩
    intro group hg
    exact ho.full group (by simpa [Line.groups_append, Line.groups] using hg)
  · simpa [Matchmaking.dequeue, hp] using ho

end OneQueue

/-! ## All queues -/

section AllQueues
variable {σ : Type} (games : String → Option (Game σ))

/-- What one call does to the queues, and the events on its line; `Enqueue` of
an unknown game type returns before it looks at them. -/
def request (m : Queues) : Request → Queues × List (String × Line.Event PlayerID)
  | .enqueue gameType player =>
    match games gameType with
    | none => (m, [])
    | some g =>
      let (q, matched) := enqueue g.maxPlayers (m gameType) player
      (Function.update m gameType q,
        (enqueueEvents (m gameType) player matched).map fun e => (gameType, e))
  | .dequeue gameType player =>
    let (q, was) := dequeue (m gameType) player
    (Function.update m gameType q,
      (if was then [.left player] else []).map fun e => (gameType, e))

/-- The queues after a sequence of requests to a new matchmaker. -/
def queuesAfter (rs : List Request) : Queues := final (request games) (fun _ => []) rs

/-- The events on the line of a game type. -/
def eventsOf (gameType : String) (os : List (Request × String × Line.Event PlayerID)) :
    List (Line.Event PlayerID) :=
  os.filterMap fun o => if o.2.1 = gameType then some o.2.2 else none

def historyOf (rs : List Request) (gameType : String) : List (Line.Event PlayerID) :=
  eventsOf gameType (trace (request games) (fun _ => []) rs)

theorem eventsOf_append (gameType : String)
    (os os' : List (Request × String × Line.Event PlayerID)) :
    eventsOf gameType (os ++ os') = eventsOf gameType os ++ eventsOf gameType os' :=
  List.filterMap_append

theorem eventsOf_same (gameType : String) (r : Request) (es : List (Line.Event PlayerID)) :
    eventsOf gameType ((es.map fun e => (gameType, e)).map fun o => (r, o)) = es := by
  simp [eventsOf]

theorem eventsOf_other (gameType other : String) (hne : other ≠ gameType) (r : Request)
    (es : List (Line.Event PlayerID)) :
    eventsOf gameType ((es.map fun e => (other, e)).map fun o => (r, o)) = [] := by
  simp [eventsOf, hne]

/-- A request touches the queue of its own game type only. -/
theorem request_other (m : Queues) (r : Request) (gameType : String)
    (hne : gameType ≠ r.gameType) : (request games m r).1 gameType = m gameType := by
  cases r with
  | enqueue other player =>
    have hne' : gameType ≠ other := hne
    simp only [request]
    split
    · rfl
    · exact Function.update_of_ne hne' _ _
  | dequeue other player =>
    have hne' : gameType ≠ other := hne
    exact Function.update_of_ne hne' _ _

theorem request_unlisted (m : Queues) (gameType : String) (player : PlayerID)
    (hg : games gameType = none) : request games m (.enqueue gameType player) = (m, []) := by
  simp [request, hg]

theorem request_enqueue (m : Queues) (gameType : String) (player : PlayerID) (g : Game σ)
    (hg : games gameType = some g) : (request games m (.enqueue gameType player)).1 gameType =
      (enqueue g.maxPlayers (m gameType) player).1 := by
  simp [request, hg]

theorem request_dequeue (m : Queues) (gameType : String) (player : PlayerID) :
    (request games m (.dequeue gameType player)).1 gameType = (m gameType).erase player := by
  simp [request, dequeue_fst]

/-- The queue of a game after a request. -/
theorem request_queue (m : Queues) (r : Request) (gameType : String) :
    (request games m r).1 gameType = m gameType ∨
    (∃ (g : Game σ) (player : PlayerID), r = .enqueue gameType player ∧
      (request games m r).1 gameType = (enqueue g.maxPlayers (m gameType) player).1) ∨
    ∃ player, (request games m r).1 gameType = (m gameType).erase player := by
  by_cases hne : gameType = r.gameType
  · cases r with
    | enqueue other player =>
      obtain rfl : gameType = other := hne
      cases hg : games gameType with
      | none =>
        rw [request_unlisted games m gameType player hg]
        exact Or.inl rfl
      | some g => exact Or.inr (Or.inl ⟨g, player, rfl, request_enqueue games m _ player g hg⟩)
    | dequeue other player =>
      obtain rfl : gameType = other := hne
      exact Or.inr (Or.inr ⟨player, request_dequeue games m gameType player⟩)
  · exact Or.inl (request_other games m r gameType hne)

/-- Only a request for the game itself puts a player into its queue. -/
theorem mem_request (m : Queues) (r : Request) (gameType : String) (x : PlayerID)
    (hx : x ∈ (request games m r).1 gameType) : x ∈ m gameType ∨ r = .enqueue gameType x := by
  obtain hsame | ⟨g, player, rfl, hq⟩ | ⟨player, hq⟩ := request_queue games m r gameType
  · rw [hsame] at hx
    exact Or.inl hx
  · rw [hq] at hx
    obtain hx | rfl := mem_enqueue _ _ _ _ hx
    · exact Or.inl hx
    · exact Or.inr rfl
  · rw [hq] at hx
    exact Or.inl (List.mem_of_mem_erase hx)

theorem request_nodup (m : Queues) (r : Request) (gameType : String) (hm : (m gameType).Nodup) :
    ((request games m r).1 gameType).Nodup := by
  obtain hsame | ⟨g, player, -, hq⟩ | ⟨player, hq⟩ := request_queue games m r gameType
  · rw [hsame]
    exact hm
  · rw [hq]
    exact enqueue_nodup _ _ _ hm
  · rw [hq]
    exact hm.erase _

theorem queuesAfter_nodup (rs : List Request) (gameType : String) :
    (queuesAfter games rs gameType).Nodup :=
  final_invariant (request games) (fun m => (m gameType).Nodup)
    (fun m r hm => request_nodup games m r gameType hm) _ List.nodup_nil rs

/-- Each game type with room for a player has an orderly line, and nobody waits
for an unknown one. -/
def AllOrderly (m : Queues) (os : List (Request × String × Line.Event PlayerID)) : Prop :=
  ∀ gameType,
    match games gameType with
    | none => m gameType = []
    | some g => 1 ≤ g.maxPlayers → Orderly g.maxPlayers (eventsOf gameType os) (m gameType)

theorem AllOrderly.request (m : Queues) (os : List (Request × String × Line.Event PlayerID))
    (r : Request) (ho : AllOrderly games m os) :
    AllOrderly games (request games m r).1
      (os ++ (Matchmaking.request games m r).2.map fun o => (r, o)) := by
  intro gameType
  have hg := ho gameType
  by_cases hne : gameType = r.gameType
  · cases r with
    | enqueue other player =>
      obtain rfl : gameType = other := hne
      cases hgame : games gameType with
      | none =>
        rw [hgame] at hg
        simpa [Matchmaking.request, hgame] using hg
      | some g =>
        rw [hgame] at hg
        intro hmax
        have hq := (hg hmax).enqueue _ _ _ player
        simpa only [Matchmaking.request, hgame, Function.update_self, eventsOf_append,
          eventsOf_same] using hq
    | dequeue other player =>
      obtain rfl : gameType = other := hne
      cases hgame : games gameType with
      | none =>
        rw [hgame] at hg
        have hq : m gameType = [] := hg
        simp [Matchmaking.request, dequeue_fst, hq]
      | some g =>
        rw [hgame] at hg
        intro hmax
        have hq := (hg hmax).dequeue _ _ _ player
        simpa only [Matchmaking.request, Function.update_self, eventsOf_append,
          eventsOf_same] using hq
  · rw [request_other games m r gameType hne, eventsOf_append]
    have hev : eventsOf gameType ((Matchmaking.request games m r).2.map fun o => (r, o)) = [] := by
      cases r with
      | enqueue other player =>
        have hne' : other ≠ gameType := Ne.symm hne
        simp only [Matchmaking.request]
        split
        · rfl
        · exact eventsOf_other gameType other hne' _ _
      | dequeue other player =>
        have hne' : other ≠ gameType := Ne.symm hne
        exact eventsOf_other gameType other hne' _ _
    rw [hev, List.append_nil]
    exact hg

theorem allOrderly_after (rs : List Request) :
    AllOrderly games (queuesAfter games rs) (trace (request games) (fun _ => []) rs) := by
  refine trace_invariant (request games) (AllOrderly games)
    (fun m os r ho => ho.request games m os r) _ ?_ rs
  intro gameType
  cases hgame : games gameType with
  | none => rfl
  | some g => exact orderly_nil g.maxPlayers

theorem orderly_after (rs : List Request) (gameType : String) (g : Game σ)
    (hgame : games gameType = some g) (hmax : 1 ≤ g.maxPlayers) :
    Orderly g.maxPlayers (historyOf games rs gameType) (queuesAfter games rs gameType) := by
  have ho := allOrderly_after games rs gameType
  rw [hgame] at ho
  exact ho hmax

/-- Nobody who queued up for a game is lost, doubled or overtaken. -/
theorem matchmaker_conserves (rs : List Request) :
    (∀ gameType g, games gameType = some g → 1 ≤ g.maxPlayers →
      (queuesAfter games rs gameType).Nodup ∧
      (queuesAfter games rs gameType).length < g.maxPlayers ∧
      (∀ group ∈ Line.groups (historyOf games rs gameType),
        group.length = g.maxPlayers ∧ group.Nodup) ∧
      (Line.groups (historyOf games rs gameType)).flatten ++ queuesAfter games rs gameType =
        Line.kept (historyOf games rs gameType)) ∧
    ∀ r gameType, gameType ≠ r.gameType →
      queuesAfter games (rs ++ [r]) gameType = queuesAfter games rs gameType := by
  refine ⟨?_, ?_⟩
  · intro gameType g hgame hmax
    have ho := orderly_after games rs gameType g hgame hmax
    exact ⟨ho.balanced.nodup, ho.short, ho.full, ho.balanced.account⟩
  · intro r gameType hne
    rw [queuesAfter, final_concat]
    exact request_other games _ r gameType hne

end AllQueues

/-- Alice queues up, leaves and comes back behind bob: bob and carol are matched first. -/
def aliceComesBack : List Request :=
  [.enqueue "tictactoe" "alice", .dequeue "tictactoe" "alice", .enqueue "tictactoe" "bob",
   .enqueue "tictactoe" "bob", .enqueue "tictactoe" "carol", .enqueue "tictactoe" "alice"]

theorem matchmaker_conserves_aliceComesBack :
    Line.kept (historyOf registry aliceComesBack "tictactoe") = ["bob", "carol", "alice"] ∧
    (Line.groups (historyOf registry aliceComesBack "tictactoe")).flatten ++
        queuesAfter registry aliceComesBack "tictactoe" =
      Line.kept (historyOf registry aliceComesBack "tictactoe") := by
  refine ⟨by decide, ?_⟩
  exact ((matchmaker_conserves registry aliceComesBack).1 "tictactoe" TicTacToe.game rfl
    (by decide)).2.2.2

end RealtimeEngine.Matchmaking
