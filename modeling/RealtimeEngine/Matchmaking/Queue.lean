import RealtimeEngine.Domain.Game

/-! The join queue of one game type (`internal/service/matchmaking`). Both
operations run under the matchmaker's mutex, so each is one step. -/
namespace RealtimeEngine.Matchmaking
open Domain
set_option autoImplicit false
set_option maxHeartbeats 250000

/-- The critical section of `Enqueue`: the queue it leaves, and the players it
takes out for a new room when the queue has filled up. -/
def enqueue (capacity : ℕ) (q : List PlayerID) (player : PlayerID) :
    List PlayerID × Option (List PlayerID) :=
  if player ∈ q then (q, none)
  else
    let q' := q ++ [player]
    if q'.length < capacity then (q', none)
    else (q'.drop capacity, some (q'.take capacity))

/-- The queue without the player, and whether the player was queued. -/
def dequeue (q : List PlayerID) (player : PlayerID) : List PlayerID × Bool :=
  if player ∈ q then (q.erase player, true) else (q, false)

end RealtimeEngine.Matchmaking
