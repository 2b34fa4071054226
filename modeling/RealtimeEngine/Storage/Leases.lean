import Mathlib.Data.Int.Order.Basic
import RealtimeEngine.Config
import RealtimeEngine.Domain.Game
import RealtimeEngine.Foundations.Keyspace
import RealtimeEngine.Foundations.Runs

/-! Room ownership leases (`internal/storage/redis/lock.go`): one key a room,
taken with `SET NX PX`, renewed and released by scripts that act on the key only
while it names their node. A history is any list of calls by any nodes; a call
that was sent long ago is one that arrives late. -/
namespace RealtimeEngine.Storage.Leases
open Foundations Domain
set_option autoImplicit false
set_option maxHeartbeats 250000

/-- A time to live that Redis takes as it is: a positive whole number of milliseconds. -/
structure TTL where
  milliseconds : ℕ
  pos : 0 < milliseconds

def TTL.duration (ttl : TTL) : Duration := ttl.milliseconds * millisecond

abbrev Redis := Keyspace String Time String

def ownerKey (roomID : String) : String := "room:" ++ roomID ++ ":owner"

def acquireRoomLease (m : Redis) (now : Time) (roomID nodeID : String) (ttl : TTL) : Redis × Bool :=
  m.setNX now (ownerKey roomID) nodeID (some (now + ttl.duration))

/-- `renewScript`. -/
def renewRoomLease (m : Redis) (now : Time) (roomID nodeID : String) (ttl : TTL) : Redis × Bool :=
  if m.get now (ownerKey roomID) = some nodeID then
    m.pexpire now (ownerKey roomID) (now + ttl.duration)
  else (m, false)

/-- `releaseScript`; its result is not passed on. -/
def releaseRoomLease (m : Redis) (now : Time) (roomID nodeID : String) : Redis :=
  if m.get now (ownerKey roomID) = some nodeID then m.del (ownerKey roomID) else m

/-- `none` is `storage.ErrNotFound`. -/
def roomOwner (m : Redis) (now : Time) (roomID : String) : Option String :=
  m.get now (ownerKey roomID)

inductive Call
  | acquire (roomID nodeID : String) (ttl : TTL)
  | renew (roomID nodeID : String) (ttl : TTL)
  | release (roomID nodeID : String)

/-- A call that arrives at a time. The answer is what a lease call returns. -/
def step (m : Redis) : Time × Call → Redis × List Bool
  | (now, .acquire roomID nodeID ttl) =>
    let x := acquireRoomLease m now roomID nodeID ttl
    (x.1, [x.2])
  | (now, .renew roomID nodeID ttl) =>
    let x := renewRoomLease m now roomID nodeID ttl
    (x.1, [x.2])
  | (now, .release roomID nodeID) => (releaseRoomLease m now roomID nodeID, [])

/-- A call by which the node asks for the lease. -/
inductive Asks (roomID nodeID : String) (ttl : TTL) : Call → Prop
  | acquire : Asks roomID nodeID ttl (.acquire roomID nodeID ttl)
  | renew : Asks roomID nodeID ttl (.renew roomID nodeID ttl)

/-- The node gets the lease. -/
def Grants (roomID nodeID : String) (m : Redis) (i : Time × Call) : Prop :=
  (∃ ttl, Asks roomID nodeID ttl i.2) ∧ (step m i).2 = [true]

/-- Neither a new grant to the node nor its release. -/
def Leaves (roomID nodeID : String) (m : Redis) (i : Time × Call) : Prop :=
  ¬ Grants roomID nodeID m i ∧ i.2 ≠ .release roomID nodeID

/-! ## Keys -/

theorem ownerKey_inj {a b : String} (h : ownerKey a = ownerKey b) : a = b := by
  have h' := congrArg String.toList h
  simp only [ownerKey, String.toList_append] at h'
  exact String.toList_inj.mp (List.append_cancel_left (List.append_cancel_right h'))

/-- The key names a node and an expiry. -/
def Held (roomID nodeID : String) (e : Time) (m : Redis) : Prop :=
  m.lookup (ownerKey roomID) = some ⟨nodeID, some e⟩

section Leases
variable {m : Redis} {roomID nodeID : String} {e now : Time}

theorem Held.get (h : Held roomID nodeID e m) (hb : now < e) :
    m.get now (ownerKey roomID) = some nodeID :=
  Keyspace.get_of_before h hb

theorem Held.get_ne (h : Held roomID nodeID e m) (hb : now < e) {other : String}
    (hne : other ≠ nodeID) : m.get now (ownerKey roomID) ≠ some other := by
  rw [h.get hb]
  exact fun he => hne (Option.some.inj he).symm

/-! ## Calls on a key that is held -/

theorem Held.acquire (h : Held roomID nodeID e m) (hb : now < e) (other : String) (ttl : TTL) :
    acquireRoomLease m now roomID other ttl = (m, false) :=
  Keyspace.setNX_taken (h.get hb) _ _

theorem Held.renew_other (h : Held roomID nodeID e m) (hb : now < e) {other : String}
    (hne : other ≠ nodeID) (ttl : TTL) : renewRoomLease m now roomID other ttl = (m, false) :=
  if_neg (h.get_ne hb hne)

theorem Held.release_other (h : Held roomID nodeID e m) (hb : now < e) {other : String}
    (hne : other ≠ nodeID) : releaseRoomLease m now roomID other = m :=
  if_neg (h.get_ne hb hne)

theorem Held.renew_self (h : Held roomID nodeID e m) (hb : now < e) (ttl : TTL) :
    (renewRoomLease m now roomID nodeID ttl).2 = true := by
  unfold renewRoomLease
  rw [if_pos (h.get hb), Keyspace.pexpire_eq (h.get hb)]

/-- A grant names the node and the time of the grant plus its TTL. -/
theorem grant_held {ttl : TTL} {c : Call} (ha : Asks roomID nodeID ttl c)
    (hg : (step m (now, c)).2 = [true]) :
    Held roomID nodeID (now + ttl.duration) (step m (now, c)).1 := by
  cases ha with
  | acquire =>
    have hok : (acquireRoomLease m now roomID nodeID ttl).2 = true := List.singleton_inj.mp hg
    change (acquireRoomLease m now roomID nodeID ttl).1.lookup _ = _
    rw [acquireRoomLease, Keyspace.setNX_granted hok, Keyspace.lookup_set]
  | renew =>
    have hok : (renewRoomLease m now roomID nodeID ttl).2 = true := List.singleton_inj.mp hg
    change (renewRoomLease m now roomID nodeID ttl).1.lookup _ = _
    unfold renewRoomLease at hok ⊢
    split at hok
    next hget => rw [if_pos hget, Keyspace.pexpire_eq hget, Keyspace.lookup_set]
    next => cases hok

/-! ## Histories -/

/-- Before the expiry, nothing but a new grant to the holder or its own release
moves the key. -/
theorem step_held {i : Time × Call} (h : Held roomID nodeID e m) (hb : i.1 < e)
    (hl : Leaves roomID nodeID m i) : Held roomID nodeID e (step m i).1 := by
  obtain ⟨t, c⟩ := i
  cases c with
  | acquire room node ttl =>
    change (acquireRoomLease m t room node ttl).1.lookup _ = _
    by_cases hr : roomID = room
    · subst hr
      rw [h.acquire hb]
      exact h
    · rw [acquireRoomLease, Keyspace.lookup_setNX_ne _ _ (fun hk => hr (ownerKey_inj hk))]
      exact h
  | renew room node ttl =>
    change (renewRoomLease m t room node ttl).1.lookup _ = _
    by_cases hr : roomID = room
    · subst hr
      by_cases hn : node = nodeID
      · subst hn
        exact absurd ⟨⟨ttl, .renew⟩, congrArg (fun b => [b]) (h.renew_self hb ttl)⟩ hl.1
      · rw [h.renew_other hb hn]
        exact h
    · unfold renewRoomLease
      split
      · rw [Keyspace.lookup_pexpire_ne _ _ (fun hk => hr (ownerKey_inj hk))]
        exact h
      · exact h
  | release room node =>
    change (releaseRoomLease m t room node).lookup _ = _
    by_cases hr : roomID = room
    · subst hr
      have hn : node ≠ nodeID := by
        rintro rfl
        exact hl.2 rfl
      rw [h.release_other hb hn]
      exact h
    · unfold releaseRoomLease
      split
      · rw [Keyspace.del, AList.lookup_erase_ne (fun hk => hr (ownerKey_inj hk))]
        exact h
      · exact h

theorem final_held (is : List (Time × Call)) (h : Held roomID nodeID e m)
    (hb : ∀ i ∈ is, i.1 < e) (hl : Along step (Leaves roomID nodeID) m is) :
    Held roomID nodeID e (final step m is) := by
  induction is generalizing m with
  | nil => exact h
  | cons i is ih =>
    exact ih (step_held h (hb i List.mem_cons_self) hl.1)
      (fun j hj => hb j (List.mem_cons_of_mem i hj)) hl.2

end Leases

/-- **A lease is exclusive.** After any history in which the node's last grant
was at `t₀`, for as long as that grant lasts: the node is the owner, no other
node gets the lease, and no other node's renewal or release moves the key. -/
theorem lease_exclusive (before since : List (Time × Call)) (roomID nodeID : String) (ttl : TTL)
    (t₀ t : Time) (c : Call) (ha : Asks roomID nodeID ttl c)
    (hg : (step (final step ∅ before) (t₀, c)).2 = [true])
    (hlast : Along step (Leaves roomID nodeID) (step (final step ∅ before) (t₀, c)).1 since)
    (hpast : ∀ i ∈ since, i.1 ≤ t) (ht : t < t₀ + ttl.duration) :
    let m := final step ∅ (before ++ (t₀, c) :: since)
    roomOwner m t roomID = some nodeID ∧
      Held roomID nodeID (t₀ + ttl.duration) m ∧
      ∀ other ≠ nodeID, ∀ ttl' : TTL,
        (acquireRoomLease m t roomID other ttl').2 = false ∧
        (renewRoomLease m t roomID other ttl').2 = false ∧
        (renewRoomLease m t roomID other ttl').1 = m ∧
        releaseRoomLease m t roomID other = m := by
  intro m
  have hheld : Held roomID nodeID (t₀ + ttl.duration) m := by
    change Held _ _ _ (final step ∅ (before ++ (t₀, c) :: since))
    rw [final_append, final_cons]
    exact final_held since (grant_held ha hg) (fun i hi => lt_of_le_of_lt (hpast i hi) ht) hlast
  refine ⟨hheld.get ht, hheld, ?_⟩
  intro other hne ttl'
  rw [hheld.acquire ht, hheld.renew_other ht hne, hheld.release_other ht hne]
  exact ⟨rfl, rfl, rfl, rfl⟩

/-- Node `a` takes the lease at the instant it expires for `b`, whose renewal comes in late. -/
theorem handover_exclusive :
    let ten : TTL := ⟨10, by decide⟩
    let m := final step ∅ [(0, .acquire "r" "b" ten), (10 * millisecond, .acquire "r" "a" ten),
      (12 * millisecond, .renew "r" "b" ten)]
    roomOwner m (19 * millisecond) "r" = some "a" ∧ Held "r" "a" (10 * millisecond + ten.duration) m ∧
      releaseRoomLease m (19 * millisecond) "r" "b" = m := by
  intro ten m
  have h := lease_exclusive [(0, .acquire "r" "b" ten)] [(12 * millisecond, .renew "r" "b" ten)]
    "r" "a" ten (10 * millisecond) (19 * millisecond) (.acquire "r" "a" ten) .acquire (by decide)
    ⟨⟨fun hg => absurd hg.2 (by decide), nofun⟩, trivial⟩ (by decide) (by decide)
  exact ⟨h.1, h.2.1, (h.2.2 "b" (by decide) ten).2.2.2⟩

end RealtimeEngine.Storage.Leases
