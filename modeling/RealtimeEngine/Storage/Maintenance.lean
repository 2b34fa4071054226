import RealtimeEngine.Storage.Leases

/-! How the nodes keep their leases (`CreateRoom` and `maintainLease` of
`internal/service/room/manager.go`). Every room has a goroutine that renews the
lease at each tick of its ticker, re-acquires it when a renewal is not granted,
and releases it once the room has stopped. A call to Redis is made, is carried out
at some time, and returns; it may fail before or after it was carried out, and one
that was given up may still be carried out at any later time. Any number of nodes
and rooms run at once. -/
namespace RealtimeEngine.Storage.Maintenance
open Foundations Domain
open Leases (TTL Redis ownerKey acquireRoomLease renewRoomLease releaseRoomLease roomOwner Held)
set_option autoImplicit false
set_option maxHeartbeats 250000

/-! ## The goroutine of a room -/

/-- `start` is a goroutine that has not run yet; `done` is none any more. -/
inductive Stage
  | acquire
  | start
  | select
  | renew
  | reacquire
  | release
  | done
  deriving DecidableEq

/-- `reply` is the answer of a call that was carried out and has not returned.
The ticker fires next at `due`; its channel holds one tick. History: `asked` is
when the tick that is served was due, and when the first lease was taken before
there is one; `missed` says that the last tick was not granted anything. -/
structure Maintainer where
  node : String
  stage : Stage := .acquire
  reply : Option Bool := none
  stopped : Bool := false
  due : Time := 0
  ticked : Bool := false
  asked : Time := 0
  missed : Bool := false

def interval (ttl : TTL) : Duration :=
  if ttl.duration.tdiv 3 ≤ 0 then second else ttl.duration.tdiv 3

/-- The call a goroutine is in. -/
def Maintainer.call (ttl : String → TTL) (R : String) (m : Maintainer) : Option Leases.Call :=
  match m.stage with
  | .acquire | .reacquire => some (.acquire R m.node (ttl m.node))
  | .renew => some (.renew R m.node (ttl m.node))
  | .release => some (.release R m.node)
  | _ => none

/-- The call was carried out. -/
def Maintainer.executed (now : Time) (ok : Bool) (m : Maintainer) : Maintainer :=
  { m with reply := some ok, asked := if m.stage = .acquire then now else m.asked }

/-- The call has returned; an error is handled like a call that was not granted. -/
def Maintainer.returned (ok : Bool) (m : Maintainer) : Maintainer :=
  match m.stage with
  | .acquire => { m with reply := none, stage := if ok then .start else .done }
  | .renew =>
    if ok then { m with reply := none, stage := .select, missed := false }
    else { m with reply := none, stage := .reacquire }
  | .reacquire => { m with reply := none, stage := .select, missed := !ok }
  | .release => { m with reply := none, stage := .done }
  | _ => m

/-- The ticker exists. -/
def Maintainer.ticking (m : Maintainer) : Bool :=
  match m.stage with
  | .select | .renew | .reacquire | .release => true
  | _ => false

/-- A tick that finds the channel full is dropped, and ticks that are overdue are skipped. -/
def Maintainer.fired (now : Time) (every : Duration) (m : Maintainer) : Maintainer :=
  { m with ticked := true, due := m.due + every * (1 + (now - m.due) / every),
           asked := if m.ticked then m.asked else m.due }

/-! ## All of them -/

structure Sys where
  now : Time := 0
  redis : Redis := ∅
  rooms : String → Option Maintainer := fun _ => none
  late : List Leases.Call := []

inductive Label
  | create (R node : String)
  | launch (R : String)
  | fire (R : String)
  | tick (R : String)
  | stop (R : String)
  | quit (R : String)
  | perform (R : String)
  | answer (R : String)
  | fail (R : String) (sent : Bool)
  | arrive (i : ℕ)
  | drop (i : ℕ)
  | clock (t : Time)

def Sys.set (s : Sys) (R : String) (m : Maintainer) : Sys :=
  { s with rooms := Function.update s.rooms R (some m) }

/-- A step of the goroutine, its ticker or its room that makes no call. -/
def Maintainer.next (ttl : TTL) (now : Time) (m : Maintainer) : Label → Option Maintainer
  | .launch _ =>
    if m.stage = .start then
      some { m with stage := .select, due := now + interval ttl, ticked := false }
    else none
  | .fire _ => if m.ticking ∧ m.due ≤ now then some (m.fired now (interval ttl)) else none
  | .tick _ =>
    if m.stage = .select ∧ m.ticked then some { m with stage := .renew, ticked := false } else none
  | .stop _ => some { m with stopped := true }
  | .quit _ => if m.stage = .select ∧ m.stopped then some { m with stage := .release } else none
  | _ => none

/-- The answer of a call; a release has none. -/
def granted (redis : Redis) (now : Time) (c : Leases.Call) : Bool :=
  (Leases.step redis (now, c)).2.headD true

/-- `NewID` makes an id that no node has used. -/
def step (ttl : String → TTL) (s : Sys) : Label → Option Sys
  | .create R node =>
    match s.rooms R with
    | none => some (s.set R { node := node })
    | some _ => none
  | .perform R =>
    match s.rooms R with
    | none => none
    | some m =>
      match m.call ttl R, m.reply with
      | some c, none =>
        some { s.set R (m.executed s.now (granted s.redis s.now c)) with
               redis := (Leases.step s.redis (s.now, c)).1 }
      | _, _ => none
  | .answer R =>
    match s.rooms R with
    | none => none
    | some m => m.reply.map fun ok => s.set R (m.returned ok)
  | .fail R sent =>
    match s.rooms R with
    | none => none
    | some m =>
      (m.call ttl R).map fun c =>
        { s.set R (m.returned false) with
          late := if sent ∧ m.reply = none then s.late ++ [c] else s.late }
  | .arrive i =>
    (s.late[i]?).map fun c =>
      { s with redis := (Leases.step s.redis (s.now, c)).1, late := s.late.eraseIdx i }
  | .drop i => some { s with late := s.late.eraseIdx i }
  | .clock t => some { s with now := t }
  | .launch R =>
    (s.rooms R).bind fun m => (m.next (ttl m.node) s.now (.launch R)).map (s.set R)
  | .fire R => (s.rooms R).bind fun m => (m.next (ttl m.node) s.now (.fire R)).map (s.set R)
  | .tick R => (s.rooms R).bind fun m => (m.next (ttl m.node) s.now (.tick R)).map (s.set R)
  | .stop R => (s.rooms R).bind fun m => (m.next (ttl m.node) s.now (.stop R)).map (s.set R)
  | .quit R => (s.rooms R).bind fun m => (m.next (ttl m.node) s.now (.quit R)).map (s.set R)

def run (ttl : String → TTL) (ls : List Label) : Option Sys := exec (step ttl) {} ls

/-! ## What a step does -/

section Steps
variable {ttl : String → TTL} {s s' : Sys} {l : Label} {R : String} {m m' : Maintainer}

/-- A call that a node makes about a room of its own. -/
inductive Issued (ttl : String → TTL) (R node : String) : Leases.Call → Prop
  | acquire : Issued ttl R node (.acquire R node (ttl node))
  | renew : Issued ttl R node (.renew R node (ttl node))
  | release : Issued ttl R node (.release R node)

inductive Move (ttl : String → TTL) (s : Sys) : Label → Sys → Prop
  | create (R node : String) (hm : s.rooms R = none) :
      Move ttl s (.create R node) (s.set R { node := node })
  | next (l : Label) (R : String) (m m' : Maintainer) (hm : s.rooms R = some m)
      (hn : m.next (ttl m.node) s.now l = some m') : Move ttl s l (s.set R m')
  | perform (R : String) (m : Maintainer) (c : Leases.Call) (hm : s.rooms R = some m)
      (hc : m.call ttl R = some c) (hr : m.reply = none) :
      Move ttl s (.perform R) { s.set R (m.executed s.now (granted s.redis s.now c)) with
        redis := (Leases.step s.redis (s.now, c)).1 }
  | answer (R : String) (m : Maintainer) (ok : Bool) (hm : s.rooms R = some m)
      (hr : m.reply = some ok) : Move ttl s (.answer R) (s.set R (m.returned ok))
  | fail (R : String) (sent : Bool) (m : Maintainer) (c : Leases.Call) (late : List Leases.Call)
      (hm : s.rooms R = some m) (hc : m.call ttl R = some c)
      (hl : late = s.late ∨ late = s.late ++ [c]) :
      Move ttl s (.fail R sent) { s.set R (m.returned false) with late := late }
  | arrive (i : ℕ) (c : Leases.Call) (hc : c ∈ s.late) :
      Move ttl s (.arrive i)
        { s with redis := (Leases.step s.redis (s.now, c)).1, late := s.late.eraseIdx i }
  | drop (i : ℕ) : Move ttl s (.drop i) { s with late := s.late.eraseIdx i }
  | clock (t : Time) : Move ttl s (.clock t) { s with now := t }

theorem step_move (h : step ttl s l = some s') : Move ttl s l s' := by
  have hnext : ∀ R, ((s.rooms R).bind fun m => (m.next (ttl m.node) s.now l).map (s.set R)) =
      some s' → Move ttl s l s' := by
    intro R h
    obtain ⟨m, hm, h⟩ := Option.bind_eq_some_iff.mp h
    obtain ⟨m', hn, rfl⟩ := Option.map_eq_some_iff.mp h
    exact .next l R m m' hm hn
  cases l with
  | create R node =>
    rw [step] at h
    split at h
    · next hm =>
      cases h
      exact .create R node hm
    · cases h
  | perform R =>
    rw [step] at h
    split at h
    · cases h
    · next m hm =>
      split at h
      · next c hc hr =>
        cases h
        exact .perform R m c hm hc hr
      · cases h
  | answer R =>
    rw [step] at h
    split at h
    · cases h
    · next m hm =>
      obtain ⟨ok, hr, rfl⟩ := Option.map_eq_some_iff.mp h
      exact .answer R m ok hm hr
  | fail R sent =>
    rw [step] at h
    split at h
    · cases h
    · next m hm =>
      obtain ⟨c, hc, rfl⟩ := Option.map_eq_some_iff.mp h
      refine .fail R sent m c _ hm hc ?_
      split
      · exact Or.inr rfl
      · exact Or.inl rfl
  | arrive i =>
    obtain ⟨c, hc, rfl⟩ := Option.map_eq_some_iff.mp h
    exact .arrive i c (List.mem_of_getElem? hc)
  | drop i =>
    cases h
    exact .drop i
  | clock t =>
    cases h
    exact .clock t
  | launch R => exact hnext R h
  | fire R => exact hnext R h
  | tick R => exact hnext R h
  | stop R => exact hnext R h
  | quit R => exact hnext R h

theorem call_issued {c : Leases.Call} (h : m.call ttl R = some c) : Issued ttl R m.node c := by
  unfold Maintainer.call at h
  split at h
  · cases h
    exact .acquire
  · cases h
    exact .acquire
  · cases h
    exact .renew
  · cases h
    exact .release
  · cases h

@[simp] theorem set_rooms (s : Sys) (R R' : String) (m : Maintainer) :
    (s.set R m).rooms R' = if R' = R then some m else s.rooms R' :=
  Function.update_apply _ _ _ _

theorem returned_node (ok : Bool) (m : Maintainer) : (m.returned ok).node = m.node := by
  unfold Maintainer.returned
  split
  · rfl
  · split <;> rfl
  · rfl
  · rfl
  · rfl

theorem next_node {t : TTL} {now : Time} (h : m.next t now l = some m') : m'.node = m.node := by
  unfold Maintainer.next at h
  split at h
  · split at h
    · cases h
      rfl
    · cases h
  · split at h
    · cases h
      rfl
    · cases h
  · split at h
    · cases h
      rfl
    · cases h
  · cases h
    rfl
  · split at h
    · cases h
      rfl
    · cases h
  · cases h

/-- What a move does to the goroutine of one room. -/
inductive Change (ttl : String → TTL) (s : Sys) (R : String) (m : Maintainer) :
    Label → Maintainer → Prop
  | kept (l : Label) : Change ttl s R m l m
  | next (l : Label) (m' : Maintainer) (hn : m.next (ttl m.node) s.now l = some m') :
      Change ttl s R m l m'
  | performed (c : Leases.Call) (hc : m.call ttl R = some c) :
      Change ttl s R m (.perform R) (m.executed s.now (granted s.redis s.now c))
  | answered (ok : Bool) (hr : m.reply = some ok) : Change ttl s R m (.answer R) (m.returned ok)
  | failed (sent : Bool) (c : Leases.Call) (hc : m.call ttl R = some c) :
      Change ttl s R m (.fail R sent) (m.returned false)

theorem Move.change (hmv : Move ttl s l s') (hm : s.rooms R = some m) :
    ∃ m', s'.rooms R = some m' ∧ Change ttl s R m l m' := by
  have hset : ∀ R' m₁ m₂, s.rooms R' = some m₁ → (R = R' → Change ttl s R m₁ l m₂) →
      ∃ m', (s.set R' m₂).rooms R = some m' ∧ Change ttl s R m l m' := by
    intro R' m₁ m₂ h₁ hch
    rw [set_rooms]
    by_cases hR : R = R'
    · subst hR
      rw [hm] at h₁
      cases h₁
      exact ⟨m₂, if_pos rfl, hch rfl⟩
    · exact ⟨m, by rw [if_neg hR]; exact hm, .kept l⟩
  cases hmv with
  | create R' node h =>
    refine ⟨m, ?_, .kept _⟩
    have hne : R ≠ R' := by
      rintro rfl
      rw [hm] at h
      cases h
    rw [set_rooms, if_neg hne]
    exact hm
  | next l R' m₁ m₂ h₁ hn => exact hset R' m₁ m₂ h₁ fun _ => .next l m₂ hn
  | perform R' m₁ c h₁ hc hr =>
    refine hset R' m₁ _ h₁ ?_
    rintro rfl
    exact .performed c hc
  | answer R' m₁ ok h₁ hr =>
    refine hset R' m₁ _ h₁ ?_
    rintro rfl
    exact .answered ok hr
  | fail R' sent m₁ c late h₁ hc hl =>
    refine hset R' m₁ _ h₁ ?_
    rintro rfl
    exact .failed sent c hc
  | arrive i c hc => exact ⟨m, hm, .kept _⟩
  | drop i => exact ⟨m, hm, .kept _⟩
  | clock t => exact ⟨m, hm, .kept _⟩

/-- A room stays, on the node that made it. -/
theorem Move.room (hmv : Move ttl s l s') (hm : s.rooms R = some m) :
    ∃ m', s'.rooms R = some m' ∧ m'.node = m.node := by
  obtain ⟨m', hm', hch⟩ := hmv.change hm
  refine ⟨m', hm', ?_⟩
  cases hch with
  | kept => rfl
  | next l m' hn => exact next_node hn
  | performed c hc => rfl
  | answered ok hr => exact returned_node ok m
  | failed sent c hc => exact returned_node false m

/-- A goroutine that is done stays so. -/
theorem Move.done (hmv : Move ttl s l s') (hm : s.rooms R = some m) (hd : m.stage = .done) :
    ∃ m', s'.rooms R = some m' ∧ m'.stage = .done := by
  have hcall : m.call ttl R = none := by
    unfold Maintainer.call
    rw [hd]
  obtain ⟨m', hm', hch⟩ := hmv.change hm
  refine ⟨m', hm', ?_⟩
  cases hch with
  | kept => exact hd
  | next l m' hn =>
    cases l with
    | stop =>
      cases hn
      exact hd
    | launch => simp [Maintainer.next, hd] at hn
    | fire => simp [Maintainer.next, Maintainer.ticking, hd] at hn
    | tick => simp [Maintainer.next, hd] at hn
    | quit => simp [Maintainer.next, hd] at hn
    | _ => cases hn
  | performed c hc =>
    rw [hcall] at hc
    cases hc
  | answered ok hr =>
    unfold Maintainer.returned
    rw [hd]
    exact hd
  | failed sent c hc =>
    rw [hcall] at hc
    cases hc

/-- What carrying out a call does to the key of a room. -/
theorem perform_cell {c : Leases.Call} {node : String} (hc : Issued ttl R node c) (redis : Redis)
    (now : Time) (R' : String) :
    (Leases.step redis (now, c)).1.lookup (ownerKey R') = redis.lookup (ownerKey R') ∨
    R' = R ∧ (c = .release R node ∧
        (Leases.step redis (now, c)).1.lookup (ownerKey R') = none ∨
      Held R' node (now + (ttl node).duration) (Leases.step redis (now, c)).1) := by
  by_cases hR : R' = R
  swap
  · left
    have hkey : ownerKey R' ≠ ownerKey R := fun hk => hR (Leases.ownerKey_inj hk)
    cases hc with
    | acquire => exact Keyspace.lookup_setNX_ne redis now hkey _ _
    | renew =>
      change (renewRoomLease redis now R node (ttl node)).1.lookup _ = _
      unfold renewRoomLease
      split
      · exact Keyspace.lookup_pexpire_ne redis now hkey _
      · rfl
    | release =>
      change (releaseRoomLease redis now R node).lookup _ = _
      unfold releaseRoomLease
      split
      · exact AList.lookup_erase_ne hkey
      · rfl
  subst hR
  cases hc with
  | acquire =>
    cases hok : (acquireRoomLease redis now R' node (ttl node)).2 with
    | true =>
      have hg : (Leases.step redis (now, .acquire R' node (ttl node))).2 = [true] :=
        congrArg (fun b => [b]) hok
      exact Or.inr ⟨rfl, Or.inr (Leases.grant_held .acquire hg)⟩
    | false =>
      left
      change (acquireRoomLease redis now R' node (ttl node)).1.lookup _ = _
      unfold acquireRoomLease Keyspace.setNX at hok ⊢
      split at hok
      · cases hok
      · rfl
  | renew =>
    cases hok : (renewRoomLease redis now R' node (ttl node)).2 with
    | true =>
      have hg : (Leases.step redis (now, .renew R' node (ttl node))).2 = [true] :=
        congrArg (fun b => [b]) hok
      exact Or.inr ⟨rfl, Or.inr (Leases.grant_held .renew hg)⟩
    | false =>
      left
      change (renewRoomLease redis now R' node (ttl node)).1.lookup _ = _
      unfold renewRoomLease at hok ⊢
      split at hok
      · next hget =>
        rw [Keyspace.pexpire_eq hget] at hok
        cases hok
      · next hget => rw [if_neg hget]
  | release =>
    change (releaseRoomLease redis now R' node).lookup _ = _ ∨ _
    unfold releaseRoomLease
    by_cases hget : redis.get now (ownerKey R') = some node
    · right
      refine ⟨rfl, Or.inl ⟨rfl, ?_⟩⟩
      change (releaseRoomLease redis now R' node).lookup _ = _
      unfold releaseRoomLease
      rw [if_pos hget]
      exact AList.lookup_erase (ownerKey R') redis
    · left
      rw [if_neg hget]

/-! ## One owner -/

/-- The keys and the calls under way are those of the rooms and their nodes. -/
structure Sole (ttl : String → TTL) (s : Sys) : Prop where
  cell : ∀ R cell, s.redis.lookup (ownerKey R) = some cell →
    ∃ m, s.rooms R = some m ∧ cell.value = m.node
  late : ∀ c ∈ s.late, ∃ R m, s.rooms R = some m ∧ Issued ttl R m.node c
  release : ∀ R node, .release R node ∈ s.late → ∃ m, s.rooms R = some m ∧ m.stage = .done

theorem Sole.carried (h : Sole ttl s) {c : Leases.Call} (hm : s.rooms R = some m)
    (hc : Issued ttl R m.node c) (R' : String) (cell : Cell Time String)
    (hcell : (Leases.step s.redis (s.now, c)).1.lookup (ownerKey R') = some cell) :
    ∃ m, s.rooms R' = some m ∧ cell.value = m.node := by
  obtain heq | ⟨rfl, ⟨-, hnone⟩ | hheld⟩ := perform_cell hc s.redis s.now R'
  · rw [heq] at hcell
    exact h.cell R' cell hcell
  · rw [hnone] at hcell
    cases hcell
  · rw [hheld] at hcell
    cases hcell
    exact ⟨m, hm, rfl⟩

theorem Sole.move (h : Sole ttl s) (hmv : Move ttl s l s') : Sole ttl s' := by
  have hkeep : ∀ R (node : String), (∃ m, s.rooms R = some m ∧ node = m.node) →
      ∃ m, s'.rooms R = some m ∧ node = m.node := by
    rintro R _ ⟨m, hm, rfl⟩
    obtain ⟨m', hm', hn⟩ := hmv.room hm
    exact ⟨m', hm', hn.symm⟩
  have hcells : s'.redis = s.redis → ∀ R cell, s'.redis.lookup (ownerKey R) = some cell →
      ∃ m, s'.rooms R = some m ∧ cell.value = m.node := by
    intro hr R cell hcell
    rw [hr] at hcell
    exact hkeep R _ (h.cell R cell hcell)
  have hlate : ∀ c, (∃ R m, s.rooms R = some m ∧ Issued ttl R m.node c) →
      ∃ R m, s'.rooms R = some m ∧ Issued ttl R m.node c := by
    rintro c ⟨R, m, hm, hc⟩
    obtain ⟨m', hm', hn⟩ := hmv.room hm
    refine ⟨R, m', hm', ?_⟩
    rw [hn]
    exact hc
  have hrel : (∀ c ∈ s'.late, c ∈ s.late) → ∀ R node, .release R node ∈ s'.late →
      ∃ m, s'.rooms R = some m ∧ m.stage = .done := by
    intro hsub R node hin
    obtain ⟨m, hm, hd⟩ := h.release R node (hsub _ hin)
    exact hmv.done hm hd
  have hsame : s'.redis = s.redis → s'.late = s.late → Sole ttl s' := by
    intro hr hl
    refine ⟨hcells hr, ?_, hrel (by rw [hl]; exact fun c hc => hc)⟩
    rw [hl]
    exact fun c hc => hlate c (h.late c hc)
  cases hmv with
  | create R node hm => exact hsame rfl rfl
  | next l R m m' hm hn => exact hsame rfl rfl
  | perform R m c hm hc hr =>
    refine ⟨?_, fun c hc => hlate c (h.late c hc), hrel fun c hc => hc⟩
    intro R' cell hcell
    exact hkeep R' _ (h.carried hm (call_issued hc) R' cell hcell)
  | answer R m ok hm hr => exact hsame rfl rfl
  | fail R sent m c late hm hc hl =>
    have hin : ∀ c' ∈ late, c' ∈ s.late ∨ c' = c := by
      intro c' hc'
      obtain rfl | rfl := hl
      · exact Or.inl hc'
      · exact (List.mem_append.mp hc').imp_right List.mem_singleton.mp
    refine ⟨hcells rfl, ?_, ?_⟩
    · intro c' hc'
      obtain hold | rfl := hin c' hc'
      · exact hlate c' (h.late c' hold)
      · exact hlate c' ⟨R, m, hm, call_issued hc⟩
    · intro R' node hc'
      obtain hold | rfl := hin _ hc'
      · obtain ⟨m', hm', hd⟩ := h.release R' node hold
        exact (Move.fail R sent m c late hm hc hl).done hm' hd
      · -- a release that was given up was the goroutine's last call
        unfold Maintainer.call at hc
        split at hc
        · cases hc
        · cases hc
        · cases hc
        · next hstage =>
          cases hc
          refine ⟨m.returned false, ?_, ?_⟩
          · change (s.set R _).rooms R = _
            rw [set_rooms, if_pos rfl]
          · unfold Maintainer.returned
            rw [hstage]
        · cases hc
  | arrive i c hc =>
    refine ⟨?_, ?_, hrel fun c hc => List.mem_of_mem_eraseIdx hc⟩
    · intro R' cell hcell
      obtain ⟨R, m, hm, hi⟩ := h.late c hc
      exact hkeep R' _ (h.carried hm hi R' cell hcell)
    · exact fun c hc => hlate c (h.late c (List.mem_of_mem_eraseIdx hc))
  | drop i =>
    refine ⟨hcells rfl, ?_, hrel fun c hc => List.mem_of_mem_eraseIdx hc⟩
    exact fun c hc => hlate c (h.late c (List.mem_of_mem_eraseIdx hc))
  | clock t => exact hsame rfl rfl

theorem sole_start : Sole ttl {} where
  cell := fun R cell h => by cases h
  late := fun c h => by cases h
  release := fun R node h => by cases h

theorem run_sole (ls : List Label) (hr : run ttl ls = some s) : Sole ttl s :=
  exec_invariant (step ttl) (fun _ _ => True) (Sole ttl)
    (fun _ _ _ _ h hstep => h.move (step_move hstep)) {} s sole_start ls
    (meets_of_forall (step ttl) _ (fun _ _ => trivial) {} ls) hr

/-- **A room is owned by its node or by nobody.** In every run of any number of
nodes, with calls lost, carried out late or answered late in any way and with any
clock: the key of a room never names another node than the one that made the room;
so at every instant exactly one of the node's own renewal and re-acquisition would
be granted, and no other node's renewal would. -/
theorem owner_is_creator (ttl : String → TTL) (ls : List Label) (s : Sys)
    (hr : run ttl ls = some s) (R : String) (t : Time) :
    (s.rooms R = none → roomOwner s.redis t R = none) ∧
    ∀ m, s.rooms R = some m →
      (roomOwner s.redis t R = none ∨ roomOwner s.redis t R = some m.node) ∧
      (∀ d, (renewRoomLease s.redis t R m.node d).2 = !(acquireRoomLease s.redis t R m.node d).2) ∧
      ∀ other ≠ m.node, ∀ d, (renewRoomLease s.redis t R other d).2 = false := by
  have h := run_sole ls hr
  have howner : ∀ node, roomOwner s.redis t R = some node → ∃ m, s.rooms R = some m ∧
      node = m.node := by
    intro node hget
    obtain ⟨x, hcell, -⟩ := (Keyspace.get_eq_some _ _ _ _).mp hget
    exact h.cell R _ hcell
  refine ⟨?_, fun m hm => ?_⟩
  · intro hnone
    cases hget : roomOwner s.redis t R with
    | none => rfl
    | some node =>
      obtain ⟨m, hm, -⟩ := howner node hget
      rw [hnone] at hm
      cases hm
  · have hself : ∀ node, roomOwner s.redis t R = some node → node = m.node := by
      intro node hget
      obtain ⟨m', hm', hn⟩ := howner node hget
      rw [hm] at hm'
      cases hm'
      exact hn
    refine ⟨?_, fun d => ?_, fun other hne d => ?_⟩
    · cases hget : roomOwner s.redis t R with
      | none => exact Or.inl rfl
      | some node =>
        rw [hself node hget]
        exact Or.inr rfl
    · unfold renewRoomLease acquireRoomLease Keyspace.setNX
      cases hget : s.redis.get t (ownerKey R) with
      | none => rfl
      | some node =>
        have hn := hself node hget
        subst hn
        rw [if_pos rfl, Keyspace.pexpire_eq hget]
        rfl
    · have hget : s.redis.get t (ownerKey R) ≠ some other := fun hget => hne (hself other hget)
      rw [renewRoomLease, if_neg hget]

end Steps

/-- Nodes with a TTL of nine milliseconds. -/
def nine (_ : String) : TTL := ⟨9, by decide⟩

/-- Node `a` makes a room and loses both calls of the first tick; the renewal is carried
out after the one of the second tick. -/
def healed : List Label :=
  [.create "r" "a", .perform "r", .answer "r", .launch "r", .clock (3 * millisecond), .fire "r",
    .tick "r", .fail "r" true, .fail "r" false, .clock (6 * millisecond), .fire "r", .tick "r",
    .perform "r", .answer "r", .arrive 0, .clock (9 * millisecond)]

theorem healed_not_taken :
    ∃ s m, run nine healed = some s ∧ s.rooms "r" = some m ∧
      ∀ t, ∀ other ≠ m.node, ∀ d, (renewRoomLease s.redis t "r" other d).2 = false := by
  have hend : ((run nine healed).any fun s => (s.rooms "r").isSome) = true := by decide +kernel
  obtain ⟨s, hs, htest⟩ := Option.any_eq_true _ _ |>.mp hend
  obtain ⟨m, hm⟩ := Option.isSome_iff_exists.mp htest
  exact ⟨s, m, hs, hm, fun t => ((owner_is_creator nine healed s hs "r" t).2 m hm).2.2⟩

end RealtimeEngine.Storage.Maintenance
