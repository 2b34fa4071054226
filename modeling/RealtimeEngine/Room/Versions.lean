import Mathlib.Data.List.TakeWhile
import RealtimeEngine.Room.Exits

/-! `serverSeq` as a version number of the game state: state diffs number the
versions, everything else a room sends carries the current one, and between
two diffs the state, and so every snapshot, stays what it was. -/
namespace RealtimeEngine.Rooms
open Foundations Domain
set_option autoImplicit false
set_option maxHeartbeats 250000

/-! ## Versions along a trace -/

def isDiff : Input × Output → Bool
  | (_, .broadcast ev) => ev.kind = .stateDiff
  | _ => false

def isStart : Input × Output → Bool
  | (_, .broadcast ev) => ev.kind = .roomStarted
  | _ => false

def diffSeq : Input × Output → Option ℕ
  | (_, .broadcast ev) => if ev.kind = .stateDiff then some ev.serverSeq else none
  | _ => none

/-- The `ServerSeq` values of the state diffs, in order. -/
def diffSeqs (h : List (Input × Output)) : List ℕ := h.filterMap diffSeq

/-- The commands whose successful reply carries a version. -/
def Command.versioned : Command → Bool
  | .join _ | .action _ | .reconnect _ | .snapshot => true
  | _ => false

/-- The entry carries the right version when `v` diffs were broadcast before it. -/
def Stamped (v : ℕ) : Input × Output → Prop
  | (_, .broadcast ev) => ev.serverSeq = if ev.kind = .stateDiff then v + 1 else v
  | (.command _ cmd, .reply res) => cmd.versioned = true → res.err = none → res.serverSeq = v
  | _ => True

def StampedFrom : ℕ → List (Input × Output) → Prop
  | _, [] => True
  | v, e :: es => Stamped v e ∧ StampedFrom (if isDiff e then v + 1 else v) es

/-- The snapshot an entry hands out, with the version it claims. -/
def snapshotOf : Input × Output → Option (ℕ × RawMessage)
  | (_, .broadcast ev) => if ev.kind = .roomStarted then some (ev.serverSeq, ev.snapshot) else none
  | (.command _ (.join _), .reply res) | (.command _ (.reconnect _), .reply res)
  | (.command _ .snapshot, .reply res) =>
    if res.err = none then some (res.serverSeq, res.snapshot) else none
  | _ => none

/-- The trace from the `ROOM_STARTED` broadcast on. -/
def sinceStart (h : List (Input × Output)) : List (Input × Output) :=
  h.dropWhile fun e => !isStart e

def handedOut (h : List (Input × Output)) : List (ℕ × RawMessage) :=
  (sinceStart h).filterMap snapshotOf

theorem diffSeq_isSome (e : Input × Output) : (diffSeq e).isSome = isDiff e := by
  obtain ⟨i, o⟩ := e
  cases o with
  | broadcast ev =>
    unfold diffSeq isDiff
    by_cases hk : ev.kind = .stateDiff <;> simp [hk]
  | reply res => rfl
  | afterFunc p k => rfl

theorem diffSeqs_cons_length (e : Input × Output) (h : List (Input × Output)) :
    (diffSeqs (e :: h)).length = (if isDiff e then 1 else 0) + (diffSeqs h).length := by
  unfold diffSeqs
  rw [List.filterMap_cons]
  have hs := diffSeq_isSome e
  cases hd : diffSeq e with
  | none =>
    rw [hd] at hs
    simp [← hs]
  | some v =>
    rw [hd] at hs
    simp [← hs]
    omega

theorem stampedFrom_append (v : ℕ) (h h' : List (Input × Output)) :
    StampedFrom v (h ++ h') ↔ StampedFrom v h ∧ StampedFrom (v + (diffSeqs h).length) h' := by
  induction h generalizing v with
  | nil => simp [StampedFrom, diffSeqs]
  | cons e h ih =>
    rw [List.cons_append, StampedFrom, StampedFrom, ih, diffSeqs_cons_length, and_assoc]
    by_cases hd : isDiff e = true
    · simp only [hd, if_true, ← Nat.add_assoc]
    · simp only [hd, if_false, Nat.zero_add, Bool.false_eq_true]

theorem diffSeqs_of_stampedFrom (v : ℕ) (h : List (Input × Output)) (hs : StampedFrom v h) :
    diffSeqs h = List.range' (v + 1) (diffSeqs h).length := by
  induction h generalizing v with
  | nil => rfl
  | cons e h ih =>
    obtain ⟨he, hrest⟩ := hs
    have htail := ih _ hrest
    obtain ⟨i, o⟩ := e
    by_cases hd : isDiff (i, o) = true
    · cases o with
      | broadcast ev =>
        have hk : ev.kind = .stateDiff := by simpa [isDiff] using hd
        have hv : ev.serverSeq = v + 1 := by simpa [Stamped, hk] using he
        have hcons : diffSeqs ((i, .broadcast ev) :: h) = (v + 1) :: diffSeqs h := by
          unfold diffSeqs
          rw [List.filterMap_cons]
          simp [diffSeq, hk, hv]
        rw [if_pos hd] at htail
        rw [hcons, List.length_cons, List.range'_succ, ← htail]
      | reply res => cases hd
      | afterFunc p k => cases hd
    · have hn : diffSeq (i, o) = none := by
        rw [← Option.not_isSome_iff_eq_none, diffSeq_isSome]
        exact hd
      have hcons : diffSeqs ((i, o) :: h) = diffSeqs h := by
        unfold diffSeqs
        rw [List.filterMap_cons, hn]
      rw [if_neg hd] at htail
      rw [hcons]
      exact htail

theorem sinceStart_append_of_mem (h h' : List (Input × Output))
    (hs : ∃ e ∈ h, isStart e = true) : sinceStart (h ++ h') = sinceStart h ++ h' := by
  unfold sinceStart
  rw [List.dropWhile_append, if_neg]
  rw [List.isEmpty_iff, List.dropWhile_eq_nil_iff]
  obtain ⟨e, he, hst⟩ := hs
  intro hall
  have := hall e he
  rw [hst] at this
  exact Bool.noConfusion this

theorem sinceStart_append_of_not_mem (h h' : List (Input × Output))
    (hs : ∀ e ∈ h, isStart e = false) : sinceStart (h ++ h') = sinceStart h' := by
  unfold sinceStart
  rw [List.dropWhile_append, if_pos]
  rw [List.isEmpty_iff, List.dropWhile_eq_nil_iff]
  intro e he
  rw [hs e he]
  rfl

section Turns
variable {σ : Type}

/-! ## Outputs that leave the version alone -/

/-- An output that is neither a diff nor the start, and agrees with version `v` and snapshot `x`. -/
structure Plain (v : ℕ) (x : RawMessage) (e : Input × Output) : Prop where
  notDiff : isDiff e = false
  notStart : isStart e = false
  stamped : Stamped v e
  snapshot : ∀ y, snapshotOf e = some y → y = (v, x)

theorem snapshotOf_reply (i : Input) (res : CmdResult) (y : ℕ × RawMessage)
    (hy : snapshotOf (i, .reply res) = some y) :
    res.err = none ∧ y = (res.serverSeq, res.snapshot) := by
  have hite : (if res.err = none then some (res.serverSeq, res.snapshot) else none) = some y →
      res.err = none ∧ y = (res.serverSeq, res.snapshot) := by
    intro h
    split at h
    · next herr => exact ⟨herr, (Option.some.inj h).symm⟩
    · cases h
  cases i with
  | tick now => cases hy
  | command now cmd =>
    cases cmd with
    | join p => exact hite hy
    | reconnect p => exact hite hy
    | snapshot => exact hite hy
    | leave p => cases hy
    | action a => cases hy
    | disconnect p => cases hy
    | graceExpired p k => cases hy
    | forceClose => cases hy

/-- A reply that carries the version and snapshot whenever it is a success. -/
theorem plain_of_reply (v : ℕ) (x : RawMessage) (i : Input) (res : CmdResult)
    (h : res.err = none → res.serverSeq = v ∧ res.snapshot = x) : Plain v x (i, .reply res) := by
  refine ⟨rfl, rfl, ?_, ?_⟩
  · cases i with
    | tick now => trivial
    | command now cmd => exact fun _ herr => (h herr).1
  · intro y hy
    obtain ⟨herr, rfl⟩ := snapshotOf_reply i res y hy
    rw [(h herr).1, (h herr).2]

theorem plain_failReply (v : ℕ) (x : RawMessage) (i : Input) (err : Err) :
    Plain v x (i, failReply err) :=
  plain_of_reply v x i _ fun h => by cases h

theorem plain_snapshotReply (g : Game σ) (r : Room σ) (i : Input) (seat : ℕ) :
    Plain r.serverSeq (snapshotBytes g r) (i, snapshotReply g r seat) :=
  plain_of_reply _ _ i _ fun _ => ⟨rfl, rfl⟩

theorem plain_playerEvent (r : Room σ) (x : RawMessage) (i : Input) (kind : EventKind)
    (p : PlayerID) (hd : kind ≠ .stateDiff) (hs : kind ≠ .roomStarted) :
    Plain r.serverSeq x (i, playerEvent r kind p) := by
  refine ⟨by simpa [isDiff, playerEvent] using hd, by simpa [isStart, playerEvent] using hs, ?_, ?_⟩
  · simp [Stamped, playerEvent, hd]
  · intro y hy
    simp [snapshotOf, playerEvent, hs] at hy

theorem plain_closedEvent (r : Room σ) (x : RawMessage) (i : Input) :
    Plain r.serverSeq x (i, closedEvent r) :=
  plain_playerEvent r x i .roomClosed "" EventKind.noConfusion EventKind.noConfusion

/-- A reply to a command that asks for no version. -/
theorem plain_reply (v : ℕ) (x : RawMessage) (now : Time) (cmd : Command) (res : CmdResult)
    (hc : cmd.versioned = false) : Plain v x (.command now cmd, .reply res) := by
  refine ⟨rfl, rfl, ?_, ?_⟩
  · intro hv
    rw [hc] at hv
    cases hv
  · intro y hy
    cases cmd with
    | join p => cases hc
    | action a => cases hc
    | reconnect p => cases hc
    | snapshot => cases hc
    | leave p => cases hy
    | disconnect p => cases hy
    | graceExpired p k => cases hy
    | forceClose => cases hy

theorem plain_afterFunc (v : ℕ) (x : RawMessage) (i : Input) (p : PlayerID) (k : ℕ) :
    Plain v x (i, .afterFunc p k) := by
  refine ⟨rfl, rfl, ?_, ?_⟩
  · cases i <;> trivial
  · intro y hy
    unfold snapshotOf at hy
    split at hy <;> first | cases hy | (next heq => cases heq)

theorem stampedFrom_plain (v : ℕ) (x : RawMessage) (h : List (Input × Output))
    (hp : ∀ e ∈ h, Plain v x e) : StampedFrom v h ∧ diffSeqs h = [] := by
  induction h with
  | nil => exact ⟨trivial, rfl⟩
  | cons e h ih =>
    have he := hp e List.mem_cons_self
    obtain ⟨hs, hd⟩ := ih fun e' he' => hp e' (List.mem_cons_of_mem e he')
    refine ⟨⟨he.stamped, ?_⟩, ?_⟩
    · rw [he.notDiff]
      exact hs
    · have hn : diffSeq e = none := by
        rw [← Option.not_isSome_iff_eq_none, diffSeq_isSome, he.notDiff]
        exact Bool.noConfusion
      unfold diffSeqs at hd ⊢
      rw [List.filterMap_cons, hn]
      exact hd

/-! ## What one turn does to the version -/

/-- The three kinds of turn. -/
inductive Turn (g : Game σ) (r r' : Room σ) : List (Input × Output) → Prop
  | quiet (h : List (Input × Output)) (hv : r'.serverSeq = r.serverSeq) (hs : r'.state = r.state)
      (hl : r'.lifecycle = .waiting → r.lifecycle = .waiting)
      (hp : ∀ e ∈ h, Plain r.serverSeq (snapshotBytes g r) e) : Turn g r r' h
  | start (e s : Input × Output) (h : List (Input × Output)) (hv : r'.serverSeq = r.serverSeq)
      (hw : r.lifecycle = .waiting) (hl : r'.lifecycle = .active)
      (he : Plain r.serverSeq (snapshotBytes g r') e)
      (hs : isStart s = true ∧ Stamped r.serverSeq s ∧ isDiff s = false ∧
        snapshotOf s = some (r.serverSeq, snapshotBytes g r'))
      (hp : ∀ e ∈ h, Plain r.serverSeq (snapshotBytes g r') e) : Turn g r r' (e :: s :: h)
  | diff (d : Input × Output) (h : List (Input × Output)) (hv : r'.serverSeq = r.serverSeq + 1)
      (hl : r.lifecycle = .active) (hl' : r'.lifecycle ≠ .waiting)
      (hd : isDiff d = true ∧ Stamped r.serverSeq d ∧ isStart d = false ∧ snapshotOf d = none)
      (hp : ∀ e ∈ h, Plain (r.serverSeq + 1) (snapshotBytes g r') e) : Turn g r r' (d :: h)

theorem diffEvent_entry (r : Room σ) (v : ℕ) (i : Input) (res : Result σ) (t : Bool) (p : PlayerID)
    (hv : r.serverSeq = v + 1) :
    isDiff (i, diffEvent r res t p) = true ∧ Stamped v (i, diffEvent r res t p) ∧
      isStart (i, diffEvent r res t p) = false ∧ snapshotOf (i, diffEvent r res t p) = none := by
  refine ⟨rfl, ?_, rfl, rfl⟩
  simp [Stamped, diffEvent, hv]

theorem forall_entry (i : Input) (outs : List Output) (P : Input × Output → Prop)
    (h : ∀ o ∈ outs, P (i, o)) : ∀ e ∈ outs.map (fun o => (i, o)), P e := by
  intro e he
  obtain ⟨o, ho, rfl⟩ := List.mem_map.mp he
  exact h o ho

theorem exit_turn {g : Game σ} {r r' : Room σ} {i : Input} {outs : List Output}
    (he : Exit g r i r' outs) : Turn g r r' (outs.map fun o => (i, o)) := by
  have hopen : r.lifecycle = .active → r.lifecycle ≠ .waiting := by
    intro hl
    rw [hl]
    exact Lifecycle.noConfusion
  cases he with
  | stopped | tickIgnored => exact .quiet _ rfl rfl id fun e he => by cases he
  | rejected now cmd err =>
    exact .quiet _ rfl rfl id (forall_entry _ _ _
      (List.forall_mem_singleton.mpr (plain_failReply _ _ _ err)))
  | rejoined now p slot =>
    exact .quiet _ rfl rfl id (forall_entry _ _ _
      (List.forall_mem_singleton.mpr (plain_snapshotReply g (touch now r) _ slot.seat)))
  | seated now p =>
    refine .quiet _ rfl rfl id (forall_entry _ _ _ ?_)
    refine List.forall_mem_cons.mpr ⟨?_, List.forall_mem_singleton.mpr ?_⟩
    · exact plain_playerEvent (seatPlayer (touch now r) p) _ _ _ p EventKind.noConfusion
        EventKind.noConfusion
    · exact plain_snapshotReply g (seatPlayer (touch now r) p) _ _
  | initFailed now p err =>
    refine .quiet _ rfl rfl id (forall_entry _ _ _ ?_)
    refine List.forall_mem_cons.mpr ⟨?_, List.forall_mem_singleton.mpr ?_⟩
    · exact plain_playerEvent (seatPlayer (touch now r) p) _ _ _ p EventKind.noConfusion
        EventKind.noConfusion
    · exact plain_failReply _ _ _ err
  | started now p state hw =>
    refine .start _ _ _ rfl hw rfl ?_ ⟨rfl, ?_, rfl, rfl⟩ ?_
    · exact plain_playerEvent (seatPlayer (touch now r) p) _ _ _ p EventKind.noConfusion
        EventKind.noConfusion
    · simp [Stamped, startedEvent, start]
    · intro e he
      rw [List.mem_singleton.mp he]
      exact plain_snapshotReply g (start (touch now r) p state) _ _
  | ignored now p cmd ho hc =>
    refine .quiet _ rfl rfl id (forall_entry _ _ _ ?_)
    refine List.forall_mem_singleton.mpr (plain_reply _ _ now cmd _ ?_)
    rcases hc with rfl | rfl <;> rfl
  | left now p slot =>
    refine .quiet _ rfl rfl id (forall_entry _ _ _ ?_)
    exact List.forall_mem_singleton.mpr (plain_reply _ _ now (.leave p) _ rfl)
  | emptied now p slot =>
    refine .quiet _ rfl rfl (fun h => Lifecycle.noConfusion h) (forall_entry _ _ _ ?_)
    exact List.forall_mem_singleton.mpr (plain_reply _ _ now (.leave p) _ rfl)
  | dropped now p cmd slot ho hc =>
    have hv : cmd.versioned = false := by rcases hc with rfl | ⟨rfl, -⟩ <;> rfl
    refine .quiet _ rfl rfl id (forall_entry _ _ _ ?_)
    intro o ho'
    rcases List.mem_append.mp ho' with hin | hin
    · rcases List.mem_pair.mp hin with rfl | rfl
      · exact plain_playerEvent (touch now r) _ _ _ p EventKind.noConfusion EventKind.noConfusion
      · exact plain_reply _ _ now cmd _ hv
    · split at hin
      · rw [List.mem_singleton.mp hin]
        exact plain_afterFunc _ _ _ p _
      · cases hin
  | applied now a slot result ha =>
    refine .diff _ _ ?_ ha.active ?_
      (diffEvent_entry (advance (touch now r) result) r.serverSeq _ result _ _ rfl) ?_
    · rw [settle_serverSeq]
      rfl
    · rw [settle_lifecycle]
      split
      · exact Lifecycle.noConfusion
      · exact hopen ha.active
    · intro e he
      rw [List.mem_singleton.mp he]
      exact ⟨rfl, rfl, fun _ _ => rfl, fun y hy => by cases hy⟩
  | reconnected now p slot =>
    refine .quiet _ rfl rfl id (forall_entry _ _ _ ?_)
    intro o ho
    rcases List.mem_append.mp ho with hin | hin
    · split at hin
      · cases hin
      · rw [List.mem_singleton.mp hin]
        exact plain_playerEvent (touch now r) _ _ _ p EventKind.noConfusion EventKind.noConfusion
    · rw [List.mem_singleton.mp hin]
      exact plain_snapshotReply g (touch now r) _ slot.seat
  | graceIgnored => exact .quiet _ rfl rfl id fun e he => by cases he
  | forfeited now p k slot result hf =>
    exact .diff _ _ rfl hf.active Lifecycle.noConfusion
      (diffEvent_entry (advance (touch now r) result) r.serverSeq _ result _ _ rfl)
      fun e he => by cases he
  | forceClosed now =>
    refine .quiet _ rfl rfl (fun h => Lifecycle.noConfusion h) (forall_entry _ _ _ ?_)
    exact List.forall_mem_cons.mpr ⟨plain_closedEvent r _ _,
      List.forall_mem_singleton.mpr (plain_reply _ _ now .forceClose _ rfl)⟩
  | snapshot now =>
    exact .quiet _ rfl rfl id (forall_entry _ _ _
      (List.forall_mem_singleton.mpr (plain_snapshotReply g (touch now r) _ 0)))
  | ticked now st result hl =>
    refine .diff _ _ ?_ hl ?_
      (diffEvent_entry (advance r result) r.serverSeq _ result _ _ rfl) fun e he => by cases he
    · rw [settle_serverSeq]
      rfl
    · rw [settle_lifecycle]
      split
      · exact Lifecycle.noConfusion
      · exact hopen hl

/-- What the three kinds have in common. -/
structure Turn.Effect (g : Game σ) (r r' : Room σ) (b : List (Input × Output)) : Prop where
  stamps : StampedFrom r.serverSeq b
  count : r'.serverSeq = r.serverSeq + (diffSeqs b).length
  snapshots : ∀ e ∈ b, ∀ y, snapshotOf e = some y → y = (r'.serverSeq, snapshotBytes g r')
  waiting : r'.lifecycle = .waiting → r.lifecycle = .waiting ∧ ∀ e ∈ b, isStart e = false
  starts : b.countP isStart ≤ if r.lifecycle = .waiting then 1 else 0
  older : r.lifecycle = .waiting ∨ r.serverSeq < r'.serverSeq ∨
    r'.serverSeq = r.serverSeq ∧ snapshotBytes g r' = snapshotBytes g r
  state : r'.state = r.state ∨ r'.serverSeq = r.serverSeq + 1 ∨
    r.lifecycle = .waiting ∧ ∃ e ∈ b, isStart e = true

theorem countP_plain (v : ℕ) (x : RawMessage) (h : List (Input × Output))
    (hp : ∀ e ∈ h, Plain v x e) : h.countP isStart = 0 := by
  apply List.countP_eq_zero.mpr
  intro e he
  rw [(hp e he).notStart]
  exact Bool.noConfusion

theorem snapshotBytes_congr (g : Game σ) {r r' : Room σ} (h : r'.state = r.state) :
    snapshotBytes g r' = snapshotBytes g r := by
  unfold snapshotBytes
  rw [h]

theorem Turn.effect {g : Game σ} {r r' : Room σ} {b : List (Input × Output)}
    (t : Turn g r r' b) : Turn.Effect g r r' b := by
  cases t with
  | quiet _ hv hs hl hp =>
    obtain ⟨hst, hd⟩ := stampedFrom_plain _ _ b hp
    have hsnap := snapshotBytes_congr g hs
    refine ⟨hst, ?_, ?_, ?_, ?_, Or.inr (Or.inr ⟨hv, hsnap⟩), Or.inl hs⟩
    · rw [hd, hv]
      rfl
    · intro e he y hy
      rw [hv, hsnap]
      exact (hp e he).snapshot y hy
    · intro hw
      exact ⟨hl hw, fun e he => (hp e he).notStart⟩
    · rw [countP_plain _ _ b hp]
      exact Nat.zero_le _
  | start e s h hv hw hl he hs hp =>
    obtain ⟨hstart, hstamp, hnd, hsnap⟩ := hs
    obtain ⟨hst, hd⟩ := stampedFrom_plain _ _ h hp
    have hblock : StampedFrom r.serverSeq (e :: s :: h) := by
      refine ⟨he.stamped, ?_⟩
      rw [he.notDiff]
      refine ⟨hstamp, ?_⟩
      rw [hnd]
      exact hst
    refine ⟨hblock, ?_, ?_, ?_, ?_, Or.inl hw, Or.inr (Or.inr ⟨hw, s, ?_, hstart⟩)⟩
    · rw [diffSeqs_cons_length, diffSeqs_cons_length, he.notDiff, hnd, hd, hv]
      rfl
    · intro e' he' y hy
      rw [hv]
      rcases List.mem_cons.mp he' with rfl | he'
      · exact he.snapshot y hy
      · rcases List.mem_cons.mp he' with rfl | he'
        · exact (Option.some.inj (hsnap.symm.trans hy)).symm
        · exact (hp e' he').snapshot y hy
    · intro hw'
      rw [hl] at hw'
      cases hw'
    · rw [if_pos hw, List.countP_cons, List.countP_cons, countP_plain _ _ h hp, he.notStart, hstart]
      exact le_refl _
    · exact List.mem_cons_of_mem e List.mem_cons_self
  | diff d h hv hl hl' hd hp =>
    obtain ⟨hdiff, hstamp, hns, hnone⟩ := hd
    obtain ⟨hst, hdn⟩ := stampedFrom_plain _ _ h hp
    have hblock : StampedFrom r.serverSeq (d :: h) := by
      refine ⟨hstamp, ?_⟩
      rw [hdiff]
      exact hst
    refine ⟨hblock, ?_, ?_, fun hw => absurd hw hl', ?_, Or.inr (Or.inl (by omega)),
      Or.inr (Or.inl hv)⟩
    · rw [diffSeqs_cons_length, hdiff, hdn, hv]
      rfl
    · intro e he y hy
      rw [hv]
      rcases List.mem_cons.mp he with rfl | he
      · rw [hnone] at hy
        cases hy
      · exact (hp e he).snapshot y hy
    · rw [List.countP_cons, countP_plain _ _ h hp, hns]
      exact Nat.zero_le _

/-! ## Whole runs -/

structure Versioned (g : Game σ) (r : Room σ) (h : List (Input × Output)) : Prop where
  count : r.serverSeq = (diffSeqs h).length
  stamps : StampedFrom 0 h
  unstarted : r.lifecycle = .waiting → ∀ e ∈ h, isStart e = false
  once : h.countP isStart ≤ 1
  current : ∀ y ∈ handedOut h,
    y.1 ≤ r.serverSeq ∧ (y.1 = r.serverSeq → y.2 = snapshotBytes g r)
  agree : ∀ y ∈ handedOut h, ∀ z ∈ handedOut h, y.1 = z.1 → y.2 = z.2

theorem handedOut_unstarted (h : List (Input × Output)) (hs : ∀ e ∈ h, isStart e = false) :
    handedOut h = [] := by
  have hnil := sinceStart_append_of_not_mem h [] hs
  rw [List.append_nil] at hnil
  unfold handedOut
  rw [hnil]
  rfl

theorem mem_handedOut_append (h b : List (Input × Output)) (y : ℕ × RawMessage)
    (hy : y ∈ handedOut (h ++ b)) : y ∈ handedOut h ∨ ∃ e ∈ b, snapshotOf e = some y := by
  unfold handedOut at hy
  by_cases hs : ∃ e ∈ h, isStart e = true
  · rw [sinceStart_append_of_mem h b hs, List.filterMap_append, List.mem_append] at hy
    exact hy.imp id fun hb => List.mem_filterMap.mp hb
  · have hn : ∀ e ∈ h, isStart e = false := by
      intro e he
      by_contra hne
      exact hs ⟨e, he, by simpa using hne⟩
    rw [sinceStart_append_of_not_mem h b hn] at hy
    obtain ⟨e, he, hey⟩ := List.mem_filterMap.mp hy
    exact Or.inr ⟨e, (List.dropWhile_suffix _).subset he, hey⟩

theorem Versioned.extend {g : Game σ} {r r' : Room σ} {h b : List (Input × Output)}
    (hv : Versioned g r h) (t : Turn.Effect g r r' b) : Versioned g r' (h ++ b) := by
  have hold : ∀ y ∈ handedOut h,
      y.1 ≤ r'.serverSeq ∧ (y.1 = r'.serverSeq → y.2 = snapshotBytes g r') := by
    intro y hy
    obtain ⟨hle, heq⟩ := hv.current y hy
    rcases t.older with hw | hlt | ⟨hsame, hsnap⟩
    · rw [handedOut_unstarted h (hv.unstarted hw)] at hy
      cases hy
    · exact ⟨by omega, by omega⟩
    · rw [hsame, hsnap]
      exact ⟨hle, heq⟩
  have hcur : ∀ y ∈ handedOut (h ++ b),
      y.1 ≤ r'.serverSeq ∧ (y.1 = r'.serverSeq → y.2 = snapshotBytes g r') := by
    intro y hy
    rcases mem_handedOut_append h b y hy with hy | ⟨e, he, hey⟩
    · exact hold y hy
    · rw [t.snapshots e he y hey]
      exact ⟨le_refl _, fun _ => rfl⟩
  refine ⟨?_, ?_, ?_, ?_, hcur, ?_⟩
  · rw [t.count, hv.count, ← List.length_append]
    unfold diffSeqs
    rw [List.filterMap_append]
  · rw [stampedFrom_append, Nat.zero_add, ← hv.count]
    exact ⟨hv.stamps, t.stamps⟩
  · intro hw e he
    obtain ⟨hw', hb⟩ := t.waiting hw
    rcases List.mem_append.mp he with he | he
    · exact hv.unstarted hw' e he
    · exact hb e he
  · rw [List.countP_append]
    have hb := t.starts
    by_cases hw : r.lifecycle = .waiting
    · rw [if_pos hw] at hb
      have h0 : h.countP isStart = 0 := by
        apply List.countP_eq_zero.mpr
        intro e he
        rw [hv.unstarted hw e he]
        exact Bool.noConfusion
      omega
    · rw [if_neg hw] at hb
      have := hv.once
      omega
  · intro y hy z hz heq
    rcases mem_handedOut_append h b y hy with hy' | ⟨e, he, hey⟩
    · rcases mem_handedOut_append h b z hz with hz' | ⟨e, he, hez⟩
      · exact hv.agree y hy' z hz' heq
      · have hz' := t.snapshots e he z hez
        subst hz'
        exact (hcur y hy).2 heq
    · have hy' := t.snapshots e he y hey
      subst hy'
      exact ((hcur z hz).2 heq.symm).symm

theorem run_versioned (g : Game σ) (id : ID) (gameType : String) (now : Time) (is : List Input) :
    Versioned g (final (step g) (newRoom σ id gameType now) is)
      (trace (step g) (newRoom σ id gameType now) is) := by
  refine trace_invariant (step g) (Versioned g) ?_ _ ?_ is
  · intro r h i hv
    exact hv.extend (exit_turn (step_exit g r i)).effect
  · refine ⟨rfl, trivial, ?_, Nat.zero_le _, ?_, ?_⟩
    · intro _ e he
      cases he
    · intro y hy
      cases hy
    · intro y hy
      cases hy

/-- **`serverSeq` is a faithful version number.** In every run the state diffs
are numbered `1, 2, 3, ...`; every other broadcast and every successful reply to
`Join`, `Action`, `Reconnect` and `Snapshot` carries the number of diffs before
it; snapshots handed out since the start under one number are equal; and apart
from the one start, a turn that changes the game state raises the version. -/
theorem server_seq_faithful (g : Game σ) (id : ID) (gameType : String) (now : Time)
    (is : List Input) :
    let h := trace (step g) (newRoom σ id gameType now) is
    diffSeqs h = List.range' 1 (diffSeqs h).length ∧
    (∀ pre e post, h = pre ++ e :: post → Stamped (diffSeqs pre).length e) ∧
    (∀ y ∈ handedOut h, ∀ z ∈ handedOut h, y.1 = z.1 → y.2 = z.2) ∧
    h.countP isStart ≤ 1 ∧
    ∀ js i ks, is = js ++ i :: ks →
      let r := final (step g) (newRoom σ id gameType now) js
      (step g r i).1.state ≠ r.state →
        (step g r i).1.serverSeq = r.serverSeq + 1 ∨
        r.lifecycle = .waiting ∧ ∃ o ∈ (step g r i).2, isStart (i, o) = true := by
  intro h
  have hv : Versioned g _ h := run_versioned g id gameType now is
  refine ⟨diffSeqs_of_stampedFrom 0 h hv.stamps, ?_, hv.agree, hv.once, ?_⟩
  · intro pre e post he
    have hst := hv.stamps
    rw [he, stampedFrom_append, Nat.zero_add] at hst
    exact hst.2.1
  · intro js i ks _ r hne
    rcases (exit_turn (step_exit g r i)).effect.state with hs | hs | ⟨hw, e, he, hs⟩
    · exact absurd hs hne
    · exact Or.inl hs
    · obtain ⟨o, ho, rfl⟩ := List.mem_map.mp he
      exact Or.inr ⟨hw, o, ho, hs⟩

end Turns
end RealtimeEngine.Rooms
