import RealtimeEngine.Domain.TicTacToe
import RealtimeEngine.Room.Seats

/-! Sequence numbers. `lastAppliedSeq` remembers the last applied number of a
player, with zero also standing for "nothing applied yet". So a room accepts
numbers in strictly increasing order except that zero may repeat: the guard
lets a second zero through as long as nothing else was applied between. -/
namespace RealtimeEngine.Rooms
open Foundations Domain
set_option autoImplicit false
set_option maxHeartbeats 250000

section Sequencing
variable {σ : Type}

/-! ## What a run applied -/

/-- The number an entry of the trace applied for `p`: an action of `p` answered without error. -/
def appliedSeq (p : PlayerID) : Input × Output → Option UInt64
  | (.command _ (.action a), .reply res) =>
    if a.playerID = p ∧ res.err = none then some a.seq else none
  | _ => none

def appliedSeqs (p : PlayerID) (h : List (Input × Output)) : List UInt64 :=
  h.filterMap (appliedSeq p)

theorem appliedSeqs_append (p : PlayerID) (h h' : List (Input × Output)) :
    appliedSeqs p (h ++ h') = appliedSeqs p h ++ appliedSeqs p h' :=
  List.filterMap_append

theorem appliedSeqs_eq_nil (p : PlayerID) (i : Input) (outs : List Output)
    (h : ∀ o ∈ outs, appliedSeq p (i, o) = none) :
    appliedSeqs p (outs.map fun o => (i, o)) = [] := by
  apply List.filterMap_eq_nil_iff.mpr
  intro x hx
  obtain ⟨o, ho, rfl⟩ := List.mem_map.mp hx
  exact h o ho

theorem appliedSeq_failReply (p : PlayerID) (i : Input) (e : Err) :
    appliedSeq p (i, failReply e) = none := by
  unfold appliedSeq failReply
  split
  · next heq =>
    cases heq
    simp
  · rfl

/-- Only an admitted action applies a number, and then exactly its own. -/
theorem exit_applied {g : Game σ} {r r' : Room σ} {i : Input} {outs : List Output}
    (he : Exit g r i r' outs) (p : PlayerID) :
    appliedSeqs p (outs.map fun o => (i, o)) = [] ∨
      ∃ now a slot result, i = .command now (.action a) ∧ a.playerID = p ∧
        Admitted g r a slot result ∧ appliedSeqs p (outs.map fun o => (i, o)) = [a.seq] := by
  cases he with
  | applied now a slot result h =>
    have hout : ∀ res : CmdResult, res.err = none → ∀ ev,
        appliedSeqs p ([.broadcast ev, .reply res].map fun o => (.command now (.action a), o)) =
          if a.playerID = p then [a.seq] else [] := by
      intro res hres ev
      by_cases hp : a.playerID = p <;>
        simp [appliedSeqs, List.filterMap_cons, appliedSeq, hp, hres]
    by_cases hp : a.playerID = p
    · refine Or.inr ⟨now, a, slot, result, rfl, hp, h, ?_⟩
      exact (hout _ rfl _).trans (if_pos hp)
    · exact Or.inl ((hout _ rfl _).trans (if_neg hp))
  | stopped => exact Or.inl rfl
  | rejected now cmd e =>
    refine Or.inl (appliedSeqs_eq_nil p _ _ ?_)
    intro o ho
    rw [List.mem_singleton] at ho
    subst ho
    exact appliedSeq_failReply p _ e
  | ignored now q cmd ho hc =>
    refine Or.inl (appliedSeqs_eq_nil p _ _ ?_)
    intro o _
    rcases hc with rfl | rfl <;> rfl
  | dropped now q cmd slot ho hc =>
    refine Or.inl (appliedSeqs_eq_nil p _ _ ?_)
    intro o _
    rcases hc with rfl | ⟨rfl, -⟩ <;> rfl
  | _ =>
    refine Or.inl (appliedSeqs_eq_nil p _ _ ?_)
    intro o _
    rfl

/-! ## The number a slot remembers -/

/-- The last applied number of the player's slot, zero for a player who has none. -/
def mark (r : Room σ) (p : PlayerID) : UInt64 :=
  match r.players.lookup p with
  | none => 0
  | some slot => slot.lastAppliedSeq

theorem mark_congr {r r' : Room σ} {p : PlayerID} (h : r'.players = r.players) :
    mark r' p = mark r p := by
  unfold mark
  rw [h]

theorem mark_of_lookup {r : Room σ} {p : PlayerID} {slot : PlayerSlot}
    (hs : r.players.lookup p = some slot) : mark r p = slot.lastAppliedSeq := by
  unfold mark
  rw [hs]

theorem mark_insert {r r' : Room σ} {q : PlayerID} {slot : PlayerSlot}
    (h : r'.players = r.players.insert q slot) (p : PlayerID) :
    mark r' p = if p = q then slot.lastAppliedSeq else mark r p := by
  unfold mark
  rw [h, Table.lookup_insert_ite]
  by_cases hp : p = q
  · rw [if_pos hp, if_pos hp]
  · rw [if_neg hp, if_neg hp]

theorem mark_insert_same {r r' : Room σ} {q : PlayerID} {slot : PlayerSlot}
    (h : r'.players = r.players.insert q slot) (hm : slot.lastAppliedSeq = mark r q)
    (p : PlayerID) : mark r' p = mark r p := by
  rw [mark_insert h]
  split
  · next hp => rw [hp, hm]
  · rfl

theorem mark_removePlayer (r : Room σ) (q : PlayerID) (slot : PlayerSlot) (p : PlayerID)
    (h0 : mark r p = 0) : mark (removePlayer r q slot) p = 0 := by
  unfold mark at h0 ⊢
  rw [lookup_removePlayer]
  by_cases hp : p = q
  · rw [if_pos hp]
  · rw [if_neg hp]
    cases hs : r.players.lookup p with
    | none => rfl
    | some s =>
      rw [hs] at h0
      change (closeSeatGap slot.seat s).lastAppliedSeq = 0
      unfold closeSeatGap
      split <;> exact h0

theorem mark_applied {g : Game σ} {r : Room σ} {a : Action} {slot : PlayerSlot}
    {result : Result σ} (h : Admitted g r a slot result) : mark r a.playerID = slot.lastAppliedSeq :=
  mark_of_lookup h.seated

/-- A turn moves the mark of `p` exactly to the number it applied for `p`. While
the room waits nothing has been applied, so a seat that is given up and taken
again forgets nothing. -/
theorem exit_mark {g : Game σ} {r r' : Room σ} {i : Input} {outs : List Output}
    (he : Exit g r i r' outs) (p : PlayerID) (hw : r.lifecycle = .waiting → mark r p = 0) :
    mark r' p = (appliedSeqs p (outs.map fun o => (i, o))).getLastD (mark r p) := by
  rcases exit_applied he p with hnil | ⟨now, a, slot, result, rfl, rfl, ha, happ⟩
  · rw [hnil, List.getLastD_nil]
    cases he with
    | stopped | tickIgnored => rfl
    | rejected | rejoined | ignored | graceIgnored | forceClosed | snapshot | forfeited => rfl
    | ticked => exact mark_congr (settle_players _ _ _)
    | seated now q hl hs | initFailed now q e hl hs | started now q state hl hs =>
      refine mark_insert_same (r := r) rfl ?_ p
      unfold mark
      rw [hs]
    | left now q slot hl | emptied now q slot hl =>
      rw [hw hl]
      exact mark_removePlayer (touch now r) q slot p (hw hl)
    | dropped now q cmd slot ho hc hs | reconnected now q slot ho hs =>
      refine mark_insert_same (r := r) rfl ?_ p
      exact (mark_of_lookup hs).symm
    | applied now a slot result h =>
      have hp : p ≠ a.playerID := by
        rintro rfl
        simp [appliedSeqs, List.filterMap_cons, appliedSeq, diffEvent] at hnil
      rw [mark_insert (settle_players _ _ _) p, if_neg hp]
      rfl
  · rw [happ]
    cases he with
    | applied _ _ slot' result' h =>
      rw [mark_insert (settle_players _ _ _) a.playerID, if_pos rfl]
      rfl
    | stopped _ hc =>
      rw [ha.active] at hc
      cases hc
    | rejected _ _ e =>
      rw [appliedSeqs_eq_nil] at happ
      · cases happ
      · intro o ho
        rw [List.mem_singleton] at ho
        subst ho
        exact appliedSeq_failReply _ _ e
    | ignored _ _ _ _ hc => rcases hc with hc | hc <;> cases hc
    | dropped _ _ _ _ _ hc => rcases hc with hc | ⟨hc, -⟩ <;> cases hc

theorem exit_stays_seated {g : Game σ} {r r' : Room σ} {i : Input} {outs : List Output}
    (he : Exit g r i r' outs) (ht : SeatTable g r) (hw : r.lifecycle ≠ .waiting) {p : PlayerID}
    (hp : p ∈ r.players) : r'.lifecycle ≠ .waiting ∧ p ∈ r'.players := by
  obtain ⟨hpre, hw'⟩ := exit_seatOrder_grows he hw
  exact ⟨hw', ((exit_seatTable he ht).keys p).mpr (hpre.subset ((ht.keys p).mp hp))⟩

/-! ## The invariant over whole runs -/

/-- Numbers in the order the guard admits them: increasing, or zero after zero. -/
def SeqOrder (x y : UInt64) : Prop := x < y ∨ x = 0 ∧ y = 0

structure Sequenced (g : Game σ) (r : Room σ) (h : List (Input × Output)) : Prop where
  table : SeatTable g r
  mark : ∀ p, mark r p = (appliedSeqs p h).getLastD 0
  seated : ∀ p, appliedSeqs p h ≠ [] → r.lifecycle ≠ .waiting ∧ p ∈ r.players
  order : ∀ p, (appliedSeqs p h).Pairwise SeqOrder

theorem Sequenced.waiting {g : Game σ} {r : Room σ} {h : List (Input × Output)}
    (hs : Sequenced g r h) (hw : r.lifecycle = .waiting) (p : PlayerID) : appliedSeqs p h = [] := by
  by_contra hne
  exact (hs.seated p hne).1 hw

theorem newRoom_sequenced (g : Game σ) (id : ID) (gameType : String) (now : Time) :
    Sequenced g (newRoom σ id gameType now) [] := by
  refine ⟨newRoom_seatTable g id gameType now, ?_, ?_, ?_⟩
  · intro p
    rfl
  · intro p hne
    exact absurd rfl hne
  · intro p
    exact List.Pairwise.nil

/-- In an ordered list no number exceeds the last one. -/
theorem le_getLastD (l : List UInt64) (hl : l.Pairwise SeqOrder) (x : UInt64) (hx : x ∈ l) :
    x ≤ l.getLastD 0 := by
  induction l using List.reverseRecOn with
  | nil => cases hx
  | append_singleton l y ih =>
    rw [List.getLastD_concat]
    rcases List.mem_append.mp hx with hx | hx
    · rcases (List.pairwise_append.mp hl).2.2 x hx y (List.mem_singleton.mpr rfl) with h | ⟨h, h'⟩
      · exact UInt64.le_of_lt h
      · rw [h, h']
        exact UInt64.le_refl 0
    · rw [List.mem_singleton] at hx
      rw [hx]
      exact UInt64.le_refl y

theorem seqOrder_of_fresh (x y last : UInt64) (hx : x ≤ last)
    (hf : ¬ (y ≤ last ∧ last ≠ 0)) : SeqOrder x y := by
  unfold SeqOrder
  by_cases h0 : last = 0
  · subst h0
    have hx0 : x = 0 := by
      apply UInt64.le_antisymm hx
      exact UInt64.zero_le
    by_cases hy : y = 0
    · exact Or.inr ⟨hx0, hy⟩
    · subst hx0
      exact Or.inl (UInt64.pos_iff_ne_zero.mpr hy)
  · have hlt : last < y := by
      rw [← UInt64.not_le]
      exact fun h => hf ⟨h, h0⟩
    exact Or.inl (UInt64.lt_of_le_of_lt hx hlt)

theorem step_sequenced (g : Game σ) (r : Room σ) (h : List (Input × Output)) (i : Input)
    (hs : Sequenced g r h) :
    Sequenced g (step g r i).1 (h ++ (step g r i).2.map fun o => (i, o)) := by
  have he := step_exit g r i
  have hw : ∀ p, r.lifecycle = .waiting → mark r p = 0 := by
    intro p hwait
    rw [hs.mark p, hs.waiting hwait p]
    rfl
  refine ⟨exit_seatTable he hs.table, ?_, ?_, ?_⟩
  · intro p
    rw [exit_mark he p (hw p), hs.mark p, appliedSeqs_append]
    rcases exit_applied he p with hnil | ⟨now, a, slot, result, -, -, -, happ⟩
    · rw [hnil, List.append_nil, List.getLastD_nil]
    · rw [happ, List.getLastD_concat]
      rfl
  · intro p hne
    rw [appliedSeqs_append] at hne
    rcases exit_applied he p with hnil | ⟨now, a, slot, result, -, hp, ha, -⟩
    · rw [hnil, List.append_nil] at hne
      obtain ⟨hw', hp⟩ := hs.seated p hne
      exact exit_stays_seated he hs.table hw' hp
    · refine exit_stays_seated he hs.table ?_ (Table.mem_of_lookup r.players p slot ?_)
      · rw [ha.active]
        exact fun h => Lifecycle.noConfusion h
      · rw [← hp]
        exact ha.seated
  · intro p
    rw [appliedSeqs_append]
    rcases exit_applied he p with hnil | ⟨now, a, slot, result, -, hp, ha, happ⟩
    · rw [hnil, List.append_nil]
      exact hs.order p
    · rw [happ]
      refine List.pairwise_append.mpr ⟨hs.order p, List.pairwise_singleton _ _, ?_⟩
      intro x hx y hy
      rw [List.mem_singleton] at hy
      subst hy
      have hlast : slot.lastAppliedSeq = (appliedSeqs p h).getLastD 0 := by
        rw [← hs.mark p, ← hp]
        exact (mark_applied ha).symm
      have hf := ha.fresh
      rw [hlast] at hf
      exact seqOrder_of_fresh x a.seq _ (le_getLastD _ (hs.order p) x hx) hf

theorem run_sequenced (g : Game σ) (id : ID) (gameType : String) (now : Time) (is : List Input) :
    Sequenced g (final (step g) (newRoom σ id gameType now) is)
      (trace (step g) (newRoom σ id gameType now) is) :=
  trace_invariant (step g) (Sequenced g) (step_sequenced g) _
    (newRoom_sequenced g id gameType now) is

/-! ## Runs in which no zero follows a zero -/

/-- No action with `Seq` zero is sent by a player whose last applied number is zero. -/
def ZeroOnce (g : Game σ) (r : Room σ) (is : List Input) : Prop :=
  ∀ js now a ks, is = js ++ .command now (.action a) :: ks → a.seq = 0 →
    (appliedSeqs a.playerID (trace (step g) r js)).getLast? ≠ some 0

theorem getLast?_of_getLastD {l : List UInt64} (hne : l ≠ []) (h : l.getLastD 0 = 0) :
    l.getLast? = some 0 := by
  obtain ⟨y, hy⟩ := Option.isSome_iff_exists.mp (List.getLast?_isSome.mpr hne)
  rw [List.getLastD_eq_getLast?, hy] at h
  rw [hy, ← h]
  rfl

theorem ZeroOnce.init {g : Game σ} {r : Room σ} {is : List Input} {i : Input}
    (hz : ZeroOnce g r (is ++ [i])) : ZeroOnce g r is := by
  intro js now a ks he h0
  refine hz js now a (ks ++ [i]) ?_ h0
  rw [he, List.append_assoc, List.cons_append]

theorem strict_of_zeroOnce (g : Game σ) (id : ID) (gameType : String) (now : Time)
    (is : List Input) (hz : ZeroOnce g (newRoom σ id gameType now) is) (p : PlayerID) :
    (appliedSeqs p (trace (step g) (newRoom σ id gameType now) is)).Pairwise (· < ·) := by
  induction is using List.reverseRecOn with
  | nil => exact List.Pairwise.nil
  | append_singleton is i ih =>
    have hrun := run_sequenced g id gameType now (is ++ [i])
    have hord := hrun.order p
    rw [trace_concat, appliedSeqs_append] at hord ⊢
    rcases exit_applied (step_exit g (final (step g) (newRoom σ id gameType now) is) i) p with
      hnil | ⟨now', a, slot, result, rfl, rfl, ha, happ⟩
    · rw [hnil, List.append_nil]
      exact ih hz.init
    · rw [happ] at hord ⊢
      refine List.pairwise_append.mpr ⟨ih hz.init, List.pairwise_singleton _ _, ?_⟩
      intro x hx y hy
      rcases (List.pairwise_append.mp hord).2.2 x hx y hy with h | ⟨hx0, hy0⟩
      · exact h
      · -- the second zero was let through, so the slot remembered a zero
        rw [List.mem_singleton] at hy
        have ha0 : a.seq = 0 := hy.symm.trans hy0
        have hlast : slot.lastAppliedSeq = 0 := by
          by_contra h
          exact ha.fresh ⟨ha0 ▸ UInt64.zero_le, h⟩
        have hmark := (run_sequenced g id gameType now is).mark a.playerID
        rw [mark_applied ha, hlast] at hmark
        exact absurd (getLast?_of_getLastD (List.ne_nil_of_mem hx) hmark.symm)
          (hz is now' a [] rfl ha0)

/-- The answer to an action whose number is at most the slot's nonzero mark. -/
def staleAnswer (r : Room σ) (slot : PlayerSlot) : RoomErr :=
  if r.lifecycle ≠ .active then .roomNotActive
  else if slot.connected = false then .playerDisconnected
  else .staleAction

theorem step_stale (g : Game σ) (r : Room σ) (now : Time) (a : Action) (slot : PlayerSlot)
    (ho : r.lifecycle ≠ .closed) (hs : r.players.lookup a.playerID = some slot)
    (hle : a.seq ≤ slot.lastAppliedSeq) (h0 : slot.lastAppliedSeq ≠ 0) :
    step g r (.command now (.action a)) =
      (touch now r, [failReply (.room (staleAnswer r slot))]) := by
  unfold step handle handleAction staleAnswer
  rw [if_neg ho]
  dsimp only
  rw [touch_lifecycle, touch_players, hs]
  by_cases hl : r.lifecycle = .active
  · rw [if_neg (not_not.mpr hl), if_neg (not_not.mpr hl)]
    dsimp only
    by_cases hc : slot.connected = true
    · have hc' : ¬ slot.connected = false := by
        rw [hc]
        exact Bool.noConfusion
      rw [if_neg (not_not.mpr hc), if_pos ⟨hle, h0⟩, if_neg hc']
    · rw [if_pos hc, if_pos (Bool.eq_false_iff.mpr hc)]
  · rw [if_pos hl, if_pos hl]

/-- **Sequence numbers are applied at most once.** In every run in which no
player sends `Seq` zero while the number last applied for them is zero, the numbers
applied for each player strictly increase, and an action that repeats an
applied number changes nothing but the activity time. It is refused with
`ErrStaleAction`, unless the room has stopped, is not active or the player is
disconnected, which the handler checks first. -/
theorem applied_seqs_increase (g : Game σ) (id : ID) (gameType : String) (now : Time)
    (is : List Input) (hz : ZeroOnce g (newRoom σ id gameType now) is) :
    (∀ p, (appliedSeqs p (trace (step g) (newRoom σ id gameType now) is)).Pairwise (· < ·)) ∧
    ∀ js now' a ks, is = js ++ .command now' (.action a) :: ks →
      a.seq ∈ appliedSeqs a.playerID (trace (step g) (newRoom σ id gameType now) js) →
      let r := final (step g) (newRoom σ id gameType now) js
      ∃ slot, r.players.lookup a.playerID = some slot ∧
        (r.lifecycle = .closed → step g r (.command now' (.action a)) = (r, [])) ∧
        (r.lifecycle ≠ .closed → step g r (.command now' (.action a)) =
          (touch now' r, [failReply (.room (staleAnswer r slot))])) ∧
        (r.lifecycle = .active → slot.connected = true → staleAnswer r slot = .staleAction) := by
  refine ⟨strict_of_zeroOnce g id gameType now is hz, ?_⟩
  intro js now' a ks he hin r
  have hs : Sequenced g r _ := run_sequenced g id gameType now js
  have hne : appliedSeqs a.playerID (trace (step g) (newRoom σ id gameType now) js) ≠ [] :=
    List.ne_nil_of_mem hin
  obtain ⟨slot, hslot⟩ :=
    Option.isSome_iff_exists.mp (AList.lookup_isSome.mpr (hs.seated a.playerID hne).2)
  have hlast : slot.lastAppliedSeq = _ := (mark_of_lookup hslot).symm.trans (hs.mark a.playerID)
  have hle : a.seq ≤ slot.lastAppliedSeq := by
    rw [hlast]
    exact le_getLastD _ (hs.order a.playerID) a.seq hin
  have h0 : slot.lastAppliedSeq ≠ 0 := by
    intro h
    have hz0 : a.seq = 0 := UInt64.le_antisymm (h ▸ hle) UInt64.zero_le
    exact hz js now' a ks he hz0 (getLast?_of_getLastD hne (hlast.symm.trans h))
  refine ⟨slot, hslot, ?_, ?_, ?_⟩
  · intro hc
    exact if_pos hc
  · intro ho
    exact step_stale g r now' a slot ho hslot hle h0
  · intro hact hconn
    unfold staleAnswer
    rw [if_neg (not_not.mpr hact), if_neg (by rw [hconn]; exact Bool.noConfusion)]

theorem zeroOnce_of_nonzero (g : Game σ) (r : Room σ) (is : List Input)
    (h : ∀ now a, .command now (.action a) ∈ is → a.seq ≠ 0) : ZeroOnce g r is := by
  intro js now a ks he h0
  refine absurd h0 (h now a ?_)
  rw [he]
  exact List.mem_append_right js List.mem_cons_self

end Sequencing

/-! ## Zero twice -/

/-- A tic-tac-toe move by `player` with sequence number `seq`. -/
def moveOf (player : PlayerID) (seq : UInt64) (x y : ℤ) : Input :=
  .command 0 (.action { type := TicTacToe.actionMove, playerID := player, seq := seq,
                        timestamp := 0, payload := some (.obj [("x", .int x), ("y", .int y)]) })

/-- The first player sends the same move twice. -/
def resendRun : List Input :=
  [.command 0 (.join "alice"), .command 0 (.join "bob"), moveOf "alice" 1 0 0, moveOf "alice" 1 0 0]

theorem resent_move_refused :
    ∃ slot, (final (step TicTacToe.game) (newRoom GameState "r" "tictactoe" 0)
        (resendRun.take 3)).players.lookup "alice" = some slot ∧
      step TicTacToe.game (final (step TicTacToe.game) (newRoom GameState "r" "tictactoe" 0)
        (resendRun.take 3)) (moveOf "alice" 1 0 0) =
        (touch 0 (final (step TicTacToe.game) (newRoom GameState "r" "tictactoe" 0)
          (resendRun.take 3)), [failReply (.room .staleAction)]) := by
  have hz : ZeroOnce TicTacToe.game (newRoom GameState "r" "tictactoe" 0) resendRun := by
    apply zeroOnce_of_nonzero
    intro now a hin
    simp only [resendRun, moveOf, List.mem_cons, Input.command.injEq, Command.action.injEq,
      reduceCtorEq, and_false, false_or, List.not_mem_nil, or_false, or_self] at hin
    rw [hin.2]
    decide
  obtain ⟨slot, hslot, -, hopen, hstale⟩ :=
    (applied_seqs_increase TicTacToe.game "r" "tictactoe" 0 resendRun hz).2 (resendRun.take 3) 0
      { type := TicTacToe.actionMove, playerID := "alice", seq := 1, timestamp := 0,
        payload := some (.obj [("x", .int 0), ("y", .int 0)]) } [] rfl (by decide)
  have hconn : slot.connected = true := by
    have h := hslot
    have hd : (AList.lookup "alice" (final (step TicTacToe.game)
        (newRoom GameState "r" "tictactoe" 0) (resendRun.take 3)).players).map
          PlayerSlot.connected = some true := by decide
    rw [h] at hd
    exact Option.some.inj hd
  refine ⟨slot, hslot, ?_⟩
  rw [← hstale (by decide) hconn]
  exact hopen (by decide)

/-- Two players, and the first of them never counts. -/
def zeroRun : List Input :=
  [.command 0 (.join "alice"), .command 0 (.join "bob"),
   moveOf "alice" 0 0 0, moveOf "bob" 1 1 0, moveOf "alice" 0 0 1]

/-- The second zero is applied: the room's version moves on and the applied
numbers of the first player are `0, 0`. -/
theorem zero_seq_applied_twice :
    appliedSeqs "alice" (trace (step TicTacToe.game) (newRoom GameState "r" "tictactoe" 0) zeroRun) =
      [0, 0] ∧
    ¬ (appliedSeqs "alice"
        (trace (step TicTacToe.game) (newRoom GameState "r" "tictactoe" 0) zeroRun)).Pairwise (· < ·) ∧
    (final (step TicTacToe.game) (newRoom GameState "r" "tictactoe" 0) zeroRun).serverSeq = 3 := by
  decide

end RealtimeEngine.Rooms
