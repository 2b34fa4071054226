import RealtimeEngine.Transport.Connected

/-! Whether a connection that was given a first snapshot of a room gets every
later state diff. The snapshot is taken by the actor and the connection is
registered afterwards, under another lock: a diff is lost when it is broadcast
in between, or when a newer connection has taken the player's place in the Hub.
In every run where neither happens, none is. -/
namespace RealtimeEngine.Transport
open Foundations Domain Rooms Storage Matchmaking
set_option autoImplicit false
set_option maxHeartbeats 250000

section Delivery
variable {σ : Type} {u : Setup σ} {s s' : Sys σ} {l : Label}

/-! ## Subscribers and diffs -/

/-- A first snapshot of the room, of version `v`, was given to `c` or is held for it. -/
def Subscribed (s : Sys σ) (R : ID) (c : ConnID) (v : ℕ) : Prop :=
  (R, v) ∈ (s.conn c).given ∨
  ∃ d k res, (k, some res) ∈ holding s d ∧ k.initial = true ∧ k.room = R ∧
    k.target d = some c ∧ res.serverSeq = v

def subscribed (s : Sys σ) (R : ID) (c : ConnID) : Bool :=
  ((s.conn c).given.any fun x => decide (x.1 = R)) ||
  (List.range s.conns).any fun d => (holding s d).any fun x =>
    x.1.initial && decide (x.1.room = R ∧ x.1.target d = some c) && x.2.isSome

/-- A state diff is broadcast only while every open subscriber is in the Hub. -/
def reachesSubscribers (s : Sys σ) : Label → Bool
  | .act R _ =>
    match (s.actor R).bind fun a => a.todo.head? with
    | some (.broadcast event) =>
      decide (event.kind ≠ .stateDiff) ||
      (List.range s.conns).all fun c => !subscribed s R c || !(s.conn c).isOpen ||
        (Table.values (s.hub.connectionsFor event.roomID)).contains c
    | _ => true
  | _ => true

/-- The version of the state diff an operation is about. -/
def Op.diffSeq : Op → Option ℕ
  | .broadcast event => if event.kind = .stateDiff then some event.serverSeq else none
  | .deliver env _ => if env.type = .event .stateDiff then some env.serverSeq else none
  | _ => none

/-- The operation will put the state diff with version `n` on the channel of `c`. -/
def Op.brings (c : ConnID) (n : ℕ) : Op → Prop
  | .broadcast event => event.kind = .stateDiff ∧ event.serverSeq = n
  | .deliver env targets => env.type = .event .stateDiff ∧ env.serverSeq = n ∧ c ∈ targets
  | _ => False

/-- The state diff of the room with version `n` was put on the channel of `c`. -/
def Received (s : Sys σ) (R : ID) (c : ConnID) (n : ℕ) : Prop :=
  ∃ env ∈ (s.conn c).sent, env.type = .event .stateDiff ∧ env.roomID = R ∧ env.serverSeq = n

def Actor.diffs (a : Actor σ) : List ℕ := a.todo.filterMap Op.diffSeq

theorem Subscribed.known (hk : Known u s) {R : ID} {c : ConnID} {v : ℕ}
    (h : Subscribed s R c v) : c < s.conns ∧ subscribed s R c = true := by
  obtain h | ⟨d, k, res, hin, hi, hroom, ht, -⟩ := h
  · refine ⟨hk.born c fun hc => ?_, ?_⟩
    · rw [hc] at h
      cases h
    · exact Bool.or_eq_true_iff.mpr (Or.inl (List.any_eq_true.mpr ⟨_, h, decide_eq_true rfl⟩))
  · have hcall := call_of_holding hin
    refine ⟨(hk.target hcall ht).1, ?_⟩
    have hd : d < s.conns := hk.busy d fun hr => by
      rw [hr] at hcall
      cases hcall
    refine Bool.or_eq_true_iff.mpr (Or.inr (List.any_eq_true.mpr ⟨d, List.mem_range.mpr hd, ?_⟩))
    refine List.any_eq_true.mpr ⟨_, hin, ?_⟩
    simp [hi, hroom, ht]

theorem Subscribed.reached (hk : Known u s) {R : ID} {c : ConnID} {v i : ℕ} {a : Actor σ}
    {event : RoomEvent} {rest : List Op} (h : Subscribed s R c v)
    (hl : reachesSubscribers s (.act R i) = true) (ha : s.actor R = some a)
    (ht : a.todo = .broadcast event :: rest) (hkind : event.kind = .stateDiff)
    (ho : (s.conn c).closer = .off) :
    c ∈ Table.values (s.hub.connectionsFor event.roomID) := by
  obtain ⟨hc, hsub⟩ := h.known hk
  simp only [reachesSubscribers, ha, ht, Option.bind_some, List.head?_cons, hkind, ne_eq,
    not_true_eq_false, decide_false, Bool.false_or, List.all_eq_true, List.mem_range] at hl
  have hl := hl c hc
  simpa [hsub, (isOpen_iff _).mpr ho] using hl

theorem Op.diffSeq_of_brings {c : ConnID} {n : ℕ} {op : Op} (h : op.brings c n) :
    op.diffSeq = some n := by
  cases op with
  | broadcast event =>
    obtain ⟨hk, rfl⟩ := h
    exact if_pos hk
  | deliver env targets =>
    obtain ⟨hk, rfl, -⟩ := h
    exact if_pos hk
  | waitClosed c' => exact absurd h not_false
  | reply ch res => exact absurd h not_false
  | afterFunc player generation => exact absurd h not_false

/-! ## The diffs of a turn -/

/-- An output done leaves the diffs to be done as they were, or is the end of a diff's broadcast. -/
theorem Progress.diffs_cases {i : ℕ} {a a' : Actor σ} (hp : Progress s i a a') :
    (a'.diffs = a.diffs ∧ a'.completed = a.completed) ∨
    ∃ n, a.diffs = n :: a'.diffs ∧ a'.completed = a.completed ++ [n] := by
  unfold Actor.diffs
  cases hp with
  | broadcast event rest ht =>
    left
    rw [ht]
    simp [Op.diffSeq, buildEnvelope, List.filterMap_cons]
  | completed env rest ht =>
    rw [ht]
    by_cases he : env.type = .event .stateDiff
    · right
      exact ⟨env.serverSeq, by simp [Op.diffSeq, Actor.complete, he],
        by simp [Actor.complete, he]⟩
    · left
      simp [Op.diffSeq, Actor.complete, he]
  | delivered env targets rest todo c ht hc hd =>
    left
    rw [ht]
    obtain rfl | rfl := hd
    · simp [Op.diffSeq, List.filterMap_cons]
    · simp [Op.diffSeq, List.filterMap_cons]
  | done op rest timers ht hop =>
    left
    rw [ht]
    cases op with
    | broadcast event => cases hop
    | deliver env targets => cases hop
    | waitClosed c => exact ⟨rfl, rfl⟩
    | reply ch res => exact ⟨rfl, rfl⟩
    | afterFunc player generation => exact ⟨rfl, rfl⟩

theorem diffSeq_ofOutput_none {ch : Option ChanID} {o : Output} (h : o.isDiff = false) :
    (Op.ofOutput ch o).diffSeq = none := by
  cases o with
  | broadcast event => exact if_neg (of_decide_eq_false h)
  | reply res => rfl
  | afterFunc player generation => rfl

theorem diffs_ofOutput_nil {ch : Option ChanID} {outs : List Output}
    (h : ∀ o ∈ outs, o.isDiff = false) :
    (outs.map (Op.ofOutput ch)).filterMap Op.diffSeq = [] := by
  rw [List.filterMap_map, List.filterMap_eq_nil_iff]
  exact fun o ho => diffSeq_ofOutput_none (h o ho)

/-- A turn makes no state diff, or one with the room's new version. -/
theorem turn_diffs (a : Actor σ) (i : Input) (ch : Option ChanID) (queue : List Ticket) :
    ((turnWith a i ch queue).room.serverSeq = a.room.serverSeq ∧
      (turnWith a i ch queue).diffs = []) ∨
    (turnWith a i ch queue).room.serverSeq = a.room.serverSeq + 1 ∧
      (turnWith a i ch queue).diffs = [(turnWith a i ch queue).room.serverSeq] := by
  unfold Actor.diffs
  rw [turnWith_room, turnWith_todo]
  have he := step_exit a.game a.room i
  obtain ⟨hv, hall⟩ | ⟨hv, d, rest, hout, hd, hall⟩ := exit_diff he
  · exact Or.inl ⟨hv, diffs_ofOutput_nil hall⟩
  · refine Or.inr ⟨hv, ?_⟩
    cases d with
    | broadcast event =>
      have hseq := (exit_broadcast he (by rw [hout]; exact List.mem_cons_self)).2
      have hkind : event.kind = .stateDiff := of_decide_eq_true hd
      rw [hout, List.map_cons, List.filterMap_cons, diffs_ofOutput_nil hall, ← hseq]
      simp [Op.ofOutput, Op.diffSeq, hkind]
    | reply res => cases hd
    | afterFunc player generation => cases hd

/-- The diff a turn makes is still to be brought to everyone. -/
theorem turn_brings {a : Actor σ} {i : Input} {ch : Option ChanID} {queue : List Ticket} {n : ℕ}
    (h : n ∈ (turnWith a i ch queue).diffs) (c : ConnID) :
    ∃ op ∈ (turnWith a i ch queue).todo, op.brings c n := by
  obtain ⟨op, hop, hseq⟩ := List.mem_filterMap.mp h
  refine ⟨op, hop, ?_⟩
  cases op with
  | broadcast event =>
    simp only [Op.diffSeq, Option.ite_none_right_eq_some, Option.some.injEq] at hseq
    exact hseq
  | deliver env targets =>
    rw [turnWith_todo] at hop
    exact absurd hop deliver_not_mem_ofOutput
  | waitClosed c' => cases hseq
  | reply ch' res => cases hseq
  | afterFunc player generation => cases hseq

/-- At most one diff is being broadcast, the one that made the room's version;
the completed ones are behind it. -/
structure Numbered (a : Actor σ) : Prop where
  nodup : a.diffs.Nodup
  current : ∀ n ∈ a.diffs, n = a.room.serverSeq
  completed : ∀ n ∈ a.completed, n ≤ a.room.serverSeq ∧ n ∉ a.diffs

theorem Numbered.turn {a : Actor σ} (h : Numbered a) (i : Input) (ch : Option ChanID)
    (queue : List Ticket) : Numbered (turnWith a i ch queue) := by
  obtain ⟨hv, hd⟩ | ⟨hv, hd⟩ := turn_diffs a i ch queue
  · refine ⟨?_, ?_, fun n hn => ?_⟩
    · simp [hd]
    · simp [hd]
    · have hle := (h.completed n hn).1
      rw [hd, hv]
      exact ⟨hle, List.not_mem_nil⟩
  · refine ⟨?_, ?_, fun n hn => ?_⟩
    · simp [hd]
    · simp [hd]
    · have hle := (h.completed n hn).1
      rw [hd, hv, List.mem_singleton]
      omega

theorem Numbered.progress {i : ℕ} {a a' : Actor σ} (h : Numbered a) (hp : Progress s i a a') :
    Numbered a' := by
  have hroom := hp.room_eq
  obtain ⟨hd, hc⟩ | ⟨m, hd, hc⟩ := hp.diffs_cases
  · refine ⟨?_, ?_, ?_⟩
    · rw [hd]
      exact h.nodup
    · rw [hd, hroom]
      exact h.current
    · rw [hd, hc, hroom]
      exact h.completed
  · have hnodup := h.nodup
    rw [hd, List.nodup_cons] at hnodup
    have hin : ∀ n ∈ a'.diffs, n ∈ a.diffs := fun n hn => by
      rw [hd]
      exact List.mem_cons_of_mem _ hn
    have hm : m = a.room.serverSeq := h.current m (by rw [hd]; exact List.mem_cons_self)
    rw [← hroom] at hm
    refine ⟨hnodup.2, fun n hn => ?_, fun n hn => ?_⟩
    · rw [hroom]
      exact h.current n (hin n hn)
    · rw [hc] at hn
      obtain hn | hn := List.mem_append.mp hn
      · have hold := h.completed n hn
        rw [← hroom] at hold
        exact ⟨hold.1, fun h' => hold.2 (hin n h')⟩
      · rw [List.mem_singleton.mp hn]
        exact ⟨Nat.le_of_eq hm, hnodup.1⟩

/-! ## The invariant -/

structure Delivered (s : Sys σ) : Prop where
  numbered : ∀ R a, s.actor R = some a → Numbered a
  reached : ∀ R c v, Subscribed s R c v → (s.conn c).closer = .off →
    ∃ a, s.actor R = some a ∧ ∀ n, v < n → n ≤ a.room.serverSeq →
      (∃ op ∈ a.todo, op.brings c n) ∨ Received s R c n

theorem Delivered.numbered_move (hD : Delivered s) (hm : Move u s l s') (R : ID) (a' : Actor σ)
    (ha' : s'.actor R = some a') : Numbered a' := by
  obtain ⟨o, ho, hch⟩ := hm.actor_before ha'
  have hsame : ∀ {a b : Actor σ}, Numbered a → b.todo = a.todo → b.completed = a.completed →
      b.room = a.room → Numbered b := by
    intro a b h ht hc hr
    have hd : b.diffs = a.diffs := by
      unfold Actor.diffs
      rw [ht]
    refine ⟨?_, ?_, ?_⟩
    · rw [hd]
      exact h.nodup
    · rw [hd, hr]
      exact h.current
    · rw [hd, hc, hr]
      exact h.completed
  cases hch with
  | kept => exact hD.numbered R a' ho
  | created c choice gameType players g hl hr hg =>
    exact ⟨List.nodup_nil, (fun n hn => by cases hn), fun n hn => by cases hn⟩
  | pushed a t timers hp hn => exact hsame (hD.numbered R a ho) rfl rfl rfl
  | turned a t rest hl hq htodo hopen => exact (hD.numbered R a ho).turn _ _ _
  | ticked a hl htodo hopen => exact (hD.numbered R a ho).turn _ _ _
  | acted a a' i hl hp => exact (hD.numbered R a ho).progress hp
  | flagged a listed stopped timers => exact hsame (hD.numbered R a ho) rfl rfl rfl

theorem Received.move (hk : Known u s) (hm : Move u s l s') {R : ID} {c : ConnID} {n : ℕ}
    (h : Received s R c n) : Received s' R c n := by
  obtain ⟨env, hin, hrest⟩ := h
  refine ⟨env, ?_, hrest⟩
  obtain ⟨hs, -⟩ | ⟨env', given, -, hs, -⟩ := move_sent hm hk.fresh c
  · rw [hs]
    exact hin
  · rw [hs]
    exact List.mem_append_left _ hin

/-- A subscription was there before, or its snapshot has just been taken. -/
theorem subscribed_back (hk : Known u s) (hL : Linked s) (hm : Move u s l s') {R : ID} {c : ConnID}
    {v : ℕ} (h : Subscribed s' R c v) :
    Subscribed s R c v ∨ ∃ a', s'.actor R = some a' ∧ v = a'.room.serverSeq := by
  obtain h | ⟨d, k, res, hin, hi, rfl, ht, rfl⟩ := h
  · left
    obtain ⟨-, hg⟩ | ⟨env, given, happ, -, hg⟩ := move_sent hm hk.fresh c
    · rw [hg] at h
      exact Or.inl h
    · rw [hg] at h
      obtain h | h := List.mem_append.mp h
      · exact Or.inl h
      · cases happ with
        | delivered id i a env targets rest c ha htodo hc => cases h
        | noted d choice env hr => cases h
        | told d choice k answer c hr ht =>
          unfold tellGiven at h
          split at h
          · next hi =>
            cases answer with
            | none => cases h
            | some res =>
              cases List.mem_singleton.mp h
              exact Or.inr ⟨d, k, res, (mem_holding s d k _).mpr (Or.inr ⟨_, hr⟩), hi, rfl, ht, rfl⟩
          · cases h
  · obtain h | ⟨a, t, rest, res', hres, -, hans⟩ | ⟨hnone, -⟩ := move_holding hL hm d k _ hin
    · exact Or.inl (Or.inr ⟨d, k, res, h, hi, rfl, ht, rfl⟩)
    · cases hres
      exact Or.inr (hans.serverSeq ht)
    · cases hnone

/-- What becomes of an operation that brings a diff to `c`, when one output is
done: another one brings it, or the copy of the Hub's map misses `c`, or the
message goes to `c` now. -/
theorem Progress.brings_cases {i : ℕ} {a a' : Actor σ} (hp : Progress s i a a') {c : ConnID}
    {n : ℕ} (h : ∃ op ∈ a.todo, op.brings c n) :
    (∃ op ∈ a'.todo, op.brings c n) ∨
    (∃ event rest, a.todo = .broadcast event :: rest ∧ event.kind = .stateDiff ∧
      c ∉ Table.values (s.hub.connectionsFor event.roomID)) ∨
    ∃ env targets rest, a.todo = .deliver env targets :: rest ∧ targets[i]? = some c ∧
      env.type = .event .stateDiff ∧ env.serverSeq = n := by
  obtain ⟨op, hop, hb⟩ := h
  cases hp with
  | broadcast event rest ht =>
    rw [ht] at hop
    obtain rfl | hop := List.mem_cons.mp hop
    · by_cases hc : c ∈ Table.values (s.hub.connectionsFor event.roomID)
      · exact Or.inl ⟨_, List.mem_cons_self, congrArg _ hb.1, hb.2, hc⟩
      · exact Or.inr (Or.inl ⟨event, rest, ht, hb.1, hc⟩)
    · exact Or.inl ⟨op, List.mem_cons_of_mem _ hop, hb⟩
  | completed env rest ht =>
    rw [ht] at hop
    obtain rfl | hop := List.mem_cons.mp hop
    · exact absurd hb.2.2 List.not_mem_nil
    · exact Or.inl ⟨op, hop, hb⟩
  | delivered env targets rest todo d ht hd htodo =>
    have hsub : ∀ op', op' ∈ Op.deliver env (targets.eraseIdx i) :: rest → op' ∈ todo := by
      intro op' h'
      obtain rfl | rfl := htodo
      · exact h'
      · exact List.mem_cons_of_mem _ h'
    rw [ht] at hop
    obtain rfl | hop := List.mem_cons.mp hop
    · obtain ⟨j, hj⟩ := List.mem_iff_getElem?.mp hb.2.2
      by_cases hji : j = i
      · subst hji
        exact Or.inr (Or.inr ⟨env, targets, rest, ht, hj, hb.1, hb.2.1⟩)
      · refine Or.inl ⟨_, hsub _ List.mem_cons_self, hb.1, hb.2.1, ?_⟩
        exact List.mem_eraseIdx_iff_getElem?.mpr ⟨j, hji, hj⟩
    · exact Or.inl ⟨op, hsub op (List.mem_cons_of_mem _ hop), hb⟩
  | done op' rest timers ht hop' =>
    rw [ht] at hop
    obtain rfl | hop := List.mem_cons.mp hop
    · cases op with
      | broadcast event => cases hop'
      | deliver env targets => cases hop'
      | _ => exact absurd hb not_false
    · exact Or.inl ⟨op, hop, hb⟩

/-- A pass of the loop that leaves the connection open puts the message on its channel. -/
theorem move_delivered {R : ID} {i : ℕ} (hm : Move u s (.act R i) s') {a : Actor σ}
    {env : ServerEnvelope} {targets : List ConnID} {rest : List Op} {c : ConnID}
    (ha : s.actor R = some a) (ht : a.todo = .deliver env targets :: rest)
    (hc : targets[i]? = some c) (ho : (s'.conn c).closer = .off) : env ∈ (s'.conn c).sent := by
  obtain ⟨b, hb, hact⟩ := hm.act_inv
  rw [ha] at hb
  cases hb
  cases hact with
  | delivered env' targets' rest' todo c' ht' hc' hd =>
    rw [ht] at ht'
    cases ht'
    rw [hc] at hc'
    cases hc'
    rw [enqueue_open _ c env none ho]
    exact List.mem_append_right _ List.mem_cons_self
  | completed env' rest' ht' =>
    rw [ht] at ht'
    cases ht'
    cases hc
  | broadcast event rest' ht' => simp [ht] at ht'
  | closed c' rest' ht' => simp [ht] at ht'
  | dropped res rest' ht' => simp [ht] at ht'
  | replied ch res rest' ht' => simp [ht] at ht'
  | armed player generation rest' timers ht' => simp [ht] at ht'

/-- A subscriber that stays open has been brought every diff since its snapshot
or is about to be. -/
theorem Delivered.old_move (hD : Delivered s) (hS : Sound u s) (hm : Move u s l s')
    (hl : reachesSubscribers s l = true) {R : ID} {c : ConnID} {v : ℕ}
    (hsub : Subscribed s R c v) (ho' : (s'.conn c).closer = .off) :
    ∃ a', s'.actor R = some a' ∧ ∀ n, v < n → n ≤ a'.room.serverSeq →
      (∃ op ∈ a'.todo, op.brings c n) ∨ Received s' R c n := by
  have ho := move_open hS.known hm c ho'
  obtain ⟨a, ha, hreach⟩ := hD.reached R c v hsub ho
  have hkeep : ∀ a' : Actor σ, a'.room = a.room → a'.todo = a.todo →
      ∀ n, v < n → n ≤ a'.room.serverSeq →
        (∃ op ∈ a'.todo, op.brings c n) ∨ Received s' R c n := by
    intro a' hr ht n hv hn
    rw [hr] at hn
    rw [ht]
    exact (hreach n hv hn).imp_right (Received.move hS.known hm)
  -- between two turns nothing is left to be brought
  have hturn : ∀ (i : Input) (ch : Option ChanID) (queue : List Ticket), a.todo = [] →
      ∀ n, v < n → n ≤ (turnWith a i ch queue).room.serverSeq →
        (∃ op ∈ (turnWith a i ch queue).todo, op.brings c n) ∨ Received s' R c n := by
    intro i ch queue ht n hv hn
    by_cases hle : n ≤ a.room.serverSeq
    · right
      obtain ⟨op, hop, -⟩ | h := hreach n hv hle
      · rw [ht] at hop
        cases hop
      · exact h.move hS.known hm
    · left
      obtain ⟨hv', -⟩ | ⟨hv', hd⟩ := turn_diffs a i ch queue
      · omega
      · have hn' : n = (turnWith a i ch queue).room.serverSeq := by omega
        refine turn_brings ?_ c
        rw [hd, hn']
        exact List.mem_cons_self
  obtain ⟨o', hactor, hch⟩ := hm.actor_after ha
  cases hch with
  | kept => exact ⟨a, hactor, hkeep a rfl rfl⟩
  | pushed a t timers hp hn => exact ⟨_, hactor, hkeep _ rfl rfl⟩
  | turned a t rest hl' hq htodo hopen => exact ⟨_, hactor, hturn _ _ _ htodo⟩
  | ticked a hl' htodo hopen => exact ⟨_, hactor, hturn _ _ _ htodo⟩
  | acted a a' i hl' hp =>
    subst hl'
    refine ⟨a', hactor, fun n hv hn => ?_⟩
    rw [hp.room_eq] at hn
    obtain hb | h := hreach n hv hn
    swap
    · exact Or.inr (h.move hS.known hm)
    obtain hb | ⟨event, rest, ht, hkind, hmiss⟩ | ⟨env, targets, rest, ht, hc, htype, hseq⟩ :=
      hp.brings_cases hb
    · exact Or.inl hb
    · exact absurd (hsub.reached hS.known hl ha ht hkind ho) hmiss
    · have hroom := (hS.linked.message R a env targets ha (by rw [ht]; exact List.mem_cons_self)).1
      exact Or.inr ⟨env, move_delivered hm ha ht hc ho', htype, hroom, hseq⟩
  | flagged a listed stopped timers => exact ⟨_, hactor, hkeep _ rfl rfl⟩

theorem Delivered.move (hD : Delivered s) (hS : Sound u s) (hm : Move u s l s')
    (hl : reachesSubscribers s l = true) : Delivered s' where
  numbered := hD.numbered_move hm
  reached := by
    intro R c v hsub ho
    obtain hold | ⟨a', ha', rfl⟩ := subscribed_back hS.known hS.linked hm hsub
    · exact hD.old_move hS hm hl hold ho
    · exact ⟨a', ha', fun n hlt hle => absurd hle (Nat.not_le_of_lt hlt)⟩

theorem delivered_start : Delivered ({} : Sys σ) where
  numbered := fun R a h => by cases h
  reached := by
    rintro R c v (h | ⟨d, k, res, h, -⟩) -
    · cases h
    · cases h

/-- As long as every state diff is broadcast while all open connections with a
first snapshot are in the Hub, an open connection that was given a snapshot of
version `v` has every later diff whose broadcast is complete on its channel. -/
theorem diffs_after_snapshot_delivered (u : Setup σ) (ls : List Label) (s : Sys σ)
    (hc : Meets (step u) (fun s l => reachesSubscribers s l = true) {} ls)
    (hr : run u ls = some s) (R : ID) (c : ConnID) (v : ℕ) (a : Actor σ)
    (hg : (R, v) ∈ (s.conn c).given) (ho : (s.conn c).isOpen = true)
    (ha : s.actor R = some a) (n : ℕ) (hn : n ∈ a.completed) (hv : v < n) :
    Received s R c n := by
  obtain ⟨-, hD⟩ := run_invariant (fun s l => reachesSubscribers s l = true) Delivered
    (fun s l s' hl hS hD hm => hD.move hS hm hl) delivered_start ls s hc hr
  obtain ⟨hle, hout⟩ := (hD.numbered R a ha).completed n hn
  obtain ⟨b, hb, hreach⟩ := hD.reached R c v (Or.inl hg) ((isOpen_iff _).mp ho)
  rw [ha] at hb
  cases hb
  obtain ⟨op, hop, hbr⟩ | h := hreach n hv hle
  · exact absurd (List.mem_filterMap.mpr ⟨op, hop, Op.diffSeq_of_brings hbr⟩) hout
  · exact h

instance (R : ID) (c : ConnID) (n : ℕ) : Decidable (Received s R c n) :=
  inferInstanceAs (Decidable (∃ env ∈ (s.conn c).sent, _))

end Delivery

/-! ## The first move of a match -/

section Scenario
set_option maxRecDepth 100000

def move (x y : ℤ) (seq : UInt64) : Incoming :=
  .message { type := "ACTION_MOVE", seq := seq, payload := some (.obj [("x", .int x), ("y", .int y)]) }

/-- A player moves in room `r`, which does `outputs` outputs. -/
def plays (c : ConnID) (x y : ℤ) (seq : UInt64) (outputs : ℕ) : List Label :=
  [.recv c (move x y seq), .run c .go] ++ turns "r" outputs ++ runs c 1

/-- Alice moves when both are seated: bob gets the diff. -/
theorem first_diff_delivered :
    Meets (step aliceAndBob) (fun s l => reachesSubscribers s l = true) {}
      (seated ++ plays 0 0 0 1 5) ∧
    ∃ s a, run aliceAndBob (seated ++ plays 0 0 0 1 5) = some s ∧ s.actor "r" = some a ∧
      ("r", 0) ∈ (s.conn 1).given ∧ (s.conn 1).isOpen = true ∧ 1 ∈ a.completed ∧
      Received s "r" 1 1 := by
  have hc : Meets (step aliceAndBob) (fun s l => reachesSubscribers s l = true) {}
      (seated ++ plays 0 0 0 1 5) := by decide +kernel
  have hend : ((run aliceAndBob (seated ++ plays 0 0 0 1 5)).any fun s =>
      decide (("r", 0) ∈ (s.conn 1).given) && (s.conn 1).isOpen &&
      (s.actor "r").any fun a => decide (1 ∈ a.completed)) = true := by decide +kernel
  obtain ⟨s, hr, h⟩ := (Option.any_eq_true _ _).mp hend
  obtain ⟨hgo, hn⟩ := Bool.and_eq_true_iff.mp h
  obtain ⟨hg, ho⟩ := Bool.and_eq_true_iff.mp hgo
  have hg := of_decide_eq_true hg
  obtain ⟨a, ha, hn⟩ := (Option.any_eq_true _ _).mp hn
  have hn := of_decide_eq_true hn
  exact ⟨hc, s, a, hr, ha, hg, ho, hn,
    diffs_after_snapshot_delivered aliceAndBob _ s hc hr "r" 1 0 a hg ho ha 1 hn Nat.one_pos⟩

/-- Alice moves between the `Snapshot` for bob and bob's `Register`: bob is given
version 0 and never gets the diff with version 1. -/
theorem diff_lost_while_seating :
    ((run aliceAndBob (halfSeated ++ plays 0 0 0 1 4 ++ runs 1 6)).any fun s =>
      s.quiet "r" && decide (("r", 0) ∈ (s.conn 1).given) && (s.conn 1).isOpen &&
      ((s.actor "r").any fun a => decide (1 ∈ a.completed)) &&
      decide (¬ Received s "r" 1 1)) = true := by
  decide +kernel

end Scenario
end RealtimeEngine.Transport
