import RealtimeEngine.Room.Coherence
import RealtimeEngine.Room.Slots
import RealtimeEngine.Transport.Matching

/-! Whether a player can be seated in two live rooms. Between a request and a
seat the player is in a queue, in the group a goroutine is making a room for, or
in a `Join` on its way to the room; the room pointer that `handleFindMatch` looks
at is set after all of these. A player who calls `Enqueue` only while in none of
these places is never in two of them. -/
namespace RealtimeEngine.Transport
open Foundations Domain Rooms Storage Matchmaking
set_option autoImplicit false
set_option maxHeartbeats 250000

section Memberships
variable {σ : Type} {u : Setup σ} {s s' : Sys σ} {l : Label}

/-! ## Places -/

/-- Where a player can be from a request on to a seat. -/
inductive Place
  | queue (gameType : String)
  | group (c : ConnID)
  | join (room : ID)
  | seat (room : ID)

/-- The players a goroutine has yet to join to the room of their match. -/
def Reader.group : Reader → List PlayerID
  | .create _ players => players
  | .submit (.join _ p rest) => p :: rest
  | .await (.join _ _ rest) _ => rest
  | _ => []

def Ticket.joiner (t : Ticket) : Option PlayerID :=
  match t.cmd with
  | .join p => some p
  | _ => none

/-- The players whose `Join` waits in the command channel. -/
def Actor.joiners (a : Actor σ) : List PlayerID := a.queue.filterMap Ticket.joiner

/-- The room is Waiting or Active and the player is seated in it. -/
def SeatedIn (s : Sys σ) (p : PlayerID) (R : ID) : Prop :=
  ∃ a, s.actor R = some a ∧ (a.room.lifecycle = .waiting ∨ a.room.lifecycle = .active) ∧
    p ∈ a.room.seatOrder

def IsAt (s : Sys σ) (p : PlayerID) : Place → Prop
  | .queue gameType => p ∈ s.queues gameType
  | .group c => p ∈ (s.conn c).reader.group
  | .join R => ∃ a, s.actor R = some a ∧ p ∈ a.joiners
  | .seat R => SeatedIn s p R

/-- A player calls `Enqueue` while in no place but the queue they ask for. -/
def asksAlone (u : Setup σ) (s : Sys σ) : Label → Prop
  | .run c _ => ∀ gameType g, (s.conn c).reader = .enqueue gameType → u.games gameType = some g →
      ∀ place, IsAt s (s.conn c).playerID place → place = .queue gameType
  | _ => True

structure Placed (s : Sys σ) : Prop where
  alone : ∀ p x y, IsAt s p x → IsAt s p y → x = y
  group : ∀ c, (s.conn c).reader.group.Nodup
  joiners : ∀ R a, s.actor R = some a → a.joiners.Nodup

/-! ## Arrivals -/

/-- The steps that bring a player to a new place. -/
inductive Arrives (u : Setup σ) (s s' : Sys σ) : Label → PlayerID → Place → Prop
  | asked (c : ConnID) (choice : Choice) (gameType : String) (g : Game σ)
      (hr : (s.conn c).reader = .enqueue gameType) (hg : u.games gameType = some g) :
      Arrives u s s' (.run c choice) (s.conn c).playerID (.queue gameType)
  | grouped (c : ConnID) (choice : Choice) (gameType : String) (g : Game σ)
      (queue players : List PlayerID) (p : PlayerID)
      (hr : (s.conn c).reader = .enqueue gameType) (hg : u.games gameType = some g)
      (hq : Matchmaking.enqueue g.maxPlayers (s.queues gameType) (s.conn c).playerID =
        (queue, some players)) (hp : p ∈ players) :
      Arrives u s s' (.run c choice) p (.group c)
  | sent (c : ConnID) (choice : Choice) (R : ID) (p : PlayerID) (rest : List PlayerID)
      (hr : (s.conn c).reader = .submit (.join R p rest))
      (hr' : (s'.conn c).reader.group.Sublist rest) :
      Arrives u s s' (.run c choice) p (.join R)
  | seated (R : ID) (a : Actor σ) (t : Ticket) (rest : List Ticket) (p : PlayerID)
      (ha : s.actor R = some a) (hq : a.queue = t :: rest) (ht : t.joiner = some p)
      (ha' : ∀ a', s'.actor R = some a' → a'.queue = rest) :
      Arrives u s s' (.turn R) p (.seat R)

/-- A goroutine only ever strikes players off its group, or starts with the match
that its own request completed. -/
theorem ReaderStep.group_cases {c : ConnID} {pc pc' : Reader} {e : Effect σ}
    (h : ReaderStep u s c pc e pc') :
    pc'.group.Sublist pc.group ∨
    ∃ gameType g queue, pc = .enqueue gameType ∧ u.games gameType = some g ∧
      Matchmaking.enqueue g.maxPlayers (s.queues gameType) (s.conn c).playerID =
        (queue, some pc'.group) := by
  cases h with
  | submitted k ha =>
    left
    cases k with
    | join room p rest => exact List.sublist_cons_self _ _
    | _ => exact List.nil_sublist _
  | refused k hs => exact Or.inl (by cases k <;> exact List.nil_sublist _)
  | failed k ch err hs => exact Or.inl (by cases k <;> exact List.nil_sublist _)
  | succeeded k ch res hr he =>
    left
    cases k with
    | join room p rest => cases rest <;> exact List.Sublist.refl _
    | _ => exact List.nil_sublist _
  | told k answer target pc ht hpc =>
    left
    rw [hpc]
    split
    · generalize k.rest = rest
      cases rest <;> exact List.nil_sublist _
    · exact List.nil_sublist _
  | sent env pc hpc =>
    left
    rw [hpc]
    split <;> exact List.nil_sublist _
  | matched gameType g queue players hg hq => exact Or.inr ⟨gameType, g, queue, rfl, hg, hq⟩
  | created gameType players id g hg hn => exact Or.inl (by cases players <;> exact List.Sublist.refl _)
  | waited target rest hd => exact Or.inl (by cases rest <;> exact List.nil_sublist _)
  | _ => exact Or.inl (List.nil_sublist _)

theorem handleMessage_group (now : Time) (x : Conn) (m : Incoming) :
    (handleMessage now x m).group = [] := by
  obtain ⟨env, h, -⟩ | ⟨gameType, h⟩ | ⟨k, h, -, hk | ⟨a, hk⟩⟩ := handleMessage_cases now x m
  · rw [h]
    rfl
  · rw [h]
    rfl
  · rw [h, hk]
    rfl
  · rw [h, hk]
    rfl

theorem move_group (hm : Move u s l s') (c : ConnID) :
    (s'.conn c).reader.group.Sublist (s.conn c).reader.group ∨
    ∃ choice gameType g queue, l = .run c choice ∧ (s.conn c).reader = .enqueue gameType ∧
      u.games gameType = some g ∧
      Matchmaking.enqueue g.maxPlayers (s.queues gameType) (s.conn c).playerID =
        (queue, some (s'.conn c).reader.group) := by
  obtain hr | ⟨sid, -, -, hr⟩ | ⟨m, -, -, hr⟩ | ⟨choice, e, rfl, hr⟩ := move_reader hm c
  · rw [hr]
    exact Or.inl (List.Sublist.refl _)
  · rw [hr]
    exact Or.inl (List.nil_sublist _)
  · rw [hr, handleMessage_group]
    exact Or.inl (List.nil_sublist _)
  · obtain h | ⟨gameType, g, queue, hpc, hg, hq⟩ := hr.group_cases
    · exact Or.inl h
    · exact Or.inr ⟨choice, gameType, g, queue, rfl, hpc, hg, hq⟩

/-- Only a `Join` of the player seats them, and a room that is live was live. -/
theorem exit_seat_back {g : Game σ} {r r' : Room σ} {i : Input} {outs : List Output}
    (he : Exit g r i r' outs) (ht : SeatTable g r) (ht' : SeatTable g r') (p : PlayerID)
    (hp : p ∈ r'.seatOrder) : p ∈ r.seatOrder ∨ ∃ now, i = .command now (.join p) := by
  obtain ⟨slot', hs'⟩ := Option.isSome_iff_exists.mp (AList.lookup_isSome.mpr ((ht'.keys p).mpr hp))
  have hch := exit_slot he p
  rw [hs'] at hch
  generalize ho : r.players.lookup p = o at hch
  cases hch with
  | seated now hi => exact Or.inr ⟨now, hi⟩
  | _ => exact Or.inl (ht.mem_of_lookup ho)

theorem exit_live_back {g : Game σ} {r r' : Room σ} {i : Input} {outs : List Output}
    (he : Exit g r i r' outs) (hl : r'.lifecycle = .waiting ∨ r'.lifecycle = .active) :
    r.lifecycle = .waiting ∨ r.lifecycle = .active := by
  have hrank := exit_rank he
  have hle : r'.lifecycle.rank ≤ 1 := by
    obtain h | h := hl <;> rw [h] <;> decide
  generalize r.lifecycle = before at hrank
  cases before with
  | waiting => exact Or.inl rfl
  | active => exact Or.inr rfl
  | finished => exact absurd (Nat.le_trans hrank hle) (by decide)
  | closed => exact absurd (Nat.le_trans hrank hle) (by decide)

theorem queue_back (hS : Searching u s') (hm : Move u s l s') (p : PlayerID) (gameType : String)
    (h : p ∈ s'.queues gameType) :
    p ∈ s.queues gameType ∨ Arrives u s s' l p (.queue gameType) := by
  obtain hold | ⟨c, choice, rfl, hr, rfl⟩ := queued_back hm p gameType h
  · exact Or.inl hold
  · right
    cases hg : u.games gameType with
    | none =>
      rw [hS.unlisted gameType hg] at h
      cases h
    | some g => exact .asked c choice gameType g hr hg

theorem group_back (hm : Move u s l s') (p : PlayerID) (c : ConnID)
    (h : p ∈ (s'.conn c).reader.group) :
    p ∈ (s.conn c).reader.group ∨ Arrives u s s' l p (.group c) := by
  obtain hsub | ⟨choice, gameType, g, queue, rfl, hr, hg, hq⟩ := move_group hm c
  · exact Or.inl (hsub.subset h)
  · exact Or.inr (.grouped c choice gameType g queue _ p hr hg hq h)

/-- The `Join`s in a channel change as the channel does. -/
theorem move_joiners (hm : Move u s l s') (R : ID) (a' : Actor σ) (ha' : s'.actor R = some a') :
    a'.joiners = [] ∨
    ∃ a, s.actor R = some a ∧ (a'.joiners.Sublist a.joiners ∨
      ∃ c choice p rest, l = .run c choice ∧ (s.conn c).reader = .submit (.join R p rest) ∧
        a'.joiners = a.joiners ++ [p]) := by
  obtain ⟨o, ho, hch⟩ := hm.actor_before ha'
  cases hch with
  | kept => exact Or.inr ⟨a', ho, Or.inl (List.Sublist.refl _)⟩
  | created c choice gameType players g hl hr hg => exact Or.inl rfl
  | pushed a t timers hp hc =>
    refine Or.inr ⟨a, ho, ?_⟩
    have happ : (Actor.joiners { a with queue := a.queue ++ [t], timers := timers }) =
        a.joiners ++ [t].filterMap Ticket.joiner := List.filterMap_append
    rw [happ]
    cases hp with
    | call c choice k hr =>
      cases k with
      | join room p rest => exact Or.inr ⟨c, choice, p, rest, rfl, hr, rfl⟩
      | _ => exact Or.inl (by simp [Ticket.joiner, Call.command])
    | _ => exact Or.inl (by simp [Ticket.joiner])
  | turned a t rest hl hq ht hopen =>
    refine Or.inr ⟨a, ho, Or.inl ?_⟩
    have hsub : rest.Sublist a.queue := by
      rw [hq]
      exact List.sublist_cons_self _ _
    exact hsub.filterMap _
  | ticked a hl ht hopen => exact Or.inr ⟨a, ho, Or.inl (List.Sublist.refl _)⟩
  | acted a a' i hl hp =>
    refine Or.inr ⟨a, ho, Or.inl ?_⟩
    unfold Actor.joiners
    rw [hp.queue_eq]
  | flagged a listed stopped timers => exact Or.inr ⟨a, ho, Or.inl (List.Sublist.refl _)⟩

theorem submit_group {c : ConnID} {choice : Choice} {R : ID} {p : PlayerID}
    {rest : List PlayerID} (hm : Move u s (.run c choice) s')
    (hr : (s.conn c).reader = .submit (.join R p rest)) :
    (s'.conn c).reader.group.Sublist rest := by
  obtain ⟨e, pc, hstep, rfl⟩ := hm.run_inv
  rw [goto_reader_self]
  rw [hr] at hstep
  cases hstep with
  | submitted k ha => exact List.Sublist.refl _
  | refused k hs => exact List.nil_sublist _

theorem join_back (hm : Move u s l s') (p : PlayerID) (R : ID) (h : IsAt s' p (.join R)) :
    IsAt s p (.join R) ∨ Arrives u s s' l p (.join R) := by
  obtain ⟨a', ha', hp⟩ := h
  obtain hnil | ⟨a, ha, hsub | ⟨c, choice, q, rest, rfl, hr, happ⟩⟩ := move_joiners hm R a' ha'
  · rw [hnil] at hp
    cases hp
  · exact Or.inl ⟨a, ha, hsub.subset hp⟩
  · rw [happ] at hp
    obtain hold | hnew := List.mem_append.mp hp
    · exact Or.inl ⟨a, ha, hold⟩
    · rw [List.mem_singleton.mp hnew]
      exact Or.inr (.sent c choice R q rest hr (submit_group hm hr))

theorem seat_back (hs : Sound u s) (hm : Move u s l s') (p : PlayerID) (R : ID)
    (h : SeatedIn s' p R) : SeatedIn s p R ∨ Arrives u s s' l p (.seat R) := by
  obtain ⟨a', ha', hlive, hp⟩ := h
  have ht' := (hs.move hm).seated.tables R a' ha'
  obtain ⟨o, ho, hch⟩ := hm.actor_before ha'
  cases hch with
  | kept => exact Or.inl ⟨a', ho, hlive, hp⟩
  | created c choice gameType players g hl hr hg => cases hp
  | pushed a t timers hpush hc => exact Or.inl ⟨a, ho, hlive, hp⟩
  | turned a t rest hl hq ht hopen =>
    subst hl
    have he := step_exit a.game a.room (.command s.now t.cmd)
    obtain hold | ⟨now, hi⟩ := exit_seat_back he (hs.seated.tables R a ho) ht' p hp
    · exact Or.inl ⟨a, ho, exit_live_back he hlive, hold⟩
    · have hjoin : t.joiner = some p := by
        cases t with
        | mk cmd reply =>
          cases hi
          rfl
      refine Or.inr (.seated R a t rest p ho hq hjoin fun b hb => ?_)
      rw [ha'] at hb
      cases hb
      rfl
  | ticked a hl ht hopen =>
    have he := step_exit a.game a.room (.tick s.now)
    obtain hold | ⟨now, hi⟩ := exit_seat_back he (hs.seated.tables R a ho) ht' p hp
    · exact Or.inl ⟨a, ho, exit_live_back he hlive, hold⟩
    · cases hi
  | acted a a' i hl hprog =>
    rw [hprog.room_eq] at hlive hp
    exact Or.inl ⟨a, ho, hlive, hp⟩
  | flagged a listed stopped timers => exact Or.inl ⟨a, ho, hlive, hp⟩

theorem place_back (hs : Sound u s) (hS : Searching u s) (hm : Move u s l s') (p : PlayerID)
    (y : Place) (h : IsAt s' p y) : IsAt s p y ∨ Arrives u s s' l p y := by
  cases y with
  | queue gameType => exact queue_back (hS.move hm) hm p gameType h
  | group c => exact group_back hm p c h
  | join R => exact join_back hm p R h
  | seat R => exact seat_back hs hm p R h

/-! ## Whoever arrives has left -/

theorem matched_leaves (hS : Searching u s) {c : ConnID} {choice : Choice} {gameType : String}
    {g : Game σ} {queue players : List PlayerID} (hm : Move u s (.run c choice) s')
    (hr : (s.conn c).reader = .enqueue gameType) (hg : u.games gameType = some g)
    (hq : Matchmaking.enqueue g.maxPlayers (s.queues gameType) (s.conn c).playerID =
      (queue, some players)) :
    players.Nodup ∧ ∀ x ∈ players, (x ∈ s.queues gameType ∨ x = (s.conn c).playerID) ∧
      x ∉ s'.queues gameType := by
  have hq' : s'.queues gameType = queue := by
    rw [move_queues hm]
    simp only [Sys.queueRequest, hr, Reader.request]
    rw [request_enqueue u.games s.queues gameType _ g hg, hq]
  rw [hq']
  exact enqueue_matched g.maxPlayers _ _ _ _ (hS.nodup gameType) hq

/-- The player of a `Join` that is sent leaves the group. -/
theorem sent_leaves (hP : Placed s) {c : ConnID} {R : ID} {p : PlayerID} {rest : List PlayerID}
    (hr : (s.conn c).reader = .submit (.join R p rest))
    (hr' : (s'.conn c).reader.group.Sublist rest) :
    IsAt s p (.group c) ∧ ¬ IsAt s' p (.group c) := by
  have hgroup : (s.conn c).reader.group = p :: rest := by
    rw [hr]
    rfl
  have hnodup := hP.group c
  rw [hgroup] at hnodup
  refine ⟨?_, fun hin => (List.nodup_cons.mp hnodup).1 (hr'.subset hin)⟩
  change p ∈ (s.conn c).reader.group
  rw [hgroup]
  exact List.mem_cons_self

/-- The player of a `Join` that the room takes leaves the command channel. -/
theorem taken_leaves (hP : Placed s) {R : ID} {a : Actor σ} {t : Ticket} {rest : List Ticket}
    {p : PlayerID} (ha : s.actor R = some a) (hq : a.queue = t :: rest)
    (ht : t.joiner = some p) (ha' : ∀ a', s'.actor R = some a' → a'.queue = rest) :
    IsAt s p (.join R) ∧ ¬ IsAt s' p (.join R) := by
  have hj : a.joiners = p :: rest.filterMap Ticket.joiner := by
    unfold Actor.joiners
    rw [hq, List.filterMap_cons_some ht]
  have hnodup := hP.joiners R a ha
  rw [hj] at hnodup
  refine ⟨⟨a, ha, by rw [hj]; exact List.mem_cons_self⟩, ?_⟩
  rintro ⟨a', hact, hp⟩
  unfold Actor.joiners at hp
  rw [ha' a' hact] at hp
  exact (List.nodup_cons.mp hnodup).1 hp

theorem Arrives.only (hP : Placed s) (hS : Searching u s) (hm : Move u s l s')
    (hl : asksAlone u s l) {p : PlayerID} {y z : Place} (h : Arrives u s s' l p y)
    (hy : IsAt s' p y) (hz : IsAt s' p z) (hback : IsAt s p z ∨ Arrives u s s' l p z) :
    z = y := by
  cases h with
  | asked c choice gameType g hr hg =>
    obtain hold | hnew := hback
    · exact hl gameType g hr hg z hold
    · cases hnew with
      | asked _ _ gt _ hr₂ =>
        rw [hr] at hr₂
        cases hr₂
        rfl
      | grouped _ _ gt g₂ queue players _ hr₂ hg₂ hq hp =>
        rw [hr] at hr₂
        cases hr₂
        exact absurd hy ((matched_leaves hS hm hr hg₂ hq).2 _ hp).2
      | sent _ _ R _ rest hr₂ =>
        rw [hr] at hr₂
        cases hr₂
  | grouped c choice gameType g queue players _ hr hg hq hp =>
    obtain ⟨hfrom, hgone⟩ := (matched_leaves hS hm hr hg hq).2 p hp
    obtain hold | hnew := hback
    · have hz' : z = .queue gameType := by
        obtain hin | rfl := hfrom
        · exact hP.alone p z (.queue gameType) hold hin
        · exact hl gameType g hr hg z hold
      rw [hz'] at hz
      exact absurd hz hgone
    · cases hnew with
      | asked _ _ gt _ hr₂ =>
        rw [hr] at hr₂
        cases hr₂
        exact absurd hz hgone
      | grouped => rfl
      | sent _ _ R _ rest hr₂ =>
        rw [hr] at hr₂
        cases hr₂
  | sent c choice R _ rest hr hr' =>
    obtain hold | hnew := hback
    · obtain ⟨hin, hgone⟩ := sent_leaves hP hr hr'
      rw [hP.alone p z (.group c) hold hin] at hz
      exact absurd hz hgone
    · cases hnew with
      | asked _ _ gt _ hr₂ =>
        rw [hr] at hr₂
        cases hr₂
      | grouped _ _ gt g₂ queue players _ hr₂ =>
        rw [hr] at hr₂
        cases hr₂
      | sent _ _ R₂ _ rest₂ hr₂ =>
        rw [hr] at hr₂
        cases hr₂
        rfl
  | seated R a t rest _ ha hq ht ha' =>
    obtain hold | hnew := hback
    · obtain ⟨hin, hgone⟩ := taken_leaves hP ha hq ht ha'
      rw [hP.alone p z (.join R) hold hin] at hz
      exact absurd hz hgone
    · cases hnew with
      | seated => rfl

/-! ## The invariant -/

theorem Placed.alone_move (hP : Placed s) (hs : Sound u s) (hS : Searching u s)
    (hm : Move u s l s') (hl : asksAlone u s l) (p : PlayerID) (x y : Place) (hx : IsAt s' p x)
    (hy : IsAt s' p y) : x = y := by
  have hbx := place_back hs hS hm p x hx
  have hby := place_back hs hS hm p y hy
  obtain holdx | hnewx := hbx
  · obtain holdy | hnewy := hby
    · exact hP.alone p x y holdx holdy
    · exact hnewy.only hP hS hm hl hy hx (Or.inl holdx)
  · exact (hnewx.only hP hS hm hl hx hy hby).symm

theorem Placed.group_move (hP : Placed s) (hS : Searching u s) (hm : Move u s l s') (c : ConnID) :
    (s'.conn c).reader.group.Nodup := by
  obtain hsub | ⟨choice, gameType, g, queue, rfl, hr, hg, hq⟩ := move_group hm c
  · exact (hP.group c).sublist hsub
  · exact (matched_leaves hS hm hr hg hq).1

theorem Placed.joiners_move (hP : Placed s) (hm : Move u s l s') (R : ID) (a' : Actor σ)
    (ha' : s'.actor R = some a') : a'.joiners.Nodup := by
  obtain hnil | ⟨a, ha, hsub | ⟨c, choice, p, rest, rfl, hr, happ⟩⟩ := move_joiners hm R a' ha'
  · rw [hnil]
    exact List.nodup_nil
  · exact (hP.joiners R a ha).sublist hsub
  · have hin : IsAt s p (.group c) := by
      change p ∈ (s.conn c).reader.group
      rw [hr]
      exact List.mem_cons_self
    have hnot : p ∉ a.joiners := fun hp => by
      have h := hP.alone p (.group c) (.join R) hin ⟨a, ha, hp⟩
      cases h
    rw [happ]
    simpa using (hP.joiners R a ha).concat hnot

theorem Placed.move (hP : Placed s) (hs : Sound u s) (hS : Searching u s) (hm : Move u s l s')
    (hl : asksAlone u s l) : Placed s' where
  alone := hP.alone_move hs hS hm hl
  group := hP.group_move hS hm
  joiners := hP.joiners_move hm

theorem placed_start : Placed ({} : Sys σ) where
  alone := by
    intro p x y hx hy
    cases x with
    | queue gameType => cases hx
    | group c => cases hx
    | join R =>
      obtain ⟨a, ha, -⟩ := hx
      cases ha
    | seat R =>
      obtain ⟨a, ha, -⟩ := hx
      cases ha
  group := fun c => List.nodup_nil
  joiners := fun R a ha => by cases ha

/-- In a run where players ask for a game only while they are nowhere else on the
way to a room, nobody is seated in two live rooms. -/
theorem one_game_at_a_time (u : Setup σ) (ls : List Label) (s : Sys σ)
    (hc : Meets (step u) (asksAlone u) {} ls) (hr : run u ls = some s) (p : PlayerID)
    (R₁ R₂ : ID) (h₁ : SeatedIn s p R₁) (h₂ : SeatedIn s p R₂) : R₁ = R₂ := by
  obtain ⟨-, -, hP⟩ := run_invariant (asksAlone u) (fun t => Searching u t ∧ Placed t)
    (fun t l t' hl hs h hm => ⟨h.1.move hm, h.2.move hs h.1 hm hl⟩)
    ⟨(run_searching u [] {} rfl).2, placed_start⟩ ls s hc hr
  have hplace := hP.alone p (.seat R₁) (.seat R₂) h₁ h₂
  cases hplace
  rfl

/-! ## First requests -/

/-- A step with no request meets the condition. -/
theorem asksAlone_of_none (u : Setup σ) (s : Sys σ) (l : Label)
    (h : (s.queueRequest l).isNone = true) : asksAlone u s l := by
  cases l with
  | run c choice =>
    intro gameType g hr
    simp [Sys.queueRequest, hr, Reader.request] at h
  | _ => trivial

/-- Before the first room, a player in no queue and no group is nowhere. -/
theorem nowhere (hk : Known u s) (p : PlayerID) (hq : ∀ gameType, p ∉ s.queues gameType)
    (hg : ((List.range s.conns).all fun c => (s.conn c).reader.group.isEmpty) = true)
    (ha : ∀ R, s.actor R = none) (place : Place) : ¬ IsAt s p place := by
  intro h
  cases place with
  | queue gameType => exact hq gameType h
  | group c =>
    change p ∈ (s.conn c).reader.group at h
    have hc : c < s.conns := hk.busy c (by rintro hi; rw [hi] at h; cases h)
    have hnil := List.all_eq_true.mp hg c (List.mem_range.mpr hc)
    rw [List.isEmpty_iff.mp hnil] at h
    cases h
  | join R =>
    obtain ⟨a, hR, -⟩ := h
    rw [ha R] at hR
    cases hR
  | seat R =>
    obtain ⟨a, hR, -⟩ := h
    rw [ha R] at hR
    cases hR

/-- The first request of a player, before the first room. -/
theorem asksAlone_first (hk : Known u s) (c : ConnID) (choice : Choice)
    (hq : ∀ gameType, (s.conn c).playerID ∉ s.queues gameType)
    (hg : ((List.range s.conns).all fun c => (s.conn c).reader.group.isEmpty) = true)
    (ha : ∀ R, s.actor R = none) : asksAlone u s (.run c choice) :=
  fun _ _ _ _ place h => absurd h (nowhere hk _ hq hg ha place)

end Memberships

/-! ## Alice in one room and in two -/

section Scenario
set_option maxRecDepth 100000

/-- Both players of a match of two are joined to its room. -/
def joinsTwo (c : ConnID) (R : ID) : List Label :=
  [.run c (.fresh R), .run c .go] ++ turns R 3 ++ runs c 2 ++ turns R 5

/-- Alice asks for a game. -/
def aliceAsks : List Label := asks "a" 0 "tictactoe" ++ runs 0 1

/-- Alice is queued, and bob asks for the same game. -/
def bobFollows : List Label := aliceAsks ++ (runs 0 1 ++ (asks "b" 1 "tictactoe" ++ runs 1 1))

theorem bobFollows_alone : Meets (step aliceAndBob) (asksAlone aliceAndBob) {} bobFollows := by
  obtain ⟨s, t, hr, hx, hc, hd, hq, ha, hg⟩ :
      ∃ s t, run aliceAndBob aliceAsks = some s ∧
        exec (step aliceAndBob) s (runs 0 1) = some t ∧
        Meets (step aliceAndBob) (fun t l => (t.queueRequest l).isNone = true) {} aliceAsks ∧
        Meets (step aliceAndBob) (fun t l => (t.queueRequest l).isNone = true) t
          (asks "b" 1 "tictactoe" ++ runs 1 1) ∧
        (∀ gameType, s.queues gameType = []) ∧ (∀ R, s.actor R = none) ∧
        ((List.range s.conns).all fun c => (s.conn c).reader.group.isEmpty) = true :=
    ⟨_, _, rfl, rfl, by decide +kernel, by decide +kernel, fun _ => rfl, fun _ => rfl, rfl⟩
  have hk := (run_searching aliceAndBob _ s hr).1.known
  have hask := asksAlone_first hk 0 .go (fun gt => by rw [hq gt]; exact List.not_mem_nil) hg ha
  have hnone := meets_mono (step aliceAndBob) _ _ (asksAlone_of_none aliceAndBob)
  refine meets_append (step aliceAndBob) (asksAlone aliceAndBob) {} s _ _ hr (hnone _ _ hc) ?_
  exact meets_append (step aliceAndBob) _ s t _ _ hx ⟨hask, fun _ _ => trivial⟩ (hnone _ _ hd)

/-- Alice and bob ask for a game once each: alice is in the room of their match
and in no other. -/
theorem alice_seated_once :
    ∃ s, run aliceAndBob (bobFollows ++ (runs 1 1 ++ joinsTwo 1 "r")) = some s ∧
      SeatedIn s "alice" "r" ∧ ∀ R, SeatedIn s "alice" R → R = "r" := by
  obtain ⟨s, t, v, hr, hx, hv, hlive, hd, hq, ha, hg, hp⟩ :
      ∃ s t v, run aliceAndBob bobFollows = some s ∧
        exec (step aliceAndBob) s (runs 1 1) = some t ∧
        run aliceAndBob (bobFollows ++ (runs 1 1 ++ joinsTwo 1 "r")) = some v ∧
        ((v.actor "r").any fun a => decide (a.room.lifecycle = .active) &&
          decide ("alice" ∈ a.room.seatOrder)) = true ∧
        Meets (step aliceAndBob) (fun t l => (t.queueRequest l).isNone = true) t
          (joinsTwo 1 "r") ∧
        s.queues = Function.update (fun _ => []) "tictactoe" ["alice"] ∧
        (∀ R, s.actor R = none) ∧
        ((List.range s.conns).all fun c => (s.conn c).reader.group.isEmpty) = true ∧
        (s.conn 1).playerID = "bob" :=
    ⟨_, _, _, rfl, rfl, rfl, rfl, by decide +kernel, rfl, fun _ => rfl, rfl, rfl⟩
  have hk := (run_searching aliceAndBob _ s hr).1.known
  have hask : asksAlone aliceAndBob s (.run 1 .go) := by
    refine asksAlone_first hk 1 .go (fun gt => ?_) hg ha
    rw [hp, hq, Function.update_apply]
    split <;> decide
  have hnone := meets_mono (step aliceAndBob) _ _ (asksAlone_of_none aliceAndBob)
  have hmeets := meets_append (step aliceAndBob) (asksAlone aliceAndBob) {} s _ _ hr
    bobFollows_alone (meets_append (step aliceAndBob) _ s t _ _ hx ⟨hask, fun _ _ => trivial⟩
      (hnone _ _ hd))
  have hseat : SeatedIn v "alice" "r" := by
    obtain ⟨a, hact, h⟩ := (Option.any_eq_true _ _).mp hlive
    rw [Bool.and_eq_true, decide_eq_true_iff, decide_eq_true_iff] at h
    exact ⟨a, hact, Or.inr h.1, h.2⟩
  exact ⟨v, hv, hseat, fun R hR => one_game_at_a_time aliceAndBob _ v hmeets hv "alice" R "r" hR
    hseat⟩

/-- Carol has the third session. -/
def withCarol : Setup GameState :=
  { aliceAndBob with
    owner := fun sid => if sid = "a" then "alice" else if sid = "b" then "bob" else "carol" }

/-- Alice asks for both games on one connection; bob completes the match of the
first and carol that of the second. -/
def asksForBoth : List Label :=
  queuesUp "a" 0 "tictactoe" ++ [.recv 0 (findGame "pingpong")] ++ runs 0 2 ++
    queuesUp "b" 1 "tictactoe" ++ joinsTwo 1 "r" ++ queuesUp "c" 2 "pingpong" ++ joinsTwo 2 "q"

theorem alice_seated_twice :
    ((run withCarol asksForBoth).any fun s => decide (s.conns = 3) &&
      (s.actor "r").any (fun a => decide (a.room.lifecycle = .active) &&
        decide (a.room.seatOrder = ["alice", "bob"])) &&
      (s.actor "q").any (fun a => decide (a.room.lifecycle = .active) &&
        decide (a.room.seatOrder = ["alice", "carol"]))) = true := by
  decide +kernel

end Scenario
end RealtimeEngine.Transport
