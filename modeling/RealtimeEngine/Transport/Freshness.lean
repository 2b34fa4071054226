import RealtimeEngine.Transport.Delivery

/-! In which order the versions of a room reach the channel of a connection. The
actor enqueues its diffs inline; a snapshot is answered by the actor, and the
goroutine that asked for it enqueues it later, perhaps after a newer diff. In
every run where nothing overtakes a snapshot in hand, versions never go back. -/
namespace RealtimeEngine.Transport
open Foundations Domain Rooms Storage Matchmaking
set_option autoImplicit false
set_option maxHeartbeats 250000

section Freshness
variable {σ : Type} {u : Setup σ} {s s' : Sys σ} {l : Label}

/-! ## Versions sent and versions in hand -/

/-- The versions of the room put on the channel of `c`, in order. -/
def versions (s : Sys σ) (R : ID) (c : ConnID) : List ℕ :=
  (s.conn c).sent.filterMap (versionOf R)

/-- A goroutine has an answer of the room with version `v` in hand for `c`. -/
def Holds (s : Sys σ) (R : ID) (c : ConnID) (v : ℕ) : Prop :=
  ∃ d k answer, (k, answer) ∈ holding s d ∧ k.room = R ∧ k.target d = some c ∧
    answerSeq answer = v

/-- No answer of the room in hand for `c` is older than `v`. -/
def newest (s : Sys σ) (R : ID) (c : ConnID) (v : ℕ) : Bool :=
  (List.range s.conns).all fun d => (holding s d).all fun x =>
    decide (x.1.room = R ∧ x.1.target d = some c → v ≤ answerSeq x.2)

/-- A message with a version is put on a channel only while no older answer of
the room is in hand for the connection. -/
def overtakesNone (s : Sys σ) : Label → Bool
  | .act id i =>
    match (s.actor id).bind fun a => a.todo.head? with
    | some (.deliver env targets) =>
      !env.type.versioned || (targets[i]?).all fun c => newest s env.roomID c env.serverSeq
    | _ => true
  | .run d _ =>
    match (s.conn d).reader with
    | .tell .send k answer => (k.target d).all fun c => newest s k.room c (answerSeq answer)
    | _ => true
  | _ => true

theorem Holds.newest_le (hk : Known u s) {R : ID} {c : ConnID} {v w : ℕ}
    (hn : newest s R c v = true) (h : Holds s R c w) : v ≤ w := by
  obtain ⟨d, k, answer, hin, hroom, ht, rfl⟩ := h
  have hd : d < s.conns := hk.busy d fun hr => by
    have hcall := call_of_holding hin
    rw [hr] at hcall
    cases hcall
  have hall := List.all_eq_true.mp (List.all_eq_true.mp hn d (List.mem_range.mpr hd)) _ hin
  exact of_decide_eq_true hall ⟨hroom, ht⟩

theorem versionOf_eq_some {R : ID} {env : ServerEnvelope} {v : ℕ} (h : versionOf R env = some v) :
    env.type.versioned = true ∧ env.roomID = R ∧ env.serverSeq = v := by
  unfold versionOf at h
  split at h
  · next hc => exact ⟨hc.1, hc.2, Option.some.inj h⟩
  · cases h

/-- What a message with a version that goes on the channel of `c` is: the diff
of the current version, or an answer in hand, and no older one is in hand. -/
theorem appended_version (hS : Sound u s) (hl : overtakesNone s l = true) {R : ID} {c : ConnID}
    {env : ServerEnvelope} {given : Option (ID × ℕ)} (happ : Appends s l c env given) {v : ℕ}
    (hv : versionOf R env = some v) :
    ((∃ a, s.actor R = some a ∧ v = a.room.serverSeq) ∨ Holds s R c v) ∧
      newest s R c v = true := by
  obtain ⟨htype, rfl, rfl⟩ := versionOf_eq_some hv
  cases happ with
  | delivered id i a env targets rest c ha ht hc =>
    have hmem : Op.deliver env targets ∈ a.todo := by
      rw [ht]
      exact List.mem_cons_self
    obtain ⟨hroom, hseq⟩ := hS.linked.message id a env targets ha hmem
    refine ⟨Or.inl ⟨a, by rw [hroom]; exact ha, hseq⟩, ?_⟩
    simpa [overtakesNone, ha, ht, htype, hc] using hl
  | told d choice k answer c hr ht =>
    refine ⟨Or.inr ⟨d, k, answer, (mem_holding s d k answer).mpr (Or.inr ⟨_, hr⟩), rfl, ht, rfl⟩, ?_⟩
    change newest s k.room c (answerSeq answer) = true
    simpa [overtakesNone, hr, ht] using hl
  | noted d choice env hr =>
    rw [hS.known.note c env hr] at htype
    cases htype

theorem versions_move (hS : Sound u s) (hm : Move u s l s') (hl : overtakesNone s l = true)
    (R : ID) (c : ConnID) :
    versions s' R c = versions s R c ∨
    ∃ v, versions s' R c = versions s R c ++ [v] ∧
      ((∃ a, s.actor R = some a ∧ v = a.room.serverSeq) ∨ Holds s R c v) ∧
      newest s R c v = true := by
  unfold versions
  obtain ⟨hs, -⟩ | ⟨env, given, happ, hs, -⟩ := move_sent hm hS.known.fresh c
  · exact Or.inl (by rw [hs])
  · rw [hs, List.filterMap_append]
    cases hv : versionOf R env with
    | none => exact Or.inl (by simp [hv])
    | some v => exact Or.inr ⟨v, by simp [hv], appended_version hS hl happ hv⟩

/-- An answer in hand was in hand before, or has just been taken, or `Snapshot`
failed and the connection has not heard of the room yet. -/
theorem holds_back (hS : Sound u s) (hm : Move u s l s') {R : ID} {c : ConnID} {v : ℕ}
    (h : Holds s' R c v) :
    Holds s R c v ∨ (∃ a', s'.actor R = some a' ∧ v = a'.room.serverSeq) ∨
    (∃ a', s'.actor R = some a') ∧ v = 0 ∧ versions s' R c = [] := by
  obtain ⟨d, k, answer, hin, rfl, ht, rfl⟩ := h
  obtain hold | ⟨a, t, rest, res, rfl, -, hans⟩ | ⟨rfl, hrest, hr⟩ :=
    move_holding hS.linked hm d k answer hin
  · exact Or.inl ⟨d, k, answer, hold, rfl, ht, rfl⟩
  · exact Or.inr (Or.inl (hans.serverSeq ht))
  · right
    right
    have hS' := hS.move hm
    cases k with
    | seat room p conn rest =>
      cases ht
      have hpass : (s'.conn d).reader.pass = some (room, some (p :: rest)) := by
        rw [hr]
        rfl
      have hplays : Plays s' p c := hS'.known.call d room p c rest (by rw [hr]; rfl)
      have huntouched := hS'.seated.virgin room p (Or.inr ⟨d, _, hpass, List.mem_cons_self⟩)
      refine ⟨Option.ne_none_iff_exists'.mp (hS'.seated.created d room _ hpass), rfl, ?_⟩
      exact List.filterMap_eq_nil_iff.mpr (huntouched.sent c hplays)
    | _ => cases hrest

/-! ## The invariant -/

structure Fresh (s : Sys σ) : Prop where
  sorted : ∀ R c, (versions s R c).Pairwise (· ≤ ·)
  bounded : ∀ R c v, v ∈ versions s R c ∨ Holds s R c v →
    ∃ a, s.actor R = some a ∧ v ≤ a.room.serverSeq
  held : ∀ R c v w, v ∈ versions s R c → Holds s R c w → v ≤ w

theorem Fresh.sorted_move (hF : Fresh s) (hS : Sound u s) (hm : Move u s l s')
    (hl : overtakesNone s l = true) (R : ID) (c : ConnID) :
    (versions s' R c).Pairwise (· ≤ ·) := by
  obtain h | ⟨v, h, hsrc, -⟩ := versions_move hS hm hl R c
  · rw [h]
    exact hF.sorted R c
  · rw [h, List.pairwise_append]
    refine ⟨hF.sorted R c, List.pairwise_singleton _ _, fun w hw v' hv' => ?_⟩
    rw [List.mem_singleton.mp hv']
    obtain ⟨a, ha, rfl⟩ | hheld := hsrc
    · obtain ⟨b, hb, hle⟩ := hF.bounded R c w (Or.inl hw)
      rw [ha] at hb
      cases hb
      exact hle
    · exact hF.held R c w v hw hheld

theorem Fresh.bounded_move (hF : Fresh s) (hS : Sound u s) (hm : Move u s l s')
    (hl : overtakesNone s l = true) (R : ID) (c : ConnID) (v : ℕ)
    (h : v ∈ versions s' R c ∨ Holds s' R c v) :
    ∃ a', s'.actor R = some a' ∧ v ≤ a'.room.serverSeq := by
  have hold : (∃ a, s.actor R = some a ∧ v ≤ a.room.serverSeq) →
      ∃ a', s'.actor R = some a' ∧ v ≤ a'.room.serverSeq := by
    rintro ⟨a, ha, hle⟩
    obtain ⟨a', ha', hle'⟩ := move_serverSeq hm ha
    exact ⟨a', ha', Nat.le_trans hle hle'⟩
  obtain hv | hv := h
  · obtain hs | ⟨w, hs, hsrc, -⟩ := versions_move hS hm hl R c
    · rw [hs] at hv
      exact hold (hF.bounded R c v (Or.inl hv))
    · rw [hs] at hv
      obtain hv | hv := List.mem_append.mp hv
      · exact hold (hF.bounded R c v (Or.inl hv))
      · cases List.mem_singleton.mp hv
        obtain ⟨a, ha, hw⟩ | hheld := hsrc
        · exact hold ⟨a, ha, Nat.le_of_eq hw⟩
        · exact hold (hF.bounded R c v (Or.inr hheld))
  · obtain hheld | ⟨a', ha', hv⟩ | ⟨⟨a', ha'⟩, rfl, -⟩ := holds_back hS hm hv
    · exact hold (hF.bounded R c v (Or.inr hheld))
    · exact ⟨a', ha', Nat.le_of_eq hv⟩
    · exact ⟨a', ha', Nat.zero_le _⟩

theorem Fresh.held_move (hF : Fresh s) (hS : Sound u s) (hm : Move u s l s')
    (hl : overtakesNone s l = true) (R : ID) (c : ConnID) (v w : ℕ)
    (hv : v ∈ versions s' R c) (hw : Holds s' R c w) : v ≤ w := by
  obtain hheld | ⟨a', ha', rfl⟩ | ⟨-, -, hnil⟩ := holds_back hS hm hw
  · obtain hs | ⟨v', hs, -, hnew⟩ := versions_move hS hm hl R c
    · rw [hs] at hv
      exact hF.held R c v w hv hheld
    · rw [hs] at hv
      obtain hv | hv := List.mem_append.mp hv
      · exact hF.held R c v w hv hheld
      · rw [List.mem_singleton.mp hv]
        exact hheld.newest_le hS.known hnew
  · -- the snapshot has just been taken, at the version everything sent is behind
    obtain ⟨b, hb, hle⟩ := hF.bounded_move hS hm hl R c v (Or.inl hv)
    rw [ha'] at hb
    cases hb
    exact hle
  · rw [hnil] at hv
    cases hv

theorem Fresh.move (hF : Fresh s) (hS : Sound u s) (hm : Move u s l s')
    (hl : overtakesNone s l = true) : Fresh s' where
  sorted := hF.sorted_move hS hm hl
  bounded := hF.bounded_move hS hm hl
  held := hF.held_move hS hm hl

theorem fresh_start : Fresh ({} : Sys σ) where
  sorted := fun R c => List.Pairwise.nil
  bounded := by
    rintro R c v (h | ⟨d, k, answer, h, -⟩)
    · cases h
    · cases h
  held := fun R c v w h => by cases h

/-- As long as no message with a version is put on a channel while an older
answer of the room is in hand for that connection, the versions of each room are
put on each channel in non-decreasing order. -/
theorem versions_nondecreasing (u : Setup σ) (ls : List Label) (s : Sys σ)
    (hc : Meets (step u) (fun s l => overtakesNone s l = true) {} ls)
    (hr : run u ls = some s) (R : ID) (c : ConnID) :
    ((s.conn c).sent.filterMap (versionOf R)).Pairwise (· ≤ ·) := by
  obtain ⟨-, hF⟩ := run_invariant (fun s l => overtakesNone s l = true) Fresh
    (fun s l s' hl hS hF hm => hF.move hS hm hl) fresh_start ls s hc hr
  exact hF.sorted R c

end Freshness

/-! ## A resync while the opponent moves -/

section Scenario
set_option maxRecDepth 100000

def resync : Incoming := .message { type := "RESYNC" }

/-- Bob asks for a snapshot and the room answers. -/
def bobAsks : List Label := [.recv 1 resync, .run 1 .go] ++ turns "r" 1 ++ runs 1 1

/-- Bob gets the snapshot before alice moves. -/
theorem resync_before_move :
    Meets (step aliceAndBob) (fun s l => overtakesNone s l = true) {}
      (seated ++ bobAsks ++ runs 1 1 ++ plays 0 0 0 1 5) ∧
    ∃ s, run aliceAndBob (seated ++ bobAsks ++ runs 1 1 ++ plays 0 0 0 1 5) = some s ∧
      versions s "r" 1 = [0, 0, 1] ∧
      ((s.conn 1).sent.filterMap (versionOf "r")).Pairwise (· ≤ ·) := by
  have hc : Meets (step aliceAndBob) (fun s l => overtakesNone s l = true) {}
      (seated ++ bobAsks ++ runs 1 1 ++ plays 0 0 0 1 5) := by decide +kernel
  have hend : ((run aliceAndBob (seated ++ bobAsks ++ runs 1 1 ++ plays 0 0 0 1 5)).any fun s =>
      decide (versions s "r" 1 = [0, 0, 1])) = true := by decide +kernel
  obtain ⟨s, hr, h⟩ := (Option.any_eq_true _ _).mp hend
  exact ⟨hc, s, hr, of_decide_eq_true h, versions_nondecreasing aliceAndBob _ s hc hr "r" 1⟩

/-- Alice moves while bob's goroutine has the snapshot in hand: bob is sent the
diff with version 1 and then the snapshot with version 0. -/
theorem resync_overtaken :
    ((run aliceAndBob (seated ++ bobAsks ++ plays 0 0 0 1 5 ++ runs 1 1)).any fun s =>
      s.quiet "r" && (s.conn 1).isOpen &&
      decide ((s.conn 1).sent.map (fun env => (env.type, env.serverSeq)) =
        [(.event .roomStarted, 0), (.event .stateDiff, 1), (.event .stateSnapshot, 0)]) &&
      decide (¬ (versions s "r" 1).Pairwise (· ≤ ·))) = true := by
  decide +kernel

end Scenario
end RealtimeEngine.Transport
