import RealtimeEngine.Transport.Lives
import RealtimeEngine.Transport.Memberships

/-! On whose behalf a node acts. Whoever is queued, grouped, joined or seated is the
player of a connection that was accepted, and so is the player on whose behalf a room
is given a command: no goroutine ever speaks for anybody else. -/
namespace RealtimeEngine.Transport
open Foundations Domain Rooms Storage Matchmaking
set_option autoImplicit false
set_option maxHeartbeats 250000

section Vouching
variable {σ : Type} {u : Setup σ} {s s' : Sys σ} {l : Label}

/-- The player on whose behalf a goroutine of a connection gives a command. -/
def Command.author : Command → Option PlayerID
  | .join p | .leave p | .disconnect p | .reconnect p => some p
  | .action a => some a.playerID
  | .graceExpired _ _ | .forceClose | .snapshot => none

/-- Some connection of the player was accepted. -/
def Dialed (s : Sys σ) (p : PlayerID) : Prop := ∃ c, Plays s p c

structure Vouched (s : Sys σ) : Prop where
  place : ∀ p place, IsAt s p place → Dialed s p
  act : ∀ c R action, (s.conn c).reader.call = some (.act R action) →
    action.playerID = (s.conn c).playerID
  ticket : ∀ R a t p, s.actor R = some a → t ∈ a.queue → Command.author t.cmd = some p → Dialed s p

theorem Dialed.move (hm : Move u s l s') {p : PlayerID} (h : Dialed s p) : Dialed s' p := by
  obtain ⟨c, hc⟩ := h
  exact ⟨c, hc.move hm⟩

theorem handleMessage_act {now : Time} {x : Conn} {m : Incoming} {R : ID} {action : Action}
    (h : handleMessage now x m = .submit (.act R action)) : action.playerID = x.playerID := by
  cases m with
  | limited => cases h
  | malformed text => cases h
  | message env =>
    unfold handleMessage handleFindMatch handleResync handleGameAction at h
    dsimp only at h
    split at h
    · split at h
      · cases h
      · split at h <;> cases h
    · split at h
      · split at h <;> cases h
      · split at h
        · cases h
        · cases h
          rfl

theorem Vouched.act_move (hV : Vouched s) (hk : Known u s) (hm : Move u s l s') (c : ConnID)
    (R : ID) (action : Action) (h : (s'.conn c).reader.call = some (.act R action)) :
    action.playerID = (s'.conn c).playerID := by
  have hkeep : (s.conn c).reader.call = some (.act R action) →
      action.playerID = (s'.conn c).playerID := by
    intro hold
    have hc : c < s.conns := hk.busy c fun hi => by
      rw [hi] at hold
      cases hold
    rw [move_player hm c hc]
    exact hV.act c R action hold
  obtain hr | ⟨sid, -, -, hr⟩ | ⟨m, rfl, hidle, hr⟩ | ⟨choice, e, rfl, hstep⟩ := move_reader hm c
  · rw [hr] at h
    exact hkeep h
  · rw [hr] at h
    cases h
  · rw [hr] at h
    have hplayer : (s'.conn c).playerID = (s.conn c).playerID := by
      obtain heq | ⟨sid, hl, -⟩ := move_fixed Conn.playerID (fun _ _ _ _ _ _ _ _ => rfl) hm c
      · exact heq
      · cases hl
    rw [hplayer]
    exact handleMessage_act (handleMessage_call _ _ _ _ h).1
  · obtain hold | ⟨rec, -, hk⟩ | ⟨room, p, rest, hk⟩ | ⟨room, p, rest, conn, -, -, hk⟩ :=
      hstep.call_cases h
    · exact hkeep hold
    · cases hk
    · cases hk
    · cases hk

/-- The author of a call is the player of the connection, or one whom it joins to a room. -/
theorem Vouched.author (hV : Vouched s) (hk : Known u s) {c : ConnID} {k : Call} {p : PlayerID}
    (hr : (s.conn c).reader = .submit k)
    (h : Command.author (k.command (s.conn c).playerID) = some p) : Dialed s p := by
  have hself : Dialed s (s.conn c).playerID :=
    ⟨c, hk.busy c (by rw [hr]; exact Reader.noConfusion), rfl⟩
  cases k with
  | resume R =>
    cases h
    exact hself
  | join R q rest =>
    cases h
    refine hV.place p (.group c) ?_
    change p ∈ (s.conn c).reader.group
    rw [hr]
    exact List.mem_cons_self
  | seat R q conn rest => cases h
  | resync R => cases h
  | act R action =>
    cases h
    rw [hV.act c R action (by rw [hr]; rfl)]
    exact hself

theorem Vouched.move (hV : Vouched s) (hs : Sound u s) (hS : Searching u s)
    (hm : Move u s l s') : Vouched s' where
  act := hV.act_move hs.known hm
  place := by
    intro p place h
    obtain hold | harr := place_back hs hS hm p place h
    · exact (hV.place p place hold).move hm
    refine Dialed.move hm ?_
    cases harr with
    | asked c choice gameType g hr hg =>
      exact ⟨c, hs.known.busy c (by rw [hr]; exact Reader.noConfusion), rfl⟩
    | grouped c choice gameType g queue players p hr hg hq hp =>
      obtain ⟨hin | rfl, -⟩ := (matched_leaves hS hm hr hg hq).2 p hp
      · exact hV.place p (.queue gameType) hin
      · exact ⟨c, hs.known.busy c (by rw [hr]; exact Reader.noConfusion), rfl⟩
    | sent c choice R p rest hr hr' =>
      refine hV.place p (.group c) ?_
      change p ∈ (s.conn c).reader.group
      rw [hr]
      exact List.mem_cons_self
    | seated R a t rest p ha hq ht ha' =>
      refine hV.place p (.join R) ⟨a, ha, List.mem_filterMap.mpr ⟨t, ?_, ht⟩⟩
      rw [hq]
      exact List.mem_cons_self
  ticket := by
    intro R a' t p ha' ht hp
    refine Dialed.move hm ?_
    obtain ⟨a, ha, hold⟩ | ⟨hpush, -⟩ := move_queued hm R a' t ha' ht
    · exact hV.ticket R a t p ha hold hp
    · cases hpush with
      | call c choice k hr => exact hV.author hs.known hr hp
      | drop c choice room hc =>
        cases hp
        exact ⟨c, hs.known.closing c (by rw [hc]; exact Closer.noConfusion), rfl⟩
      | sweep choice now room rest hw => cases hp
      | grace i player generation => cases hp

theorem vouched_start : Vouched ({} : Sys σ) where
  place := by
    rintro p (gameType | c | R | R) h
    · cases h
    · cases h
    · obtain ⟨a, ha, -⟩ := h
      cases ha
    · obtain ⟨a, ha, -⟩ := h
      cases ha
  act := fun c R action h => by cases h
  ticket := fun R a t p ha => by cases ha

theorem run_vouched (u : Setup σ) (ls : List Label) (s : Sys σ) (hr : run u ls = some s) :
    Sound u s ∧ Vouched s := by
  obtain ⟨hs, -, hV⟩ := run_always (fun s => Searching u s ∧ Vouched s)
    (fun s l s' hs h hm => ⟨h.1.move hm, h.2.move hs h.1 hm⟩)
    ⟨(run_searching u [] {} rfl).2, vouched_start⟩ ls s hr
  exact ⟨hs, hV⟩

/-- Whatever a room has done for a player, it has done for one with a connection. -/
theorem run_authored (u : Setup σ) (ls : List Label) (s : Sys σ) (hr : run u ls = some s) :
    Chronicled u (fun s _ _ h => ∀ now cmd o p, (Input.command now cmd, o) ∈ h →
      Command.author cmd = some p → Dialed s p) s := by
  refine run_chronicled u (fun s => Sound u s ∧ Vouched s) (run_vouched u) _ ?_ ?_ ls s hr
  · intro s l s' R a' hG hm hnone ha' htodo now cmd o p hin
    cases hin
  · rintro s l s' R a a' h h' ⟨hs, hV⟩ hm ha hlife hP now cmd o p hin hp
    have hold : (Input.command now cmd, o) ∈ h → Dialed s' p :=
      fun hin => (hP now cmd o p hin hp).move hm
    cases hlife with
    | turn i ch queue hi ht =>
      obtain hin | hnew := List.mem_append.mp hin
      · exact hold hin
      · obtain ⟨o', -, heq⟩ := List.mem_map.mp hnew
        cases heq
        cases hi with
        | command t rest hq =>
          refine Dialed.move hm (hV.ticket R a t p ha ?_ hp)
          rw [hq]
          exact List.mem_cons_self
    | acted a' i hl hp => exact hold hin
    | kept a' hn hl hg hr ht => exact hold hin

end Vouching
end RealtimeEngine.Transport
