import RealtimeEngine.Transport.Provenance

/-! In which order the events of a room reach a channel. The actor puts an event
on the channels one by one, in an order of the Hub's map, and does nothing else in
between; connections come, go and are replaced meanwhile. Events that only the
room broadcasts are on every channel in the room's own order, each at most once. -/
namespace RealtimeEngine.Transport
open Foundations Domain Rooms Storage Matchmaking
set_option autoImplicit false
set_option maxHeartbeats 250000

section Ordering
variable {σ : Type} {u : Setup σ} {s s' : Sys σ} {l : Label}

/-! ## Events of a room -/

/-- The messages that only the broadcasts of a room are: `ROOM_STARTED` and
`STATE_SNAPSHOT` are also sent by the goroutines of connections. -/
def MessageType.broadcastOnly : MessageType → Bool
  | .event .roomStarted | .event .stateSnapshot => false
  | .event _ => true
  | _ => false

/-- A message without the time it was sent. -/
def ServerEnvelope.untimed (env : ServerEnvelope) : ServerEnvelope := { env with ts := 0 }

/-- A message as an event of the room `R`. -/
def eventOf (R : ID) (env : ServerEnvelope) : Option ServerEnvelope :=
  if env.type.broadcastOnly ∧ env.roomID = R then some env.untimed else none

/-- The events of the room on the channel of `c`, in order. -/
def eventsOn (s : Sys σ) (R : ID) (c : ConnID) : List ServerEnvelope :=
  (s.conn c).sent.filterMap (eventOf R)

/-- The events that a trace of the room broadcasts. -/
def broadcasts (R : ID) (h : List (Input × Output)) : List ServerEnvelope :=
  h.filterMap fun e =>
    match e.2 with
    | .broadcast ev => eventOf R (buildEnvelope 0 ev)
    | _ => none

/-- The event that an operation will put on the channel of `c`, if `c` is in time. -/
def Op.toward (R : ID) (c : ConnID) : Op → Option ServerEnvelope
  | .broadcast ev => eventOf R (buildEnvelope 0 ev)
  | .deliver env targets => if c ∈ targets then eventOf R env else none
  | _ => none

theorem toward_ofOutput (R : ID) (c : ConnID) (ch : Option ChanID) (i : Input)
    (outs : List Output) :
    (outs.map (Op.ofOutput ch)).filterMap (Op.toward R c) =
      broadcasts R (outs.map fun o => (i, o)) := by
  unfold broadcasts
  rw [List.filterMap_map, List.filterMap_map]
  refine List.filterMap_congr fun o _ => ?_
  cases o <;> rfl

theorem broadcasts_append (R : ID) (h h' : List (Input × Output)) :
    broadcasts R (h ++ h') = broadcasts R h ++ broadcasts R h' :=
  List.filterMap_append

/-! ## Messages of connections -/

/-- What the goroutines of connections send on their own account are errors and redirects. -/
def Noted (s : Sys σ) : Prop :=
  ∀ d env, (s.conn d).reader = .send env → env.type = .error ∨ env.type = .redirect

theorem resumeNext_note {rec : SessionRecord} {env : ServerEnvelope}
    (h : resumeNext u s rec = .send env) : env.type = .error ∨ env.type = .redirect := by
  unfold resumeNext at h
  split at h
  · cases h
  · split at h
    · cases h
      exact Or.inr rfl
    · cases h
      exact Or.inl rfl

theorem step_get_reader {c : ConnID} {choice : Choice} {rec : SessionRecord}
    (h : step u s (.run c choice) = some s') (hr : (s.conn c).reader = .get rec) :
    (s'.conn c).reader = resumeNext u s rec := by
  obtain ⟨⟨e, pc⟩, hnext, rfl⟩ := Option.map_eq_some_iff.mp h
  rw [hr] at hnext
  cases choice with
  | go =>
    cases hnext
    rw [goto_reader_self]
  | _ => cases hnext

theorem Noted.step (hN : Noted s) (h : step u s l = some s') : Noted s' := by
  intro d env hd
  have hm := step_move u s s' l h
  obtain hr | ⟨sid, -, -, hr⟩ | ⟨m, -, -, hr⟩ | ⟨choice, e, rfl, hr⟩ := move_reader hm d
  · exact hN d env (hr.symm.trans hd)
  · rw [hd] at hr
    cases hr
  · exact Or.inl (handleMessage_note _ _ _ env (hr.symm.trans hd))
  · obtain herr | ⟨rec, hget, -⟩ := hr.note_cases hd
    · exact Or.inl herr
    · exact resumeNext_note ((step_get_reader h hget).symm.trans hd)

/-- An event that goes on a channel is being delivered by its room. -/
theorem Appends.event (hS : Sound u s) (hN : Noted s) {c : ConnID} {env : ServerEnvelope}
    {given : Option (ID × ℕ)} (happ : Appends s l c env given)
    (hb : env.type.broadcastOnly = true) :
    ∃ i a targets rest, l = .act env.roomID i ∧ s.actor env.roomID = some a ∧
      a.todo = .deliver env targets :: rest ∧ targets[i]? = some c := by
  cases happ with
  | delivered id i a env targets rest c ha ht hc =>
    have hroom := (hS.linked.message id a env targets ha (by rw [ht]; exact List.mem_cons_self)).1
    rw [hroom]
    exact ⟨i, a, targets, rest, rfl, ha, ht, hc⟩
  | told d choice k answer c hr ht => cases k <;> cases hb
  | noted d choice env hr =>
    obtain ht | ht := hN c env hr
    · rw [ht] at hb
      cases hb
    · rw [ht] at hb
      cases hb

/-- Only a pass of the room's own loop adds to the events on a channel. -/
theorem eventsOn_move (hS : Sound u s) (hN : Noted s) (hm : Move u s l s') (R : ID) (c : ConnID) :
    eventsOn s' R c = eventsOn s R c ∨
    ∃ i a env targets rest, l = .act R i ∧ s.actor R = some a ∧
      a.todo = .deliver env targets :: rest ∧ targets[i]? = some c ∧
      eventsOn s' R c = eventsOn s R c ++ (eventOf R env).toList := by
  unfold eventsOn
  obtain ⟨hsent, -⟩ | ⟨env, given, happ, hsent, -⟩ := move_sent hm hS.known.fresh c
  · rw [hsent]
    exact Or.inl rfl
  · rw [hsent, List.filterMap_append]
    by_cases hb : env.type.broadcastOnly = true ∧ env.roomID = R
    · obtain ⟨hb, rfl⟩ := hb
      obtain ⟨i, a, targets, rest, hl, ha, ht, hc⟩ := happ.event hS hN hb
      refine Or.inr ⟨i, a, env, targets, rest, hl, ha, ht, hc, ?_⟩
      rw [List.filterMap_cons, List.filterMap_nil]
      cases eventOf env.roomID env <;> rfl
    · have hnone : eventOf R env = none := if_neg hb
      left
      simp [hnone]

/-- An event on a channel is of a room that exists. -/
def Announced (s : Sys σ) : Prop := ∀ R c, s.actor R = none → eventsOn s R c = []

theorem Announced.move (hA : Announced s) (hS : Sound u s) (hN : Noted s) (hm : Move u s l s') :
    Announced s' := by
  intro R c hnone
  have hold : s.actor R = none := by
    cases ha : s.actor R with
    | none => rfl
    | some a =>
      obtain ⟨a', ha', -⟩ := move_turn hm ha
      rw [hnone] at ha'
      cases ha'
  obtain h | ⟨i, a, env, targets, rest, -, ha, -⟩ := eventsOn_move hS hN hm R c
  · rw [h]
    exact hA R c hold
  · rw [hold] at ha
    cases ha

/-- What the order of events rests on. -/
structure Audible (u : Setup σ) (s : Sys σ) : Prop where
  sound : Sound u s
  noted : Noted s
  announced : Announced s

theorem run_audible (u : Setup σ) (ls : List Label) (s : Sys σ) (hr : run u ls = some s) :
    Audible u s := by
  obtain ⟨hS, hN, hA⟩ := run_step_invariant (u := u) (fun _ _ => True)
    (fun s => Noted s ∧ Announced s)
    (fun s l s' _ hS h hstep =>
      ⟨h.1.step hstep, h.2.move hS h.1 (step_move u s s' l hstep)⟩)
    ⟨(fun d env h => by cases h), fun R c _ => rfl⟩ ls s
    (meets_of_forall (step u) _ (fun _ _ => trivial) {} ls) hr
  exact ⟨hS, hN, hA⟩

/-! ## One move -/

/-- The events on a channel and those still on their way to it, in order, are
among the room's own. -/
structure InOrder (s : Sys σ) (R : ID) (a : Actor σ) (h : List (Input × Output)) : Prop where
  events : ∀ c, (eventsOn s R c ++ a.todo.filterMap (Op.toward R c)).Sublist (broadcasts R h)
  once : ∀ env targets, .deliver env targets ∈ a.todo → targets.Nodup

/-- A connection is in a room's map under one name only. -/
theorem Known.values_nodup (hk : Known u s) (R : ID) :
    (Table.values (s.hub.connectionsFor R)).Nodup := by
  refine List.Nodup.map_on ?_ (s.hub.connectionsFor R).nodupKeys.nodup
  rintro ⟨p, c⟩ hp ⟨q, d⟩ hq heq
  have hp : s.hub.entry R p = some c := AList.mem_lookup_iff.mpr hp
  have hq : s.hub.entry R q = some d := AList.mem_lookup_iff.mpr hq
  change c = d at heq
  subst heq
  have hname : p = q := (hk.hub R p c hp).2.symm.trans (hk.hub R q c hq).2
  rw [hname]

theorem toward_cons (R : ID) (c : ConnID) (op : Op) (rest : List Op) :
    (op :: rest).filterMap (Op.toward R c) =
      (op.toward R c).toList ++ rest.filterMap (Op.toward R c) := by
  rw [List.filterMap_cons]
  cases op.toward R c <;> rfl

/-- An output done takes nothing out of order: what it has put on the channel of
`c` is what was next for `c`. -/
theorem Progress.toward {R : ID} {a a' : Actor σ} {i : ℕ} (hp : Progress s i a a')
    (hn : ∀ env targets, .deliver env targets ∈ a.todo → targets.Nodup) (c : ConnID)
    (put : List ServerEnvelope)
    (hput : put = [] ∨ ∃ env targets rest, a.todo = .deliver env targets :: rest ∧
      targets[i]? = some c ∧ put = (eventOf R env).toList) :
    (put ++ a'.todo.filterMap (Op.toward R c)).Sublist (a.todo.filterMap (Op.toward R c)) := by
  have hquiet : ∀ op rest, a.todo = op :: rest → (∀ env targets, op ≠ .deliver env targets) →
      put = [] := by
    intro op rest ht hop
    obtain rfl | ⟨env, targets, rest', ht', -⟩ := hput
    · rfl
    · rw [ht] at ht'
      exact absurd (List.cons.inj ht').1 (hop env targets)
  cases hp with
  | broadcast event rest ht =>
    rw [hquiet _ rest ht (fun _ _ h => by cases h), List.nil_append, ht, toward_cons, toward_cons]
    refine List.Sublist.append_right ?_ _
    change (if c ∈ _ then eventOf R (buildEnvelope s.now event) else none).toList.Sublist
      (eventOf R (buildEnvelope 0 event)).toList
    split
    · exact List.Sublist.refl _
    · exact List.nil_sublist _
  | completed env rest ht =>
    have hput : put = [] := by
      obtain rfl | ⟨env', targets, rest', ht', hc, -⟩ := hput
      · rfl
      · rw [ht] at ht'
        cases ht'
        cases hc
    rw [hput, List.nil_append, ht, toward_cons]
    exact List.sublist_append_right _ _
  | delivered env targets rest todo d ht hd htodo =>
    have htodo : todo.filterMap (Op.toward R c) =
        (if c ∈ targets.eraseIdx i then eventOf R env else none).toList ++
          rest.filterMap (Op.toward R c) := by
      obtain rfl | rfl := htodo
      · exact toward_cons R c _ rest
      · exact toward_cons R c _ rest
    rw [htodo, ht, toward_cons, ← List.append_assoc]
    refine List.Sublist.append_right ?_ _
    change (put ++ _).Sublist (if c ∈ targets then eventOf R env else none).toList
    have hnodup := hn env targets (by rw [ht]; exact List.mem_cons_self)
    obtain rfl | ⟨env', targets', rest', ht', hc, rfl⟩ := hput
    · -- nothing was put on the channel of `c`
      rw [List.nil_append]
      by_cases hmem : c ∈ targets.eraseIdx i
      · rw [if_pos hmem, if_pos (List.mem_of_mem_eraseIdx hmem)]
      · rw [if_neg hmem]
        exact List.nil_sublist _
    · -- `c` was served, and is not served again
      rw [ht] at ht'
      cases ht'
      have hgone : c ∉ targets.eraseIdx i := by
        intro hmem
        obtain ⟨j, hji, hj⟩ := List.mem_eraseIdx_iff_getElem?.mp hmem
        have hlt : j < targets.length := (List.getElem?_eq_some_iff.mp hj).1
        exact hji ((List.getElem?_inj hlt hnodup).mp (hj.trans hc.symm))
      rw [if_neg hgone, if_pos (List.mem_of_getElem? hc), Option.toList_none, List.append_nil]
  | done op rest timers ht hop =>
    have hnone : op.toward R c = none := by
      cases op with
      | broadcast event => cases hop
      | deliver env targets => cases hop
      | _ => rfl
    have hput : put = [] := hquiet op rest ht fun env targets h => by
      rw [h] at hop
      cases hop
    rw [hput, List.nil_append, ht, toward_cons, hnone]
    exact List.Sublist.refl _

/-- A loop that goes on has fewer connections to serve; a new one serves each once. -/
theorem Progress.targets_nodup (hk : Known u s) {a a' : Actor σ} {i : ℕ} (hp : Progress s i a a')
    (hn : ∀ env targets, .deliver env targets ∈ a.todo → targets.Nodup) (env : ServerEnvelope)
    (targets : List ConnID) (h : .deliver env targets ∈ a'.todo) : targets.Nodup := by
  have hold : ∀ op rest, a.todo = op :: rest → Op.deliver env targets ∈ rest → targets.Nodup := by
    intro op rest ht hmem
    exact hn env targets (by rw [ht]; exact List.mem_cons_of_mem _ hmem)
  cases hp with
  | broadcast event rest ht =>
    obtain hh | hh := List.mem_cons.mp h
    · cases hh
      exact hk.values_nodup _
    · exact hold _ rest ht hh
  | completed env' rest ht => exact hold _ rest ht h
  | delivered env' targets' rest todo c ht hc hd =>
    have hmem : Op.deliver env targets ∈ Op.deliver env' (targets'.eraseIdx i) :: rest := by
      obtain rfl | rfl := hd
      · exact h
      · obtain hh | hh := List.mem_cons.mp h
        · cases hh
        · exact hh
    obtain hh | hh := List.mem_cons.mp hmem
    · cases hh
      exact (hn env targets' (by rw [ht]; exact List.mem_cons_self)).eraseIdx i
    · exact hold _ rest ht hh
  | done op rest timers ht hop => exact hold _ rest ht h

theorem InOrder.move (hA : Audible u s) (hm : Move u s l s') {R : ID} {a a' : Actor σ}
    {h h' : List (Input × Output)} (hin : InOrder s R a h) (ha : s.actor R = some a)
    (hl : Life s l R a h a' h') : InOrder s' R a' h' := by
  have hmove := eventsOn_move hA.sound hA.noted hm R
  have hstay : (∀ i, l ≠ .act R i) → ∀ c, eventsOn s' R c = eventsOn s R c := by
    intro hact c
    obtain heq | ⟨i, b, env, targets, rest, hlab, -⟩ := hmove c
    · exact heq
    · exact absurd hlab (hact i)
  cases hl with
  | turn i ch queue hi ht =>
    have hact : ∀ j, l ≠ .act R j := by
      rintro j rfl
      cases hi
    refine ⟨fun c => ?_, fun env targets hmem => absurd hmem deliver_not_mem_ofOutput⟩
    have hold := hin.events c
    rw [ht, List.filterMap_nil, List.append_nil] at hold
    rw [hstay hact c, broadcasts_append, turnWith_todo, toward_ofOutput R c ch i]
    exact hold.append_right _
  | acted a' i hlab hp =>
    refine ⟨fun c => ?_, hp.targets_nodup hA.sound.known hin.once⟩
    obtain ⟨put, hev, hput⟩ : ∃ put, eventsOn s' R c = eventsOn s R c ++ put ∧
        (put = [] ∨ ∃ env targets rest, a.todo = .deliver env targets :: rest ∧
          targets[i]? = some c ∧ put = (eventOf R env).toList) := by
      obtain heq | ⟨j, b, env, targets, rest, hlab', hb, ht, hc, heq⟩ := hmove c
      · exact ⟨[], by rw [heq, List.append_nil], Or.inl rfl⟩
      · rw [hlab] at hlab'
        cases hlab'
        rw [ha] at hb
        cases hb
        exact ⟨_, heq, Or.inr ⟨env, targets, rest, ht, hc, rfl⟩⟩
    rw [hev, List.append_assoc]
    exact ((hp.toward hin.once c put hput).append_left _).trans (hin.events c)
  | kept a' hn hl' hg hr ht =>
    refine ⟨fun c => ?_, ?_⟩
    · rw [hstay hl' c, ht]
      exact hin.events c
    · rw [ht]
      exact hin.once

/-! ## Whole runs -/

theorem run_inOrder (u : Setup σ) (ls : List Label) (s : Sys σ) (hr : run u ls = some s) :
    Chronicled u InOrder s := by
  refine run_chronicled u (Audible u) (run_audible u) InOrder ?_ ?_ ls s hr
  · intro s l s' R a' hA hm hnone ha' htodo
    refine ⟨fun c => ?_, fun env targets hin => ?_⟩
    · have hquiet : eventsOn s' R c = [] := by
        obtain h | ⟨i, b, env, targets, rest, -, hb, -⟩ :=
          eventsOn_move hA.sound hA.noted hm R c
        · rw [h]
          exact hA.announced R c hnone
        · rw [hnone] at hb
          cases hb
      rw [hquiet, htodo]
      exact List.Sublist.refl _
    · rw [htodo] at hin
      cases hin
  · intro s l s' R a a' h h' hA hm ha hl hin
    exact hin.move hA hm ha hl

/-- The versions of the state diffs among some events. -/
def diffVersions (events : List ServerEnvelope) : List ℕ :=
  events.filterMap fun env => if env.type = .event .stateDiff then some env.serverSeq else none

theorem diffVersions_sublist (R : ID) (h : List (Input × Output)) :
    (diffVersions (broadcasts R h)).Sublist ((diffEntries h).map fun e => e.2.serverSeq) := by
  unfold diffVersions broadcasts diffEntries
  rw [List.filterMap_filterMap, List.map_filterMap]
  induction h with
  | nil => exact List.Sublist.refl _
  | cons e h ih =>
    obtain ⟨i, o⟩ := e
    rw [List.filterMap_cons, List.filterMap_cons]
    cases o with
    | reply res => exact ih
    | afterFunc p k => exact ih
    | broadcast ev =>
      by_cases hd : ev.kind = .stateDiff
      · simp only [diffEntry, hd, if_true, Option.map_some]
        by_cases hroom : ev.roomID = R
        · have hev : eventOf R (buildEnvelope 0 ev) = some (buildEnvelope 0 ev).untimed := by
            refine if_pos ⟨?_, hroom⟩
            change (MessageType.event ev.kind).broadcastOnly = true
            rw [hd]
            rfl
          have htype : (buildEnvelope 0 ev).untimed.type = .event .stateDiff :=
            congrArg MessageType.event hd
          rw [hev, Option.bind_some, if_pos htype]
          exact ih.cons_cons _
        · have hev : eventOf R (buildEnvelope 0 ev) = none := if_neg fun hc => hroom hc.2
          rw [hev]
          exact ih.cons _
      · have hright : diffEntry (i, .broadcast ev) = none := if_neg hd
        have hleft : ((eventOf R (buildEnvelope 0 ev)).bind fun env =>
            if env.type = .event .stateDiff then some env.serverSeq else none) = none := by
          unfold eventOf
          split
          · exact if_neg fun ht => hd (MessageType.event.inj ht)
          · rfl
        rw [hright]
        simp only [hleft]
        exact ih

theorem announce_versions (id : ID) (log : List (GameCall × Result σ)) :
    ((announce id log).map fun e => e.2.serverSeq) = List.range' 1 log.length := by
  refine List.ext_getElem? fun n => ?_
  rw [List.getElem?_map, announce_getElem?]
  cases he : log[n]? with
  | none =>
    have hlen := List.getElem?_eq_none_iff.mp he
    simp [hlen]
  | some e =>
    have hlt := (List.getElem?_eq_some_iff.mp he).1
    simp [hlt, diffOf, Nat.add_comm]

/-- The diffs of a life are numbered in order. -/
theorem diffVersions_trace (g : Game σ) (R : ID) (gameType : String) (t₀ : Time)
    (is : List Input) :
    (diffVersions (broadcasts R (trace (Rooms.step g) (newRoom σ R gameType t₀) is))).Pairwise
      (· < ·) := by
  refine (List.Pairwise.sublist (diffVersions_sublist R _) ?_)
  obtain hu | ⟨players, s₀, log, hr⟩ := run_replayed g R gameType t₀ is
  · rw [hu.diffs]
    exact List.Pairwise.nil
  · rw [hr.diffs, announce_versions]
    exact List.pairwise_lt_range'

/-- **Events arrive in the room's order, each at most once.** In every run of a
node, of any length and interleaving, each room is the room machine after some
list of inputs such that on every channel the events that only the room
broadcasts, with everything in them but the time, are a subsequence of those in
the trace of these inputs; so the versions of its diffs on a channel strictly
increase. -/
theorem events_in_order (u : Setup σ) (ls : List Label) (s : Sys σ) (hr : run u ls = some s)
    (R : ID) (a : Actor σ) (ha : s.actor R = some a) :
    ∃ gameType t₀ is, u.games gameType = some a.game ∧
      a.room = final (Rooms.step a.game) (newRoom σ R gameType t₀) is ∧
      ∀ c, (eventsOn s R c).Sublist
          (broadcasts R (trace (Rooms.step a.game) (newRoom σ R gameType t₀) is)) ∧
        (diffVersions (eventsOn s R c)).Pairwise (· < ·) := by
  obtain ⟨gameType, t₀, is, hlive, hin⟩ := run_inOrder u ls s hr R a ha
  refine ⟨gameType, t₀, is, hlive.game, hlive.room, fun c => ?_⟩
  have hsub := (List.sublist_append_left _ _).trans (hin.events c)
  refine ⟨hsub, ?_⟩
  exact (diffVersions_trace a.game R gameType t₀ is).sublist (hsub.filterMap _)

end Ordering

/-- Bob's channel has the event of alice's first move. -/
theorem first_move_in_order : ∃ s a, run aliceAndBob (seated ++ plays 0 0 0 1 5) = some s ∧
    s.actor "r" = some a ∧ diffVersions (eventsOn s "r" 1) = [1] ∧
    ∃ gameType t₀ is, aliceAndBob.games gameType = some a.game ∧
      a.room = final (Rooms.step a.game) (newRoom GameState "r" gameType t₀) is ∧
      ∀ c, (eventsOn s "r" c).Sublist
          (broadcasts "r" (trace (Rooms.step a.game) (newRoom GameState "r" gameType t₀) is)) ∧
        (diffVersions (eventsOn s "r" c)).Pairwise (· < ·) := by
  obtain ⟨s, a, hr, ha, h⟩ := firstMove_ends
    (fun s _ => decide (diffVersions (eventsOn s "r" 1) = [1])) (by decide +kernel)
  exact ⟨s, a, hr, ha, of_decide_eq_true h, events_in_order aliceAndBob _ s hr "r" a ha⟩

end RealtimeEngine.Transport
