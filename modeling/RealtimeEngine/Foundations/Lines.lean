import Mathlib.Data.List.Nodup

/-! A waiting line. People join it at the end, may leave it from anywhere, and
are served from the front, in groups. A history records these three kinds of
events. `kept` reads off a history, without looking at the line, who joined and
was not taken back by leaving; a line is balanced with its history when those
are the people served, in order, followed by the people in line. -/
namespace RealtimeEngine.Foundations.Line
set_option autoImplicit false
set_option maxHeartbeats 250000

inductive Event (α : Type)
  | joined (a : α)
  | left (a : α)
  | served (group : List α)

section Histories
variable {α : Type} [DecidableEq α]

/-- The events in which `a` joins or leaves. -/
def Event.about (a : α) : Event α → Bool
  | joined b | left b => b = a
  | served _ => false

def Event.isLeft : Event α → Bool
  | left _ => true
  | _ => false

def Event.isJoined : Event α → Bool
  | joined _ => true
  | _ => false

/-- The next thing that `a` does is to leave. -/
def leavesNext (a : α) (h : List (Event α)) : Bool := (h.find? (Event.about a)).any Event.isLeft

/-- The last thing that `a` did was to join. -/
def joinedLast (a : α) (h : List (Event α)) : Bool :=
  (h.reverse.find? (Event.about a)).any Event.isJoined

/-- Everyone who joined, in order, without those joinings that the same one then took back. -/
def kept : List (Event α) → List α
  | [] => []
  | .joined a :: h => if leavesNext a h then kept h else a :: kept h
  | .left _ :: h => kept h
  | .served _ :: h => kept h

/-- The groups that were served, in order. -/
def groups : List (Event α) → List (List α)
  | [] => []
  | .served group :: h => group :: groups h
  | .joined _ :: h => groups h
  | .left _ :: h => groups h

omit [DecidableEq α] in
theorem groups_append (h k : List (Event α)) : groups (h ++ k) = groups h ++ groups k := by
  induction h with
  | nil => rfl
  | cons e h ih => cases e <;> simp [groups, ih]

/-! ## One more event -/

theorem leavesNext_of_absent (a : α) (h : List (Event α)) (hn : ¬ h.any (Event.about a) = true) :
    leavesNext a h = false := by
  have hf : h.find? (Event.about a) = none := by simpa using hn
  simp [leavesNext, hf]

theorem leavesNext_concat (a : α) (h : List (Event α)) (e : Event α) :
    leavesNext a (h ++ [e]) =
      if h.any (Event.about a) then leavesNext a h else e.about a && e.isLeft := by
  cases hf : h.find? (Event.about a) with
  | none =>
    have hn : h.any (Event.about a) = false := by simpa using hf
    cases he : e.about a <;> simp [leavesNext, hf, hn, he]
  | some x =>
    have hs : h.any (Event.about a) = true :=
      List.any_eq_true.mpr ⟨x, List.mem_of_find?_eq_some hf, List.find?_some hf⟩
    simp [leavesNext, hf, hs]

theorem joinedLast_cons (a : α) (e : Event α) (h : List (Event α)) :
    joinedLast a (e :: h) =
      if h.any (Event.about a) then joinedLast a h else e.about a && e.isJoined := by
  have ha : h.reverse.any (Event.about a) = h.any (Event.about a) := List.any_reverse
  cases hf : h.reverse.find? (Event.about a) with
  | none =>
    have hn : h.any (Event.about a) = false := by
      rw [← ha]
      simpa using hf
    cases he : e.about a <;> simp [joinedLast, hf, hn, he]
  | some x =>
    have hs : h.any (Event.about a) = true := by
      rw [← ha]
      exact List.any_eq_true.mpr ⟨x, List.mem_of_find?_eq_some hf, List.find?_some hf⟩
    simp [joinedLast, hf, hs]

theorem joinedLast_concat (a : α) (h : List (Event α)) (e : Event α) :
    joinedLast a (h ++ [e]) = if e.about a then e.isJoined else joinedLast a h := by
  cases he : e.about a <;> simp [joinedLast, he]

/-- An event that is not a leaving changes nobody's past. -/
theorem leavesNext_concat_of_not_left (a : α) (h : List (Event α)) (e : Event α)
    (he : e.isLeft = false) : leavesNext a (h ++ [e]) = leavesNext a h := by
  rw [leavesNext_concat]
  split
  · rfl
  next hn => simp [leavesNext_of_absent a h hn, he]

theorem kept_joined (h : List (Event α)) (a : α) : kept (h ++ [.joined a]) = kept h ++ [a] := by
  induction h with
  | nil => simp [kept, leavesNext]
  | cons e h ih =>
    cases e with
    | joined b =>
      have hb : leavesNext b (h ++ [.joined a]) = leavesNext b h :=
        leavesNext_concat_of_not_left b h _ rfl
      simp only [List.cons_append, kept, hb, ih]
      split <;> rfl
    | left b => exact ih
    | served group => exact ih

theorem kept_served (h : List (Event α)) (group : List α) :
    kept (h ++ [.served group]) = kept h := by
  induction h with
  | nil => rfl
  | cons e h ih =>
    cases e with
    | joined b =>
      have hb : leavesNext b (h ++ [.served group]) = leavesNext b h :=
        leavesNext_concat_of_not_left b h _ rfl
      simp only [List.cons_append, kept, hb, ih]
    | left b => exact ih
    | served group => exact ih

/-- A leaving of one who never joined takes nothing back. -/
theorem kept_left_of_absent (h : List (Event α)) (a : α)
    (ha : h.any (Event.about a) = false) : kept (h ++ [.left a]) = kept h ∧ a ∉ kept h := by
  induction h with
  | nil => simp [kept]
  | cons e h ih =>
    rw [List.any_cons, Bool.or_eq_false_iff] at ha
    obtain ⟨hk, hm⟩ := ih ha.2
    cases e with
    | joined b =>
      have hne : b ≠ a := by simpa [Event.about] using ha.1
      have hb : leavesNext b (h ++ [.left a]) = leavesNext b h := by
        rw [leavesNext_concat]
        split
        · rfl
        next hn => simp [leavesNext_of_absent b h hn, Event.about, Ne.symm hne]
      simp only [List.cons_append, kept, hb, hk]
      split <;> simp_all [Ne.symm hne]
    | left b => exact ⟨hk, hm⟩
    | served group => exact ⟨hk, hm⟩

theorem mem_kept_of_joinedLast (h : List (Event α)) (a : α) (hj : joinedLast a h = true) :
    a ∈ kept h := by
  induction h with
  | nil => simp [joinedLast] at hj
  | cons e h ih =>
    rw [joinedLast_cons] at hj
    split at hj
    · have hm := ih hj
      cases e with
      | joined b =>
        simp only [kept]
        split
        · exact hm
        · exact List.mem_cons_of_mem b hm
      | left b => exact hm
      | served group => exact hm
    next hn =>
      cases e with
      | joined b =>
        have hb : b = a := by simpa [Event.about, Event.isJoined] using hj
        simp [kept, hb, leavesNext_of_absent a h hn]
      | left b => simp [Event.isJoined] at hj
      | served group => simp [Event.isJoined] at hj

/-- Leaving takes back the last joining. -/
theorem kept_left (h : List (Event α)) (a : α) (hj : joinedLast a h = true) :
    kept (h ++ [.left a]) = ((kept h).reverse.erase a).reverse := by
  induction h with
  | nil => simp [joinedLast] at hj
  | cons e h ih =>
    rw [joinedLast_cons] at hj
    split at hj
    next hany =>
      -- `a` acts again later, so the first event stays as it is
      have hk := ih hj
      have hm := mem_kept_of_joinedLast h a hj
      cases e with
      | joined b =>
        have hb : leavesNext b (h ++ [.left a]) = leavesNext b h := by
          rw [leavesNext_concat]
          split
          · rfl
          next hn =>
            have hne : a ≠ b := by
              rintro rfl
              exact hn hany
            simp [leavesNext_of_absent b h hn, Event.about, hne]
        simp only [List.cons_append, kept, hb, hk]
        split
        · rfl
        · rw [List.reverse_cons, List.erase_append_left _ (List.mem_reverse.mpr hm)]
          simp
      | left b => exact hk
      | served group => exact hk
    next hany =>
      -- nothing of `a` follows: this is the joining that is taken back
      have hn : h.any (Event.about a) = false := by simpa using hany
      obtain ⟨hk, hm⟩ := kept_left_of_absent h a hn
      cases e with
      | joined b =>
        have hb : b = a := by simpa [Event.about, Event.isJoined] using hj
        have hl : leavesNext a (h ++ [.left a]) = true := by
          rw [leavesNext_concat, if_neg hany]
          simp [Event.about, Event.isLeft]
        have hl' := leavesNext_of_absent a h hany
        simp only [hb, List.cons_append, kept, hl, hl', if_true, hk]
        rw [if_neg (by simp), List.reverse_cons, List.erase_append_right _ (by simpa using hm)]
        simp
      | left b => simp [Event.isJoined] at hj
      | served group => simp [Event.isJoined] at hj

/-! ## Lines that are balanced with their history -/

structure Balanced (h : List (Event α)) (line : List α) : Prop where
  nodup : line.Nodup
  joined : ∀ a ∈ line, joinedLast a h = true
  account : (groups h).flatten ++ line = kept h

theorem balanced_nil : Balanced ([] : List (Event α)) [] where
  nodup := List.nodup_nil
  joined := by simp
  account := rfl

theorem Balanced.join (h : List (Event α)) (line : List α) (hb : Balanced h line) (a : α)
    (ha : a ∉ line) : Balanced (h ++ [.joined a]) (line ++ [a]) where
  nodup := by simpa using hb.nodup.concat ha
  joined := by
    intro b hm
    rw [joinedLast_concat]
    split
    · rfl
    next hn =>
      have hne : a ≠ b := by simpa [Event.about] using hn
      have hline : b ∈ line := by simpa [Ne.symm hne] using hm
      exact hb.joined b hline
  account := by
    rw [kept_joined, groups_append, ← hb.account]
    simp [groups]

theorem Balanced.leave (h : List (Event α)) (line : List α) (hb : Balanced h line) (a : α)
    (ha : a ∈ line) : Balanced (h ++ [.left a]) (line.erase a) where
  nodup := hb.nodup.erase a
  joined := by
    intro b hm
    have hne : b ≠ a := (hb.nodup.mem_erase_iff.mp hm).1
    rw [joinedLast_concat, if_neg (by simpa [Event.about] using Ne.symm hne)]
    exact hb.joined b (List.mem_of_mem_erase hm)
  account := by
    have hrev : (line.reverse.erase a).reverse = line.erase a := by
      rw [(List.nodup_reverse.mpr hb.nodup).erase_eq_filter, hb.nodup.erase_eq_filter,
        List.filter_reverse, List.reverse_reverse]
    rw [kept_left h a (hb.joined a ha), ← hb.account, groups_append, List.reverse_append,
      List.erase_append_left _ (List.mem_reverse.mpr ha), List.reverse_append, hrev]
    simp [groups]

theorem Balanced.serve (h : List (Event α)) (group line : List α)
    (hb : Balanced h (group ++ line)) : Balanced (h ++ [.served group]) line where
  nodup := (List.nodup_append.mp hb.nodup).2.1
  joined := by
    intro b hm
    rw [joinedLast_concat, if_neg (by simp [Event.about])]
    exact hb.joined b (List.mem_append_right group hm)
  account := by
    rw [kept_served, groups_append, ← hb.account]
    simp [groups]

end Histories
end RealtimeEngine.Foundations.Line
