import Mathlib.Data.List.Perm.Basic
import RealtimeEngine.Foundations.Json

/-! Structs as JSON objects. A field is written under its name or, with `omitempty`,
left out when it is empty; it is read from the keys that stand for its name, one after
the other, whatever else the object holds. So the fields of an object can be read in any
order of its keys and beside any other keys, as long as the names of the fields are told
apart. -/
namespace RealtimeEngine.Foundations.Json
set_option autoImplicit false
set_option maxHeartbeats 250000

/-! ## Reading a field -/

/-- The values under the keys that stand for a name, in the order of the object. -/
def valuesFor (name : String) (keys : List (String × Json)) : List Json :=
  (keys.filter fun kv => foldName kv.1 = foldName name).map Prod.snd

section Fields
variable {α : Type} (decode : α → Json → Option α)

/-- A field that holds `old` after all keys of the object were read. -/
def fieldOf (name : String) (old : α) (keys : List (String × Json)) : Option α :=
  keys.foldl (fun acc kv =>
    if foldName kv.1 = foldName name then acc.bind fun old => decode old kv.2 else acc) (some old)

theorem foldl_bind_eq_foldlM (vs : List Json) (acc : Option α) :
    vs.foldl (fun acc v => acc.bind fun old => decode old v) acc =
      acc.bind fun old => vs.foldlM decode old := by
  induction vs generalizing acc with
  | nil =>
    cases acc with
    | none => rfl
    | some old => rfl
  | cons v vs ih =>
    rw [List.foldl_cons, ih]
    cases acc with
    | none => rfl
    | some old => rfl

/-- Only the keys that stand for the field count. -/
theorem fieldOf_eq (name : String) (old : α) (keys : List (String × Json)) :
    fieldOf decode name old keys = (valuesFor name keys).foldlM decode old := by
  have hskip : ∀ acc : Option α, keys.foldl (fun acc kv =>
      if foldName kv.1 = foldName name then acc.bind fun old => decode old kv.2 else acc) acc =
      (valuesFor name keys).foldl (fun acc v => acc.bind fun old => decode old v) acc := by
    induction keys with
    | nil => exact fun acc => rfl
    | cons kv keys ih =>
      intro acc
      rw [List.foldl_cons, ih]
      unfold valuesFor
      rw [List.filter_cons]
      by_cases hname : foldName kv.1 = foldName name
      · rw [if_pos hname, if_pos (decide_eq_true hname), List.map_cons, List.foldl_cons]
      · rw [if_neg hname, if_neg (by simpa using hname)]
  rw [fieldOf, hskip, foldl_bind_eq_foldlM]
  rfl

end Fields

/-! ## Writing a struct -/

/-- A field with its value, if it is written at all. -/
abbrev Entry := String × Option Json

def written (entries : List Entry) : List (String × Json) :=
  entries.filterMap fun e => e.2.map fun v => (e.1, v)

/-- The names of the fields are told apart. -/
def Apart (entries : List Entry) : Prop := entries.Pairwise fun e f => foldName e.1 ≠ foldName f.1

theorem apart_of_names {entries : List Entry}
    (h : (entries.map Prod.fst).Pairwise fun x y => foldName x ≠ foldName y) : Apart entries := by
  rw [List.pairwise_map] at h
  exact h

/-- None of the keys stands for one of the fields. -/
def Foreign (entries : List Entry) (keys : List (String × Json)) : Prop :=
  ∀ kv ∈ keys, ∀ e ∈ entries, foldName kv.1 ≠ foldName e.1

theorem valuesFor_append (name : String) (ks ls : List (String × Json)) :
    valuesFor name (ks ++ ls) = valuesFor name ks ++ valuesFor name ls := by
  unfold valuesFor
  rw [List.filter_append, List.map_append]

theorem valuesFor_eq_nil {name : String} {keys : List (String × Json)}
    (h : ∀ kv ∈ keys, foldName kv.1 ≠ foldName name) : valuesFor name keys = [] := by
  unfold valuesFor
  rw [List.filter_eq_nil_iff.mpr fun kv hkv => by simpa using h kv hkv]
  rfl

theorem mem_written {entries : List Entry} {kv : String × Json} (h : kv ∈ written entries) :
    (kv.1, some kv.2) ∈ entries := by
  obtain ⟨⟨name, value⟩, he, hkv⟩ := List.mem_filterMap.mp h
  obtain ⟨v, rfl, rfl⟩ := Option.map_eq_some_iff.mp hkv
  exact he

theorem written_cons (e : Entry) (entries : List Entry) :
    written (e :: entries) = written [e] ++ written entries :=
  List.filterMap_append (l := [e])

theorem valuesFor_written_self (e : Entry) : valuesFor e.1 (written [e]) = e.2.toList := by
  obtain ⟨name, v⟩ := e
  cases v with
  | none => rfl
  | some v =>
    unfold valuesFor written
    simp

theorem valuesFor_written {entries : List Entry} (hd : Apart entries) {e : Entry}
    (he : e ∈ entries) : valuesFor e.1 (written entries) = e.2.toList := by
  induction entries with
  | nil => cases he
  | cons d entries ih =>
    obtain ⟨hhead, htail⟩ := List.pairwise_cons.mp hd
    rw [written_cons, valuesFor_append]
    obtain rfl | hin := List.mem_cons.mp he
    · have hrest : valuesFor e.1 (written entries) = [] :=
        valuesFor_eq_nil fun kv hkv => (hhead _ (mem_written hkv)).symm
      rw [valuesFor_written_self, hrest, List.append_nil]
    · have hfirst : valuesFor e.1 (written [d]) = [] := by
        refine valuesFor_eq_nil fun kv hkv => ?_
        rw [show kv.1 = d.1 from congrArg Prod.fst (List.mem_singleton.mp (mem_written hkv))]
        exact hhead e hin
      rw [hfirst, List.nil_append, ih htail hin]

/-- The object gives each field its own value and no other. -/
def Reads (entries : List Entry) (keys : List (String × Json)) : Prop :=
  ∀ e ∈ entries, valuesFor e.1 keys = e.2.toList

/-- What was written can be read, in any order and beside anything else. -/
theorem reads_of_perm {entries : List Entry} (hd : Apart entries)
    {keys others : List (String × Json)} (ho : Foreign entries others)
    (hp : keys.Perm (written entries ++ others)) : Reads entries keys := by
  intro e he
  have hperm : (valuesFor e.1 keys).Perm e.2.toList := by
    have h : (valuesFor e.1 keys).Perm (valuesFor e.1 (written entries ++ others)) :=
      (hp.filter _).map _
    rwa [valuesFor_append, valuesFor_written hd he, valuesFor_eq_nil fun kv hkv => ho kv hkv e he,
      List.append_nil] at h
  obtain ⟨name, v⟩ := e
  cases v with
  | none => exact List.perm_nil.mp hperm
  | some v => exact List.perm_singleton.mp hperm

theorem reads_written {entries : List Entry} (hd : Apart entries) :
    Reads entries (written entries) := fun _ he => valuesFor_written hd he

theorem Reads.field {entries : List Entry} {keys : List (String × Json)} (h : Reads entries keys)
    {α : Type} (decode : α → Json → Option α) (old : α) {name : String} {v : Option Json} {x : α}
    (he : (name, v) ∈ entries) (hx : v.toList.foldlM decode old = some x) :
    fieldOf decode name old keys = some x := by
  rw [fieldOf_eq, h _ he, hx]

/-! ## Fields that are read as they were written

A value is left out when it is empty; the reader's own value is then the empty one. -/

def omitStr (s : String) : Option Json := if s = "" then none else some (.str s)

def omitUint (n : ℕ) : Option Json := if n = 0 then none else some (.int n)

def omitBool (b : Bool) : Option Json := if b then some (.bool true) else none

def omitStrs (ss : List String) : Option Json :=
  if ss = [] then none else some (.arr (ss.map .str))

/-- The value one key stores into a `bool` field that holds `old`. -/
def decodeBool (old : Bool) : Json → Option Bool
  | null => some old
  | bool b => some b
  | _ => none

/-- A raw message keeps the text of the value, `null` included. -/
def decodeRaw (_ : RawMessage) (v : Json) : Option RawMessage := some (some v)

/-- A slice is replaced; `null` empties it, and as an element it stands for the empty string. -/
def decodeStrs (_ : List String) : Json → Option (List String)
  | null => some []
  | arr vs => vs.mapM (decodeStr "")
  | _ => none

theorem foldlM_toList_some {α : Type} (decode : α → Json → Option α) (old : α) (v : Json) :
    (some v).toList.foldlM decode old = decode old v := by
  rw [Option.toList_some, List.foldlM_cons]
  exact Option.bind_fun_some (decode old v)

theorem foldlM_str (s : String) : (some (.str s)).toList.foldlM decodeStr "" = some s :=
  foldlM_toList_some decodeStr "" (.str s)

theorem foldlM_omitStr (s : String) : (omitStr s).toList.foldlM decodeStr "" = some s := by
  unfold omitStr
  split
  · next hs => rw [hs]; rfl
  · exact foldlM_str s

/-- The ways to write a number for an unsigned field: zero may be left out or be `null`. -/
inductive WritesUint (n : UInt64) : Option Json → Prop
  | literal : WritesUint n (some (.int n.toNat))
  | absent (h : n = 0) : WritesUint n none
  | null (h : n = 0) : WritesUint n (some .null)

theorem omitUint_writes (n : UInt64) : WritesUint n (omitUint n.toNat) := by
  unfold omitUint
  split
  · next hn => exact .absent (UInt64.toNat_inj.mp hn)
  · exact .literal

theorem WritesUint.reads {n : UInt64} {v : Option Json} (h : WritesUint n v) :
    v.toList.foldlM decodeUint 0 = some n := by
  cases h with
  | literal => rw [foldlM_toList_some, decodeUint_toNat]
  | absent hn => rw [hn]; rfl
  | null hn => rw [hn]; rfl

theorem decodeInt_of_range {n : ℤ} (h : -2^63 ≤ n ∧ n < 2^63) (old : ℤ) :
    decodeInt old (.int n) = some n := if_pos h

theorem foldlM_int {n : ℤ} (h : -2^63 ≤ n ∧ n < 2^63) :
    (some (.int n)).toList.foldlM decodeInt 0 = some n := by
  rw [foldlM_toList_some, decodeInt_of_range h]

/-- The same for a signed field, which also takes `-0` for zero. -/
inductive WritesInt (n : ℤ) : Option Json → Prop
  | literal : WritesInt n (some (.int n))
  | absent (h : n = 0) : WritesInt n none
  | null (h : n = 0) : WritesInt n (some .null)
  | negZero (h : n = 0) : WritesInt n (some .negZero)

theorem WritesInt.reads {n : ℤ} {v : Option Json} (hn : -2^63 ≤ n ∧ n < 2^63)
    (h : WritesInt n v) : v.toList.foldlM decodeInt 0 = some n := by
  cases h with
  | literal => exact foldlM_int hn
  | absent h => rw [h]; rfl
  | null h => rw [h]; rfl
  | negZero h => rw [h]; rfl

theorem foldlM_omitBool (b : Bool) : (omitBool b).toList.foldlM decodeBool false = some b := by
  cases b with
  | false => rfl
  | true => rfl

theorem foldlM_raw (v : RawMessage) : v.toList.foldlM decodeRaw none = some v := by
  cases v with
  | none => rfl
  | some v => rfl

theorem mapM_str (ss : List String) : (ss.map Json.str).mapM (decodeStr "") = some ss := by
  induction ss with
  | nil => rfl
  | cons s ss ih =>
    rw [List.map_cons, List.mapM_cons, ih]
    rfl

theorem foldlM_omitStrs (ss : List String) :
    (omitStrs ss).toList.foldlM decodeStrs [] = some ss := by
  unfold omitStrs
  split
  · next hs => rw [hs]; rfl
  · rw [foldlM_toList_some, decodeStrs, mapM_str]

end RealtimeEngine.Foundations.Json
