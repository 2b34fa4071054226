import Mathlib.Algebra.Group.Int.Defs
import Mathlib.Algebra.Group.Nat.Defs
import Mathlib.Data.List.Induction

/-! JSON documents as values, and the part of Go's `encoding/json` that decides
which integer a struct field receives: keys match a field name exactly or after
case folding, a later key overrides an earlier one, `null` leaves the field as
it was, and only an integer literal within 64 bits is accepted.

A byte string is `some` of the document it holds, and `none` when it is empty
or holds no JSON document. -/
namespace RealtimeEngine.Foundations
set_option autoImplicit false
set_option maxHeartbeats 250000

/-- `int` is a literal of digits with an optional sign, `negZero` the literal `-0`,
which a signed field takes for zero and an unsigned one refuses; `num` keeps the text
of a literal with a fraction or an exponent. -/
inductive Json
  | null
  | bool (b : Bool)
  | int (n : ℤ)
  | negZero
  | num (literal : String)
  | str (s : String)
  | arr (elems : List Json)
  | obj (fields : List (String × Json))

abbrev RawMessage := Option Json

namespace Json

/-- Simple case folding. The Kelvin sign and the long s are the two letters outside
ASCII that fold to an ASCII letter. -/
def foldChar (c : Char) : Char :=
  if c = '\u212A' then 'k' else if c = '\u017F' then 's' else c.toLower

def foldName (s : String) : List Char := s.toList.map foldChar

/-- The value one key stores into an `int` field that holds `old`. -/
def decodeInt (old : ℤ) : Json → Option ℤ
  | null => some old
  | int n => if -2^63 ≤ n ∧ n < 2^63 then some n else none
  | negZero => some 0
  | _ => none

/-- An `int` field after all keys of the object were read; it is zero at first. -/
def intField (name : String) (fields : List (String × Json)) : Option ℤ :=
  fields.foldl (fun acc kv =>
    if foldName kv.1 = foldName name then acc.bind fun old => decodeInt old kv.2 else acc)
    (some 0)

/-- The integer that a literal stands for. -/
def integer : Json → Option ℤ
  | int n => some n
  | negZero => some 0
  | _ => none

/-- An `int` field holds zero, or the integer under a key that stands for it. -/
theorem intField_cases (name : String) (fields : List (String × Json)) (n : ℤ)
    (h : intField name fields = some n) :
    n = 0 ∨ ∃ kv ∈ fields, foldName kv.1 = foldName name ∧ kv.2 = int n := by
  induction fields using List.reverseRecOn generalizing n with
  | nil =>
    cases h
    exact Or.inl rfl
  | append_singleton fields kv ih =>
    have hold : ∀ m, intField name fields = some m → m = 0 ∨
        ∃ kv' ∈ fields ++ [kv], foldName kv'.1 = foldName name ∧ kv'.2 = int m := by
      intro m hm
      refine (ih m hm).imp id ?_
      rintro ⟨kv', hmem, hkv⟩
      exact ⟨kv', List.mem_append_left _ hmem, hkv⟩
    unfold intField at h hold
    rw [List.foldl_append, List.foldl_cons, List.foldl_nil] at h
    split at h
    · next hname =>
      obtain ⟨old, ho, hd⟩ := Option.bind_eq_some_iff.mp h
      cases hv : kv.2 with
      | null =>
        rw [hv] at hd
        cases hd
        exact hold n ho
      | int k =>
        rw [hv, decodeInt] at hd
        split at hd
        · cases hd
          exact Or.inr ⟨kv, List.mem_concat_self, hname, hv⟩
        · cases hd
      | negZero =>
        rw [hv] at hd
        cases hd
        exact Or.inl rfl
      | _ =>
        rw [hv] at hd
        cases hd
    · exact hold n h

/-- The value one key stores into a `string` field that holds `old`. -/
def decodeStr (old : String) : Json → Option String
  | null => some old
  | str s => some s
  | _ => none

def strField (name : String) (fields : List (String × Json)) : Option String :=
  fields.foldl (fun acc kv =>
    if foldName kv.1 = foldName name then acc.bind fun old => decodeStr old kv.2 else acc)
    (some "")

/-- The value one key stores into a `uint64` field that holds `old`. -/
def decodeUint (old : UInt64) : Json → Option UInt64
  | null => some old
  | int n => if 0 ≤ n ∧ n < 2^64 then some (UInt64.ofNat n.toNat) else none
  | _ => none

def uintField (name : String) (fields : List (String × Json)) : Option UInt64 :=
  fields.foldl (fun acc kv =>
    if foldName kv.1 = foldName name then acc.bind fun old => decodeUint old kv.2 else acc)
    (some 0)

theorem decodeUint_toNat (old n : UInt64) : decodeUint old (.int n.toNat) = some n := by
  have hn : (0 : ℤ) ≤ n.toNat ∧ (n.toNat : ℤ) < 2^64 := by
    have h := n.toNat_lt
    omega
  rw [decodeUint, if_pos hn, Int.toNat_natCast, UInt64.ofNat_toNat]

/-- Keys with other names do not touch the field. -/
theorem uintField_concat (name : String) (fields : List (String × Json)) (v : Json)
    (h : ∀ kv ∈ fields, foldName kv.1 ≠ foldName name) :
    uintField name (fields ++ [(name, v)]) = decodeUint 0 v := by
  have hskip : uintField name fields = some 0 := by
    unfold uintField
    induction fields with
    | nil => rfl
    | cons kv fields ih =>
      rw [List.foldl_cons, if_neg (h kv List.mem_cons_self)]
      exact ih fun x hx => h x (List.mem_cons_of_mem kv hx)
  unfold uintField at hskip ⊢
  rw [List.foldl_append, hskip, List.foldl_cons, List.foldl_nil, if_pos rfl, Option.bind_some]

/-- The keys a struct is read from: `null` is a no-op, any other non-object an error. -/
def structFields : RawMessage → Option (List (String × Json))
  | some (obj fields) => some fields
  | some null => some []
  | _ => none

/-! What a client finds under a key. -/

def field (name : String) : Json → Option Json
  | obj fields => fields.lookup name
  | _ => none

def intAt (name : String) (doc : Json) : Option ℤ :=
  match doc.field name with
  | some (int n) => some n
  | _ => none

def strAt (name : String) (doc : Json) : Option String :=
  match doc.field name with
  | some (str s) => some s
  | _ => none

def boolAt (name : String) (doc : Json) : Option Bool :=
  match doc.field name with
  | some (bool b) => some b
  | _ => none

end Json

/-! ## Encoding of `omitempty` fields -/

def omitEmptyStr (name value : String) : List (String × Json) :=
  if value = "" then [] else [(name, .str value)]

def omitEmptyBool (name : String) (value : Bool) : List (String × Json) :=
  if value then [(name, .bool true)] else []

@[simp] theorem lookup_omitEmptyStr (key name value : String) :
    (omitEmptyStr name value).lookup key =
      if key = name ∧ value ≠ "" then some (.str value) else none := by
  unfold omitEmptyStr
  by_cases hv : value = ""
  · simp [hv]
  · by_cases hk : key = name
    · subst hk
      simp [hv]
    · have hk' : (key == name) = false := beq_false_of_ne hk
      simp [hv, hk, List.lookup_cons, hk']

@[simp] theorem lookup_omitEmptyBool (key name : String) (value : Bool) :
    (omitEmptyBool name value).lookup key =
      if key = name ∧ value = true then some (.bool true) else none := by
  unfold omitEmptyBool
  cases value with
  | false => simp
  | true =>
    by_cases hk : key = name
    · subst hk
      simp
    · have hk' : (key == name) = false := beq_false_of_ne hk
      simp [hk, List.lookup_cons, hk']

end RealtimeEngine.Foundations
