import CapsuleAnchor.Texts

/-!
# JSON values

What `json.loads` returns, in full: a float is its IEEE 754 double (`NaN` and the infinities included), a string may hold
surrogates.  An object lists its items in the order of the `dict`, whose keys are distinct.

`jcs` of `agent_action_capsule.canonical` is code outside the repository; what the service relies on is in `Rfc8785`.
-/

namespace CapsuleAnchor

inductive JsonValue
  | null
  | bool (b : Bool)
  | int (i : Int)
  | float (bits : BitVec 64)
  | str (s : Text)
  | arr (xs : List JsonValue)
  | obj (members : List (Text × JsonValue))

/-- The members of an object. -/
abbrev Members := List (Text × JsonValue)

/-- `dict.get`. -/
def Members.get (members : Members) (key : Text) : Option JsonValue := members.lookup key

/-- A string that JSON writes as it is, between quotes. -/
def Text.Plain (t : Text) : Prop := ∀ c ∈ t, 32 ≤ c.val ∧ c.val ≤ 126 ∧ c.val ≠ 34 ∧ c.val ≠ 92

instance (t : Text) : Decidable t.Plain := List.decidableBAll _ t

/-- A plain string in quotes. -/
def Text.quoted (t : Text) : Bytes := 34 :: (t.map (fun c => UInt8.ofNat c.val) ++ [34])

/-- Members are sorted by the UTF-16 of their names. -/
def memberLE (m n : Text × JsonValue) : Prop := m.1.utf16 ≤ n.1.utf16

instance : DecidableRel memberLE := fun m n => inferInstanceAs (Decidable (m.1.utf16 ≤ n.1.utf16))

/-- How RFC 8785 writes a member. -/
def jcsMember (jcs : JsonValue → Option Bytes) (m : Text × JsonValue) : Option Bytes :=
  match jcs (.str m.1), jcs m.2 with
  | some name, some value => some (name ++ 58 :: value)
  | _, _ => none

/-- The serialisation of RFC 8785: a plain string between quotes, an object as its sorted members between braces. -/
structure Rfc8785 (jcs : JsonValue → Option Bytes) : Prop where
  string (s : Text) : s.Plain → jcs (.str s) = some s.quoted
  object (members : Members) (bytes : Bytes) : jcs (.obj members) = some bytes →
    ∃ fields, (members.insertionSort memberLE).mapM (jcsMember jcs) = some fields ∧
      bytes = 123 :: (List.intercalate [44] fields ++ [125])

/-- An object that has a canonical form is written from its first member on. -/
theorem Rfc8785.object_prefix {jcs : JsonValue → Option Bytes} (h : Rfc8785 jcs) {members : Members} {bytes : Bytes}
    (hbytes : jcs (.obj members) = some bytes) {m : Text × JsonValue} {l : Members}
    (hsorted : members.insertionSort memberLE = m :: l) (hplain : m.1.Plain) :
    123 :: (m.1.quoted ++ [58]) <+: bytes := by
  obtain ⟨fields, hfields, rfl⟩ := h.object members bytes hbytes
  rw [hsorted, List.mapM_cons] at hfields
  cases hvalue : jcs m.2 with
  | none => simp [jcsMember, hvalue] at hfields
  | some value =>
    have hfield : jcsMember jcs m = some (m.1.quoted ++ 58 :: value) := by
      rw [jcsMember, h.string m.1 hplain, hvalue]
    rw [hfield] at hfields
    simp only [Option.bind_eq_bind, Option.bind_some, Option.pure_def, Option.bind_eq_some_iff, Option.some.injEq]
      at hfields
    obtain ⟨others, -, rfl⟩ := hfields
    cases others with
    | nil => exact ⟨value ++ [125], by simp⟩
    | cons f fs =>
      refine ⟨value ++ [44] ++ List.intercalate [44] (f :: fs) ++ [125], ?_⟩
      simp [List.intercalate, List.intersperse]

/-! ### Equality -/

mutual

/-- The same value, member by member. -/
def JsonValue.same : JsonValue → JsonValue → Bool
  | .null, .null => true
  | .bool a, .bool b => a == b
  | .int a, .int b => a == b
  | .float a, .float b => a == b
  | .str a, .str b => a == b
  | .arr a, .arr b => sameItems a b
  | .obj a, .obj b => sameMembers a b
  | _, _ => false

def sameItems : List JsonValue → List JsonValue → Bool
  | [], [] => true
  | a :: as, b :: bs => JsonValue.same a b && sameItems as bs
  | _, _ => false

def sameMembers : List (Text × JsonValue) → List (Text × JsonValue) → Bool
  | [], [] => true
  | (k, a) :: as, (l, b) :: bs => k == l && JsonValue.same a b && sameMembers as bs
  | _, _ => false

end

mutual

theorem JsonValue.eq_of_same : ∀ {a b : JsonValue}, a.same b = true → a = b
  | .null, b, h => by cases b <;> simp_all [JsonValue.same]
  | .bool _, b, h => by cases b <;> simp_all [JsonValue.same]
  | .int _, b, h => by cases b <;> simp_all [JsonValue.same]
  | .float _, b, h => by cases b <;> simp_all [JsonValue.same]
  | .str _, b, h => by cases b <;> simp_all [JsonValue.same]
  | .arr as, b, h => by
    cases b with
    | arr bs => rw [items_of_same h]
    | _ => simp [JsonValue.same] at h
  | .obj as, b, h => by
    cases b with
    | obj bs => rw [members_of_same h]
    | _ => simp [JsonValue.same] at h

private theorem items_of_same : ∀ {as bs : List JsonValue}, sameItems as bs = true → as = bs
  | [], bs, h => by cases bs <;> simp_all [sameItems]
  | a :: as, bs, h => by
    cases bs with
    | nil => simp [sameItems] at h
    | cons b bs =>
      simp only [sameItems, Bool.and_eq_true] at h
      rw [JsonValue.eq_of_same h.1, items_of_same h.2]

private theorem members_of_same : ∀ {as bs : List (Text × JsonValue)}, sameMembers as bs = true → as = bs
  | [], bs, h => by cases bs <;> simp_all [sameMembers]
  | (k, a) :: as, bs, h => by
    cases bs with
    | nil => simp [sameMembers] at h
    | cons b bs =>
      obtain ⟨l, b⟩ := b
      simp only [sameMembers, Bool.and_eq_true, beq_iff_eq] at h
      rw [h.1.1, JsonValue.eq_of_same h.1.2, members_of_same h.2]

end

mutual

theorem JsonValue.same_self : ∀ v : JsonValue, v.same v = true
  | .null => rfl
  | .bool _ => by simp [JsonValue.same]
  | .int _ => by simp [JsonValue.same]
  | .float _ => by simp [JsonValue.same]
  | .str _ => by simp [JsonValue.same]
  | .arr xs => items_same_self xs
  | .obj members => members_same_self members

private theorem items_same_self : ∀ xs : List JsonValue, sameItems xs xs = true
  | [] => rfl
  | x :: xs => by rw [sameItems, JsonValue.same_self x, items_same_self xs, Bool.and_self]

private theorem members_same_self : ∀ members : List (Text × JsonValue), sameMembers members members = true
  | [] => rfl
  | (k, v) :: members => by
    rw [sameMembers, JsonValue.same_self v, members_same_self members, beq_self_eq_true, Bool.and_self, Bool.and_self]

end

/-- Objects whose first members have different names differ. -/
theorem same_of_name_ne {k l : Text} (h : k ≠ l) (a b : JsonValue) (as bs : Members) :
    JsonValue.same (.obj ((k, a) :: as)) (.obj ((l, b) :: bs)) = false := by
  rw [JsonValue.same, sameMembers, beq_false_of_ne h, Bool.false_and, Bool.false_and]

/-- The serialisation of the values of a table. -/
def tableJcs (table : List (JsonValue × Bytes)) (v : JsonValue) : Except Text Bytes :=
  match table.find? (fun row => row.1.same v) with
  | some row => .ok row.2
  | none => .error (text "CanonicalizationError")

theorem mem_of_tableJcs {table : List (JsonValue × Bytes)} {v : JsonValue} {bytes : Bytes}
    (h : tableJcs table v = .ok bytes) : (v, bytes) ∈ table := by
  unfold tableJcs at h
  split at h
  · rename_i row hrow
    have hsame : row.1.same v = true := by simpa using List.find?_some hrow
    obtain rfl := JsonValue.eq_of_same hsame
    obtain rfl := Except.ok.inj h
    exact List.mem_of_find?_eq_some hrow
  · cases h

theorem tableJcs_head (v : JsonValue) (bytes : Bytes) (table : List (JsonValue × Bytes)) :
    tableJcs ((v, bytes) :: table) v = .ok bytes := by
  simp only [tableJcs, List.find?_cons, JsonValue.same_self]

theorem tableJcs_tail {row : JsonValue × Bytes} {v : JsonValue} (h : row.1.same v = false)
    (table : List (JsonValue × Bytes)) : tableJcs (row :: table) v = tableJcs table v := by
  simp only [tableJcs, List.find?_cons, h]

end CapsuleAnchor
