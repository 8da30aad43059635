import Mathlib

/-!
# Bytes, digests and canonical JSON

Byte strings, 32-byte digests with their hex text, and `canonical`: `json.dumps(obj, sort_keys=True,
separators=(",", ":")).encode()` for the flat objects this service signs and hashes (values are strings, integers
and `None`).  `dumpsStr` escapes as `ensure_ascii=True` does: a character outside the printable ASCII range becomes
`\uXXXX`, one outside the BMP a surrogate pair.  A Python string is taken to be a sequence of Unicode scalar values.

The main result is `canonical_perm`: two objects with the same canonical bytes have the same fields.
-/

namespace CapsuleAnchor

abbrev Bytes := List UInt8

/-- The ASCII bytes of `s`. -/
def ascii (s : String) : Bytes := s.toList.map Char.toUInt8

/-! ### Hex -/

/-- The lowercase hex digit of `n < 16`. -/
def hexDigit (n : Nat) : UInt8 := if n < 10 then UInt8.ofNat (48 + n) else UInt8.ofNat (87 + n)

def hexValue (b : UInt8) : Nat := if b.toNat < 58 then b.toNat - 48 else b.toNat - 87

theorem hexValue_hexDigit {n : Nat} (h : n < 16) : hexValue (hexDigit n) = n := by
  revert n; decide

/-- A SHA-256 digest: 32 bytes.  The source passes it around as 64 lowercase hex digits. -/
structure Digest where
  bytes : Bytes
  length_bytes : bytes.length = 32
deriving DecidableEq

@[ext] theorem Digest.ext {a b : Digest} (h : a.bytes = b.bytes) : a = b := by
  cases a; cases b; congr

/-- The digest with `fill` in every byte. -/
abbrev filledDigest (fill : UInt8) : Digest := ⟨List.replicate 32 fill, List.length_replicate⟩

/-- `bytes.hex()`. -/
def bytesHex (b : Bytes) : String :=
  String.ofList (b.flatMap fun b =>
    [Char.ofUInt8 (hexDigit (b.toNat / 16)), Char.ofUInt8 (hexDigit (b.toNat % 16))])

/-- The 64 lowercase hex digits of a digest. -/
def Digest.hex (d : Digest) : String := bytesHex d.bytes

def hexCharValue (c : Char) : Option Nat :=
  if '0' ≤ c ∧ c ≤ '9' then some (c.toNat - 48)
  else if 'a' ≤ c ∧ c ≤ 'f' then some (c.toNat - 87)
  else if 'A' ≤ c ∧ c ≤ 'F' then some (c.toNat - 55)
  else none

private def fromHexChars : List Char → Option Bytes
  | [] => some []
  | a :: b :: rest => do
    let hi ← hexCharValue a
    let lo ← hexCharValue b
    let bytes ← fromHexChars rest
    return UInt8.ofNat (16 * hi + lo) :: bytes
  | [_] => none

/-- The digest of 64 hex digits, of either case. -/
def Digest.ofHex? (s : String) : Option Digest :=
  match fromHexChars s.toList with
  | some bytes => if h : bytes.length = 32 then some ⟨bytes, h⟩ else none
  | none => none

private theorem length_fromHexChars : ∀ {cs : List Char} {bytes : Bytes}, fromHexChars cs = some bytes →
    cs.length = 2 * bytes.length
  | [], bytes, h => by
    obtain rfl : [] = bytes := by simpa [fromHexChars] using h
    rfl
  | [_], _, h => by simp [fromHexChars] at h
  | a :: b :: cs, bytes, h => by
    simp only [fromHexChars, Option.pure_def, Option.bind_eq_bind, Option.bind_eq_some_iff] at h
    obtain ⟨hi, -, lo, -, rest, hrest, hbytes⟩ := h
    obtain rfl : UInt8.ofNat (16 * hi + lo) :: rest = bytes := Option.some.inj hbytes
    have hlen := length_fromHexChars hrest
    simp only [List.length_cons]
    omega

/-- A digest is written with 64 characters. -/
theorem Digest.length_of_ofHex? {s : String} {d : Digest} (h : Digest.ofHex? s = some d) : s.length = 64 := by
  unfold Digest.ofHex? at h
  split at h
  · rename_i bytes hbytes
    split at h
    · rename_i hlen
      have := length_fromHexChars hbytes
      rw [hlen] at this
      exact this
    · cases h
  · cases h

private theorem ofUInt8_hexDigit_inj {m n : Nat} (hm : m < 16) (hn : n < 16)
    (h : Char.ofUInt8 (hexDigit m) = Char.ofUInt8 (hexDigit n)) : m = n := by
  have key : ∀ m < 16, ∀ n < 16, Char.ofUInt8 (hexDigit m) = Char.ofUInt8 (hexDigit n) → m = n := by decide
  exact key m hm n hn h

private theorem hexChars_inj : ∀ {a b : Bytes},
    (a.flatMap fun b => [Char.ofUInt8 (hexDigit (b.toNat / 16)), Char.ofUInt8 (hexDigit (b.toNat % 16))]) =
      (b.flatMap fun b => [Char.ofUInt8 (hexDigit (b.toNat / 16)), Char.ofUInt8 (hexDigit (b.toNat % 16))]) →
    a = b
  | [], [], _ => rfl
  | [], _ :: _, h => by simp at h
  | _ :: _, [], h => by simp at h
  | x :: a, y :: b, h => by
    simp only [List.flatMap_cons, List.cons_append, List.nil_append, List.cons.injEq] at h
    obtain ⟨h1, h2, h3⟩ := h
    have hx := x.toNat_lt
    have hy := y.toNat_lt
    have e1 := ofUInt8_hexDigit_inj (by omega) (by omega) h1
    have e2 := ofUInt8_hexDigit_inj (by omega) (by omega) h2
    rw [hexChars_inj h3, show x = y from UInt8.toNat_inj.1 (by omega)]

theorem Digest.hex_injective {a b : Digest} (h : a.hex = b.hex) : a = b := by
  apply Digest.ext
  apply hexChars_inj
  have := congrArg String.toList h
  simpa only [Digest.hex, bytesHex, String.toList_ofList] using this

theorem Digest.length_hex (d : Digest) : d.hex.toList.length = 64 := by
  have h : ∀ b : Bytes, (b.flatMap fun b =>
      [Char.ofUInt8 (hexDigit (b.toNat / 16)), Char.ofUInt8 (hexDigit (b.toNat % 16))]).length = 2 * b.length := by
    intro b
    induction b with
    | nil => rfl
    | cons x b ih => simp only [List.flatMap_cons, List.length_append, List.length_cons, ih]; simp; omega
  rw [Digest.hex, bytesHex, String.toList_ofList, h, d.length_bytes]

/-- A digest is written in hex digits. -/
theorem Digest.isHex (d : Digest) {c : Char} (h : c ∈ d.hex.toList) : (hexCharValue c).isSome := by
  have key : ∀ n < 16, (hexCharValue (Char.ofUInt8 (hexDigit n))).isSome = true := by decide
  rw [Digest.hex, bytesHex, String.toList_ofList] at h
  obtain ⟨b, -, hc⟩ := List.mem_flatMap.1 h
  have hb := b.toNat_lt
  rcases List.mem_cons.1 hc with rfl | hc
  · exact key _ (by omega)
  · obtain rfl := List.mem_singleton.1 hc
    exact key _ (by omega)

private theorem fromHexChars_hex (b : Bytes) : fromHexChars (b.flatMap fun b =>
    [Char.ofUInt8 (hexDigit (b.toNat / 16)), Char.ofUInt8 (hexDigit (b.toNat % 16))]) = some b := by
  have key : ∀ n < 16, hexCharValue (Char.ofUInt8 (hexDigit n)) = some n := by decide
  induction b with
  | nil => rfl
  | cons x b ih =>
    have hx := x.toNat_lt
    have hbyte : UInt8.ofNat (16 * (x.toNat / 16) + x.toNat % 16) = x := by
      rw [Nat.div_add_mod]
      exact UInt8.ofNat_toNat
    simp only [List.flatMap_cons, List.cons_append, List.nil_append, fromHexChars, key _ (show x.toNat / 16 < 16 by omega),
      key _ (show x.toNat % 16 < 16 by omega), ih, Option.bind_eq_bind, Option.bind_some, hbyte]
    rfl

/-- The digits of a digest are read back. -/
theorem Digest.ofHex?_hex (d : Digest) : Digest.ofHex? d.hex = some d := by
  rw [Digest.ofHex?, Digest.hex, bytesHex, String.toList_ofList, fromHexChars_hex]
  simp only [d.length_bytes, dif_pos]

/-! ### Strings -/

def hex4 (n : Nat) : Bytes :=
  [hexDigit (n / 4096 % 16), hexDigit (n / 256 % 16), hexDigit (n / 16 % 16), hexDigit (n % 16)]

/-- `\uXXXX`. -/
def escapeUnit (n : Nat) : Bytes := 92 :: 117 :: hex4 n

/-- `json.encoder.py_encode_basestring_ascii`, one character. -/
def escapeChar (c : Char) : Bytes :=
  if c = '"' then [92, 34]
  else if c = '\\' then [92, 92]
  else if c = '\n' then [92, 110]
  else if c = '\r' then [92, 114]
  else if c = '\t' then [92, 116]
  else if c.toNat = 12 then [92, 102]
  else if c.toNat = 8 then [92, 98]
  else if 32 ≤ c.toNat ∧ c.toNat ≤ 126 then [UInt8.ofNat c.toNat]
  else if c.toNat < 65536 then escapeUnit c.toNat
  else escapeUnit (55296 + (c.toNat - 65536) / 1024 % 1024) ++ escapeUnit (56320 + (c.toNat - 65536) % 1024)

def dumpsStr (s : String) : Bytes := 34 :: (s.toList.flatMap escapeChar ++ [34])

def readUnit (a b c d : UInt8) : Nat :=
  hexValue a * 4096 + hexValue b * 256 + hexValue c * 16 + hexValue d

theorem readUnit_hex4 {n : Nat} (h : n < 65536) :
    readUnit (hexDigit (n / 4096 % 16)) (hexDigit (n / 256 % 16)) (hexDigit (n / 16 % 16)) (hexDigit (n % 16)) = n := by
  simp only [readUnit, hexValue_hexDigit (Nat.mod_lt _ (show 0 < 16 by decide))]
  omega

/-- Reads back one escaped character. -/
private def readChar : Bytes → Option (Nat × Bytes)
  | [] => none
  | x :: s =>
    if x ≠ 92 then some (x.toNat, s)
    else match s with
      | [] => none
      | y :: s =>
        if y = 34 then some (34, s)
        else if y = 92 then some (92, s)
        else if y = 110 then some (10, s)
        else if y = 114 then some (13, s)
        else if y = 116 then some (9, s)
        else if y = 102 then some (12, s)
        else if y = 98 then some (8, s)
        else match s with
          | a :: b :: c :: d :: s =>
            if 55296 ≤ readUnit a b c d ∧ readUnit a b c d < 56320 then
              match s with
              | _ :: _ :: a' :: b' :: c' :: d' :: s =>
                some (65536 + (readUnit a b c d - 55296) * 1024 + (readUnit a' b' c' d' - 56320), s)
              | _ => none
            else some (readUnit a b c d, s)
          | _ => none

theorem char_not_surrogate (c : Char) : ¬ (55296 ≤ c.toNat ∧ c.toNat < 57344) := by
  have h := c.valid
  simp only [Char.toNat, UInt32.isValidChar, Nat.isValidChar] at *
  omega

theorem char_lt (c : Char) : c.toNat < 1114112 := by
  have h := c.valid
  simp only [Char.toNat, UInt32.isValidChar, Nat.isValidChar] at *
  omega

private theorem readChar_escapeUnit {n : Nat} (h : n < 55296 ∨ 57344 ≤ n) (hn : n < 65536) (s : Bytes) :
    readChar (escapeUnit n ++ s) = some (n, s) := by
  simp only [escapeUnit, hex4, List.cons_append, List.nil_append, readChar, readUnit_hex4 hn]
  rw [if_neg (by decide), if_neg (by decide), if_neg (by decide), if_neg (by decide), if_neg (by decide),
    if_neg (by decide), if_neg (by decide), if_neg (by decide), if_neg (by omega)]

private theorem readChar_surrogates {u v : Nat} (hu : u < 1024) (hv : v < 1024) (s : Bytes) :
    readChar (escapeUnit (55296 + u) ++ escapeUnit (56320 + v) ++ s) = some (65536 + u * 1024 + v, s) := by
  simp only [escapeUnit, hex4, List.cons_append, List.nil_append, readChar,
    readUnit_hex4 (n := 55296 + u) (by omega), readUnit_hex4 (n := 56320 + v) (by omega)]
  rw [if_neg (by decide), if_neg (by decide), if_neg (by decide), if_neg (by decide), if_neg (by decide),
    if_neg (by decide), if_neg (by decide), if_neg (by decide), if_pos (by omega),
    show 65536 + (55296 + u - 55296) * 1024 + (56320 + v - 56320) = 65536 + u * 1024 + v by omega]

/-- What `escapeChar` can do: a two-byte escape, a printable character as it is, one or two `\uXXXX` units. -/
private theorem escapeChar_cases (c : Char) :
    (∃ b, escapeChar c = [92, b] ∧ ∀ s, readChar (92 :: b :: s) = some (c.toNat, s)) ∨
    (∃ b, escapeChar c = [b] ∧ b ≠ 34 ∧ b ≠ 92 ∧ b.toNat = c.toNat) ∨
    (escapeChar c = escapeUnit c.toNat ∧ c.toNat < 65536) ∨
    (escapeChar c = escapeUnit (55296 + (c.toNat - 65536) / 1024 % 1024) ++
      escapeUnit (56320 + (c.toNat - 65536) % 1024) ∧ 65536 ≤ c.toNat) := by
  by_cases h1 : c = '"'
  · subst h1; exact .inl ⟨34, rfl, fun _ => rfl⟩
  by_cases h2 : c = '\\'
  · subst h2; exact .inl ⟨92, rfl, fun _ => rfl⟩
  by_cases h3 : c = '\n'
  · subst h3; exact .inl ⟨110, rfl, fun _ => rfl⟩
  by_cases h4 : c = '\r'
  · subst h4; exact .inl ⟨114, rfl, fun _ => rfl⟩
  by_cases h5 : c = '\t'
  · subst h5; exact .inl ⟨116, rfl, fun _ => rfl⟩
  rw [escapeChar, if_neg h1, if_neg h2, if_neg h3, if_neg h4, if_neg h5]
  by_cases h6 : c.toNat = 12
  · rw [if_pos h6, h6]; exact .inl ⟨102, rfl, fun _ => rfl⟩
  by_cases h7 : c.toNat = 8
  · rw [if_neg h6, if_pos h7, h7]; exact .inl ⟨98, rfl, fun _ => rfl⟩
  rw [if_neg h6, if_neg h7]
  by_cases h8 : 32 ≤ c.toNat ∧ c.toNat ≤ 126
  · have hn : (UInt8.ofNat c.toNat).toNat = c.toNat := by simp; omega
    rw [if_pos h8]
    refine .inr (.inl ⟨_, rfl, fun e => h1 (Char.toNat_inj.1 ?_), fun e => h2 (Char.toNat_inj.1 ?_), hn⟩)
    · rw [← hn, e]; rfl
    · rw [← hn, e]; rfl
  rw [if_neg h8]
  by_cases h9 : c.toNat < 65536
  · rw [if_pos h9]; exact .inr (.inr (.inl ⟨rfl, h9⟩))
  · rw [if_neg h9]; exact .inr (.inr (.inr ⟨rfl, by omega⟩))

private theorem readChar_escapeChar (c : Char) (s : Bytes) :
    readChar (escapeChar c ++ s) = some (c.toNat, s) := by
  have hs := char_not_surrogate c
  have hlt := char_lt c
  rcases escapeChar_cases c with ⟨b, e, h⟩ | ⟨b, e, -, h92, h⟩ | ⟨e, h⟩ | ⟨e, h⟩
  · rw [e]; exact h s
  · rw [e, List.singleton_append, readChar.eq_def]; simp only [h92, ne_eq, not_false_eq_true, if_true, h]
  · rw [e]; exact readChar_escapeUnit (by omega) h s
  · rw [e, readChar_surrogates (by omega) (by omega),
      show 65536 + (c.toNat - 65536) / 1024 % 1024 * 1024 + (c.toNat - 65536) % 1024 = c.toNat by omega]

private theorem escapeChar_head (c : Char) : ∃ b l, escapeChar c = b :: l ∧ b ≠ 34 := by
  rcases escapeChar_cases c with ⟨b, e, -⟩ | ⟨b, e, h, -⟩ | ⟨e, -⟩ | ⟨e, -⟩
  · exact ⟨_, _, e, by decide⟩
  · exact ⟨_, _, e, h⟩
  · exact ⟨_, _, e, by decide⟩
  · exact ⟨_, _, e, by decide⟩

private theorem escaped_inj : ∀ {a b : List Char} {s t : Bytes},
    a.flatMap escapeChar ++ 34 :: s = b.flatMap escapeChar ++ 34 :: t → a = b ∧ s = t
  | [], [], _, _, h => ⟨rfl, by simpa using h⟩
  | [], c :: b, s, t, h => by
    obtain ⟨x, l, hx, hne⟩ := escapeChar_head c
    simp only [List.flatMap_nil, List.nil_append, List.flatMap_cons, hx, List.cons_append, List.cons.injEq] at h
    exact absurd h.1.symm hne
  | c :: a, [], s, t, h => by
    obtain ⟨x, l, hx, hne⟩ := escapeChar_head c
    simp only [List.flatMap_nil, List.nil_append, List.flatMap_cons, hx, List.cons_append, List.cons.injEq] at h
    exact absurd h.1 hne
  | c :: a, d :: b, s, t, h => by
    simp only [List.flatMap_cons, List.append_assoc] at h
    have hr := congrArg readChar h
    rw [readChar_escapeChar, readChar_escapeChar] at hr
    simp only [Option.some.injEq, Prod.mk.injEq] at hr
    obtain ⟨rfl, rfl⟩ := escaped_inj hr.2
    exact ⟨by rw [Char.toNat_inj.1 hr.1], rfl⟩

theorem dumpsStr_append_inj {a b : String} {s t : Bytes} (h : dumpsStr a ++ s = dumpsStr b ++ t) :
    a = b ∧ s = t := by
  simp only [dumpsStr, List.cons_append, List.append_assoc, List.nil_append, List.cons.injEq, true_and] at h
  obtain ⟨h1, h2⟩ := escaped_inj h
  exact ⟨String.toList_inj.1 h1, h2⟩

/-! ### Base64 -/

/-- A letter of the alphabet. -/
def base64Char (n : Nat) : Char :=
  if n < 26 then Char.ofNat (65 + n)
  else if n < 52 then Char.ofNat (71 + n)
  else if n < 62 then Char.ofNat (n - 4)
  else if n = 62 then '+' else '/'

/-- `base64.b64encode(b).decode("ascii")`. -/
def b64encode : Bytes → String
  | [] => ""
  | [a] => String.ofList [base64Char (a.toNat / 4), base64Char (a.toNat % 4 * 16), '=', '=']
  | [a, b] => String.ofList [base64Char (a.toNat / 4), base64Char (a.toNat % 4 * 16 + b.toNat / 16),
      base64Char (b.toNat % 16 * 4), '=']
  | a :: b :: c :: rest =>
    String.ofList [base64Char (a.toNat / 4), base64Char (a.toNat % 4 * 16 + b.toNat / 16),
      base64Char (b.toNat % 16 * 4 + c.toNat / 64), base64Char (c.toNat % 64)] ++ b64encode rest

/-! ### Objects -/

/-- The values of the objects this service canonicalises. -/
inductive Scalar
  | null
  | int (i : Int)
  | str (s : String)
deriving DecidableEq

/-- A hash or `None`. -/
def Scalar.optStr : Option String → Scalar
  | none => .null
  | some s => .str s

theorem Scalar.optStr_inj {a b : Option String} (h : optStr a = optStr b) : a = b := by
  cases a <;> cases b <;> simp_all [optStr]

def dumpsNat (n : Nat) : Bytes :=
  if n = 0 then [48] else (Nat.digits 10 n).reverse.map fun d => UInt8.ofNat (48 + d)

def Scalar.dumps : Scalar → Bytes
  | .null => ascii "null"
  | .int (.ofNat n) => dumpsNat n
  | .int (.negSucc n) => 45 :: dumpsNat (n + 1)
  | .str s => dumpsStr s

def dumpsField (f : String × Scalar) : Bytes := dumpsStr f.1 ++ 58 :: f.2.dumps

def dumpsFields : List (String × Scalar) → Bytes
  | [] => [125]
  | [f] => dumpsField f ++ [125]
  | f :: g :: fs => dumpsField f ++ 44 :: dumpsFields (g :: fs)

/-- The order `sort_keys=True` sorts the items of an object by. -/
def keyLE (f g : String × Scalar) : Prop := f.1 ≤ g.1

instance : DecidableRel keyLE := fun f g => inferInstanceAs (Decidable (f.1 ≤ g.1))

/-- `service._canonical`, for an object given as its list of items. -/
def canonical (obj : List (String × Scalar)) : Bytes := 123 :: dumpsFields (obj.insertionSort keyLE)

private def IsDigit (b : UInt8) : Prop := 48 ≤ b.toNat ∧ b.toNat ≤ 57

private theorem toNat_digit {d : Nat} (h : d < 10) : (UInt8.ofNat (48 + d)).toNat = 48 + d := by
  simp; omega

private theorem dumpsNat_isDigit (n : Nat) : ∀ b ∈ dumpsNat n, IsDigit b := by
  intro b hb
  unfold dumpsNat at hb
  split at hb
  · simp only [List.mem_singleton] at hb; subst hb; exact ⟨by decide, by decide⟩
  · simp only [List.mem_map, List.mem_reverse] at hb
    obtain ⟨d, hd, rfl⟩ := hb
    have h10 := Nat.digits_lt_base (by decide) hd
    rw [IsDigit, toNat_digit h10]; omega

private theorem dumpsNat_ne_nil (n : Nat) : dumpsNat n ≠ [] := by
  unfold dumpsNat
  split
  · simp
  · simpa using Nat.digits_ne_nil_iff_ne_zero.2 ‹_›

private theorem map_digit_inj : ∀ {a b : List Nat}, (∀ d ∈ a, d < 10) → (∀ d ∈ b, d < 10) →
    (a.map fun d => UInt8.ofNat (48 + d)) = (b.map fun d => UInt8.ofNat (48 + d)) → a = b
  | [], [], _, _, _ => rfl
  | [], _ :: _, _, _, h => by simp at h
  | _ :: _, [], _, _, h => by simp at h
  | x :: a, y :: b, ha, hb, h => by
    simp only [List.map_cons, List.cons.injEq] at h
    have hx := toNat_digit (ha x (List.mem_cons_self ..))
    have hy := toNat_digit (hb y (List.mem_cons_self ..))
    rw [h.1] at hx
    rw [map_digit_inj (fun d hd => ha d (List.mem_cons_of_mem _ hd))
      (fun d hd => hb d (List.mem_cons_of_mem _ hd)) h.2, show x = y by omega]

private theorem digits_ne_zero {n : Nat} (hn : n ≠ 0)
    (h : [(48 : UInt8)] = (Nat.digits 10 n).reverse.map fun d => UInt8.ofNat (48 + d)) : False := by
  have e : [0] = (Nat.digits 10 n).reverse :=
    map_digit_inj (by simp) (fun d hd => Nat.digits_lt_base (by decide) (List.mem_reverse.1 hd)) h
  have e' : Nat.digits 10 n = [0] := by rw [← List.reverse_reverse (Nat.digits 10 n), ← e]; rfl
  have := Nat.ofDigits_digits 10 n
  rw [e'] at this
  simp at this
  omega

private theorem dumpsNat_inj {m n : Nat} (h : dumpsNat m = dumpsNat n) : m = n := by
  unfold dumpsNat at h
  split at h <;> split at h
  · omega
  · exact (digits_ne_zero ‹_› h).elim
  · exact (digits_ne_zero ‹_› h.symm).elim
  · have e := map_digit_inj (fun d hd => Nat.digits_lt_base (by decide) (List.mem_reverse.1 hd))
      (fun d hd => Nat.digits_lt_base (by decide) (List.mem_reverse.1 hd)) h
    exact Nat.digits_inj_iff.1 (List.reverse_injective e)

/-- What follows a value inside an object: a comma or the closing brace. -/
def IsDelim (b : UInt8) : Prop := b = 44 ∨ b = 125

private theorem isDelim_not_digit {b : UInt8} (h : IsDelim b) : ¬ IsDigit b := by
  rcases h with rfl | rfl <;> (rintro ⟨h1, h2⟩; revert h1 h2; decide)

private theorem digits_append_inj : ∀ {u v : Bytes} {x y : UInt8} {s t : Bytes}, (∀ b ∈ u, IsDigit b) →
    (∀ b ∈ v, IsDigit b) → ¬ IsDigit x → ¬ IsDigit y → u ++ x :: s = v ++ y :: t → u = v ∧ x :: s = y :: t
  | [], [], _, _, _, _, _, _, _, _, h => ⟨rfl, h⟩
  | [], c :: v, _, _, _, _, _, hv, hx, _, h => by
    simp only [List.nil_append, List.cons_append, List.cons.injEq] at h
    exact absurd (h.1 ▸ hv c (List.mem_cons_self ..)) hx
  | c :: u, [], _, _, _, _, hu, _, _, hy, h => by
    simp only [List.nil_append, List.cons_append, List.cons.injEq] at h
    exact absurd (h.1 ▸ hu c (List.mem_cons_self ..)) hy
  | c :: u, d :: v, _, _, _, _, hu, hv, hx, hy, h => by
    simp only [List.cons_append, List.cons.injEq] at h
    obtain ⟨e, e'⟩ := digits_append_inj (fun b hb => hu b (List.mem_cons_of_mem _ hb))
      (fun b hb => hv b (List.mem_cons_of_mem _ hb)) hx hy h.2
    exact ⟨by rw [h.1, e], e'⟩

theorem dumpsNat_append_inj {m n : Nat} {x y : UInt8} {s t : Bytes} (hx : IsDelim x) (hy : IsDelim y)
    (h : dumpsNat m ++ x :: s = dumpsNat n ++ y :: t) : m = n ∧ x :: s = y :: t := by
  obtain ⟨e, e'⟩ := digits_append_inj (dumpsNat_isDigit m) (dumpsNat_isDigit n) (isDelim_not_digit hx)
    (isDelim_not_digit hy) h
  exact ⟨dumpsNat_inj e, e'⟩

/-- The first byte of a dumped value tells its kind. -/
def kindByte : Scalar → UInt8 → Prop
  | .null, b => b = 110
  | .int (.ofNat _), b => IsDigit b
  | .int (.negSucc _), b => b = 45
  | .str _, b => b = 34

theorem dumps_head (v : Scalar) : ∃ b l, v.dumps = b :: l ∧ kindByte v b := by
  match v with
  | .null => exact ⟨_, _, rfl, rfl⟩
  | .str s => exact ⟨_, _, rfl, rfl⟩
  | .int (.negSucc n) => exact ⟨_, _, rfl, rfl⟩
  | .int (.ofNat n) =>
    obtain ⟨b, l, h⟩ := List.exists_cons_of_ne_nil (dumpsNat_ne_nil n)
    exact ⟨b, l, h, dumpsNat_isDigit n b (by rw [h]; exact List.mem_cons_self ..)⟩

theorem kindByte_unique {v w : Scalar} {b : UInt8} (hv : kindByte v b) (hw : kindByte w b) :
    (v = .null ∧ w = .null) ∨ (∃ m n, v = .int (.ofNat m) ∧ w = .int (.ofNat n)) ∨
      (∃ m n, v = .int (.negSucc m) ∧ w = .int (.negSucc n)) ∨ ∃ s t, v = .str s ∧ w = .str t := by
  have h110 : ¬ IsDigit 110 := by rintro ⟨-, h⟩; revert h; decide
  have h45 : ¬ IsDigit 45 := by rintro ⟨h, -⟩; revert h; decide
  have h34 : ¬ IsDigit 34 := by rintro ⟨h, -⟩; revert h; decide
  rcases v with _ | (m | m) | s <;> rcases w with _ | (n | n) | t <;> simp only [kindByte] at hv hw <;>
    subst_vars <;> simp_all

theorem dumps_append_inj {v w : Scalar} {x y : UInt8} {s t : Bytes} (hx : IsDelim x) (hy : IsDelim y)
    (h : v.dumps ++ x :: s = w.dumps ++ y :: t) : v = w ∧ x :: s = y :: t := by
  have hk : ∃ b, kindByte v b ∧ kindByte w b := by
    obtain ⟨b, l, e, hb⟩ := dumps_head v
    obtain ⟨c, l', e', hc⟩ := dumps_head w
    rw [e, e', List.cons_append, List.cons_append, List.cons.injEq] at h
    exact ⟨b, hb, h.1 ▸ hc⟩
  obtain ⟨b, hv, hw⟩ := hk
  rcases kindByte_unique hv hw with ⟨rfl, rfl⟩ | ⟨m, n, rfl, rfl⟩ | ⟨m, n, rfl, rfl⟩ | ⟨a, b, rfl, rfl⟩
  · exact ⟨rfl, List.append_cancel_left h⟩
  · obtain ⟨rfl, e⟩ := dumpsNat_append_inj hx hy h
    exact ⟨rfl, e⟩
  · simp only [Scalar.dumps, List.cons_append, List.cons.injEq, true_and] at h
    obtain ⟨e, e'⟩ := dumpsNat_append_inj hx hy h
    exact ⟨by rw [show m = n by omega], e'⟩
  · obtain ⟨rfl, e⟩ := dumpsStr_append_inj h
    exact ⟨rfl, e⟩

private theorem dumpsField_append_inj {f g : String × Scalar} {x y : UInt8} {s t : Bytes} (hx : IsDelim x)
    (hy : IsDelim y) (h : dumpsField f ++ x :: s = dumpsField g ++ y :: t) : f = g ∧ x :: s = y :: t := by
  simp only [dumpsField, List.append_assoc, List.cons_append] at h
  obtain ⟨e, h⟩ := dumpsStr_append_inj h
  obtain ⟨e', h⟩ := dumps_append_inj hx hy (List.cons.inj h).2
  exact ⟨Prod.ext e e', h⟩

private theorem dumpsField_ne (f : String × Scalar) (s : Bytes) : dumpsField f ++ s ≠ [125] := by
  simp [dumpsField, dumpsStr]

private theorem dumpsFields_inj : ∀ {fs gs : List (String × Scalar)}, dumpsFields fs = dumpsFields gs → fs = gs
  | [], [], _ => rfl
  | [], [g], h => (dumpsField_ne g _ h.symm).elim
  | [], g :: g' :: gs, h => (dumpsField_ne g _ h.symm).elim
  | [f], [], h => (dumpsField_ne f _ h).elim
  | f :: f' :: fs, [], h => (dumpsField_ne f _ h).elim
  | [f], [g], h => by rw [(dumpsField_append_inj (.inr rfl) (.inr rfl) h).1]
  | [f], g :: g' :: gs, h => by
    have := (dumpsField_append_inj (.inr rfl) (.inl rfl) h).2
    simp at this
  | f :: f' :: fs, [g], h => by
    have := (dumpsField_append_inj (.inl rfl) (.inr rfl) h).2
    simp at this
  | f :: f' :: fs, g :: g' :: gs, h => by
    obtain ⟨e, h'⟩ := dumpsField_append_inj (.inl rfl) (.inl rfl) h
    rw [e, dumpsFields_inj (List.cons.inj h').2]

/-- Objects with the same canonical bytes have the same items. -/
theorem canonical_perm {a b : List (String × Scalar)} (h : canonical a = canonical b) : a.Perm b := by
  have e := dumpsFields_inj (List.cons.inj h).2
  exact ((List.perm_insertionSort keyLE a).symm.trans (.of_eq e)).trans (List.perm_insertionSort keyLE b)

private theorem length_dumpsFields_ge {f : String × Scalar} : ∀ {fs : List (String × Scalar)}, f ∈ fs →
    (dumpsField f).length ≤ (dumpsFields fs).length
  | [_], h => by
    rw [List.mem_singleton.1 h, dumpsFields, List.length_append]; omega
  | g :: g' :: fs, h => by
    rw [dumpsFields, List.length_append, List.length_cons]
    rcases List.mem_cons.1 h with rfl | h
    · omega
    · have := length_dumpsFields_ge h; omega

private theorem length_escaped_ge (s : List Char) : s.length ≤ (s.flatMap escapeChar).length := by
  induction s with
  | nil => exact Nat.le_refl _
  | cons c s ih =>
    obtain ⟨b, l, h, -⟩ := escapeChar_head c
    simp only [List.flatMap_cons, List.length_append, List.length_cons, h]; omega

/-- An object is at least as long as any of its string values. -/
theorem length_canonical_gt {obj : List (String × Scalar)} {k s : String} (h : (k, .str s) ∈ obj) :
    s.toList.length < (canonical obj).length := by
  have hm : (k, Scalar.str s) ∈ obj.insertionSort keyLE := (List.mem_insertionSort keyLE).2 h
  have h1 := length_dumpsFields_ge hm
  have h2 := length_escaped_ge s.toList
  simp only [canonical, dumpsField, Scalar.dumps, dumpsStr, List.length_cons, List.length_append] at h1 ⊢
  omega

end CapsuleAnchor
