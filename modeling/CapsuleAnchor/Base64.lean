import CapsuleAnchor.Canonical

/-!
# Base64

`Base64.decode` is `base64.b64decode` of a string: one scan that keeps the position in the current group of four letters, the
bits of the last letter that no byte has yet, and the padding seen so far.  With `validate=True` (`strict`) every character
counts; without, what is neither a letter nor padding is skipped, and the scan ends at the padding that completes a group.

`Spells text b` says what a strict text is: groups of four letters, the last one padded where it has less than three bytes.
`decode_strict_iff`: the strict decoder accepts these texts, with the bytes they spell, and no other.  `spells_b64encode` and
`decode_b64encode` are the round trip, in both modes.  A text is not determined by its bytes: the last letter before the
padding has bits that no byte uses.
-/

namespace CapsuleAnchor

namespace Base64

/-- The value of a letter of the alphabet. -/
def value (c : Char) : Option Nat :=
  if 'A' ≤ c ∧ c ≤ 'Z' then some (c.toNat - 65)
  else if 'a' ≤ c ∧ c ≤ 'z' then some (c.toNat - 71)
  else if '0' ≤ c ∧ c ≤ '9' then some (c.toNat + 4)
  else if c = '+' then some 62
  else if c = '/' then some 63
  else none

/-- Why a text is refused. -/
inductive Error
  | nonAscii
  | leadingPadding
  | excessPadding
  | excessData
  | notAlphabet
  | discontinuousPadding
  | oneLetterOver (letters : Nat)
  | incorrectPadding
deriving DecidableEq

/-- Where the scan stands. -/
structure Scan where
  quadPos : Fin 4 := 0
  leftchar : Nat := 0
  pads : Nat := 0
  paddingStarted : Bool := false
  bytes : Bytes := []

/-- The bytes that the letters of a group hold. -/
def firstByte (v₁ v₂ : Nat) : UInt8 := UInt8.ofNat (v₁ * 4 + v₂ / 16)

def secondByte (v₂ v₃ : Nat) : UInt8 := UInt8.ofNat (v₂ % 16 * 16 + v₃ / 4)

def thirdByte (v₃ v₄ : Nat) : UInt8 := UInt8.ofNat (v₃ % 4 * 64 + v₄)

/-- The scan after a letter. -/
def Scan.letter (s : Scan) (v : Nat) : Scan :=
  match s.quadPos with
  | 0 => { s with quadPos := 1, leftchar := v, pads := 0 }
  | 1 => { s with quadPos := 2, leftchar := v, pads := 0, bytes := s.bytes ++ [firstByte s.leftchar v] }
  | 2 => { s with quadPos := 3, leftchar := v, pads := 0, bytes := s.bytes ++ [secondByte s.leftchar v] }
  | 3 => { s with quadPos := 0, leftchar := 0, pads := 0, bytes := s.bytes ++ [thirdByte s.leftchar v] }

/-- The loop of `binascii.a2b_base64`. -/
def scan (strict : Bool) : Scan → List Char → Except Error Bytes
  | s, [] =>
    if s.quadPos = 0 then .ok s.bytes
    else if s.quadPos = 1 then .error (.oneLetterOver (s.bytes.length / 3 * 4 + 1))
    else .error .incorrectPadding
  | s, c :: rest =>
    if c = '=' then
      if strict = true ∧ s.quadPos = 0 then .error .excessPadding
      else if 2 ≤ s.quadPos.val ∧ 4 ≤ s.quadPos.val + (s.pads + 1) then
        if strict = true ∧ rest ≠ [] then .error .excessData else .ok s.bytes
      else scan strict
        { s with paddingStarted := true, pads := if 2 ≤ s.quadPos.val then s.pads + 1 else s.pads } rest
    else
      match value c with
      | none => if strict then .error .notAlphabet else scan strict s rest
      | some v =>
        if strict = true ∧ s.paddingStarted = true then .error .discontinuousPadding else scan strict (s.letter v) rest

/-- `base64.b64decode(text, validate=strict)`. -/
def decode (strict : Bool) (text : String) : Except Error Bytes :=
  if text.toList.any (fun c => decide (128 ≤ c.toNat)) then .error .nonAscii
  else if strict = true ∧ text.toList.head? = some '=' then .error .leadingPadding
  else scan strict {} text.toList

/-- The text is groups of four letters, the last one padded, and these are their bytes. -/
inductive Spells : List Char → Bytes → Prop
  | nil : Spells [] []
  | group {c₁ c₂ c₃ c₄ : Char} {v₁ v₂ v₃ v₄ : Nat} {text : List Char} {b : Bytes} (h₁ : value c₁ = some v₁)
    (h₂ : value c₂ = some v₂) (h₃ : value c₃ = some v₃) (h₄ : value c₄ = some v₄) (h : Spells text b) :
    Spells (c₁ :: c₂ :: c₃ :: c₄ :: text) (firstByte v₁ v₂ :: secondByte v₂ v₃ :: thirdByte v₃ v₄ :: b)
  | three {c₁ c₂ c₃ : Char} {v₁ v₂ v₃ : Nat} (h₁ : value c₁ = some v₁) (h₂ : value c₂ = some v₂)
    (h₃ : value c₃ = some v₃) : Spells [c₁, c₂, c₃, '='] [firstByte v₁ v₂, secondByte v₂ v₃]
  | two {c₁ c₂ : Char} {v₁ v₂ : Nat} (h₁ : value c₁ = some v₁) (h₂ : value c₂ = some v₂) :
    Spells [c₁, c₂, '=', '='] [firstByte v₁ v₂]

/-! ### One character -/

private theorem value_pad : value '=' = none := by decide

private theorem ne_pad {c : Char} {v : Nat} (h : value c = some v) : c ≠ '=' := by
  rintro rfl
  rw [value_pad] at h
  cases h

private theorem scan_letter {strict : Bool} {s : Scan} {c : Char} {v : Nat} (h : value c = some v)
    (hpadded : s.paddingStarted = false) (rest : List Char) :
    scan strict s (c :: rest) = scan strict (s.letter v) rest := by
  rw [scan, if_neg (ne_pad h)]
  simp only [h, hpadded, Bool.false_eq_true, and_false, if_false]

/-- What the strict scan goes on with is a letter or padding. -/
private theorem scan_cases {s : Scan} {c : Char} {rest : List Char} {b : Bytes}
    (h : scan true s (c :: rest) = .ok b) :
    (∃ v, value c = some v ∧ s.paddingStarted = false ∧ scan true (s.letter v) rest = .ok b) ∨
    (c = '=' ∧ s.quadPos ≠ 0 ∧
      ((2 ≤ s.quadPos.val ∧ 4 ≤ s.quadPos.val + (s.pads + 1) ∧ rest = [] ∧ s.bytes = b) ∨
        ¬ (2 ≤ s.quadPos.val ∧ 4 ≤ s.quadPos.val + (s.pads + 1)) ∧ scan true
          { s with paddingStarted := true, pads := if 2 ≤ s.quadPos.val then s.pads + 1 else s.pads } rest = .ok b)) := by
  rw [scan] at h
  by_cases hpad : c = '='
  · rw [if_pos hpad] at h
    by_cases hzero : s.quadPos = 0
    · rw [if_pos ⟨rfl, hzero⟩] at h
      cases h
    · rw [if_neg (fun hboth => hzero hboth.2)] at h
      refine .inr ⟨hpad, hzero, ?_⟩
      split at h
      · rename_i hends
        split at h
        · cases h
        · rename_i hrest
          have hnil : rest = [] := by
            by_contra hne
            exact hrest ⟨rfl, hne⟩
          exact .inl ⟨hends.1, hends.2, hnil, Except.ok.inj h⟩
      · rename_i hgoes
        exact .inr ⟨hgoes, h⟩
  · rw [if_neg hpad] at h
    cases hvalue : value c with
    | none =>
      simp only [hvalue, if_true] at h
      cases h
    | some v =>
      simp only [hvalue, true_and] at h
      split at h
      · cases h
      · rename_i hpadded
        exact .inl ⟨v, rfl, by simpa using hpadded, h⟩

/-- Padding after one letter of a group is never made good. -/
private theorem scan_stuck {s : Scan} (hone : s.quadPos = 1) (hpadded : s.paddingStarted = true) (text : List Char)
    (b : Bytes) : scan true s text ≠ .ok b := by
  induction text generalizing s with
  | nil =>
    intro h
    simp only [scan, hone] at h
    cases h
  | cons c rest ih =>
    intro h
    rcases scan_cases h with ⟨v, -, hnot, -⟩ | ⟨-, -, ⟨htwo, -⟩ | ⟨-, h⟩⟩
    · rw [hpadded] at hnot
      cases hnot
    · rw [hone] at htwo
      cases htwo with
      | step htwo => cases htwo
    · exact ih (s := { s with paddingStarted := true, pads := if 2 ≤ s.quadPos.val then s.pads + 1 else s.pads }) hone rfl h

/-! ### The strict decoder -/

private theorem scan_of_spells {strict : Bool} {text : List Char} {b : Bytes} (h : Spells text b) (l p : Nat)
    (acc : Bytes) : scan strict ⟨0, l, p, false, acc⟩ text = .ok (acc ++ b) := by
  induction h generalizing l p acc with
  | nil => simp [scan]
  | group h₁ h₂ h₃ h₄ h ih =>
    rw [scan_letter h₁ rfl, scan_letter h₂ rfl, scan_letter h₃ rfl, scan_letter h₄ rfl]
    refine (ih _ _ _).trans ?_
    simp [Scan.letter]
  | three h₁ h₂ h₃ =>
    rw [scan_letter h₁ rfl, scan_letter h₂ rfl, scan_letter h₃ rfl]
    simp [Scan.letter, scan]
  | two h₁ h₂ =>
    rw [scan_letter h₁ rfl, scan_letter h₂ rfl]
    simp [Scan.letter, scan]

private theorem spells_of_scan (n : Nat) : ∀ {text : List Char}, text.length ≤ n → ∀ {l p : Nat} {acc b : Bytes},
    scan true ⟨0, l, p, false, acc⟩ text = .ok b → ∃ tail, b = acc ++ tail ∧ Spells text tail := by
  induction n with
  | zero =>
    intro text hlen l p acc b h
    obtain rfl : text = [] := List.length_eq_zero_iff.1 (by omega)
    simp only [scan, if_true, Except.ok.injEq] at h
    exact ⟨[], by simp [h], .nil⟩
  | succ n ih =>
    intro text hlen l p acc b h
    cases text with
    | nil =>
      simp only [scan, if_true, Except.ok.injEq] at h
      exact ⟨[], by simp [h], .nil⟩
    | cons c₁ text =>
      rcases scan_cases h with ⟨v₁, h₁, -, h⟩ | ⟨-, hzero, -⟩
      swap
      · exact absurd rfl hzero
      cases text with
      | nil => cases h
      | cons c₂ text =>
        rcases scan_cases h with ⟨v₂, h₂, -, h⟩ | ⟨-, -, ⟨htwo, -⟩ | ⟨-, h⟩⟩
        rotate_left
        · cases htwo with
          | step htwo => cases htwo
        · exact absurd h (scan_stuck rfl rfl _ _)
        cases text with
        | nil => cases h
        | cons c₃ text =>
          rcases scan_cases h with ⟨v₃, h₃, -, h⟩ | ⟨rfl, -, ⟨-, hfour, -⟩ | ⟨-, h⟩⟩
          rotate_left
          · exact absurd hfour (show ¬ 4 ≤ 2 + (0 + 1) by omega)
          · -- two letters and one padding: the next character completes the group
            cases text with
            | nil => cases h
            | cons c₄ text =>
              rcases scan_cases h with ⟨v, -, hnot, -⟩ | ⟨rfl, -, ⟨-, -, rfl, rfl⟩ | ⟨hgoes, -⟩⟩
              · cases hnot
              · exact ⟨[firstByte v₁ v₂], rfl, .two h₁ h₂⟩
              · exact absurd (show 2 ≤ 2 ∧ 4 ≤ 2 + (1 + 1) by omega) hgoes
          cases text with
          | nil => cases h
          | cons c₄ text =>
            rcases scan_cases h with ⟨v₄, h₄, -, h⟩ | ⟨rfl, -, ⟨-, -, rfl, rfl⟩ | ⟨hgoes, -⟩⟩
            · obtain ⟨tail, rfl, htail⟩ := ih (by simp only [List.length_cons] at hlen; omega) h
              exact ⟨_, by simp [Scan.letter], .group h₁ h₂ h₃ h₄ htail⟩
            · exact ⟨[firstByte v₁ v₂, secondByte v₂ v₃], by simp [Scan.letter], .three h₁ h₂ h₃⟩
            · exact absurd (show 2 ≤ 3 ∧ 4 ≤ 3 + (0 + 1) by omega) hgoes

private theorem ascii_of_value {c : Char} {v : Nat} (h : value c = some v) : c.toNat < 128 := by
  by_contra hge
  have hno : ∀ d : Char, d.toNat < 128 → ¬ c ≤ d := by
    intro d hd hle
    have : c.toNat ≤ d.toNat := hle
    omega
  unfold value at h
  split at h
  · exact hno 'Z' (by decide) (by tauto)
  · split at h
    · exact hno 'z' (by decide) (by tauto)
    · split at h
      · exact hno '9' (by decide) (by tauto)
      · split at h
        · rename_i heq
          subst heq
          exact hge (by decide)
        · split at h
          · rename_i heq
            subst heq
            exact hge (by decide)
          · cases h

private theorem ascii_of_spells {text : List Char} {b : Bytes} (h : Spells text b) : ∀ c ∈ text, c.toNat < 128 := by
  have hpad : '='.toNat < 128 := by decide
  induction h with
  | nil => simp
  | group h₁ h₂ h₃ h₄ h ih =>
    simp only [List.forall_mem_cons]
    exact ⟨ascii_of_value h₁, ascii_of_value h₂, ascii_of_value h₃, ascii_of_value h₄, ih⟩
  | three h₁ h₂ h₃ =>
    simp only [List.forall_mem_cons]
    exact ⟨ascii_of_value h₁, ascii_of_value h₂, ascii_of_value h₃, hpad, by simp⟩
  | two h₁ h₂ =>
    simp only [List.forall_mem_cons]
    exact ⟨ascii_of_value h₁, ascii_of_value h₂, hpad, hpad, by simp⟩

private theorem head_of_spells {text : List Char} {b : Bytes} (h : Spells text b) : text.head? ≠ some '=' := by
  cases h with
  | nil => nofun
  | group h₁ _ _ _ _ => simpa using ne_pad h₁
  | three h₁ _ _ => simpa using ne_pad h₁
  | two h₁ _ => simpa using ne_pad h₁

/-- A text that spells something is decoded, in both modes. -/
theorem decode_of_spells {strict : Bool} {text : String} {b : Bytes} (h : Spells text.toList b) :
    decode strict text = .ok b := by
  have hascii : text.toList.any (fun c => decide (128 ≤ c.toNat)) = false := by
    rw [List.any_eq_false]
    intro c hc
    have := ascii_of_spells h c hc
    simpa using this
  rw [decode, hascii, if_neg (by decide), if_neg (fun hboth => head_of_spells h hboth.2)]
  exact scan_of_spells h 0 0 []

/-- The strict decoder accepts what spells something, and nothing else. -/
theorem decode_strict_iff {text : String} {b : Bytes} : decode true text = .ok b ↔ Spells text.toList b := by
  refine ⟨?_, decode_of_spells⟩
  intro h
  unfold decode at h
  split at h
  · cases h
  · split at h
    · cases h
    · obtain ⟨tail, rfl, htail⟩ := spells_of_scan _ (Nat.le_refl _) h
      exact htail

/-! ### The round trip -/

private theorem value_base64Char {n : Nat} (h : n < 64) : value (base64Char n) = some n := by
  revert n
  decide

private theorem firstByte_eq (a : UInt8) (n : Nat) (h : n < 16) :
    firstByte (a.toNat / 4) (a.toNat % 4 * 16 + n) = a := by
  have ha := a.toNat_lt
  rw [firstByte, show a.toNat / 4 * 4 + (a.toNat % 4 * 16 + n) / 16 = a.toNat by omega, UInt8.ofNat_toNat]

private theorem secondByte_eq (k : Nat) (b : UInt8) (n : Nat) (h : n < 4) :
    secondByte (k * 16 + b.toNat / 16) (b.toNat % 16 * 4 + n) = b := by
  have hb := b.toNat_lt
  rw [secondByte, show (k * 16 + b.toNat / 16) % 16 * 16 + (b.toNat % 16 * 4 + n) / 4 = b.toNat by omega,
    UInt8.ofNat_toNat]

private theorem thirdByte_eq (k : Nat) (c : UInt8) : thirdByte (k * 4 + c.toNat / 64) (c.toNat % 64) = c := by
  have hc := c.toNat_lt
  rw [thirdByte, show (k * 4 + c.toNat / 64) % 4 * 64 + c.toNat % 64 = c.toNat by omega, UInt8.ofNat_toNat]

/-- The encoded text spells its bytes. -/
theorem spells_b64encode (b : Bytes) : Spells (b64encode b).toList b := by
  induction b using b64encode.induct with
  | case1 => exact .nil
  | case2 a =>
    have ha := a.toNat_lt
    rw [b64encode, String.toList_ofList]
    have hspells := Spells.two (value_base64Char (show a.toNat / 4 < 64 by omega))
      (value_base64Char (show a.toNat % 4 * 16 < 64 by omega))
    have hfirst := firstByte_eq a 0 (by omega)
    rw [Nat.add_zero] at hfirst
    rwa [hfirst] at hspells
  | case3 a b =>
    have ha := a.toNat_lt
    have hb := b.toNat_lt
    rw [b64encode, String.toList_ofList]
    have hspells := Spells.three (value_base64Char (show a.toNat / 4 < 64 by omega))
      (value_base64Char (show a.toNat % 4 * 16 + b.toNat / 16 < 64 by omega))
      (value_base64Char (show b.toNat % 16 * 4 < 64 by omega))
    have hsecond := secondByte_eq (a.toNat % 4) b 0 (by omega)
    rw [Nat.add_zero] at hsecond
    rwa [firstByte_eq a _ (by omega), hsecond] at hspells
  | case4 a b c rest ih =>
    have ha := a.toNat_lt
    have hb := b.toNat_lt
    have hc := c.toNat_lt
    rw [b64encode, String.toList_append, String.toList_ofList]
    have hspells := Spells.group (value_base64Char (show a.toNat / 4 < 64 by omega))
      (value_base64Char (show a.toNat % 4 * 16 + b.toNat / 16 < 64 by omega))
      (value_base64Char (show b.toNat % 16 * 4 + c.toNat / 64 < 64 by omega))
      (value_base64Char (show c.toNat % 64 < 64 by omega)) ih
    rwa [firstByte_eq a _ (by omega), secondByte_eq _ b _ (by omega), thirdByte_eq] at hspells

/-- What is encoded is decoded, in both modes. -/
theorem decode_b64encode (strict : Bool) (b : Bytes) : decode strict (b64encode b) = .ok b :=
  decode_of_spells (spells_b64encode b)

/-- Two texts of one byte. -/
example : decode true "QQ==" = .ok [65] ∧ decode true "QR==" = .ok [65] := by decide

end Base64

end CapsuleAnchor
