import CapsuleAnchor.Sha256
import CapsuleAnchor.Statement

/-!
# A concrete environment

`refEnv` gives every parameter of `Env` a definition that can be evaluated: the real SHA-256, the CBOR encoding of
RFC 8949, a signature that only the key holder's function produces, and tables for what `cbor2.loads` and
`json.loads` return on the inputs of a run.  Bytes outside the tables are not CBOR and not JSON.
-/

namespace CapsuleAnchor

/-- `hashlib.sha256`. -/
def hashlibSha256 (b : Bytes) : Digest := ⟨Sha256.digest b, Sha256.length_digest b⟩

/-- The initial bytes of a CBOR item: its major type and a number. -/
def cborHead (major n : Nat) : Bytes :=
  if n < 24 then [UInt8.ofNat (32 * major + n)]
  else if n < 256 then [UInt8.ofNat (32 * major + 24), UInt8.ofNat n]
  else if n < 65536 then [UInt8.ofNat (32 * major + 25), UInt8.ofNat (n / 256), UInt8.ofNat n]
  else UInt8.ofNat (32 * major + 26) :: Sha256.bytes4 n

private def utf8Char (c : Char) : Bytes :=
  if c.toNat < 128 then [UInt8.ofNat c.toNat]
  else if c.toNat < 2048 then [UInt8.ofNat (192 + c.toNat / 64), UInt8.ofNat (128 + c.toNat % 64)]
  else if c.toNat < 65536 then
    [UInt8.ofNat (224 + c.toNat / 4096), UInt8.ofNat (128 + c.toNat / 64 % 64), UInt8.ofNat (128 + c.toNat % 64)]
  else
    [UInt8.ofNat (240 + c.toNat / 262144), UInt8.ofNat (128 + c.toNat / 4096 % 64),
      UInt8.ofNat (128 + c.toNat / 64 % 64), UInt8.ofNat (128 + c.toNat % 64)]

/-- `cbor2.dumps` of an item that holds no `other`, with numbers below `2 ^ 32`. -/
def cborEncode : Cbor → Bytes
  | .int (.ofNat n) => cborHead 0 n
  | .int (.negSucc n) => cborHead 1 n
  | .bytes b => cborHead 2 b.length ++ b
  | .text s => cborHead 3 (s.toList.flatMap utf8Char).length ++ s.toList.flatMap utf8Char
  | .array xs => cborHead 4 xs.length ++ items xs
  | .map kvs => cborHead 5 kvs.length ++ pairs kvs
  | .tag n v => cborHead 6 n ++ cborEncode v
  | .bool b => [if b then 245 else 244]
  | .null => [246]
  | .other => [247]
where
  items : List Cbor → Bytes
    | [] => []
    | x :: xs => cborEncode x ++ items xs
  pairs : List (Cbor × Cbor) → Bytes
    | [] => []
    | (k, v) :: kvs => cborEncode k ++ cborEncode v ++ pairs kvs

/-- What only the holder of the key computes. -/
def refSign (payload : Bytes) : Bytes :=
  (hashlibSha256 (107 :: payload)).bytes ++ (hashlibSha256 (107 :: payload)).bytes

def refEnv (cbor : List (Bytes × Cbor)) (json : List (Bytes × Json))
    (verifyConsistency : Digest → Nat → Digest → Nat → MmrConsistencyProof → Bool) : Env where
  sha256 := hashlibSha256
  sign := refSign
  verify payload sig := sig.signature == refSign payload
  keyId := "56475aa75463474c"
  cborLoads b := cbor.lookup b
  cborDumps := cborEncode
  jsonLoads b := match json.lookup b with
    | some v => .ok v
    | none => .error .jsonDecodeError
  decodeReplace b := String.ofList (b.map Char.ofUInt8)
  repr s := "'" ++ s ++ "'"
  verifyConsistency := verifyConsistency
  tsaTimestamp _ := none
  tsEpochUs t := t.epochUs

/-- Bytes outside the tables decode to nothing, so no string of the tables is longer than its encoding. -/
theorem cborBounded_refEnv (json : List (Bytes × Json))
    (verifyConsistency : Digest → Nat → Digest → Nat → MmrConsistencyProof → Bool) :
    CborBounded (refEnv [] json verifyConsistency) := by
  intro data n items b h
  cases h

theorem jsonBounded_refEnv (cbor : List (Bytes × Cbor))
    (verifyConsistency : Digest → Nat → Digest → Nat → MmrConsistencyProof → Bool) :
    JsonBounded (refEnv cbor [] verifyConsistency) := by
  intro text obj key s h
  cases h

theorem pos_four : 0 < 4 := by decide

theorem pos_seven : 0 < 7 := by decide

theorem four_lt_seven : 4 < 7 := by decide

/-- A native checkpoint that starts at size 0 and proves nothing; its root has `fill` in every byte. -/
def refCheckpoint (mmrSize : Nat) (fill : UInt8) (h : 0 < mmrSize) : Checkpoint where
  v := 1
  kind := "mmr_checkpoint"
  logId := "log"
  mmrSize := mmrSize
  root := filledDigest fill
  prevSize := 0
  prevRoot := none
  keyId := "key"
  timestamp := "2026-01-01T00:00:00Z"
  grade := none
  consistencyProof := some none
  prevSize_lt := h

/-- The COSE_Sign1 over `statement` with these bytes for its unprotected header, and an empty signature. -/
def refEnvelope (header : Bytes) : Bytes := [210, 132, 67, 161, 1, 39] ++ header ++ 73 :: (ascii "statement" ++ [64])

theorem length_refEnvelope (header : Bytes) : (refEnvelope header).length = header.length + 17 := by
  simp only [refEnvelope, List.length_append, List.length_cons]
  rw [show (ascii "statement").length = 9 from rfl]
  simp only [List.length_nil]
  omega

private def refAct (unprotected : List (Cbor × Cbor)) : Cbor :=
  .tag 18 (.array [.bytes [161, 1, 39], .map unprotected, .bytes (ascii "statement"), .bytes []])

/-- An unprotected header of 64 KiB. -/
def refOversizedHeader : Bytes := [161, 99, 112, 97, 100, 90, 0, 1, 0, 0] ++ List.replicate 65536 0

theorem length_refOversizedHeader : refOversizedHeader.length = 65546 := by
  rw [refOversizedHeader, List.length_append, List.length_replicate]
  rfl

/-- `cbor2.loads` on three twins and on their protected header. -/
def refActs : List (Bytes × Cbor) :=
  [(refEnvelope refOversizedHeader, refAct [(.text "pad", .bytes (List.replicate 65536 0))]),
    (refEnvelope [160], refAct []), (refEnvelope [161, 97, 120, 1], refAct [(.text "x", .int 1)]),
    ([161, 1, 39], .map [(.int 1, .int (-8))])]

def refActEnv : Env := refEnv refActs [] fun _ _ _ _ _ => true

theorem cborLoads_refActEnv (b : Bytes) : refActEnv.cborLoads b = refActs.lookup b := rfl

theorem decode_refEnvelope {header : Bytes}
    (h : header = refOversizedHeader ∨ header = [160] ∨ header = [161, 97, 120, 1]) :
    ∃ unprotected, decodeCoseSign1 refActEnv (refEnvelope header) =
      some ⟨[161, 1, 39], unprotected, some (ascii "statement"), []⟩ := by
  rcases h with rfl | rfl | rfl
  · have hloads : refActEnv.cborLoads (refEnvelope refOversizedHeader) =
        some (refAct [(.text "pad", .bytes (List.replicate 65536 0))]) := by
      rw [cborLoads_refActEnv, refActs, List.lookup_cons_self]
    refine ⟨[(.text "pad", .bytes (List.replicate 65536 0))], ?_⟩
    rw [decodeCoseSign1, hloads]
    rfl
  · exact ⟨[], rfl⟩
  · exact ⟨[(.text "x", .int 1)], rfl⟩

/-- The three strings that the twins are hashed over have different hashes. -/
theorem refHashes_nodup : ([refEnvelope [160], refEnvelope [161, 97, 120, 1],
    sigStructure refActEnv [161, 1, 39] (ascii "statement")].map refActEnv.sha256).Nodup := by
  decide +kernel

theorem injOn_of_nodup {f : Bytes → Digest} {l : List Bytes} (h : (l.map f).Nodup) {s : Set Bytes}
    (hs : ∀ x ∈ s, x ∈ l) : Set.InjOn f s := by
  intro x hx y hy hxy
  exact List.inj_on_of_nodup_map h (hs x hx) (hs y hy) hxy

/-! ### A declared checkpoint -/

/-- A COSE_Sign1 over `payload`, with an empty protected header. -/
def statementOver (payload : Bytes) : Cbor :=
  .tag 18 (.array [.bytes [160], .map [], .bytes payload, .bytes (List.replicate 64 1)])

theorem length_statementOver (payload : Bytes) : payload.length + 64 ≤ (cborEncode (statementOver payload)).length := by
  simp only [statementOver, cborEncode, cborEncode.items, List.length_append, List.length_replicate]
  omega

def refDeclaredObject : List (String × Json) :=
  [("artifact_type", .str "mmr-checkpoint"), ("log_id", .str "log"), ("key_id", .str "key"),
    ("mmr_root", .str (String.ofList (List.replicate 64 '0'))), ("mmr_size", .int 9), ("prev_size", .int 5),
    ("timestamp", .str "2026-01-01T00:00:00Z")]

/-- The JSON text of `refDeclaredObject`. -/
def refDeclaredText : Bytes :=
  ascii ("\x7b\"artifact_type\":\"mmr-checkpoint\",\"log_id\":\"log\",\"key_id\":\"key\",\"mmr_root\":\"" ++
    String.ofList (List.replicate 64 '0') ++
    "\",\"mmr_size\":9,\"prev_size\":5,\"timestamp\":\"2026-01-01T00:00:00Z\"\x7d")

def refDeclaredStatement : Bytes := cborEncode (statementOver refDeclaredText)

def refDeclaredFields : CheckpointFields where
  logId := "log"
  keyId := "key"
  mmrRoot := filledDigest 0
  mmrSize := 9
  prevSize := 5
  timestamp := "2026-01-01T00:00:00Z"

/-- `cbor2.loads` and `json.loads` on the statement and on its payload. -/
def refDeclaredEnv : Env :=
  refEnv [(refDeclaredStatement, statementOver refDeclaredText)] [(refDeclaredText, .obj refDeclaredObject)]
    fun _ _ _ _ _ => true

theorem cborLoads_refDeclaredEnv (b : Bytes) :
    refDeclaredEnv.cborLoads b = if b = refDeclaredStatement then some (statementOver refDeclaredText) else none := by
  change List.lookup b _ = _
  by_cases h : b = refDeclaredStatement
  · rw [if_pos h, h, List.lookup_cons_self]
  · rw [if_neg h, List.lookup_cons, beq_false_of_ne h]
    rfl

theorem jsonLoads_refDeclaredEnv (b : Bytes) :
    refDeclaredEnv.jsonLoads b = if b = refDeclaredText then .ok (.obj refDeclaredObject) else .error .jsonDecodeError := by
  simp only [refDeclaredEnv, refEnv]
  by_cases h : b = refDeclaredText
  · rw [if_pos h, h, List.lookup_cons_self]
  · rw [if_neg h, List.lookup_cons, beq_false_of_ne h]
    rfl

theorem cborBounded_refDeclaredEnv : CborBounded refDeclaredEnv := by
  intro data n items b hloads hb
  rw [cborLoads_refDeclaredEnv] at hloads
  split at hloads
  · rename_i hdata
    obtain ⟨-, hitems⟩ := Cbor.tag.inj (Option.some.inj hloads)
    obtain rfl := Cbor.array.inj hitems
    have hlength : refDeclaredText.length + 64 ≤ data.length := by
      rw [hdata]
      exact length_statementOver refDeclaredText
    have hshort : b = [160] ∨ b = refDeclaredText ∨ b = List.replicate 64 1 := by
      simpa only [List.mem_cons, Cbor.bytes.injEq, reduceCtorEq, false_or, List.not_mem_nil, or_false] using hb
    rcases hshort with hb | hb | hb
    · rw [hb, List.length_singleton]
      omega
    · rw [hb]
      omega
    · rw [hb, List.length_replicate]
      omega
  · cases hloads

theorem jsonBounded_refDeclaredEnv : JsonBounded refDeclaredEnv := by
  intro text obj key s hloads hget
  rw [jsonLoads_refDeclaredEnv] at hloads
  split at hloads
  · rename_i htext
    obtain rfl := Json.obj.inj (Except.ok.inj hloads)
    obtain ⟨⟨k, v⟩, hmem, hfound⟩ := List.exists_of_findSome?_eq_some hget
    have hv : v = .str s := by
      simp only at hfound
      split at hfound
      · exact Option.some.inj hfound
      · cases hfound
    have hlength : 64 ≤ text.length := by
      rw [htext]
      decide +kernel
    have hshort : s.length ≤ 64 := by
      subst hv
      simp only [refDeclaredObject, List.mem_cons, Prod.mk.injEq, Json.str.injEq, reduceCtorEq, and_false, false_or,
        List.not_mem_nil, or_false] at hmem
      rcases hmem with ⟨-, rfl⟩ | ⟨-, rfl⟩ | ⟨-, rfl⟩ | ⟨-, rfl⟩ | ⟨-, rfl⟩ <;> decide
    exact le_trans hshort hlength
  · cases hloads

theorem decode_refDeclaredStatement : decodeCoseSign1 refDeclaredEnv refDeclaredStatement =
    some ⟨[160], [], some refDeclaredText, List.replicate 64 1⟩ := by
  rw [decodeCoseSign1, cborLoads_refDeclaredEnv, if_pos rfl]
  rfl

/-- The 32 bytes of a digest are no statement. -/
theorem decode_digest_refDeclaredEnv (d : Digest) : decodeCoseSign1 refDeclaredEnv d.bytes = none := by
  have hne : d.bytes ≠ refDeclaredStatement := by
    intro h
    have hlength : refDeclaredStatement.length ≠ 32 := by decide +kernel
    exact hlength (by rw [← h, d.length_bytes])
  rw [decodeCoseSign1, cborLoads_refDeclaredEnv, if_neg hne]

theorem prepare_refDeclaredStatement (policy : EmbeddedPayloadPolicy) :
    ∃ sub, prepare refDeclaredEnv policy refDeclaredStatement = .ok sub ∧ sub.checkpointFields = some refDeclaredFields ∧
      sub.scheme = .sigStructure ∧
      sub.entryHash = refDeclaredEnv.sha256 (sigStructure refDeclaredEnv [160] refDeclaredText) ∧
      sub.legacyHash = refDeclaredEnv.sha256 refDeclaredStatement := by
  have hparse : parseCheckpointPayload refDeclaredEnv (some refDeclaredText) = .ok (some refDeclaredFields) := by
    simp only [parseCheckpointPayload, jsonLoads_refDeclaredEnv, if_true]
    rfl
  exact prepare_statement refDeclaredEnv policy decode_refDeclaredStatement (by decide +kernel) hparse

end CapsuleAnchor
