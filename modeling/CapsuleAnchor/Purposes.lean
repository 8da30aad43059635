import CapsuleAnchor.JsonValue
import CapsuleAnchor.Reference

/-!
# What the authority key signs

One key signs for six purposes: a root, the head of the hash chain, a tree head (the canonical objects of
`anchoring/service.py`), a COSE Receipt, a DSSE envelope for the public log and a countersignature entry.  Each string that
is signed starts with bytes of its purpose, so the purposes never share a string (`purposes_separate`).

The canonical objects determine their integers and, in UTF-16, their strings.  Two strings with the same UTF-16 are equal
when they hold no surrogates; a pair of surrogates and the character it stands for are signed alike
(`countersignPayload_not_injective`).
-/

namespace CapsuleAnchor

/-! ### The strings -/

namespace Purposes

def countersignPayload (tenantId rootHash : Text) (seqRange : Int × Int) (attestedAt : Text) : Bytes :=
  canonicalText [("tenant_id", .str tenantId), ("root_hash", .str rootHash), ("seq_from", .int seqRange.1),
    ("seq_to", .int seqRange.2), ("attested_at", .str attestedAt)]

def treeHeadPayload (logIndex : Int) (payloadHash : Text) (prevLogHash : Option Text) : Bytes :=
  canonicalText [("log_index", .int logIndex), ("payload_hash", .str payloadHash),
    ("prev_log_hash", .optStr prevLogHash)]

def sthPayload (treeSize : Int) (rootHash timestamp : Text) : Bytes :=
  canonicalText [("tree_size", .int treeSize), ("root_hash", .str rootHash), ("timestamp", .str timestamp)]

/-- The strings of the service are such strings. -/
theorem countersignPayload_text (tenantId rootHash : String) (seqRange : Int × Int) (attestedAt : Datetime) :
    CapsuleAnchor.countersignPayload tenantId rootHash seqRange attestedAt =
      countersignPayload (text tenantId) (text rootHash) seqRange (text attestedAt.isoformat) :=
  (canonicalText_text _).symm

theorem treeHeadPayload_text (logIndex : Int) (payloadHash : Digest) (prevLogHash : Option String) :
    CapsuleAnchor.treeHeadPayload logIndex payloadHash prevLogHash =
      treeHeadPayload logIndex (text payloadHash.hex) (prevLogHash.map text) := by
  rw [CapsuleAnchor.treeHeadPayload, ← canonicalText_text]
  simp only [List.map_cons, List.map_nil, Scalar.text_optStr]
  rfl

theorem sthPayload_text (treeSize : Nat) (rootHash : Digest) (timestamp : Datetime) :
    CapsuleAnchor.sthPayload treeSize rootHash timestamp =
      sthPayload treeSize (text rootHash.hex) (text timestamp.isoformat) :=
  (canonicalText_text _).symm

end Purposes

/-- `str.encode("utf-8")`; a surrogate cannot be encoded. -/
def Text.encodeUtf8 (t : Text) : Option Bytes :=
  t.foldr (fun c rest => do
    let n := c.val
    let bytes ←
      if n < 128 then some [UInt8.ofNat n]
      else if n < 2048 then some [UInt8.ofNat (192 + n / 64), UInt8.ofNat (128 + n % 64)]
      else if 55296 ≤ n ∧ n < 57344 then none
      else if n < 65536 then
        some [UInt8.ofNat (224 + n / 4096), UInt8.ofNat (128 + n / 64 % 64), UInt8.ofNat (128 + n % 64)]
      else some [UInt8.ofNat (240 + n / 262144), UInt8.ofNat (128 + n / 4096 % 64), UInt8.ofNat (128 + n / 64 % 64),
        UInt8.ofNat (128 + n % 64)]
    return bytes ++ (← rest)) (some [])

/-- DSSE v1 pre-authentication encoding. -/
def dssePae (payloadType : Text) (payload : Bytes) : Option Bytes := do
  let t ← payloadType.encodeUtf8
  return ascii "DSSEv1 " ++ (Scalar.int t.length).dumps ++ 32 :: t ++ 32 :: (Scalar.int payload.length).dumps ++
    32 :: payload

def sthPayloadType : String := "application/vnd.capsule-anchor.sth+json"

/-- The bytes a `countersign/v1` signature covers, or how `jcs` fails. -/
def countersignSigningInput {β : Type} (jcs : JsonValue → β) (over' : Text) (signer statement entryType : JsonValue) : β :=
  jcs (.obj [(text "over", .str over'), (text "signer", signer), (text "statement", statement),
    (text "type", entryType)])

/-- RFC 8949: an array of fewer than 24 items is one byte for its length and its items. -/
def CborArrays (E : Env) : Prop :=
  ∀ xs : List Cbor, xs.length < 24 → E.cborDumps (.array xs) = UInt8.ofNat (128 + xs.length) :: xs.flatMap E.cborDumps

/-! ### Their first bytes -/

/-- Sets whose elements start with prefixes that do not extend each other are disjoint. -/
theorem disjoint_of_prefixes {A B : Set Bytes} {p q : Bytes} (hA : ∀ b ∈ A, p <+: b) (hB : ∀ b ∈ B, q <+: b)
    (hpq : ¬ p <+: q) (hqp : ¬ q <+: p) : Disjoint A B := by
  rw [Set.disjoint_left]
  intro b hbA hbB
  rcases List.prefix_or_prefix_of_prefix (hA b hbA) (hB b hbB) with h | h
  · exact hpq h
  · exact hqp h

theorem pairwise_disjoint_of_prefixes {ps : List Bytes} {As : List (Set Bytes)}
    (htags : List.Forall₂ (fun p A => ∀ b ∈ A, p <+: b) ps As) (hps : ps.Pairwise fun p q => ¬ p <+: q ∧ ¬ q <+: p) :
    As.Pairwise Disjoint := by
  induction htags with
  | nil => exact .nil
  | @cons p A ps As hA hAs ih =>
    rw [List.pairwise_cons] at hps
    refine .cons ?_ (ih hps.2)
    intro B hB
    obtain ⟨q, hq, hqB⟩ : ∃ q ∈ ps, ∀ b ∈ B, q <+: b := by
      clear ih hps
      induction hAs with
      | nil => cases hB
      | cons hq _ ih =>
        rcases List.mem_cons.1 hB with rfl | hB
        · exact ⟨_, List.mem_cons_self, hq⟩
        · obtain ⟨q, hqs, hqB⟩ := ih hB
          exact ⟨q, List.mem_cons_of_mem _ hqs, hqB⟩
    exact disjoint_of_prefixes hA hqB (hps.1 q hq).1 (hps.1 q hq).2

private theorem canonicalText_prefix {obj : List (String × TextScalar)} {f : String × TextScalar}
    {l : List (String × TextScalar)} (hsorted : obj.insertionSort textKeyLE = f :: l) :
    123 :: (dumpsStr f.1 ++ [58]) <+: canonicalText obj := by
  rw [canonicalText, hsorted]
  cases l with
  | nil => exact ⟨f.2.dumps ++ [125], by simp [dumpsTextFields, dumpsTextField]⟩
  | cons g l => exact ⟨f.2.dumps ++ 44 :: dumpsTextFields (g :: l), by simp [dumpsTextFields, dumpsTextField]⟩

/-! ### The six purposes -/

def countersignPayloads : Set Bytes :=
  {b | ∃ tenantId rootHash seqRange attestedAt, b = Purposes.countersignPayload tenantId rootHash seqRange attestedAt}

def treeHeadPayloads : Set Bytes :=
  {b | ∃ logIndex payloadHash prevLogHash, b = Purposes.treeHeadPayload logIndex payloadHash prevLogHash}

def sthPayloads : Set Bytes := {b | ∃ treeSize rootHash timestamp, b = Purposes.sthPayload treeSize rootHash timestamp}

def sigStructures (E : Env) : Set Bytes := {b | ∃ protectedBstr root, b = sigStructure E protectedBstr root}

def dssePaes : Set Bytes := {b | ∃ payloadType payload, dssePae payloadType payload = some b}

def countersignSigningInputs (jcs : JsonValue → Option Bytes) : Set Bytes :=
  {b | ∃ over' signer statement entryType, countersignSigningInput jcs over' signer statement entryType = some b}

/-- What the authority key signs, by purpose. -/
def signedStrings (E : Env) (jcs : JsonValue → Option Bytes) : List (Set Bytes) :=
  [countersignPayloads, treeHeadPayloads, sthPayloads, sigStructures E, dssePaes, countersignSigningInputs jcs]

private def tags : List Bytes :=
  [123 :: (dumpsStr "attested_at" ++ [58]), 123 :: (dumpsStr "log_index" ++ [58]), 123 :: (dumpsStr "root_hash" ++ [58]),
    [132], ascii "DSSEv1 ", 123 :: ((text "over").quoted ++ [58])]

private theorem tags_pairwise : tags.Pairwise fun p q => ¬ p <+: q ∧ ¬ q <+: p := by
  decide

private theorem countersignPayloads_prefix {b : Bytes} (h : b ∈ countersignPayloads) :
    123 :: (dumpsStr "attested_at" ++ [58]) <+: b := by
  obtain ⟨tenantId, rootHash, seqRange, attestedAt, rfl⟩ := h
  refine canonicalText_prefix (f := ("attested_at", .str attestedAt)) (l := [("root_hash", .str rootHash),
    ("seq_from", .int seqRange.1), ("seq_to", .int seqRange.2), ("tenant_id", .str tenantId)]) ?_
  simp [List.insertionSort, List.orderedInsert, textKeyLE]

private theorem treeHeadPayloads_prefix {b : Bytes} (h : b ∈ treeHeadPayloads) :
    123 :: (dumpsStr "log_index" ++ [58]) <+: b := by
  obtain ⟨logIndex, payloadHash, prevLogHash, rfl⟩ := h
  refine canonicalText_prefix (f := ("log_index", .int logIndex)) (l := [("payload_hash", .str payloadHash),
    ("prev_log_hash", .optStr prevLogHash)]) ?_
  simp [List.insertionSort, textKeyLE]

private theorem sthPayloads_prefix {b : Bytes} (h : b ∈ sthPayloads) :
    123 :: (dumpsStr "root_hash" ++ [58]) <+: b := by
  obtain ⟨treeSize, rootHash, timestamp, rfl⟩ := h
  refine canonicalText_prefix (f := ("root_hash", .str rootHash)) (l := [("timestamp", .str timestamp),
    ("tree_size", .int treeSize)]) ?_
  simp [List.insertionSort, List.orderedInsert, textKeyLE]

private theorem sigStructures_prefix {E : Env} (hcbor : CborArrays E) {b : Bytes} (h : b ∈ sigStructures E) :
    [132] <+: b := by
  obtain ⟨protectedBstr, root, rfl⟩ := h
  have hlen : [Cbor.text "Signature1", .bytes protectedBstr, .bytes [], .bytes root].length < 24 := by simp
  rw [sigStructure, hcbor _ hlen]
  exact ⟨_, rfl⟩

private theorem dssePaes_prefix {b : Bytes} (h : b ∈ dssePaes) : ascii "DSSEv1 " <+: b := by
  obtain ⟨payloadType, payload, hb⟩ := h
  unfold dssePae at hb
  cases htype : payloadType.encodeUtf8 with
  | none => simp [htype] at hb
  | some t =>
    simp only [htype, Option.bind_eq_bind, Option.bind_some, Option.pure_def, Option.some.injEq] at hb
    rw [← hb, List.append_assoc, List.append_assoc, List.append_assoc]
    exact ⟨_, rfl⟩

/-- The members of a signing input are given in the order of their names. -/
private theorem signingInput_sorted (over' signer statement entryType : JsonValue) :
    [(text "over", over'), (text "signer", signer), (text "statement", statement),
      (text "type", entryType)].insertionSort memberLE =
      [(text "over", over'), (text "signer", signer), (text "statement", statement), (text "type", entryType)] := by
  have hover : (text "over").utf16 ≤ (text "signer").utf16 := by decide +kernel
  have hsigner : (text "signer").utf16 ≤ (text "statement").utf16 := by decide +kernel
  have hstatement : (text "statement").utf16 ≤ (text "type").utf16 := by decide +kernel
  simp only [List.insertionSort, List.foldr_cons, List.foldr_nil, List.orderedInsert_nil, List.orderedInsert_cons,
    memberLE, if_pos hover, if_pos hsigner, if_pos hstatement]

private theorem countersignSigningInputs_prefix {jcs : JsonValue → Option Bytes} (hjcs : Rfc8785 jcs) {b : Bytes}
    (h : b ∈ countersignSigningInputs jcs) : 123 :: ((text "over").quoted ++ [58]) <+: b := by
  obtain ⟨over', signer, statement, entryType, hb⟩ := h
  exact hjcs.object_prefix hb (signingInput_sorted _ _ _ _) (show (text "over").Plain by decide)

/-! ### What a string determines -/

private theorem TextScalar.same_optStr {u v : Option Text} :
    (TextScalar.optStr u).Same (TextScalar.optStr v) ↔ u.map Text.utf16 = v.map Text.utf16 := by
  cases u <;> cases v <;> simp [TextScalar.optStr, TextScalar.Same]

theorem countersignPayload_eq_iff {tenantId tenantId' rootHash rootHash' attestedAt attestedAt' : Text}
    {seqRange seqRange' : Int × Int} :
    Purposes.countersignPayload tenantId rootHash seqRange attestedAt =
        Purposes.countersignPayload tenantId' rootHash' seqRange' attestedAt' ↔
      tenantId.utf16 = tenantId'.utf16 ∧ rootHash.utf16 = rootHash'.utf16 ∧ seqRange = seqRange' ∧
        attestedAt.utf16 = attestedAt'.utf16 := by
  constructor
  · intro h
    have htenant := canonicalText_mem h (f := ("tenant_id", .str tenantId)) (by simp)
    have hroot := canonicalText_mem h (f := ("root_hash", .str rootHash)) (by simp)
    have hfrom := canonicalText_mem h (f := ("seq_from", .int seqRange.1)) (by simp)
    have hto := canonicalText_mem h (f := ("seq_to", .int seqRange.2)) (by simp)
    have htime := canonicalText_mem h (f := ("attested_at", .str attestedAt)) (by simp)
    simp [SameField, TextScalar.Same] at htenant hroot hfrom hto htime
    exact ⟨htenant, hroot, Prod.ext hfrom hto, htime⟩
  · rintro ⟨htenant, hroot, rfl, htime⟩
    refine canonicalText_congr (.cons ⟨rfl, htenant⟩ (.cons ⟨rfl, hroot⟩ (.cons ⟨rfl, rfl⟩ (.cons ⟨rfl, rfl⟩
      (.cons ⟨rfl, htime⟩ .nil)))))

theorem treeHeadPayload_eq_iff {logIndex logIndex' : Int} {payloadHash payloadHash' : Text}
    {prevLogHash prevLogHash' : Option Text} :
    Purposes.treeHeadPayload logIndex payloadHash prevLogHash =
        Purposes.treeHeadPayload logIndex' payloadHash' prevLogHash' ↔
      logIndex = logIndex' ∧ payloadHash.utf16 = payloadHash'.utf16 ∧
        prevLogHash.map Text.utf16 = prevLogHash'.map Text.utf16 := by
  constructor
  · intro h
    have hindex := canonicalText_mem h (f := ("log_index", .int logIndex)) (by simp)
    have hpayload := canonicalText_mem h (f := ("payload_hash", .str payloadHash)) (by simp)
    have hprev := canonicalText_mem h (f := ("prev_log_hash", .optStr prevLogHash)) (by simp)
    simp [SameField, TextScalar.same_optStr] at hprev
    simp [SameField, TextScalar.Same] at hindex hpayload
    exact ⟨hindex, hpayload, hprev⟩
  · rintro ⟨rfl, hpayload, hprev⟩
    exact canonicalText_congr (.cons ⟨rfl, rfl⟩ (.cons ⟨rfl, hpayload⟩
      (.cons ⟨rfl, TextScalar.same_optStr.2 hprev⟩ .nil)))

theorem sthPayload_eq_iff {treeSize treeSize' : Int} {rootHash rootHash' timestamp timestamp' : Text} :
    Purposes.sthPayload treeSize rootHash timestamp = Purposes.sthPayload treeSize' rootHash' timestamp' ↔
      treeSize = treeSize' ∧ rootHash.utf16 = rootHash'.utf16 ∧ timestamp.utf16 = timestamp'.utf16 := by
  constructor
  · intro h
    have hsize := canonicalText_mem h (f := ("tree_size", .int treeSize)) (by simp)
    have hroot := canonicalText_mem h (f := ("root_hash", .str rootHash)) (by simp)
    have htime := canonicalText_mem h (f := ("timestamp", .str timestamp)) (by simp)
    simp [SameField, TextScalar.Same] at hsize hroot htime
    exact ⟨hsize, hroot, htime⟩
  · rintro ⟨rfl, hroot, htime⟩
    exact canonicalText_congr (.cons ⟨rfl, rfl⟩ (.cons ⟨rfl, hroot⟩ (.cons ⟨rfl, htime⟩ .nil)))

/-- The tenants `U+D83D U+DE00` and `U+1F600` are different strings and are countersigned alike. -/
theorem countersignPayload_not_injective : ¬ ∀ (tenantId tenantId' rootHash rootHash' attestedAt attestedAt' : Text)
    (seqRange seqRange' : Int × Int), Purposes.countersignPayload tenantId rootHash seqRange attestedAt =
      Purposes.countersignPayload tenantId' rootHash' seqRange' attestedAt' →
    (tenantId, rootHash, seqRange, attestedAt) = (tenantId', rootHash', seqRange', attestedAt') := by
  intro h
  have hequal := h [0xD83D, 0xDE00] [0x1F600] [] [] [] [] (0, 0) (0, 0)
    (countersignPayload_eq_iff.2 ⟨by decide, rfl, rfl, rfl⟩)
  exact absurd (congrArg Prod.fst hequal) (by decide)

/-- No string is signed for two purposes; the canonical objects determine their integers and, in UTF-16, their strings,
which fixes every string without surrogates. -/
theorem purposes_separate (E : Env) (jcs : JsonValue → Option Bytes) (hcbor : CborArrays E) (hjcs : Rfc8785 jcs) :
    (signedStrings E jcs).Pairwise Disjoint ∧
    (∀ (tenantId tenantId' rootHash rootHash' attestedAt attestedAt' : Text) (seqRange seqRange' : Int × Int),
      Purposes.countersignPayload tenantId rootHash seqRange attestedAt =
          Purposes.countersignPayload tenantId' rootHash' seqRange' attestedAt' ↔
        tenantId.utf16 = tenantId'.utf16 ∧ rootHash.utf16 = rootHash'.utf16 ∧ seqRange = seqRange' ∧
          attestedAt.utf16 = attestedAt'.utf16) ∧
    (∀ (logIndex logIndex' : Int) (payloadHash payloadHash' : Text) (prevLogHash prevLogHash' : Option Text),
      Purposes.treeHeadPayload logIndex payloadHash prevLogHash =
          Purposes.treeHeadPayload logIndex' payloadHash' prevLogHash' ↔
        logIndex = logIndex' ∧ payloadHash.utf16 = payloadHash'.utf16 ∧
          prevLogHash.map Text.utf16 = prevLogHash'.map Text.utf16) ∧
    (∀ (treeSize treeSize' : Int) (rootHash rootHash' timestamp timestamp' : Text),
      Purposes.sthPayload treeSize rootHash timestamp = Purposes.sthPayload treeSize' rootHash' timestamp' ↔
        treeSize = treeSize' ∧ rootHash.utf16 = rootHash'.utf16 ∧ timestamp.utf16 = timestamp'.utf16) ∧
    (∀ s t : Text, s.Scalar → t.Scalar → (s.utf16 = t.utf16 ↔ s = t)) := by
  refine ⟨?_, fun _ _ _ _ _ _ _ _ => countersignPayload_eq_iff, fun _ _ _ _ _ _ => treeHeadPayload_eq_iff,
    fun _ _ _ _ _ _ => sthPayload_eq_iff, fun s t hs ht => ⟨Text.utf16_inj hs ht, congrArg Text.utf16⟩⟩
  have htags : List.Forall₂ (fun p A => ∀ b ∈ A, p <+: b) tags (signedStrings E jcs) :=
    .cons (fun _ => countersignPayloads_prefix) (.cons (fun _ => treeHeadPayloads_prefix)
      (.cons (fun _ => sthPayloads_prefix) (.cons (fun _ => sigStructures_prefix hcbor)
        (.cons (fun _ => dssePaes_prefix) (.cons (fun _ => countersignSigningInputs_prefix hjcs) .nil)))))
  exact pairwise_disjoint_of_prefixes htags tags_pairwise

/-! ### A concrete serialisation -/

theorem cborArrays_refEnv (cbor : List (Bytes × Cbor)) (json : List (Bytes × Json))
    (verifyConsistency : Digest → Nat → Digest → Nat → MmrConsistencyProof → Bool) :
    CborArrays (refEnv cbor json verifyConsistency) := by
  intro xs hxs
  have hitems : ∀ xs : List Cbor, cborEncode.items xs = xs.flatMap cborEncode := by
    intro xs
    induction xs with
    | nil => rfl
    | cons x xs ih => rw [cborEncode.items, ih, List.flatMap_cons]
  change cborEncode (.array xs) = _
  rw [cborEncode, cborHead, if_pos hxs, hitems]
  rfl

/-- RFC 8785 for plain strings, the empty object and the signing inputs over them. -/
private def sampleJcs : JsonValue → Option Bytes
  | .str s => if s.Plain then some s.quoted else none
  | .obj [] => some ([123, 125])
  | .obj [(over', .str digest), (signer, .obj []), (statement, .obj []), (type, .str entryType)] =>
    if over' = text "over" ∧ signer = text "signer" ∧ statement = text "statement" ∧ type = text "type" ∧ digest.Plain ∧
      entryType.Plain
    then some (123 :: (List.intercalate [44] [over'.quoted ++ 58 :: digest.quoted, signer.quoted ++ 58 :: [123, 125],
      statement.quoted ++ 58 :: [123, 125], type.quoted ++ 58 :: entryType.quoted] ++ [125]))
    else none
  | _ => none

private theorem rfc8785_sampleJcs : Rfc8785 sampleJcs where
  string s hs := by rw [sampleJcs, if_pos hs]
  object members bytes h := by
    unfold sampleJcs at h
    split at h
    · rename_i heq
      cases heq
    · rename_i heq
      cases heq
      exact ⟨[], rfl, (Option.some.inj h).symm⟩
    · rename_i heq
      cases heq
      split at h
      · rename_i hplain
        obtain ⟨rfl, rfl, rfl, rfl, hdigest, htype⟩ := hplain
        refine ⟨_, ?_, (Option.some.inj h).symm⟩
        rw [signingInput_sorted]
        simp only [List.mapM_cons, List.mapM_nil, jcsMember, sampleJcs, if_pos hdigest, if_pos htype,
          if_pos (show (text "over").Plain by decide), if_pos (show (text "signer").Plain by decide),
          if_pos (show (text "statement").Plain by decide), if_pos (show (text "type").Plain by decide)]
        rfl
      · cases h
    · cases h

/-- A countersigned root is no countersignature entry, and there are such entries. -/
theorem purposes_separate_sample : Disjoint countersignPayloads (countersignSigningInputs sampleJcs) ∧
    (countersignSigningInput sampleJcs (text "ab") (.obj []) (.obj []) (.str (text "countersign/v1"))).isSome := by
  have hseparate := (purposes_separate (refEnv [] [] fun _ _ _ _ _ => true) sampleJcs (cborArrays_refEnv _ _ _)
    rfc8785_sampleJcs).1
  refine ⟨?_, by decide⟩
  rw [signedStrings, List.pairwise_cons] at hseparate
  exact hseparate.1 _ (by simp)

end CapsuleAnchor
