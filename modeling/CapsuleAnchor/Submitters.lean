import CapsuleAnchor.Statement

/-!
# Enrolled submitters (`anchoring/submitters.py`)

The allowlist of checkpoint submitters: a `log_id` with the one key that signs for it, its accumulator and its wire form.
`fromList` reads it from the configuration.  An allowlist has one entry for a `log_id`, an entry has a key of 32 bytes,
and the JSON wire form has a field map that reads every field of a checkpoint from a key of its own.
-/

namespace CapsuleAnchor

/-- What Python writes for values and for exceptions that the code puts into its messages. -/
structure Texts where
  reprCbor : Cbor → String
  reprJson : Json → String
  /-- The text of the exception that `cbor2.loads` raises; its argument may be `None`. -/
  cborError : Option Bytes → String
  /-- The text of the exception that `json.loads` raises. -/
  jsonError : Bytes → String
  /-- The text of the `ValueError` that `bytes.fromhex` raises. -/
  fromHexError : String → String

variable (E : Env) (texts : Texts)

/-- `repr` of a list of strings, without its brackets. -/
def reprItems (names : List String) : String := String.intercalate ", " (names.map E.repr)

/-! ### Entries -/

inductive Accumulator
  | nativeMmr
  | foreign
deriving DecidableEq

/-- The fields of a JSON checkpoint, in the order of `_JSON_CHECKPOINT_ALL_FIELDS`. -/
inductive CheckpointField
  | v
  | kind
  | logId
  | mmrSize
  | root
  | prevSize
  | prevRoot
  | keyId
  | timestamp
  | signature
deriving DecidableEq

namespace CheckpointField

def all : List CheckpointField :=
  [v, kind, logId, mmrSize, root, prevSize, prevRoot, keyId, timestamp, signature]

/-- The canonical name. -/
def name : CheckpointField → String
  | v => "v"
  | kind => "kind"
  | logId => "log_id"
  | mmrSize => "mmr_size"
  | root => "root"
  | prevSize => "prev_size"
  | prevRoot => "prev_root"
  | keyId => "key_id"
  | timestamp => "timestamp"
  | signature => "signature"

theorem mem_all (f : CheckpointField) : f ∈ all := by cases f <;> decide

theorem name_distinct : (all.map name).Nodup := by decide

end CheckpointField

/-- The submitter's name for each field; no two fields read the same one. -/
structure FieldMap where
  get : CheckpointField → String
  distinct : (CheckpointField.all.map get).Nodup

theorem FieldMap.injective (fm : FieldMap) : Function.Injective fm.get :=
  fun f g h => List.inj_on_of_nodup_map fm.distinct f.mem_all g.mem_all h

inductive WireForm
  | coseSign1
  | jsonEd25519 (fieldMap : FieldMap)

structure SubmitterEntry where
  logId : String
  pubkey : Bytes
  accumulator : Accumulator
  rateLimitPerMin : Nat
  wireForm : WireForm
  logId_ne : logId ≠ ""
  length_pubkey : pubkey.length = 32

def gradeMmrVerified : String := "mmr-verified"

def SubmitterEntry.grade (entry : SubmitterEntry) : String :=
  match entry.accumulator with
  | .foreign => "countersigned-observed"
  | .nativeMmr => gradeMmrVerified

structure SubmitterAllowlist where
  entries : List SubmitterEntry
  distinct : (entries.map (·.logId)).Nodup

namespace SubmitterAllowlist

def get (allowlist : SubmitterAllowlist) (logId : String) : Option SubmitterEntry :=
  allowlist.entries.find? fun entry => entry.logId = logId

/-- `entries_by_wire_form(WIRE_FORM_JSON_ED25519)`, with their field maps. -/
def jsonEntries (allowlist : SubmitterAllowlist) : List (SubmitterEntry × FieldMap) :=
  allowlist.entries.filterMap fun entry => match entry.wireForm with
    | .coseSign1 => none
    | .jsonEd25519 fieldMap => some (entry, fieldMap)

theorem logId_of_get {allowlist : SubmitterAllowlist} {logId : String} {entry : SubmitterEntry}
    (h : allowlist.get logId = some entry) : entry.logId = logId := by
  have hfound := List.find?_some h
  simpa using hfound

/-- The entry of a `log_id` is the only one. -/
theorem get_of_mem {allowlist : SubmitterAllowlist} {entry : SubmitterEntry} (h : entry ∈ allowlist.entries) :
    allowlist.get entry.logId = some entry := by
  cases hget : allowlist.get entry.logId with
  | none =>
    have hnone := List.find?_eq_none.1 hget entry h
    simp at hnone
  | some other =>
    have hmem : other ∈ allowlist.entries := List.mem_of_find?_eq_some hget
    rw [List.inj_on_of_nodup_map allowlist.distinct hmem h (logId_of_get hget)]

theorem mem_of_jsonEntries {allowlist : SubmitterAllowlist} {entry : SubmitterEntry} {fieldMap : FieldMap}
    (h : (entry, fieldMap) ∈ allowlist.jsonEntries) : entry ∈ allowlist.entries := by
  obtain ⟨e, he, hform⟩ := List.mem_filterMap.1 h
  split at hform
  · cases hform
  · obtain ⟨rfl, -⟩ := Prod.mk.inj (Option.some.inj hform)
    exact he

end SubmitterAllowlist

/-! ### The configuration -/

/-- `SubmitterConfigError`, or the `TypeError` of an item that is no object. -/
inductive SubmitterConfigError
  | malformed (message : String)
  | typeError
deriving DecidableEq

/-- The blanks that `bytes.fromhex` skips. -/
private def isHexBlank (c : Char) : Bool := (9 ≤ c.toNat && c.toNat ≤ 13) || c == ' '

/-- `bytes.fromhex`: pairs of hex digits, with blanks between them. -/
def fromHex : List Char → Option Bytes
  | [] => some []
  | [c] => if isHexBlank c then some [] else none
  | c :: d :: rest =>
    if isHexBlank c then fromHex (d :: rest)
    else do
      let hi ← hexCharValue c
      let lo ← hexCharValue d
      let bytes ← fromHex rest
      return UInt8.ofNat (16 * hi + lo) :: bytes

/-- `bytes.fromhex` reads what `bytes.hex` writes. -/
theorem fromHex_bytesHex (b : Bytes) : fromHex (bytesHex b).toList = some b := by
  have hdigit : ∀ n < 16, isHexBlank (Char.ofUInt8 (hexDigit n)) = false ∧
      hexCharValue (Char.ofUInt8 (hexDigit n)) = some n := by decide
  rw [bytesHex, String.toList_ofList]
  induction b with
  | nil => rfl
  | cons x b ih =>
    have hx := x.toNat_lt
    obtain ⟨hblank, hhi⟩ := hdigit (x.toNat / 16) (by omega)
    obtain ⟨-, hlo⟩ := hdigit (x.toNat % 16) (by omega)
    have hbyte : UInt8.ofNat (16 * (x.toNat / 16) + x.toNat % 16) = x := by
      rw [Nat.div_add_mod, UInt8.ofNat_toNat]
    simp only [List.flatMap_cons, List.cons_append, List.nil_append, fromHex, hblank, Bool.false_eq_true, if_false, hhi, hlo,
      ih, Option.bind_eq_bind, Option.bind_some, Option.pure_def, hbyte]

private def require (i : Nat) (item : List (String × Json)) (key : String) : Except SubmitterConfigError Json :=
  match Json.get item key with
  | some value => .ok value
  | none => .error (.malformed ("submitters config entry " ++ toString i ++ ": missing required field '" ++ key ++ "'"))

/-- How the messages about an entry start. -/
private def about (i : Nat) (logId : String) : String :=
  "submitters config entry " ++ toString i ++ " (" ++ E.repr logId ++ "): "

private def accumulatorOf (i : Nat) (logId : String) (item : List (String × Json)) :
    Except SubmitterConfigError Accumulator :=
  match (Json.get item "accumulator").getD (.str "foreign") with
  | .str "native_mmr" => .ok .nativeMmr
  | .str "foreign" => .ok .foreign
  | other => .error (.malformed (about E i logId ++ "accumulator must be one of ('native_mmr', 'foreign'), got " ++
      texts.reprJson other))

private def pubkeyOf (i : Nat) (logId : String) (value : Json) : Except SubmitterConfigError { b : Bytes // b.length = 32 } :=
  match value with
  | .str pubkeyHex =>
    match fromHex pubkeyHex.toList with
    | none => .error (.malformed (about E i logId ++ "pubkey_hex is not valid hex: " ++ texts.fromHexError pubkeyHex))
    | some pubkey =>
      if h : pubkey.length = 32 then .ok ⟨pubkey, h⟩
      else .error (.malformed (about E i logId ++ "pubkey_hex must decode to 32 bytes (raw Ed25519 public key), got " ++
        toString pubkey.length))
  | _ => .error (.malformed (about E i logId ++ "pubkey_hex must be a string"))

private def rateLimitOf (i : Nat) (logId : String) (item : List (String × Json)) : Except SubmitterConfigError Nat :=
  match (Json.get item "rate_limit_per_min").getD (.int 60) with
  | .int rate =>
    if rate ≤ 0 then .error (.malformed (about E i logId ++ "rate_limit_per_min must be a positive integer"))
    else .ok rate.toNat
  | _ => .error (.malformed (about E i logId ++ "rate_limit_per_min must be a positive integer"))

/-- One item of the configured `field_map`. -/
private def mapField (i : Nat) (logId : String) (fm : CheckpointField → String) (item : String × Json) :
    Except SubmitterConfigError (CheckpointField → String) :=
  match CheckpointField.all.find? fun f => f.name = item.1 with
  | none => .error (.malformed (about E i logId ++ "field_map names unknown canonical field " ++ E.repr item.1 ++
      ", expected one of (" ++ reprItems E (CheckpointField.all.map (·.name)) ++ ")"))
  | some field =>
    match item.2 with
    | .str theirKey =>
      if theirKey = "" then
        .error (.malformed (about E i logId ++ "field_map[" ++ E.repr item.1 ++ "] must be a non-empty string"))
      else .ok (Function.update fm field theirKey)
    | _ => .error (.malformed (about E i logId ++ "field_map[" ++ E.repr item.1 ++ "] must be a non-empty string"))

private def fieldMapOf (i : Nat) (logId : String) (raw : List (String × Json)) : Except SubmitterConfigError FieldMap := do
  let fm ← raw.foldlM (mapField E i logId) CheckpointField.name
  if h : (CheckpointField.all.map fm).Nodup then return ⟨fm, h⟩
  else throw (.malformed (about E i logId ++ "field_map values must be distinct (no two canonical fields reading the " ++
    "same submitted field), got \x7b" ++ String.intercalate ", " (CheckpointField.all.map fun f =>
      E.repr f.name ++ ": " ++ E.repr (fm f)) ++ "\x7d"))

private def wireFormOf (i : Nat) (logId : String) (item : List (String × Json)) : Except SubmitterConfigError WireForm :=
  let fieldMap := (Json.get item "field_map").getD .null
  match (Json.get item "wire_form").getD (.str "cose") with
  | .str "cose" =>
    match fieldMap with
    | .null => .ok .coseSign1
    | _ => .error (.malformed (about E i logId ++
        "field_map is only meaningful for wire_form='json-ed25519', not 'cose'"))
  | .str "json-ed25519" =>
    match fieldMap with
    | .null => (fieldMapOf E i logId []).map .jsonEd25519
    | .obj raw => (fieldMapOf E i logId raw).map .jsonEd25519
    | _ => .error (.malformed (about E i logId ++ "field_map must be an object"))
  | other => .error (.malformed (about E i logId ++ "wire_form must be one of ('cose', 'json-ed25519'), got " ++
      texts.reprJson other))

private def entryOf (i : Nat) : Json → Except SubmitterConfigError SubmitterEntry
  | .obj item => do
    let logIdValue ← require i item "log_id"
    let pubkeyHex ← require i item "pubkey_hex"
    match logIdValue with
    | .str logId =>
      if h : logId = "" then
        throw (.malformed ("submitters config entry " ++ toString i ++ ": log_id must be a non-empty string"))
      else
        let accumulator ← accumulatorOf E texts i logId item
        let pubkey ← pubkeyOf E texts i logId pubkeyHex
        let rateLimitPerMin ← rateLimitOf E i logId item
        let wireForm ← wireFormOf E texts i logId item
        return { logId, pubkey := pubkey.1, accumulator, rateLimitPerMin, wireForm, logId_ne := h
                 length_pubkey := pubkey.2 }
    | _ => throw (.malformed ("submitters config entry " ++ toString i ++ ": log_id must be a non-empty string"))
  | _ => .error .typeError

private def addEntry (allowlist : SubmitterAllowlist) (entry : SubmitterEntry) :
    Except SubmitterConfigError SubmitterAllowlist :=
  if h : entry.logId ∈ allowlist.entries.map (·.logId) then
    .error (.malformed ("duplicate submitter log_id " ++ E.repr entry.logId ++ " in config"))
  else .ok
    { entries := allowlist.entries ++ [entry]
      distinct := by
        rw [List.map_append, List.map_singleton]
        exact List.Nodup.append allowlist.distinct (List.nodup_singleton _) (by simpa using h) }

/-- `SubmitterAllowlist.from_list`. -/
def SubmitterAllowlist.fromList (raw : List Json) : Except SubmitterConfigError SubmitterAllowlist :=
  raw.zipIdx.foldlM
    (fun allowlist item => do
      let entry ← entryOf E texts item.2 item.1
      addEntry E allowlist entry)
    ⟨[], List.nodup_nil⟩

end CapsuleAnchor
