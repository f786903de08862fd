import Cinder.HostApp.HostConfig
import Mathlib.Algebra.GroupWithZero.Nat
set_option autoImplicit false

namespace Cinder.Backups
open Cinder.Host Cinder.HostApp

abbrev U64 := {n : Nat // n < 2^64}

theorem u64_pos : 0 < 2^64 := by decide

def asU64 (n : Nat) : U64 := ⟨n % 2^64, Nat.mod_lt _ u64_pos⟩

def checkedAdd (a b : U64) : Option U64 := if h : a.1+b.1 < 2^64 then some ⟨a.1+b.1, h⟩ else none

theorem checkedAdd_eq_some {a b c : U64} : checkedAdd a b = some c ↔ c.1 = a.1+b.1 := by
  unfold checkedAdd
  split
  · rw [Option.some.injEq, Subtype.ext_iff]
    exact eq_comm
  · next h =>
    refine iff_of_false (by simp) fun heq => h ?_
    rw [← heq]
    exact c.2

def readU64 (n : Int) : Except String U64 :=
  if h : n.toNat < 2^64 then
    if 0 ≤ n then .ok ⟨n.toNat, h⟩ else .error "Integer out of range"
  else .error "Integer out of range"

structure BackupEncryption where
  cipher : String
  passwordWrap : Option KeyWrap
  recoveryWrap : Option KeyWrap
  deriving DecidableEq, Repr

/-- `unlock`: the password's copy of the key is tried first. -/
def BackupEncryption.unlock (unwrap : KeyWrap → String → Option BackupKey) (e : BackupEncryption)
    (secret : String) : Option BackupKey :=
  [e.passwordWrap, e.recoveryWrap].findSome? fun wrap => wrap.bind fun wrap => unwrap wrap secret

structure BackupManifest where
  version : U64
  schoolName : String
  createdAt : String
  database : String
  filesDir : String
  fileCount : U64
  blobCount : U64
  totalBytes : U64
  databaseSha256 : Option String
  encryption : Option BackupEncryption
  deriving DecidableEq, Repr

/-! How the records are written and read. A field that has a default may be
missing, and no other field may be there. -/

def JsonFields.keys : JsonFields → List String
  | .nil => []
  | .cons key _ fields => key :: keys fields

def jsonU64 : Json → Option U64
  | .num (.posInt n) => if h : n < 2^64 then some ⟨n, h⟩ else none
  | _ => none

def jsonU32 (x : Json) : Option U64 := (jsonU64 x).filter fun n => n.1 < 2^32

def u64Json (n : U64) : Json := .num (.posInt n.1)

def optionJson {α : Type} (write : α → Json) : Option α → Json
  | none => .null
  | some a => write a

/-- `null` and a missing field are both no value. -/
def readOption {α : Type} (read : Json → Option α) : Option Json → Option (Option α)
  | none => some none
  | some .null => some none
  | some x => (read x).map some

def knownFields (keys : List String) : Json → Option JsonFields
  | .obj fields => if ∀ key ∈ JsonFields.keys fields, key ∈ keys then some fields else none
  | _ => none

def keyWrapJson (wrap : KeyWrap) : Json :=
  .obj (.cons "ciphertext" (.str wrap.ciphertext) (.cons "nonce" (.str wrap.nonce)
    (.cons "salt" (.str wrap.salt) .nil)))

def readKeyWrap (x : Json) : Option KeyWrap := do
  let fields ← knownFields ["salt", "nonce", "ciphertext"] x
  let salt ← (fields.get "salt").bind Json.asStr
  let nonce ← (fields.get "nonce").bind Json.asStr
  let ciphertext ← (fields.get "ciphertext").bind Json.asStr
  return { salt, nonce, ciphertext }

def BackupEncryption.json (e : BackupEncryption) : Json :=
  .obj (.cons "cipher" (.str e.cipher)
    (.cons "password_wrap" (optionJson keyWrapJson e.passwordWrap)
    (.cons "recovery_wrap" (optionJson keyWrapJson e.recoveryWrap) .nil)))

def BackupEncryption.read (x : Json) : Option BackupEncryption := do
  let fields ← knownFields ["cipher", "password_wrap", "recovery_wrap"] x
  let cipher ← (fields.get "cipher").bind Json.asStr
  let passwordWrap ← readOption readKeyWrap (fields.get "password_wrap")
  let recoveryWrap ← readOption readKeyWrap (fields.get "recovery_wrap")
  return { cipher, passwordWrap, recoveryWrap }

def BackupManifest.json (m : BackupManifest) : Json :=
  .obj (.cons "blob_count" (u64Json m.blobCount) (.cons "created_at" (.str m.createdAt)
    (.cons "database" (.str m.database)
    (.cons "database_sha256" (optionJson .str m.databaseSha256)
    (.cons "encryption" (optionJson BackupEncryption.json m.encryption)
    (.cons "file_count" (u64Json m.fileCount) (.cons "files_dir" (.str m.filesDir)
    (.cons "school_name" (.str m.schoolName) (.cons "total_bytes" (u64Json m.totalBytes)
    (.cons "version" (u64Json m.version) .nil))))))))))

def BackupManifest.read (x : Json) : Option BackupManifest := do
  let fields ← knownFields ["version", "school_name", "created_at", "database", "files_dir",
    "file_count", "blob_count", "total_bytes", "database_sha256", "encryption"] x
  let version ← (fields.get "version").bind jsonU32
  let schoolName ← (fields.get "school_name").bind Json.asStr
  let createdAt ← (fields.get "created_at").bind Json.asStr
  let database ← (fields.get "database").bind Json.asStr
  let filesDir ← (fields.get "files_dir").bind Json.asStr
  let fileCount ← (fields.get "file_count").bind jsonU64
  let blobCount ← (fields.get "blob_count").bind jsonU64
  let totalBytes ← (fields.get "total_bytes").bind jsonU64
  let databaseSha256 ← readOption Json.asStr (fields.get "database_sha256")
  let encryption ← readOption BackupEncryption.read (fields.get "encryption")
  return ⟨version, schoolName, createdAt, database, filesDir, fileCount, blobCount, totalBytes,
    databaseSha256, encryption⟩

@[simp] theorem jsonU64_json (n : U64) : jsonU64 (u64Json n) = some n := by
  rw [u64Json, jsonU64, dif_pos n.2]

theorem jsonU32_json {n : U64} (h : n.1 < 2^32) : jsonU32 (u64Json n) = some n := by
  rw [jsonU32, jsonU64_json, Option.filter_some, if_pos (decide_eq_true h)]

theorem readOption_json {α : Type} {write : α → Json} {read : Json → Option α}
    (hread : ∀ a, read (write a) = some a) (hnull : ∀ a, write a ≠ .null) (o : Option α) :
    readOption read (some (optionJson write o)) = some o := by
  cases o with
  | none => rfl
  | some a =>
    rw [optionJson, readOption, hread, Option.map_some]
    exact hnull a

theorem knownFields_obj {keys : List String} {fields : JsonFields}
    (h : ∀ key ∈ JsonFields.keys fields, key ∈ keys) : knownFields keys (.obj fields) = some fields := if_pos h

theorem readKeyWrap_json (wrap : KeyWrap) : readKeyWrap (keyWrapJson wrap) = some wrap := by
  simp [readKeyWrap, keyWrapJson, knownFields, JsonFields.keys, JsonFields.get, Json.asStr]

theorem BackupEncryption.read_json (e : BackupEncryption) :
    BackupEncryption.read e.json = some e := by
  have hwrap := readOption_json readKeyWrap_json fun _ h => by cases h
  simp [BackupEncryption.read, BackupEncryption.json, knownFields, JsonFields.keys, JsonFields.get,
    hwrap, Json.asStr]

/-- The fields that `to_string_pretty` writes are those that are known. -/
theorem BackupManifest.knownFields_json (m : BackupManifest) : ∃ fields,
    m.json = .obj fields ∧ knownFields ["version", "school_name", "created_at", "database",
      "files_dir", "file_count", "blob_count", "total_bytes", "database_sha256", "encryption"]
      (.obj fields) = some fields := by
  refine ⟨_, rfl, knownFields_obj ?_⟩
  show ∀ key ∈ ["blob_count", "created_at", "database", "database_sha256", "encryption",
    "file_count", "files_dir", "school_name", "total_bytes", "version"], key ∈ _
  decide

theorem BackupManifest.read_json {m : BackupManifest} (hversion : m.version.1 < 2^32) :
    BackupManifest.read m.json = some m := by
  have hsha : readOption Json.asStr (some (optionJson .str m.databaseSha256)) =
      some m.databaseSha256 := by cases m.databaseSha256 <;> rfl
  have hencryption := readOption_json BackupEncryption.read_json fun _ h => by cases h
  obtain ⟨fields, hjson, hknown⟩ := m.knownFields_json
  rw [BackupManifest.read, hjson, hknown]
  obtain rfl := Json.obj.inj hjson
  exact Option.bind_eq_some_iff.mpr ⟨_, rfl, Option.bind_eq_some_iff.mpr ⟨_, jsonU32_json hversion,
    Option.bind_eq_some_iff.mpr ⟨_, rfl, Option.bind_eq_some_iff.mpr ⟨_, rfl,
    Option.bind_eq_some_iff.mpr ⟨_, rfl, Option.bind_eq_some_iff.mpr ⟨_, rfl,
    Option.bind_eq_some_iff.mpr ⟨_, jsonU64_json _, Option.bind_eq_some_iff.mpr ⟨_, jsonU64_json _,
    Option.bind_eq_some_iff.mpr ⟨_, jsonU64_json _, Option.bind_eq_some_iff.mpr ⟨_, hsha,
    Option.bind_eq_some_iff.mpr ⟨_, hencryption _, rfl⟩⟩⟩⟩⟩⟩⟩⟩⟩⟩⟩

end Cinder.Backups
