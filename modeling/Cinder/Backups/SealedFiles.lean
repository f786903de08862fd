import Cinder.Backups.BackupCrypto
import Mathlib.Algebra.GroupWithZero.Nat
set_option autoImplicit false

/-!
What an encrypted backup file can be opened to: under its own key and label to
the file that was read, and under everything else, or changed, to nothing.
-/

namespace Cinder.Backups
open Cinder.Host Cinder.Streams

structure SealedFile (Key : Type) where
  key : Key
  pre : Bytes
  label : String
  plain : Bytes

def SealedFile.Chunk {Key : Type} (s : SealedFile Key) (p : Place Key String UInt8)
    (chunk : Bytes) : Prop :=
  InStream s.key s.pre s.label (blocks chunkSize s.plain) p chunk

/-- Everything that the cipher was used for: the chunks of the files. -/
def SealedChunk {Key : Type} (files : List (SealedFile Key)) (p : Place Key String UInt8)
    (chunk : Bytes) : Prop :=
  ∃ s ∈ files, s.Chunk p chunk

/-- The random bytes of a file are drawn for it alone. -/
def FreshPrefixes {Key : Type} (files : List (SealedFile Key)) : Prop :=
  ∀ s ∈ files, ∀ t ∈ files, s.key = t.key → s.pre = t.pre → s = t

/-- What somebody without the key can make of a file. -/
inductive Altered (file : Bytes) : Bytes → Prop
  | truncated (n : Nat) : Altered file (file.take n)
  | extended (extra : Bytes) : Altered file (file ++ extra)
  | rearranged (chunks : List Bytes)
      (h : ∀ chunk ∈ chunks, chunk ∈ blocks (chunkSize+tagSize) (file.drop prefixSize)) :
      Altered file (file.take prefixSize ++ chunks.flatten)

/-- Whatever was done to a file, it starts with the same random bytes or is too
short to have them. -/
theorem altered_preamble {file file' : Bytes} (hfile : prefixSize ≤ file.length)
    (h : Altered file file') :
    file'.length < prefixSize ∨ file'.take prefixSize = file.take prefixSize := by
  cases h with
  | truncated n =>
    rw [List.length_take, List.take_take]
    by_cases hn : prefixSize ≤ n
    · exact .inr (by rw [Nat.min_eq_left hn])
    · exact .inl (by omega)
  | extended extra => exact .inr (List.take_append_of_le_length hfile)
  | rearranged chunks _ =>
    right
    exact List.take_left' (by rw [List.length_take]; omega)

section Sealed
variable {Key : Type} {C : Cipher Key String UInt8} {files : List (SealedFile Key)}
  {s : SealedFile Key}

theorem sealedChunk_of_file (hs : s ∈ files) (p : Place Key String UInt8) (chunk : Bytes)
    (h : s.Chunk p chunk) : SealedChunk files p chunk :=
  ⟨s, hs, h⟩

theorem file_of_sealedChunk (hfresh : FreshPrefixes files) (hs : s ∈ files)
    (p : Place Key String UInt8) (chunk : Bytes) (h : SealedChunk files p chunk)
    (hkey : p.key = s.key) (hpre : p.pre = s.pre) : s.Chunk p chunk := by
  obtain ⟨t, ht, hchunk⟩ := h
  obtain ⟨-, hkey', hpre', -⟩ := id hchunk
  obtain rfl := hfresh t ht s hs (hkey'.symm.trans hkey) (hpre'.symm.trans hpre)
  exact hchunk

/-- A file that was written: the random bytes, and its chunks in their seals. -/
structure Written (C : Cipher Key String UInt8) (s : SealedFile Key) (file : Bytes)
    (cs : List Bytes) : Prop where
  sealed : sealFrom C s.key s.pre s.label counterMax 0 (blocks chunkSize s.plain) = some cs
  file_eq : file = s.pre ++ cs.flatten

theorem encryptFile_ok {sha256 : Bytes → String} {short : Nat → Nat} {file : Bytes} {sha : String}
    {size : Nat}
    (h : encryptFile C s.key s.label sha256 short s.pre s.plain = .ok (file, sha, size)) :
    sha = sha256 s.plain ∧ size = s.plain.length ∧ ∃ cs, Written C s file cs := by
  rw [encryptFile_eq] at h
  split at h
  · next cs hcs =>
    simp only [Except.ok.injEq, Prod.mk.injEq] at h
    obtain ⟨rfl, rfl, rfl⟩ := h
    exact ⟨rfl, rfl, cs, hcs, rfl⟩
  · cases h

theorem encryptFile_isOk {sha256 : Bytes → String} {short : Nat → Nat}
    (h : s.plain.length ≤ chunkSize*2^32) :
    ∃ file, encryptFile C s.key s.label sha256 short s.pre s.plain = .ok file := by
  have hlen := length_blocks_le chunkSize_pos s.plain (by omega) h
  have hmax : counterMax+1 = 2^32 := by decide
  obtain ⟨cs, hcs⟩ : ∃ cs, sealFrom C s.key s.pre s.label counterMax 0
      (blocks chunkSize s.plain) = some cs := sealFrom_isSome (by omega)
  exact ⟨_, by rw [encryptFile_eq, hcs]⟩

variable {file : Bytes} {cs : List Bytes}

theorem written_preamble (hpre : s.pre.length = prefixSize) (h : Written C s file cs) :
    prefixSize ≤ file.length ∧ file.take prefixSize = s.pre ∧
      file.drop prefixSize = cs.flatten := by
  obtain ⟨-, rfl⟩ := h
  rw [List.length_append, List.take_left' hpre, List.drop_left' hpre]
  exact ⟨by omega, rfl, rfl⟩

theorem written_blocks {used : Place Key String UInt8 → Bytes → Prop} (hC : Opens C tagSize used)
    (h : Written C s file cs) : blocks (chunkSize+tagSize) cs.flatten = cs :=
  blocks_flatten (by decide)
    (blocked_sealFrom hC (by decide) (blocked_blocks chunkSize_pos s.plain) h.sealed)

theorem decryptFile_written {used : Place Key String UInt8 → Bytes → Prop}
    (hC : Opens C tagSize used) (hused : ∀ p chunk, s.Chunk p chunk → used p chunk)
    (hpre : s.pre.length = prefixSize) (h : Written C s file cs) (short : Nat → Nat) :
    decryptFile C s.key s.label short file = .ok s.plain := by
  obtain ⟨hlen, htake, hdrop⟩ := written_preamble hpre h
  have hopen := openFrom_sealFrom hC hused (List.drop_zero (l := blocks chunkSize s.plain)) h.sealed
  rw [decryptFile_eq, if_neg (by omega), htake, hdrop, written_blocks hC h, hopen]
  dsimp only
  rw [flatten_blocks]

variable (hC : Ideal C tagSize (SealedChunk files)) (hs : s ∈ files)

include hC hs

theorem eq_of_decryptFile (hfresh : FreshPrefixes files) (hpre : s.pre.length = prefixSize)
    (h : Written C s file cs) {file' plain : Bytes} {label : String} {short : Nat → Nat}
    (htake : file'.take prefixSize = file.take prefixSize)
    (hopen : decryptFile C s.key label short file' = .ok plain) : file' = file := by
  rw [decryptFile_eq] at hopen
  split at hopen
  · cases hopen
  · split at hopen
    · next ms hms =>
      rw [htake, (written_preamble hpre h).2.1] at hms
      obtain ⟨-, hsealed⟩ := sealFrom_of_openFrom hC (file_of_sealedChunk hfresh hs)
        (blocks_ne_nil _ _) hms
      rw [List.drop_zero, h.sealed] at hsealed
      calc file' = file'.take prefixSize ++ file'.drop prefixSize :=
            (List.take_append_drop _ _).symm
        _ = s.pre ++ cs.flatten := by
            rw [htake, (written_preamble hpre h).2.1, Option.some.inj hsealed, flatten_blocks]
        _ = file := h.file_eq.symm
    · cases hopen

theorem same_key_of_decryptFile (hpre : s.pre.length = prefixSize) (h : Written C s file cs)
    {key' : Key} {label' : String} {plain : Bytes} {short : Nat → Nat}
    (hopen : decryptFile C key' label' short file = .ok plain) :
    key' = s.key ∧ label' = s.label := by
  obtain ⟨-, htake, hdrop⟩ := written_preamble hpre h
  rw [decryptFile_eq] at hopen
  split at hopen
  · cases hopen
  · split at hopen
    · next ms hms =>
      rw [htake, hdrop, written_blocks hC.opens h] at hms
      exact openFrom_other hC (sealedChunk_of_file hs) (blocks_ne_nil _ _) h.sealed hms
    · cases hopen

end Sealed

theorem refused_of_not_ok {Key : Type} {C : Cipher Key String UInt8} {key : Key} {label : String}
    {file : Bytes} {short : Nat → Nat} (sha256 : Bytes → String)
    (h : ∀ plain, decryptFile C key label short file ≠ .ok plain) :
    decryptFile C key label short file = .error (damaged label) ∧
      decryptedSha C key label sha256 short file = .error (damaged label) := by
  have herror : decryptFile C key label short file = .error (damaged label) := by
    rw [decryptFile_eq] at h ⊢
    split
    · rfl
    · next hlen =>
      rw [if_neg hlen] at h
      split
      · next bs hbs =>
        rw [hbs] at h
        exact absurd rfl (h bs.flatten)
      · rfl
  rw [decryptedSha_eq, herror]
  exact ⟨rfl, rfl⟩

theorem backup_files_open_only_unaltered {Key : Type} {C : Cipher Key String UInt8}
    {files : List (SealedFile Key)} (hC : Ideal C tagSize (SealedChunk files))
    (hfresh : FreshPrefixes files) {s : SealedFile Key} (hs : s ∈ files)
    (hpre : s.pre.length = prefixSize) (sha256 : Bytes → String) :
    (s.plain.length ≤ chunkSize*2^32 → ∀ short, ∃ result,
      encryptFile C s.key s.label sha256 short s.pre s.plain = .ok result) ∧
    ∀ short file sha size,
      encryptFile C s.key s.label sha256 short s.pre s.plain = .ok (file, sha, size) →
      sha = sha256 s.plain ∧ size = s.plain.length ∧
      (∀ short', decryptFile C s.key s.label short' file = .ok s.plain ∧
        decryptedSha C s.key s.label sha256 short' file = .ok (sha, size)) ∧
      (∀ short' file', Altered file file' → file' ≠ file →
        decryptFile C s.key s.label short' file' = .error (damaged s.label) ∧
        decryptedSha C s.key s.label sha256 short' file' = .error (damaged s.label)) ∧
      ∀ short' key' label', (key', label') ≠ (s.key, s.label) →
        decryptFile C key' label' short' file = .error (damaged label') ∧
        decryptedSha C key' label' sha256 short' file = .error (damaged label') := by
  refine ⟨fun hlen short => encryptFile_isOk hlen, fun short file sha size henc => ?_⟩
  obtain ⟨rfl, rfl, cs, hw⟩ := encryptFile_ok henc
  refine ⟨rfl, rfl, fun short' => ?_, fun short' file' halt hne => ?_,
    fun short' key' label' hother => ?_⟩
  · have hopen := decryptFile_written hC.opens (sealedChunk_of_file hs) hpre hw short'
    rw [decryptedSha_eq, hopen]
    exact ⟨rfl, rfl⟩
  · apply refused_of_not_ok
    intro plain hopen
    rcases altered_preamble (written_preamble hpre hw).1 halt with hlen | htake
    · rw [decryptFile_eq, if_pos hlen] at hopen
      cases hopen
    · exact hne (eq_of_decryptFile hC hs hfresh hpre hw htake hopen)
  · apply refused_of_not_ok
    intro plain hopen
    obtain ⟨rfl, rfl⟩ := same_key_of_decryptFile hC hs hpre hw hopen
    exact hother rfl

def sampleFile : SealedFile Bool := ⟨true, [1, 2, 3, 4, 5, 6, 7], "cinder.db", [10, 20, 30]⟩

def samplePlace : Place Bool String UInt8 := ⟨true, [1, 2, 3, 4, 5, 6, 7], 0, true, "cinder.db"⟩

def sampleCipher : Cipher Bool String UInt8 where
  encrypt _ m := m ++ List.replicate 16 0
  decrypt p c :=
    if p = samplePlace ∧ c = [10, 20, 30] ++ List.replicate 16 0 then some [10, 20, 30] else none

theorem sampleFile_chunk {p : Place Bool String UInt8} {m : Bytes}
    (h : SealedChunk [sampleFile] p m) : p = samplePlace ∧ m = [10, 20, 30] := by
  obtain ⟨s, hs, hget, hkey, hpre, hlabel, hlast⟩ := h
  obtain rfl := List.mem_singleton.mp hs
  have hblocks : blocks chunkSize sampleFile.plain = [[10, 20, 30]] := blocks_of_le (by decide)
  rw [hblocks] at hget hlast
  obtain ⟨key, pre, position, last, label⟩ := p
  dsimp only at hget hkey hpre hlabel hlast
  cases position with
  | zero =>
    simp at hget hlast
    subst hkey hpre hlabel hlast
    exact ⟨rfl, hget.symm⟩
  | succ position => simp at hget

theorem sampleCipher_ideal : Ideal sampleCipher tagSize (SealedChunk [sampleFile]) where
  decrypt_encrypt p m h := by
    obtain ⟨rfl, rfl⟩ := sampleFile_chunk h
    rfl
  length_encrypt p m := by
    rw [sampleCipher, List.length_append, List.length_replicate]
    rfl
  genuine p c m h := by
    simp only [sampleCipher] at h
    split at h
    · next hpc =>
      obtain ⟨rfl, rfl⟩ := hpc
      obtain rfl := Option.some.inj h
      refine ⟨⟨sampleFile, List.mem_singleton_self _, ?_, rfl, rfl, rfl, ?_⟩, rfl⟩
      · rw [show blocks chunkSize sampleFile.plain = [[10, 20, 30]] from blocks_of_le (by decide)]
        rfl
      · rw [show blocks chunkSize sampleFile.plain = [[10, 20, 30]] from blocks_of_le (by decide)]
        rfl
    · cases h
  distinct p m p' m' h h' _ :=
    (sampleFile_chunk h).1.trans (sampleFile_chunk h').1.symm

theorem backup_files_open_only_unaltered_sample :
    ∃ file, encryptFile sampleCipher true "cinder.db" (fun _ => "sha") (fun _ => 2)
        [1, 2, 3, 4, 5, 6, 7] [10, 20, 30] = .ok (file, "sha", 3) ∧
      decryptFile sampleCipher true "cinder.db" (fun _ => 5) file = .ok [10, 20, 30] ∧
      decryptFile sampleCipher true "cinder.db" (fun _ => 5) (file.take 20) =
        .error (damaged "cinder.db") ∧
      decryptFile sampleCipher true "files/ab" (fun _ => 5) file = .error (damaged "files/ab") := by
  have hfresh : FreshPrefixes [sampleFile] := by
    intro s hs t ht _ _
    rw [List.mem_singleton.mp hs, List.mem_singleton.mp ht]
  obtain ⟨hok, hall⟩ := backup_files_open_only_unaltered sampleCipher_ideal hfresh
    (List.mem_singleton_self sampleFile) rfl fun _ => "sha"
  obtain ⟨⟨file, sha, size⟩, henc⟩ := hok (by simp [sampleFile, chunkSize]) fun _ => 2
  obtain ⟨rfl, rfl, hopen, halt, hother⟩ := hall _ _ _ _ henc
  obtain ⟨-, -, cs, hw⟩ := encryptFile_ok henc
  have hcut : file.take 20 ≠ file := by
    rw [encryptFile_eq, show blocks chunkSize sampleFile.plain = [[10, 20, 30]] from
      blocks_of_le (by decide)] at henc
    injection henc with henc
    injection henc with hfile
    rw [← hfile]
    decide
  exact ⟨file, henc, (hopen _).1, (halt _ _ (.truncated 20) hcut).1,
    (hother _ true "files/ab" (by decide)).1⟩

end Cinder.Backups
