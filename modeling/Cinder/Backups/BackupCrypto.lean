import Cinder.Host.HostValues
import Cinder.Streams.SealedBlocks
set_option autoImplicit false

/-!
The encryption of backup files. A file is read and written chunk by chunk, each
chunk one read ahead of the cipher, which has to know the last one.
-/

namespace Cinder.Backups
open Cinder.Host Cinder.Streams

def chunkSize : Nat := 64*1024

def tagSize : Nat := 16

def prefixSize : Nat := 7

/-- The last position that the 32-bit counter of the cipher has. -/
def counterMax : Nat := 4294967295

/-- A file that is being read. A `read` may give less than it is asked for. -/
structure Reader where
  rest : Bytes
  short : Nat → Nat
  calls : Nat := 0

def Reader.read (r : Reader) (n : Nat) : Bytes × Reader :=
  let k := min n (max 1 (r.short r.calls))
  (r.rest.take k, { r with rest := r.rest.drop k, calls := r.calls+1 })

theorem read_spec {n : Nat} (hn : n ≠ 0) (r : Reader) : ∃ k, 1 ≤ k ∧ k ≤ n ∧
    (r.read n).1 = r.rest.take k ∧ (r.read n).2.rest = r.rest.drop k :=
  ⟨min n (max 1 (r.short r.calls)), by omega, by omega, rfl, rfl⟩

/-- At most `fuel` reads into a buffer with room for `n` bytes. -/
def readLoop : Nat → Nat → Reader → Bytes × Reader
  | 0, _, r => ([], r)
  | fuel+1, n, r =>
    if n = 0 then ([], r)
    else
      let (piece, r') := r.read n
      if piece = [] then ([], r')
      else
        let (more, r'') := readLoop fuel (n-piece.length) r'
        (piece ++ more, r'')

def readFull (n : Nat) (r : Reader) : Bytes × Reader := readLoop n n r

theorem readLoop_spec {fuel n : Nat} (hfuel : n ≤ fuel) (r : Reader) :
    (readLoop fuel n r).1 = r.rest.take n ∧ (readLoop fuel n r).2.rest = r.rest.drop n := by
  induction fuel generalizing n r with
  | zero =>
    obtain rfl : n = 0 := by omega
    exact ⟨rfl, rfl⟩
  | succ fuel ih =>
    rw [readLoop]
    split
    · next hn =>
      subst hn
      exact ⟨rfl, rfl⟩
    · next hn =>
      obtain ⟨k, hk1, hkn, hpiece, hrest⟩ := read_spec hn r
      generalize r.read n = x at *
      obtain ⟨piece, r'⟩ := x
      dsimp only at *
      split
      · next hnil =>
        have hend : r.rest = [] := by
          have hlen := congrArg List.length (hpiece.symm.trans hnil)
          rw [List.length_take, List.length_nil] at hlen
          exact List.length_eq_zero_iff.mp (by omega)
        rw [hrest, hend, List.drop_nil, List.take_nil, List.drop_nil]
        exact ⟨rfl, rfl⟩
      · next hne =>
        have hpos := List.length_pos_of_ne_nil hne
        obtain ⟨hmore, hleft⟩ := ih (n := n-piece.length) (by omega) r'
        dsimp only
        rw [hmore, hleft, hrest, List.drop_drop, hpiece, List.length_take]
        by_cases hlong : k ≤ r.rest.length
        · rw [Nat.min_eq_left hlong, ← List.take_add, Nat.add_sub_cancel' hkn]
          exact ⟨rfl, rfl⟩
        · rw [List.drop_eq_nil_of_le (i := k) (by omega), List.take_nil, List.append_nil,
            List.take_of_length_le (by omega), List.take_of_length_le (by omega),
            List.drop_eq_nil_of_le (by omega), List.drop_eq_nil_of_le (by omega)]
          exact ⟨rfl, rfl⟩

theorem readFull_fst (n : Nat) (r : Reader) : (readFull n r).1 = r.rest.take n :=
  (readLoop_spec (Nat.le_refl n) r).1

theorem readFull_snd (n : Nat) (r : Reader) : (readFull n r).2.rest = r.rest.drop n :=
  (readLoop_spec (Nat.le_refl n) r).2

def readNext (size : Nat) (current : Bytes) (r : Reader) : Bytes × Reader :=
  if current.length = size then readFull size r else ([], r)

theorem readNext_progress {size : Nat} {current : Bytes} {r : Reader}
    (h : (readNext size current r).1 ≠ []) :
    (readNext size current r).2.rest.length < r.rest.length := by
  unfold readNext at *
  by_cases hfull : current.length = size
  · rw [if_pos hfull, readFull_fst] at h
    rw [if_pos hfull, readFull_snd, List.length_drop]
    have hpos := List.length_pos_of_ne_nil h
    rw [List.length_take] at hpos
    omega
  · rw [if_neg hfull] at h
    exact absurd rfl h

section Crypto
variable {Key : Type} (C : Cipher Key String UInt8) (key : Key) (label : String)

/-- The loop of `encrypt_file`: what was hashed, the size, and what was written. -/
def encryptLoop (pre : Bytes) (position : Nat) (current : Bytes) (reader : Reader)
    (hashed : Bytes) (size : Nat) (written : Bytes) : Except String (Bytes × Nat × Bytes) :=
  let next := readNext chunkSize current reader
  if next.1 = [] then
    .ok (hashed ++ current, size+current.length,
      written ++ C.encrypt ⟨key, pre, position, true, label⟩ current)
  else if position = counterMax then .error ("Encrypting " ++ label ++ " failed.")
  else encryptLoop pre (position+1) next.1 next.2 (hashed ++ current) (size+current.length)
    (written ++ C.encrypt ⟨key, pre, position, false, label⟩ current)
termination_by reader.rest.length
decreasing_by exact readNext_progress ‹_›

/-- The file written, and the SHA-256 and size of what was read. `pre` are the
random bytes, `short` the sizes of the reads. -/
def encryptFile (sha256 : Bytes → String) (short : Nat → Nat) (pre source : Bytes) :
    Except String (Bytes × String × Nat) := do
  let (current, reader) := readFull chunkSize ⟨source, short, 0⟩
  let (hashed, size, written) ← encryptLoop C key label pre 0 current reader [] 0 pre
  .ok (written, sha256 hashed, size)

def damaged : String := label ++ " is damaged or was made with a different key."

/-- The loop of `decrypt_with`, which hands every chunk to `sink`. -/
def decryptLoop {β : Type} (sink : β → Bytes → Except String β) (pre : Bytes) (position : Nat)
    (current : Bytes) (reader : Reader) (out : β) : Except String β :=
  let next := readNext (chunkSize+tagSize) current reader
  if next.1 = [] then
    match C.decrypt ⟨key, pre, position, true, label⟩ current with
    | none => .error (damaged label)
    | some plain => sink out plain
  else if position = counterMax then .error (damaged label)
  else
    match C.decrypt ⟨key, pre, position, false, label⟩ current with
    | none => .error (damaged label)
    | some plain =>
      match sink out plain with
      | .error e => .error e
      | .ok out => decryptLoop sink pre (position+1) next.1 next.2 out
termination_by reader.rest.length
decreasing_by exact readNext_progress ‹_›

def decryptWith {β : Type} (short : Nat → Nat) (source : Bytes)
    (sink : β → Bytes → Except String β) (out : β) : Except String β :=
  let (pre, reader) := readFull prefixSize ⟨source, short, 0⟩
  if pre.length ≠ prefixSize then .error (damaged label)
  else
    let (current, reader) := readFull (chunkSize+tagSize) reader
    decryptLoop C key label sink pre 0 current reader out

def decryptFile (short : Nat → Nat) (source : Bytes) : Except String Bytes :=
  decryptWith C key label short source (fun written chunk => .ok (written ++ chunk)) []

def decryptedSha (sha256 : Bytes → String) (short : Nat → Nat) (source : Bytes) :
    Except String (String × Nat) := do
  let (hashed, size) ← decryptWith C key label short source
    (fun (out : Bytes × Nat) chunk => .ok (out.1 ++ chunk, out.2+chunk.length)) ([], 0)
  .ok (sha256 hashed, size)

end Crypto

/-! The loops are the sealing and opening of the blocks that the file consists of. -/

section Loops
variable {Key : Type} {C : Cipher Key String UInt8} {key : Key} {label : String}

def WasRead (size : Nat) (current : Bytes) (reader : Reader) : Prop :=
  current.length = size ∨ current.length < size ∧ reader.rest = []

theorem wasRead_readFull (size : Nat) (r : Reader) :
    WasRead size (readFull size r).1 (readFull size r).2 := by
  unfold WasRead
  rw [readFull_fst, readFull_snd, List.length_take]
  by_cases h : size ≤ r.rest.length
  · exact .inl (Nat.min_eq_left h)
  · exact .inr ⟨by omega, List.drop_eq_nil_of_le (by omega)⟩

theorem readFull_spec (size : Nat) (r : Reader) :
    ∃ reader, readFull size r = (r.rest.take size, reader) ∧
      reader.rest = r.rest.drop size ∧ WasRead size (r.rest.take size) reader := by
  have hwas := wasRead_readFull size r
  rw [readFull_fst] at hwas
  exact ⟨(readFull size r).2, by rw [← readFull_fst], readFull_snd size r, hwas⟩

/-- With look-ahead a chunk is the last one, or it is full and followed by the
next one that was read. -/
theorem readNext_cases {size : Nat} (hsize : 0 < size) {current : Bytes} {r : Reader}
    (h : WasRead size current r) :
    (readNext size current r).1 = [] ∧ r.rest = [] ∧
        blocks size (current ++ r.rest) = [current] ∨
      (readNext size current r).1 ≠ [] ∧
        (readNext size current r).1 ++ (readNext size current r).2.rest = r.rest ∧
        WasRead size (readNext size current r).1 (readNext size current r).2 ∧
        blocks size (current ++ r.rest) = current :: blocks size r.rest := by
  rcases h with hfull | ⟨hshort, hrest⟩
  · unfold readNext
    rw [if_pos hfull]
    by_cases hrest : r.rest = []
    · left
      rw [readFull_fst, hrest, List.take_nil, List.append_nil]
      exact ⟨rfl, rfl, blocks_of_le (by omega)⟩
    · right
      have hpos := List.length_pos_of_ne_nil hrest
      refine ⟨fun hnil => ?_, ?_, wasRead_readFull size r, ?_⟩
      · rw [readFull_fst] at hnil
        have hlen := congrArg List.length hnil
        rw [List.length_take, List.length_nil] at hlen
        omega
      · rw [readFull_fst, readFull_snd, List.take_append_drop]
      · rw [blocks_of_lt hsize (by rw [List.length_append]; omega), List.take_left' hfull,
          List.drop_left' hfull]
  · left
    unfold readNext
    rw [if_neg (by omega), hrest, List.append_nil]
    exact ⟨rfl, rfl, blocks_of_le (by omega)⟩

theorem chunkSize_pos : 0 < chunkSize := by decide

theorem encryptLoop_eq {pre : Bytes} {position : Nat} {current : Bytes} {reader : Reader}
    {hashed written : Bytes} {size : Nat} (h : WasRead chunkSize current reader) :
    encryptLoop C key label pre position current reader hashed size written =
      match sealFrom C key pre label counterMax position
        (blocks chunkSize (current ++ reader.rest)) with
      | some cs => .ok (hashed ++ (current ++ reader.rest),
          size+(current ++ reader.rest).length, written ++ cs.flatten)
      | none => .error ("Encrypting " ++ label ++ " failed.") := by
  induction hn : reader.rest.length using Nat.strong_induction_on generalizing position current
    reader hashed size written with
  | _ n ih =>
    subst hn
    rw [encryptLoop]
    rcases readNext_cases chunkSize_pos h with ⟨hnil, hrest, hblocks⟩ | ⟨hne, hall, hnext, hblocks⟩
    · rw [if_pos hnil, hblocks, hrest, List.append_nil, sealFrom]
      simp
    · rw [if_neg hne, hblocks, sealFrom_of_ne_nil (blocks_ne_nil _ _)]
      split
      · rfl
      · rw [ih _ (readNext_progress hne) hnext rfl, hall]
        cases sealFrom C key pre label counterMax (position+1) (blocks chunkSize reader.rest) with
        | none => rfl
        | some cs => simp [Nat.add_assoc]

theorem decryptLoop_eq {β : Type} {f : β → Bytes → β} {pre : Bytes} {position : Nat}
    {current : Bytes} {reader : Reader} {out : β}
    (h : WasRead (chunkSize+tagSize) current reader) :
    decryptLoop C key label (fun out chunk => .ok (f out chunk)) pre position current reader out =
      match openFrom C key pre label counterMax position
        (blocks (chunkSize+tagSize) (current ++ reader.rest)) with
      | some bs => .ok (bs.foldl f out)
      | none => .error (damaged label) := by
  induction hn : reader.rest.length using Nat.strong_induction_on generalizing position current
    reader out with
  | _ n ih =>
    subst hn
    rw [decryptLoop]
    rcases readNext_cases (by decide) h with ⟨hnil, hrest, hblocks⟩ | ⟨hne, hall, hnext, hblocks⟩
    · rw [if_pos hnil, hblocks, openFrom]
      cases C.decrypt ⟨key, pre, position, true, label⟩ current <;> rfl
    · rw [if_neg hne, hblocks, openFrom_of_ne_nil (blocks_ne_nil _ _)]
      split
      · rfl
      · cases C.decrypt ⟨key, pre, position, false, label⟩ current with
        | none => rfl
        | some plain =>
          dsimp only
          rw [ih _ (readNext_progress hne) hnext rfl, hall, Option.bind_some]
          cases openFrom C key pre label counterMax (position+1)
            (blocks (chunkSize+tagSize) reader.rest) <;> rfl

theorem encryptFile_eq (sha256 : Bytes → String) (short : Nat → Nat) (pre source : Bytes) :
    encryptFile C key label sha256 short pre source =
      match sealFrom C key pre label counterMax 0 (blocks chunkSize source) with
      | some cs => .ok (pre ++ cs.flatten, sha256 source, source.length)
      | none => .error ("Encrypting " ++ label ++ " failed.") := by
  obtain ⟨reader, hread, hrest, hwas⟩ := readFull_spec chunkSize ⟨source, short, 0⟩
  rw [encryptFile, hread]
  dsimp only
  rw [encryptLoop_eq hwas, hrest, List.take_append_drop, List.nil_append, Nat.zero_add]
  cases sealFrom C key pre label counterMax 0 (blocks chunkSize source) <;> rfl

theorem decryptWith_eq {β : Type} (short : Nat → Nat) (source : Bytes) (f : β → Bytes → β)
    (out : β) :
    decryptWith C key label short source (fun out chunk => .ok (f out chunk)) out =
      if source.length < prefixSize then .error (damaged label)
      else match openFrom C key (source.take prefixSize) label counterMax 0
        (blocks (chunkSize+tagSize) (source.drop prefixSize)) with
      | some bs => .ok (bs.foldl f out)
      | none => .error (damaged label) := by
  obtain ⟨reader, hread, hrest, -⟩ := readFull_spec prefixSize ⟨source, short, 0⟩
  obtain ⟨reader', hread', hrest', hwas⟩ := readFull_spec (chunkSize+tagSize) reader
  rw [decryptWith, hread]
  dsimp only
  by_cases h : source.length < prefixSize
  · rw [if_pos h, if_pos (by rw [List.length_take]; omega)]
  · rw [if_neg h, if_neg (by rw [List.length_take]; omega), hread']
    dsimp only
    rw [decryptLoop_eq hwas, hrest', List.take_append_drop, hrest]

theorem foldl_append_eq (bs : List Bytes) (written : Bytes) :
    bs.foldl (fun written chunk => written ++ chunk) written = written ++ bs.flatten := by
  induction bs generalizing written with
  | nil => simp
  | cons b bs ih => simp [ih]

theorem foldl_hash_eq (bs : List Bytes) (hashed : Bytes) (size : Nat) :
    bs.foldl (fun (out : Bytes × Nat) chunk => (out.1 ++ chunk, out.2+chunk.length))
      (hashed, size) = (hashed ++ bs.flatten, size+bs.flatten.length) := by
  induction bs generalizing hashed size with
  | nil => simp
  | cons b bs ih => simp [ih, Nat.add_assoc]

theorem decryptFile_eq (short : Nat → Nat) (source : Bytes) :
    decryptFile C key label short source =
      if source.length < prefixSize then .error (damaged label)
      else match openFrom C key (source.take prefixSize) label counterMax 0
        (blocks (chunkSize+tagSize) (source.drop prefixSize)) with
      | some bs => .ok bs.flatten
      | none => .error (damaged label) := by
  rw [decryptFile, decryptWith_eq]
  simp only [foldl_append_eq, List.nil_append]

theorem decryptedSha_eq (sha256 : Bytes → String) (short : Nat → Nat) (source : Bytes) :
    decryptedSha C key label sha256 short source =
      (decryptFile C key label short source).map fun plain => (sha256 plain, plain.length) := by
  rw [decryptFile_eq, decryptedSha,
    decryptWith_eq (f := fun (out : Bytes × Nat) chunk => (out.1 ++ chunk, out.2+chunk.length))]
  simp only [foldl_hash_eq, List.nil_append, Nat.zero_add]
  split
  · rfl
  · cases openFrom C key (source.take prefixSize) label counterMax 0
      (blocks (chunkSize+tagSize) (source.drop prefixSize)) <;> rfl

end Loops

end Cinder.Backups
