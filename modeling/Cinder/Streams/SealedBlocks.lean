import Mathlib.Data.List.Basic
set_option autoImplicit false

/-!
A stream cut into blocks and sealed block by block. The place of a block, with
its position and whether it is the last one, is bound into its seal, so a list of
sealed blocks opens only as a whole.
-/

namespace Cinder.Streams

section Blocks
variable {α : Type}

/-- Blocks of `n`, as a reader with look-ahead cuts them: a full block is the
last one when nothing follows it. The empty stream is one empty block. -/
def blocks (n : Nat) (xs : List α) : List (List α) :=
  if 0 < n ∧ n < xs.length then xs.take n :: blocks n (xs.drop n) else [xs]
termination_by xs.length
decreasing_by
  rw [List.length_drop]
  omega

theorem blocks_of_le {n : Nat} {xs : List α} (h : xs.length ≤ n) : blocks n xs = [xs] := by
  rw [blocks, if_neg (by omega)]

theorem blocks_of_lt {n : Nat} {xs : List α} (hn : 0 < n) (h : n < xs.length) :
    blocks n xs = xs.take n :: blocks n (xs.drop n) := by
  rw [blocks, if_pos ⟨hn, h⟩]

theorem blocks_ne_nil (n : Nat) (xs : List α) : blocks n xs ≠ [] := by
  rw [blocks]
  split <;> simp

theorem flatten_blocks (n : Nat) (xs : List α) : (blocks n xs).flatten = xs := by
  induction xs using blocks.induct n with
  | case1 xs h ih => rw [blocks, if_pos h, List.flatten_cons, ih, List.take_append_drop]
  | case2 xs h => rw [blocks, if_neg h, List.flatten_cons, List.flatten_nil, List.append_nil]

/-- Every block but the last is full, and the last one is not empty unless it is
the only one. -/
def Blocked (n : Nat) : List (List α) → Prop
  | [] => False
  | [b] => b.length ≤ n
  | b :: bs => b.length = n ∧ bs.flatten ≠ [] ∧ Blocked n bs

theorem blocked_cons {n : Nat} {b : List α} {bs : List (List α)} (hbs : bs ≠ []) :
    Blocked n (b :: bs) ↔ b.length = n ∧ bs.flatten ≠ [] ∧ Blocked n bs := by
  cases bs with
  | nil => exact absurd rfl hbs
  | cons c bs => rfl

theorem blocked_blocks {n : Nat} (hn : 0 < n) (xs : List α) : Blocked n (blocks n xs) := by
  induction xs using blocks.induct n with
  | case1 xs h ih =>
    rw [blocks_of_lt hn h.2, blocked_cons (blocks_ne_nil _ _), flatten_blocks]
    refine ⟨by rw [List.length_take]; omega, fun hdrop => ?_, ih⟩
    have hlen := congrArg List.length hdrop
    rw [List.length_drop, List.length_nil] at hlen
    omega
  | case2 xs h =>
    have hle : xs.length ≤ n := by omega
    rw [blocks_of_le hle]
    exact hle

theorem blocks_flatten {n : Nat} (hn : 0 < n) {bs : List (List α)} (h : Blocked n bs) :
    blocks n bs.flatten = bs := by
  induction bs with
  | nil => exact h.elim
  | cons b bs ih =>
    cases bs with
    | nil =>
      rw [List.flatten_cons, List.flatten_nil, List.append_nil]
      exact blocks_of_le h
    | cons c bs =>
      obtain ⟨hb, hne, hbs⟩ := h
      have hpos := List.length_pos_of_ne_nil hne
      rw [List.flatten_cons, blocks_of_lt hn (by rw [List.length_append]; omega),
        List.take_left' hb, List.drop_left' hb, ih hbs]

theorem length_blocks_le {n : Nat} (hn : 0 < n) (xs : List α) {k : Nat} (hk : 0 < k)
    (h : xs.length ≤ n*k) : (blocks n xs).length ≤ k := by
  induction xs using blocks.induct n generalizing k with
  | case1 xs hlt ih =>
    have hk' : 1 < k := by
      by_contra hle
      have hone : k = 1 := by omega
      rw [hone] at h
      omega
    have hnk : n*k = n*(k-1)+n := by
      rw [← Nat.mul_succ, Nat.succ_eq_add_one, Nat.sub_add_cancel hk]
    rw [blocks_of_lt hn hlt.2, List.length_cons]
    have hih := ih (k := k-1) (by omega) (by rw [List.length_drop]; omega)
    omega
  | case2 xs hle =>
    rw [blocks, if_neg hle]
    exact hk

end Blocks

/-- What is bound into the seal of a block. -/
structure Place (Key Label α : Type) where
  key : Key
  pre : List α
  position : Nat
  last : Bool
  label : Label
  deriving DecidableEq

structure Cipher (Key Label α : Type) where
  encrypt : Place Key Label α → List α → List α
  decrypt : Place Key Label α → List α → Option (List α)

variable {Key Label α : Type}

structure Opens (C : Cipher Key Label α) (tag : Nat)
    (used : Place Key Label α → List α → Prop) : Prop where
  decrypt_encrypt : ∀ p m, used p m → C.decrypt p (C.encrypt p m) = some m
  length_encrypt : ∀ p m, (C.encrypt p m).length = m.length+tag

/-- `used` is what was ever encrypted. Nothing else decrypts, and a sealed block
decrypts at its own place only. -/
structure Ideal (C : Cipher Key Label α) (tag : Nat)
    (used : Place Key Label α → List α → Prop) : Prop where
  decrypt_encrypt : ∀ p m, used p m → C.decrypt p (C.encrypt p m) = some m
  length_encrypt : ∀ p m, (C.encrypt p m).length = m.length+tag
  genuine : ∀ p c m, C.decrypt p c = some m → used p m ∧ c = C.encrypt p m
  distinct : ∀ p m p' m', used p m → used p' m' → C.encrypt p m = C.encrypt p' m' → p = p'

theorem Ideal.opens {C : Cipher Key Label α} {tag : Nat}
    {used : Place Key Label α → List α → Prop} (h : Ideal C tag used) : Opens C tag used :=
  ⟨h.decrypt_encrypt, h.length_encrypt⟩

section Sealing
variable (C : Cipher Key Label α) (key : Key) (pre : List α) (label : Label) (limit : Nat)

/-- The blocks of a stream from position `i` on. A block before the last one
needs a position below the limit. -/
def sealFrom (i : Nat) : List (List α) → Option (List (List α))
  | [] => some []
  | [b] => some [C.encrypt ⟨key, pre, i, true, label⟩ b]
  | b :: c :: bs =>
    if i = limit then none
    else (sealFrom (i+1) (c :: bs)).map (C.encrypt ⟨key, pre, i, false, label⟩ b :: ·)

def openFrom (i : Nat) : List (List α) → Option (List (List α))
  | [] => some []
  | [c] => (C.decrypt ⟨key, pre, i, true, label⟩ c).map ([·])
  | c :: d :: cs =>
    if i = limit then none
    else (C.decrypt ⟨key, pre, i, false, label⟩ c).bind fun b =>
      (openFrom (i+1) (d :: cs)).map (b :: ·)

def InStream (bs : List (List α)) (p : Place Key Label α) (m : List α) : Prop :=
  bs[p.position]? = some m ∧ p.key = key ∧ p.pre = pre ∧ p.label = label ∧
    p.last = decide (p.position+1 = bs.length)

end Sealing

section Results
variable {C : Cipher Key Label α} {key : Key} {pre : List α} {label : Label} {limit : Nat}

theorem sealFrom_isSome {bs : List (List α)} {i : Nat} (h : i+bs.length ≤ limit+1) :
    ∃ cs, sealFrom C key pre label limit i bs = some cs := by
  induction bs generalizing i with
  | nil => exact ⟨[], rfl⟩
  | cons b bs ih =>
    cases bs with
    | nil => exact ⟨_, rfl⟩
    | cons c bs =>
      simp only [List.length_cons] at h
      obtain ⟨cs, hcs⟩ := ih (i := i+1) (by simp only [List.length_cons]; omega)
      exact ⟨_, by rw [sealFrom, if_neg (by omega), hcs, Option.map_some]⟩

theorem sealFrom_of_ne_nil {b : List α} {bs : List (List α)} {i : Nat} (hbs : bs ≠ []) :
    sealFrom C key pre label limit i (b :: bs) = if i = limit then none
      else (sealFrom C key pre label limit (i+1) bs).map
        (C.encrypt ⟨key, pre, i, false, label⟩ b :: ·) := by
  cases bs with
  | nil => exact absurd rfl hbs
  | cons c bs => rfl

theorem openFrom_of_ne_nil {c : List α} {cs : List (List α)} {i : Nat} (hcs : cs ≠ []) :
    openFrom C key pre label limit i (c :: cs) = if i = limit then none
      else (C.decrypt ⟨key, pre, i, false, label⟩ c).bind fun b =>
        (openFrom C key pre label limit (i+1) cs).map (b :: ·) := by
  cases cs with
  | nil => exact absurd rfl hcs
  | cons d cs => rfl

theorem sealFrom_cons {b c : List α} {bs cs : List (List α)} {i : Nat}
    (h : sealFrom C key pre label limit i (b :: c :: bs) = some cs) :
    i ≠ limit ∧ ∃ cs', sealFrom C key pre label limit (i+1) (c :: bs) = some cs' ∧
      cs = C.encrypt ⟨key, pre, i, false, label⟩ b :: cs' := by
  rw [sealFrom] at h
  split at h
  · cases h
  · next hi =>
    obtain ⟨cs', hcs', rfl⟩ := Option.map_eq_some_iff.mp h
    exact ⟨hi, cs', hcs', rfl⟩

theorem mem_sealFrom {bs cs : List (List α)} {i : Nat} {x : List α}
    (h : sealFrom C key pre label limit i bs = some cs) (hx : x ∈ cs) :
    ∃ p m, x = C.encrypt p m := by
  induction bs generalizing i cs with
  | nil => cases h; cases hx
  | cons b bs ih =>
    cases bs with
    | nil =>
      cases h
      exact ⟨_, _, List.mem_singleton.mp hx⟩
    | cons c bs =>
      obtain ⟨-, cs', hcs', rfl⟩ := sealFrom_cons h
      rcases List.mem_cons.mp hx with rfl | hx
      · exact ⟨_, _, rfl⟩
      · exact ih hcs' hx

theorem length_sealFrom {bs cs : List (List α)} {i : Nat}
    (h : sealFrom C key pre label limit i bs = some cs) : cs.length = bs.length := by
  induction bs generalizing i cs with
  | nil => cases h; rfl
  | cons b bs ih =>
    cases bs with
    | nil => cases h; rfl
    | cons c bs =>
      obtain ⟨-, cs', hcs', rfl⟩ := sealFrom_cons h
      rw [List.length_cons, ih hcs']
      rfl

variable {tag : Nat} {used : Place Key Label α → List α → Prop}

theorem flatten_sealFrom_ne_nil (hC : Opens C tag used) (htag : 0 < tag) {bs cs : List (List α)}
    {i : Nat} (hbs : bs ≠ []) (h : sealFrom C key pre label limit i bs = some cs) :
    cs.flatten ≠ [] := by
  have hlen := length_sealFrom h
  cases cs with
  | nil => exact absurd (List.length_eq_zero_iff.mp hlen.symm) hbs
  | cons x cs =>
    obtain ⟨p, m, rfl⟩ := mem_sealFrom h List.mem_cons_self
    intro hflat
    have hzero := congrArg List.length (List.append_eq_nil_iff.mp hflat).1
    rw [hC.length_encrypt, List.length_nil] at hzero
    omega

theorem blocked_sealFrom (hC : Opens C tag used) (htag : 0 < tag) {n : Nat}
    {bs cs : List (List α)} {i : Nat} (hbs : Blocked n bs)
    (h : sealFrom C key pre label limit i bs = some cs) : Blocked (n+tag) cs := by
  induction bs generalizing i cs with
  | nil => exact hbs.elim
  | cons b bs ih =>
    cases bs with
    | nil =>
      cases h
      have hb : b.length ≤ n := hbs
      show (C.encrypt _ b).length ≤ n+tag
      rw [hC.length_encrypt]
      omega
    | cons c bs =>
      obtain ⟨hb, -, hrest⟩ := hbs
      obtain ⟨-, cs', hcs', rfl⟩ := sealFrom_cons h
      have hflat := flatten_sealFrom_ne_nil hC htag (by simp) hcs'
      rw [blocked_cons (fun hnil => hflat (by rw [hnil]; rfl))]
      exact ⟨by rw [hC.length_encrypt, hb], hflat, ih hrest hcs'⟩

theorem inStream_of_drop {bs rest : List (List α)} {b : List α} {i : Nat}
    (h : bs.drop i = b :: rest) :
    InStream key pre label bs ⟨key, pre, i, rest.isEmpty, label⟩ b := by
  have hlen := congrArg List.length h
  rw [List.length_drop, List.length_cons] at hlen
  refine ⟨?_, rfl, rfl, rfl, ?_⟩
  · have hhead := congrArg List.head? h
    rwa [List.head?_drop, List.head?_cons] at hhead
  · have hend : rest.length = 0 ↔ i+1 = bs.length := by omega
    rw [Bool.eq_iff_iff, List.isEmpty_iff, ← List.length_eq_zero_iff, hend, decide_eq_true_eq]

theorem openFrom_sealFrom (hC : Opens C tag used) {bs rest cs : List (List α)} {i : Nat}
    (hall : ∀ p m, InStream key pre label bs p m → used p m) (hrest : bs.drop i = rest)
    (h : sealFrom C key pre label limit i rest = some cs) :
    openFrom C key pre label limit i cs = some rest := by
  induction rest generalizing i cs with
  | nil => cases h; rfl
  | cons b rest ih =>
    have hback := hC.decrypt_encrypt _ _ (hall _ _ (inStream_of_drop hrest))
    cases rest with
    | nil =>
      cases h
      rw [List.isEmpty_nil] at hback
      rw [openFrom, hback, Option.map_some]
    | cons c rest =>
      obtain ⟨hi, cs', hcs', rfl⟩ := sealFrom_cons h
      have hnext : bs.drop (i+1) = c :: rest := by
        rw [← List.drop_drop, hrest, List.drop_one, List.tail_cons]
      have hopen := ih hnext hcs'
      have hlen := length_sealFrom hcs'
      cases cs' with
      | nil => cases hlen
      | cons d cs' =>
        rw [List.isEmpty_cons] at hback
        rw [openFrom, if_neg hi, hback, Option.bind_some, hopen, Option.map_some]

/-- Under a key and prefix that only one stream was sealed with, nothing opens
but that stream. -/
theorem sealFrom_of_openFrom (hC : Ideal C tag used) {bs cs ms : List (List α)} {i : Nat}
    (hall : ∀ p m, used p m → p.key = key → p.pre = pre → InStream key pre label bs p m)
    {label' : Label} (hcs : cs ≠ []) (h : openFrom C key pre label' limit i cs = some ms) :
    label' = label ∧ sealFrom C key pre label limit i (bs.drop i) = some cs := by
  induction cs generalizing i ms with
  | nil => exact absurd rfl hcs
  | cons c cs ih =>
    cases cs with
    | nil =>
      obtain ⟨m, hm, -⟩ := Option.map_eq_some_iff.mp h
      obtain ⟨hused, rfl⟩ := hC.genuine _ _ _ hm
      obtain ⟨hget, -, -, rfl, hlast⟩ := hall _ _ hused rfl rfl
      have hlen : i+1 = bs.length := by simpa using hlast
      have hdrop : bs.drop i = [m] := by
        have hi : i < bs.length := by omega
        rw [List.drop_eq_getElem_cons hi, List.drop_eq_nil_of_le (by omega)]
        rw [List.getElem?_eq_getElem hi] at hget
        rw [Option.some.inj hget]
      exact ⟨rfl, by rw [hdrop]; rfl⟩
    | cons d cs =>
      rw [openFrom] at h
      split at h
      · cases h
      · next hi =>
        obtain ⟨m, hm, h'⟩ := Option.bind_eq_some_iff.mp h
        obtain ⟨ms', hms', -⟩ := Option.map_eq_some_iff.mp h'
        obtain ⟨hused, rfl⟩ := hC.genuine _ _ _ hm
        obtain ⟨hget, -, -, rfl, hlast⟩ := hall _ _ hused rfl rfl
        obtain ⟨-, hrest⟩ := ih (by simp) hms'
        have hlt : i < bs.length := by
          by_contra hge
          rw [List.getElem?_eq_none (by simpa using hge)] at hget
          cases hget
        have hne : ¬i+1 = bs.length := by simpa using hlast
        have hdrop : bs.drop i = m :: bs.drop (i+1) := by
          rw [List.drop_eq_getElem_cons hlt]
          rw [List.getElem?_eq_getElem hlt] at hget
          rw [Option.some.inj hget]
        have hnext : bs.drop (i+1) ≠ [] := by
          intro hnil
          have hlen := congrArg List.length hnil
          rw [List.length_drop, List.length_nil] at hlen
          omega
        obtain ⟨b', bs', hcons⟩ := List.exists_cons_of_ne_nil hnext
        rw [hcons] at hrest
        exact ⟨rfl, by rw [hdrop, hcons, sealFrom, if_neg hi, hrest, Option.map_some]⟩

theorem openFrom_other (hC : Ideal C tag used) {bs cs ms : List (List α)}
    (hall : ∀ p m, InStream key pre label bs p m → used p m) (hbs : bs ≠ [])
    (h : sealFrom C key pre label limit 0 bs = some cs) {key' : Key} {label' : Label}
    (hopen : openFrom C key' pre label' limit 0 cs = some ms) : key' = key ∧ label' = label := by
  cases bs with
  | nil => exact absurd rfl hbs
  | cons b bs =>
    have hdrop : (b :: bs).drop 0 = b :: bs := rfl
    have hb := hall _ _ (inStream_of_drop hdrop)
    have hplace : ∀ (last : Bool) (c m : List α),
        c = C.encrypt ⟨key, pre, 0, bs.isEmpty, label⟩ b →
        C.decrypt ⟨key', pre, 0, last, label'⟩ c = some m → key' = key ∧ label' = label := by
      rintro last c m rfl hm
      obtain ⟨hused, heq⟩ := hC.genuine _ _ _ hm
      have hsame := hC.distinct _ _ _ _ hb hused heq
      injection hsame with hkey _ _ _ hlabel
      exact ⟨hkey.symm, hlabel.symm⟩
    cases bs with
    | nil =>
      cases h
      obtain ⟨m, hm, -⟩ := Option.map_eq_some_iff.mp hopen
      exact hplace _ _ m rfl hm
    | cons c bs =>
      obtain ⟨hi, cs', hcs', rfl⟩ := sealFrom_cons h
      have hlen := length_sealFrom hcs'
      cases cs' with
      | nil => cases hlen
      | cons d cs' =>
        rw [openFrom, if_neg hi] at hopen
        obtain ⟨m, hm, -⟩ := Option.bind_eq_some_iff.mp hopen
        exact hplace _ _ m rfl hm

end Results

end Cinder.Streams
