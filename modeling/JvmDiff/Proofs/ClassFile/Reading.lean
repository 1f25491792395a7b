import JvmDiff.ClassFile.Write
import Mathlib.Data.List.Forall2
import Mathlib.Tactic.Ring

/-!
# What bytes are read as

A step of reading takes certain bytes as a value if it does so wherever they stand and whatever
follows them.  Steps that are joined take their bytes one after another.
-/

namespace JvmDiff.ClassFile

/-! ## Big-endian numbers -/

theorem length_bigEndian (count n : Nat) : (bigEndian count n).length = count := by
  induction count with
  | zero => rfl
  | succ count inductionHypothesis => rw [bigEndian, List.length_cons, inductionHypothesis]

theorem foldl_bytes (start : Nat) (bytes : List UInt8) :
    bytes.foldl (fun n byte => 256 * n + byte.toNat) start =
      start * 256 ^ bytes.length + ofBigEndian bytes := by
  induction bytes generalizing start with
  | nil => simp [ofBigEndian]
  | cons byte bytes inductionHypothesis =>
    have whole := inductionHypothesis (256 * start + byte.toNat)
    have part := inductionHypothesis (256 * 0 + byte.toNat)
    rw [ofBigEndian, List.foldl_cons, List.foldl_cons, whole, part, List.length_cons,
      Nat.pow_succ]
    ring

/-- The first byte counts for what all bytes after it can tell apart. -/
theorem ofBigEndian_cons (byte : UInt8) (bytes : List UInt8) :
    ofBigEndian (byte :: bytes) = byte.toNat * 256 ^ bytes.length + ofBigEndian bytes := by
  rw [ofBigEndian, List.foldl_cons, foldl_bytes, Nat.mul_zero, Nat.zero_add]

/-- The bytes of a number give back as much of it as fits them. -/
theorem ofBigEndian_bigEndian (count n : Nat) :
    ofBigEndian (bigEndian count n) = n % 256 ^ count := by
  induction count with
  | zero => simp [bigEndian, ofBigEndian, Nat.mod_one]
  | succ count inductionHypothesis =>
    have whole : n % 256 ^ (count + 1) =
        n % 256 ^ count + 256 ^ count * (n / 256 ^ count % 256) := by
      rw [Nat.pow_succ, Nat.mod_mul]
    have first : (UInt8.ofNat (n / Nat.pow 256 count)).toNat = n / 256 ^ count % 256 :=
      UInt8.toNat_ofNat'
    rw [bigEndian, ofBigEndian_cons, length_bigEndian, inductionHypothesis, first, whole]
    ring

theorem ofBigEndian_lt (bytes : List UInt8) : ofBigEndian bytes < 256 ^ bytes.length := by
  induction bytes with
  | nil => exact Nat.one_pos
  | cons byte bytes inductionHypothesis =>
    have first : byte.toNat + 1 ≤ 256 := byte.toNat_lt
    have scaled := Nat.mul_le_mul_right (256 ^ bytes.length) first
    rw [Nat.succ_mul] at scaled
    rw [ofBigEndian_cons, List.length_cons, Nat.pow_succ]
    omega

/-- What lies above the bytes that are written is lost. -/
theorem bigEndian_add_mul (count n more : Nat) :
    bigEndian count (n + 256 ^ count * more) = bigEndian count n := by
  induction count generalizing more with
  | zero => rfl
  | succ count inductionHypothesis =>
    have shifted : 256 ^ (count + 1) * more = 256 ^ count * (256 * more) := by
      rw [Nat.pow_succ, Nat.mul_assoc]
    have first : UInt8.ofNat ((n + 256 ^ count * (256 * more)) / 256 ^ count) =
        UInt8.ofNat (n / 256 ^ count) := by
      rw [Nat.add_mul_div_left _ _ (Nat.pow_pos (by decide))]
      apply UInt8.toNat_inj.mp
      simp
    rw [shifted, bigEndian, bigEndian, inductionHypothesis]
    exact congrArg (· :: _) first

/-- Bytes are those of the number that they spell. -/
theorem bigEndian_ofBigEndian (bytes : List UInt8) :
    bigEndian bytes.length (ofBigEndian bytes) = bytes := by
  induction bytes with
  | nil => rfl
  | cons byte bytes inductionHypothesis =>
    have below := ofBigEndian_lt bytes
    have first : (ofBigEndian bytes + 256 ^ bytes.length * byte.toNat) / 256 ^ bytes.length =
        byte.toNat := by
      rw [Nat.add_mul_div_left _ _ (Nat.pow_pos (by decide)), Nat.div_eq_of_lt below,
        Nat.zero_add]
    have whole : ofBigEndian (byte :: bytes) =
        ofBigEndian bytes + 256 ^ bytes.length * byte.toNat := by
      rw [ofBigEndian_cons, Nat.add_comm, Nat.mul_comm]
    rw [whole, List.length_cons, bigEndian, bigEndian_add_mul, inductionHypothesis]
    change UInt8.ofNat (_ / 256 ^ bytes.length) :: bytes = _
    rw [first, UInt8.ofNat_toNat]

namespace Reader

/-! ## Steps of reading -/

/-- The step takes the bytes as the value, whatever follows them. -/
def Reads {α : Type} (read : Reader α) (bytes : List UInt8) (value : α) : Prop :=
  ∀ (position : Nat) (rest : List UInt8),
    read ⟨position, bytes ++ rest⟩ = .ok (value, ⟨position + bytes.length, rest⟩)

variable {α β : Type}

theorem reads_pure (value : α) : Reads (pure value) [] value := fun _ _ => rfl

theorem reads_result {found value : α} (same : found = value) : Reads (pure found) [] value :=
  same ▸ reads_pure found

/-- Steps one after another take their bytes one after another. -/
theorem Reads.bind {read : Reader α} {next : α → Reader β} {first second : List UInt8}
    {value : α} {result : β} (readsFirst : Reads read first value)
    (readsSecond : Reads (next value) second result) :
    Reads (read >>= next) (first ++ second) result := by
  intro position rest
  have known := readsFirst position (second ++ rest)
  change (read ⟨position, first ++ second ++ rest⟩ >>= fun found => next found.1 found.2) = _
  rw [List.append_assoc, known]
  change next value ⟨position + first.length, second ++ rest⟩ = _
  rw [readsSecond, List.length_append, Nat.add_assoc]

theorem Reads.bind_nil {read : Reader α} {next : α → Reader β} {bytes : List UInt8}
    {value : α} {result : β} (reads : Reads read bytes value)
    (readsNext : Reads (next value) [] result) : Reads (read >>= next) bytes result := by
  have joined := reads.bind readsNext
  rwa [List.append_nil] at joined

theorem Reads.ofExcept_bind {found : Except Error α} {value : α} (isFound : found = .ok value)
    {next : α → Reader β} {bytes : List UInt8} {result : β}
    (reads : Reads (next value) bytes result) : Reads (ofExcept found >>= next) bytes result := by
  subst isFound
  exact fun position rest => reads position rest

theorem reads_ofExcept {found : Except Error α} {value : α} (isFound : found = .ok value) :
    Reads (ofExcept found) [] value := by
  subst isFound
  exact fun _ _ => rfl

theorem reads_take (bytes : List UInt8) : Reads (take bytes.length) bytes bytes := by
  intro position rest
  rw [take]
  simp

theorem reads_number {count n : Nat} (fits : n < 256 ^ count) :
    Reads (number count) (bigEndian count n) n := by
  have known := reads_take (bigEndian count n)
  rw [length_bigEndian] at known
  have value : ofBigEndian (bigEndian count n) = n := by
    rw [ofBigEndian_bigEndian, Nat.mod_eq_of_lt fits]
  refine known.bind_nil ?_
  rw [value]
  exact reads_pure n

theorem reads_u1 {n : Nat} (fits : n < 256) : Reads u1 [UInt8.ofNat n] n := by
  have oneByte : n < 256 ^ 1 := fits
  have known := reads_number oneByte
  have single : bigEndian 1 n = [UInt8.ofNat n] := by simp [bigEndian]
  rwa [single] at known

theorem reads_u2 {n : Nat} (fits : n < 0x10000) : Reads u2 (bigEndian 2 n) n :=
  reads_number fits

theorem reads_u4 {n : Nat} (fits : n < 0x100000000) : Reads u4 (bigEndian 4 n) n :=
  reads_number fits

/-! ## Lists -/

theorem reads_repeated {read : Reader α} {parts : List (List UInt8)} {values : List α}
    (reads : List.Forall₂ (Reads read) parts values) :
    Reads (repeated read parts.length) parts.flatten values := by
  induction reads with
  | nil => exact reads_pure []
  | cons first _ inductionHypothesis =>
    exact first.bind (inductionHypothesis.bind_nil (reads_pure _))

theorem reads_counted {read : Reader α} {parts : List (List UInt8)} {values : List α}
    (short : parts.length ≤ 0xFFFF) (reads : List.Forall₂ (Reads read) parts values) :
    Reads (counted read) (countedBytes parts) values := by
  rw [countedBytes, Nat.min_eq_left short]
  exact (reads_u2 (Nat.lt_succ_of_le short)).bind (reads_repeated reads)

/-- A body of its own that a step uses up. -/
theorem Reads.within {read : Reader α} {body : List UInt8} {value : α}
    (reads : Reads read body value) :
    Reads (within body read) [] (value, ⟨body.length, []⟩) := by
  refine reads_ofExcept ?_
  have known := reads 0 []
  rwa [List.append_nil, Nat.zero_add] at known

/-! ## Steps that fail -/

/-- The step fails on the bytes, whatever follows them. -/
def Refuses (read : Reader α) (bytes : List UInt8) (error : Error) : Prop :=
  ∀ (position : Nat) (rest : List UInt8), read ⟨position, bytes ++ rest⟩ = .error error

variable {read : Reader α} {next : α → Reader β} {error : Error}

theorem Refuses.bind {bytes : List UInt8} (refuses : Refuses read bytes error) :
    Refuses (read >>= next) bytes error := by
  intro position rest
  change (read ⟨position, bytes ++ rest⟩ >>= fun found => next found.1 found.2) = _
  rw [refuses]
  rfl

/-- A step that succeeds, before one that fails. -/
theorem Reads.refuses {first second : List UInt8} {value : α} (reads : Reads read first value)
    (refuses : Refuses (next value) second error) :
    Refuses (read >>= next) (first ++ second) error := by
  intro position rest
  change (read ⟨position, first ++ second ++ rest⟩ >>= fun found => next found.1 found.2) = _
  rw [List.append_assoc, reads]
  exact refuses _ rest

end Reader

end JvmDiff.ClassFile
