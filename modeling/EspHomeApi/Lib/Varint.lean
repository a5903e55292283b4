import EspHomeApi.Lib.Reader
import Mathlib.Algebra.Order.Ring.Nat

/-!
# Base-128 varints

A varint holds seven bits of a number in each byte, lowest first, and sets the top bit of
every byte but the last. The reader accepts at most ten bytes and is local; the writer emits
the shortest form, which the reader inverts whatever follows it.
-/

namespace Varint

open Reader

/-- Read at most `limit` bytes of one varint. -/
def readUpTo : ℕ → List UInt8 → Option (ℕ × List UInt8)
  | 0, _ => none
  | _ + 1, [] => none
  | limit + 1, byte :: rest =>
    if byte.toNat < 128 then some (byte.toNat, rest)
    else (readUpTo limit rest).map fun (upper, rest) => (byte.toNat - 128 + 128 * upper, rest)

/-- Read one varint of at most ten bytes. -/
def read : List UInt8 → Option (ℕ × List UInt8) := readUpTo 10

/-- Write a number in at most `more + 1` bytes. -/
def writeUpTo : ℕ → ℕ → List UInt8
  | 0, n => [UInt8.ofNat n]
  | more + 1, n =>
    if n < 128 then [UInt8.ofNat n]
    else UInt8.ofNat (n % 128 + 128) :: writeUpTo more (n / 128)

/-- Write a number below `2 ^ 70` in its shortest form. -/
def write (n : ℕ) : List UInt8 := writeUpTo 9 n

/-- A byte without the top bit is a whole varint. -/
theorem readUpTo_short (limit : ℕ) (byte : UInt8) (rest : List UInt8) (h : byte.toNat < 128) :
    readUpTo (limit + 1) (byte :: rest) = some (byte.toNat, rest) := by
  simp [readUpTo, h]

/-- A byte with the top bit set is followed by the upper digits. -/
theorem readUpTo_long (limit : ℕ) (byte : UInt8) (rest : List UInt8) (h : ¬ byte.toNat < 128) :
    readUpTo (limit + 1) (byte :: rest) =
      (readUpTo limit rest).map fun (upper, rest) => (byte.toNat - 128 + 128 * upper, rest) := by
  simp [readUpTo, h]

/-- What follows a varint never changes how it is read. -/
theorem local_readUpTo (limit : ℕ) : Local (readUpTo limit) := by
  induction limit with
  | zero => intro input value rest h; simp [readUpTo] at h
  | succ limit ih =>
    intro input value rest h
    cases input with
    | nil => simp [readUpTo] at h
    | cons byte input =>
      by_cases hbyte : byte.toNat < 128
      · rw [readUpTo_short limit byte input hbyte] at h
        simp only [Option.some.injEq, Prod.mk.injEq] at h
        obtain ⟨rfl, rfl⟩ := h
        exact ⟨[byte], rfl, fun rest => readUpTo_short limit byte rest hbyte⟩
      · rw [readUpTo_long limit byte input hbyte] at h
        obtain ⟨⟨upper, rest'⟩, hupper, heq⟩ := Option.map_eq_some_iff.mp h
        simp only [Prod.mk.injEq] at heq
        obtain ⟨rfl, rfl⟩ := heq
        obtain ⟨word, rfl, hword⟩ := ih input upper rest' hupper
        refine ⟨byte :: word, rfl, fun rest => ?_⟩
        rw [List.cons_append, readUpTo_long limit byte _ hbyte, hword]
        rfl

/-- A varint has at least one byte. -/
theorem readUpTo_length_lt {limit : ℕ} {input rest : List UInt8} {value : ℕ}
    (h : readUpTo limit input = some (value, rest)) : rest.length < input.length := by
  induction limit generalizing input value with
  | zero => simp [readUpTo] at h
  | succ limit ih =>
    cases input with
    | nil => simp [readUpTo] at h
    | cons byte input =>
      by_cases hbyte : byte.toNat < 128
      · rw [readUpTo_short limit byte input hbyte] at h
        simp only [Option.some.injEq, Prod.mk.injEq] at h
        simp [← h.2]
      · rw [readUpTo_long limit byte input hbyte] at h
        obtain ⟨⟨upper, rest'⟩, hupper, heq⟩ := Option.map_eq_some_iff.mp h
        simp only [Prod.mk.injEq] at heq
        obtain ⟨-, rfl⟩ := heq
        exact Nat.lt_succ_of_lt (ih hupper)

/-- A number below 256 is the value of its byte. -/
theorem toNat_ofNat (n : ℕ) (h : n < 256) : (UInt8.ofNat n).toNat = n :=
  UInt8.toNat_ofNat_of_lt' h

/-- The shortest form of a number reads back as the number. -/
theorem reads_writeUpTo (more n : ℕ) (h : n < 128 ^ (more + 1)) :
    Reads (readUpTo (more + 1)) (writeUpTo more n) n := by
  induction more generalizing n with
  | zero =>
    intro rest
    have hbyte : (UInt8.ofNat n).toNat = n := toNat_ofNat n (by simpa using h.trans_le (by decide))
    rw [writeUpTo, List.singleton_append, readUpTo_short _ _ _ (by rw [hbyte]; simpa using h),
      hbyte]
  | succ more ih =>
    intro rest
    by_cases hn : n < 128
    · have hbyte : (UInt8.ofNat n).toNat = n := toNat_ofNat n (by omega)
      rw [writeUpTo, if_pos hn, List.singleton_append,
        readUpTo_short _ _ _ (by rw [hbyte]; exact hn), hbyte]
    · have hbyte : (UInt8.ofNat (n % 128 + 128)).toNat = n % 128 + 128 :=
        toNat_ofNat _ (by omega)
      have hdiv : n / 128 < 128 ^ (more + 1) := by
        rw [Nat.div_lt_iff_lt_mul (by decide)]
        rwa [pow_succ] at h
      rw [writeUpTo, if_neg hn, List.cons_append,
        readUpTo_long _ _ _ (by rw [hbyte]; omega), ih (n / 128) hdiv, hbyte]
      simp only [Option.map_some, Option.some.injEq, Prod.mk.injEq, and_true]
      omega

/-- Reading a varint depends on its own bytes only. -/
theorem local_read : Local read := local_readUpTo 10

/-- A varint has at least one byte. -/
theorem read_length_lt {input rest : List UInt8} {value : ℕ}
    (h : read input = some (value, rest)) : rest.length < input.length :=
  readUpTo_length_lt h

/-- Every 64-bit number reads back from its shortest form. -/
theorem reads_write (n : ℕ) (h : n < 2 ^ 64) : Reads read (write n) n :=
  reads_writeUpTo 9 n (h.trans_le (by decide))

/-- A number below 128 is written as one byte. -/
theorem write_of_lt (n : ℕ) (h : n < 128) : write n = [UInt8.ofNat n] := by
  rw [write, writeUpTo, if_pos h]

/-- A varint of `k` bytes has at most `7 * k` bits. -/
theorem readUpTo_lt {limit : ℕ} {input rest : List UInt8} {value : ℕ}
    (h : readUpTo limit input = some (value, rest)) :
    value < 128 ^ (input.length - rest.length) := by
  induction limit generalizing input value with
  | zero => simp [readUpTo] at h
  | succ limit ih =>
    cases input with
    | nil => simp [readUpTo] at h
    | cons byte input =>
      by_cases hbyte : byte.toNat < 128
      · rw [readUpTo_short limit byte input hbyte] at h
        simp only [Option.some.injEq, Prod.mk.injEq] at h
        obtain ⟨rfl, rfl⟩ := h
        simpa using hbyte
      · rw [readUpTo_long limit byte input hbyte] at h
        obtain ⟨⟨upper, rest'⟩, hupper, heq⟩ := Option.map_eq_some_iff.mp h
        simp only [Prod.mk.injEq] at heq
        obtain ⟨rfl, rfl⟩ := heq
        have hlt := readUpTo_length_lt hupper
        have hrest := ih hupper
        have hbound := byte.toNat_lt
        rw [List.length_cons, Nat.succ_sub (by omega), pow_succ]
        omega

/-- A number of at most `7 * k` bits is written in at most `k` bytes. -/
theorem writeUpTo_length_le (more k n : ℕ) (h : n < 128 ^ (k + 1)) :
    (writeUpTo more n).length ≤ k + 1 := by
  induction k generalizing more n with
  | zero =>
    cases more with
    | zero => simp [writeUpTo]
    | succ more => rw [writeUpTo, if_pos (by simpa using h)]; simp
  | succ k ih =>
    cases more with
    | zero => simp [writeUpTo]
    | succ more =>
      rw [writeUpTo]
      split
      · simp
      · have hdiv : n / 128 < 128 ^ (k + 1) := by
          rw [Nat.div_lt_iff_lt_mul (by decide)]
          rwa [pow_succ] at h
        have hlength := ih more (n / 128) hdiv
        rw [List.length_cons]
        omega

/-- Something is written for every number. -/
theorem writeUpTo_ne_nil (more n : ℕ) : writeUpTo more n ≠ [] := by
  cases more with
  | zero => simp [writeUpTo]
  | succ more =>
    rw [writeUpTo]
    split <;> simp

/-- A number of more than `7 * k` bits needs more than `k` bytes. -/
theorem lt_writeUpTo_length (more k n : ℕ) (hk : k ≤ more) (h : 128 ^ k ≤ n) :
    k < (writeUpTo more n).length := by
  induction k generalizing more n with
  | zero => exact List.length_pos_iff.mpr (writeUpTo_ne_nil more n)
  | succ k ih =>
    obtain ⟨more, rfl⟩ := Nat.exists_eq_add_one_of_ne_zero (by omega : more ≠ 0)
    have hlarge : 128 ≤ n := le_trans (Nat.le_self_pow (by omega) 128) h
    have hdiv : 128 ^ k ≤ n / 128 := by
      rw [Nat.le_div_iff_mul_le (by decide), ← pow_succ]
      exact h
    rw [writeUpTo, if_neg (by omega), List.length_cons]
    exact Nat.succ_lt_succ (ih more (n / 128) (by omega) hdiv)

/-- No varint of a number, or of a larger one, is shorter than what is written. -/
theorem write_length_le {word : List UInt8} {n value : ℕ} (hword : Reads read word value)
    (h : n ≤ value) : (write n).length ≤ word.length := by
  have hread := hword []
  rw [List.append_nil] at hread
  have hpos := read_length_lt hread
  rw [List.length_nil] at hpos
  obtain ⟨length, hlength⟩ := Nat.exists_eq_add_one_of_ne_zero (by omega : word.length ≠ 0)
  have hvalue := readUpTo_lt hread
  rw [List.length_nil, Nat.sub_zero, hlength] at hvalue
  rw [hlength]
  exact writeUpTo_length_le 9 length n (h.trans_lt hvalue)

/-- A shortest form has at least one byte. -/
theorem write_ne_nil (n : ℕ) : write n ≠ [] := writeUpTo_ne_nil 9 n

end Varint
