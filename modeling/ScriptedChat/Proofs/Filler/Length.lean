import Mathlib.Data.List.Induction
import Mathlib.Data.Nat.Digits.Defs
import ScriptedChat.Proofs.Filler

/-!
# Lengths of filler text within 64 bits

The length that a text stands for in a range is computed with numbers of 64 bits.
No operation on the way overflows, and none divides by zero, as long as the numbers
of the range can be counted in 64 bits: there is one range for which they cannot.

* `toNat_bigEndian` — the number that the first bytes of a hash denote;
* `span?_eq_none_iff` — the range that has too many numbers;
* `checkedLength?_eq_some`, `checkedLength?_eq_none_iff` — whether a length is computed;
* `stableLength_exact` — a length is computed without failure, and which it is.
-/

namespace ScriptedChat

/-! ## Numbers of eight bytes -/

theorem bigEndian_append (bytes : List UInt8) (b : UInt8) :
    bigEndian (bytes ++ [b]) = bigEndian bytes * 256 + b.toUInt64 := by
  rw [bigEndian, List.foldl_append]
  rfl

/-- **Eight bytes denote the number whose digits they are**, the last one the lowest. -/
theorem toNat_bigEndian {bytes : List UInt8} (h : bytes.length ≤ 8) :
    (bigEndian bytes).toNat = Nat.ofDigits 256 (bytes.reverse.map UInt8.toNat) := by
  induction bytes using List.reverseRecOn with
  | nil => rfl
  | append_singleton bytes b ih =>
    rw [List.length_append, List.length_singleton] at h
    have hlt : Nat.ofDigits 256 (bytes.reverse.map UInt8.toNat) < 256 ^ bytes.length := by
      have hdigits := Nat.ofDigits_lt_base_pow_length (b := 256) (l := bytes.reverse.map UInt8.toNat)
        (by decide) fun d hd => by
          obtain ⟨c, -, rfl⟩ := List.mem_map.1 hd
          exact c.toNat_lt
      simpa using hdigits
    have hpow : 256 ^ bytes.length ≤ 256 ^ 7 := Nat.pow_le_pow_right (by decide) (by omega)
    have hb : b.toNat < 256 := b.toNat_lt
    rw [bigEndian_append, UInt64.toNat_add, UInt64.toNat_mul, ih (by omega), List.reverse_append,
      List.reverse_singleton, List.singleton_append, List.map_cons, Nat.ofDigits_cons]
    simp only [UInt64.toNat_ofNat, UInt8.toNat_toUInt64]
    omega

/-! ## Counting the numbers of a range -/

variable {min max : UInt64}

/-- The range of all numbers. -/
def IsWhole (min max : UInt64) : Prop :=
  min = 0 ∧ max = 0xFFFFFFFFFFFFFFFF

theorem isWhole_iff (h : min ≤ max) :
    IsWhole min max ↔ UInt64.size ≤ max.toNat - min.toNat + 1 := by
  have hle : min.toNat ≤ max.toNat := UInt64.le_iff_toNat_le.1 h
  have hmax : max.toNat < UInt64.size := max.toNat_lt_size
  have hsize : UInt64.size = 0x10000000000000000 := rfl
  rw [IsWhole, ← UInt64.toNat_inj, ← UInt64.toNat_inj]
  simp only [UInt64.toNat_ofNat]
  omega

theorem not_isWhole (h : 0 < min) : ¬ IsWhole min max := by
  rintro ⟨rfl, -⟩
  exact absurd h (by decide)

theorem toNat_span (h : min ≤ max) (hwhole : ¬ IsWhole min max) :
    (lengthSpan min max).toNat = max.toNat - min.toNat + 1 :=
  toNat_lengthSpan_of_lt h (Nat.not_le.1 (mt (isWhole_iff h).2 hwhole))

theorem span?_eq_some (h : min ≤ max) (hwhole : ¬ IsWhole min max) :
    span? min max = some (lengthSpan min max) := by
  rw [isWhole_iff h] at hwhole
  rw [span?, difference?, if_pos h, Option.bind_some, sum?, if_pos]
  · rfl
  · rw [UInt64.toNat_sub_of_le _ _ h, UInt64.toNat_one]
    omega

/-- **Only the numbers of the range of all numbers are too many.** -/
theorem span?_eq_none_iff (h : min ≤ max) : span? min max = none ↔ IsWhole min max := by
  refine ⟨fun hnone => ?_, ?_⟩
  · by_contra hwhole
    rw [span?_eq_some h hwhole] at hnone
    cases hnone
  · rintro ⟨rfl, rfl⟩
    rfl

/-! ## Lengths -/

theorem checkedLength?_of_le (seed : String) (h : max ≤ min) :
    checkedLength? seed min max = some min := by
  rw [checkedLength?, if_pos h]

/-- **No step on the way to a length fails**: what is divided by is the number of numbers in the
range, so the remainder is smaller, and the sum is not greater than the greatest of them. -/
theorem checkedLength?_eq_some (seed : String) (h : min ≤ max) (hwhole : ¬ IsWhole min max) :
    checkedLength? seed min max = some (stableLength seed min max) := by
  by_cases hle : max ≤ min
  · rw [checkedLength?_of_le seed hle, stableLength, if_pos hle]
  · have hspan := toNat_span h hwhole
    have hne : lengthSpan min max ≠ 0 := by
      intro hzero
      rw [hzero] at hspan
      exact absurd hspan (Nat.succ_ne_zero _).symm
    have hrest : (bigEndian ((textDigest seed).take 8)).toNat % (lengthSpan min max).toNat <
        (lengthSpan min max).toNat := Nat.mod_lt _ (by omega)
    have hfits : min.toNat +
        (bigEndian ((textDigest seed).take 8) % lengthSpan min max).toNat < UInt64.size := by
      have hmin : min.toNat ≤ max.toNat := UInt64.le_iff_toNat_le.1 h
      have hmax : max.toNat < UInt64.size := max.toNat_lt_size
      rw [UInt64.toNat_mod]
      omega
    rw [checkedLength?, if_neg hle, span?_eq_some h hwhole, Option.bind_some, remainder?,
      if_neg hne, Option.bind_some, sum?, if_pos hfits, stableLength, if_neg hle]

/-- A length is not computed only where the numbers of the range cannot be counted. -/
theorem checkedLength?_eq_none_iff (seed : String) :
    checkedLength? seed min max = none ↔ IsWhole min max := by
  constructor
  · intro hnone
    by_contra hwhole
    rcases UInt64.le_total min max with h | h
    · rw [checkedLength?_eq_some seed h hwhole] at hnone
      cases hnone
    · rw [checkedLength?_of_le seed h] at hnone
      cases hnone
  · rintro ⟨rfl, rfl⟩
    rfl

/-- **The length of a text.**  In a range that does not begin with zero it is computed without
overflow and without a division by zero; it lies in the range, and it is as far from the beginning
as the first eight bytes of the hash say, divided by how many numbers there are.  In a range of one
number, or of none, it is the beginning.  Of all ranges only that of all numbers has too many numbers
to be counted, and then there is no length. -/
theorem stableLength_exact (seed : String) :
    (∀ min max, 1 ≤ min → min ≤ max →
      checkedLength? seed min max = some (stableLength seed min max) ∧
        min ≤ stableLength seed min max ∧ stableLength seed min max ≤ max ∧
        (stableLength seed min max).toNat =
          min.toNat + Nat.ofDigits 256 (((textDigest seed).take 8).reverse.map UInt8.toNat) %
            (max.toNat - min.toNat + 1)) ∧
      (∀ min max, max ≤ min →
        checkedLength? seed min max = some min ∧ stableLength seed min max = min) ∧
      (∀ min max, checkedLength? seed min max = none ↔ IsWhole min max) ∧
      span? 0 0xFFFFFFFFFFFFFFFF = none := by
  refine ⟨fun min max hone hle => ?_, fun min max hle => ?_,
    fun min max => checkedLength?_eq_none_iff seed, (span?_eq_none_iff (by decide)).2 ⟨rfl, rfl⟩⟩
  · have hmin : 0 < min := UInt64.lt_iff_toNat_lt.2 (UInt64.le_iff_toNat_le.1 hone)
    obtain ⟨hlow, hhigh⟩ := stableLength_mem seed hmin hle
    have hbytes : ((textDigest seed).take 8).length ≤ 8 := List.length_take_le 8 _
    refine ⟨checkedLength?_eq_some seed hle (not_isWhole hmin), UInt64.le_iff_toNat_le.2 hlow,
      UInt64.le_iff_toNat_le.2 hhigh, ?_⟩
    rw [toNat_stableLength seed hmin hle, toNat_bigEndian hbytes]
  · exact ⟨checkedLength?_of_le seed hle, if_pos hle⟩

/-- The greatest range that does not begin with zero. -/
theorem stableLength_exact_greatest :
    (1 : UInt64) ≤ 1 ∧ (1 : UInt64) ≤ 0xFFFFFFFFFFFFFFFF ∧
      checkedLength? "hello there" 1 0xFFFFFFFFFFFFFFFF =
        some (stableLength "hello there" 1 0xFFFFFFFFFFFFFFFF) ∧
      stableLength "hello there" 40 8 = 40 := by
  have hone : (1 : UInt64) ≤ 1 := by decide
  have hmax : (1 : UInt64) ≤ 0xFFFFFFFFFFFFFFFF := by decide
  obtain ⟨hrange, hempty, -⟩ := stableLength_exact "hello there"
  exact ⟨hone, hmax, (hrange _ _ hone hmax).1, (hempty 40 8 (by decide)).2⟩

end ScriptedChat
