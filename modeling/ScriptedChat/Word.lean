/-!
# Numbers of 64 bits

Settings are numbers of 64 bits, and so are the numbers that follow from them. An operation on them fails
where its result would be wrong: where 64 bits are not enough for it, where it would be negative, and where
something would be divided by zero. The program that meets such a failure gives up what it is doing.

* `sum?`, `difference?`, `product?`, `remainder?`: the operations, with what they give if they succeed.

The simulator computes `stable_length`, `argument_chunk_chars` and `total_tokens` with these operations.
-/

namespace ScriptedChat

/-- The sum of two numbers, if 64 bits are enough for it. -/
def sum? (a b : UInt64) : Option UInt64 :=
  if a.toNat + b.toNat < UInt64.size then some (a + b) else none

/-- The difference of two numbers, unless it is negative. -/
def difference? (a b : UInt64) : Option UInt64 :=
  if b ≤ a then some (a - b) else none

/-- The product of two numbers, if 64 bits are enough for it. -/
def product? (a b : UInt64) : Option UInt64 :=
  if a.toNat * b.toNat < UInt64.size then some (a * b) else none

/-- The remainder of a division, unless it is one by zero. -/
def remainder? (a b : UInt64) : Option UInt64 :=
  if b = 0 then none else some (a % b)

/-- A sum is the sum, or there is none because it is too great. -/
theorem sum?_cases (a b : UInt64) :
    (a.toNat + b.toNat < UInt64.size ∧ ∃ c, sum? a b = some c ∧ c.toNat = a.toNat + b.toNat) ∨
      (UInt64.size ≤ a.toNat + b.toNat ∧ sum? a b = none) := by
  unfold sum?
  split
  · rename_i hfits
    exact .inl ⟨hfits, _, rfl, by rw [UInt64.toNat_add, Nat.mod_eq_of_lt hfits]⟩
  · rename_i hgreat
    exact .inr ⟨Nat.le_of_not_lt hgreat, rfl⟩

/-- A product is the product, or there is none because it is too great. -/
theorem product?_cases (a b : UInt64) :
    (a.toNat * b.toNat < UInt64.size ∧ ∃ c, product? a b = some c ∧ c.toNat = a.toNat * b.toNat) ∨
      (UInt64.size ≤ a.toNat * b.toNat ∧ product? a b = none) := by
  unfold product?
  split
  · rename_i hfits
    exact .inl ⟨hfits, _, rfl, by rw [UInt64.toNat_mul, Nat.mod_eq_of_lt hfits]⟩
  · rename_i hgreat
    exact .inr ⟨Nat.le_of_not_lt hgreat, rfl⟩

end ScriptedChat
