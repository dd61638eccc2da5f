namespace Dialogue

/-- The sum of two counts in 64 bits. -/
@[irreducible]
def addWord (m n : Nat) : Nat :=
  (UInt64.ofNat m + UInt64.ofNat n).toNat

theorem addWord_eq (m n : Nat) : addWord m n = (m + n) % UInt64.size := by
  simp [addWord, UInt64.size]

theorem addWord_lt (m n : Nat) : addWord m n < UInt64.size := by
  rw [addWord_eq]
  exact Nat.mod_lt _ (by decide)

theorem addWord_le (m n : Nat) : addWord m n ≤ m + n := by
  rw [addWord_eq]
  exact Nat.mod_le _ _

theorem addWord_of_lt {m n : Nat} (h : m + n < UInt64.size) : addWord m n = m + n := by
  rw [addWord_eq, Nat.mod_eq_of_lt h]

theorem addWord_assoc (k m n : Nat) : addWord (addWord k m) n = addWord k (addWord m n) := by
  simp [addWord_eq, Nat.add_assoc]

theorem addWord_mod (m n : Nat) : addWord (m % UInt64.size) n = (m + n) % UInt64.size := by
  simp [addWord_eq]

theorem addWord_mod_right (m n : Nat) : addWord m (n % UInt64.size) = addWord m n := by
  simp [addWord_eq]

end Dialogue
