/-! # Capped integers

An integer of a fixed number of binary digits. What would leave its range stops at the nearer end,
so sums, differences and products never fail and never wrap. The view `toInt` carries all
reasoning: each operation is one equation about `cap` on plain integers.
-/
namespace NodeRank

/-- The number of integers of either sign that `bits` binary digits write. -/
def span (bits : Nat) : Int := (Nat.pow 2 bits : Nat)

/-- An integer that fits a sign and `bits` binary digits. -/
@[ext] structure Capped (bits : Nat) where
  toInt : Int
  ge : -span bits ≤ toInt
  lt : toInt < span bits
deriving DecidableEq

/-- An amount of a resource, a weight or a score: a sign and 63 binary digits. -/
abbrev Amount := Capped 63

/-- A weighted sum of amounts: a sign and 127 binary digits. -/
abbrev Total := Capped 127

namespace Capped
variable {b : Nat}

theorem span_pos (b : Nat) : 0 < span b := Int.natCast_pos.2 (Nat.two_pow_pos b)

theorem span_63 : span 63 = 9223372036854775808 := by decide

theorem span_127 : span 127 = 170141183460469231731687303715884105728 := by decide

/-- The integer of the range that is nearest to `n`. -/
def cap (b : Nat) (n : Int) : Int := max (-span b) (min n (span b - 1))

theorem cap_ge (b : Nat) (n : Int) : -span b ≤ cap b n := by
  unfold cap; omega

theorem cap_lt (b : Nat) (n : Int) : cap b n < span b := by
  have := span_pos b
  unfold cap; omega

theorem cap_eq_self {n : Int} (h : -span b ≤ n) (h' : n < span b) : cap b n = n := by
  unfold cap; omega

theorem cap_mono {m n : Int} (h : m ≤ n) : cap b m ≤ cap b n := by
  unfold cap; omega

theorem cap_nonneg {n : Int} (h : 0 ≤ n) : 0 ≤ cap b n := by
  have := span_pos b
  unfold cap; omega

def ofInt (b : Nat) (n : Int) : Capped b := ⟨cap b n,cap_ge b n,cap_lt b n⟩

/-- The capped integer that is exactly `n`, if the range holds it. -/
def ofInt? (b : Nat) (n : Int) : Option (Capped b) :=
  if h : -span b ≤ n ∧ n < span b then some ⟨n,h.1,h.2⟩ else none

instance (n : Nat) : OfNat (Capped b) n := ⟨ofInt b n⟩
instance : Inhabited (Capped b) := ⟨0⟩
instance : Add (Capped b) := ⟨fun x y => ofInt b (x.toInt + y.toInt)⟩
instance : Sub (Capped b) := ⟨fun x y => ofInt b (x.toInt - y.toInt)⟩
instance : LE (Capped b) := ⟨fun x y => x.toInt ≤ y.toInt⟩
instance : LT (Capped b) := ⟨fun x y => x.toInt < y.toInt⟩
instance : DecidableLE (Capped b) := fun x y => inferInstanceAs (Decidable (x.toInt ≤ y.toInt))
instance : DecidableLT (Capped b) := fun x y => inferInstanceAs (Decidable (x.toInt < y.toInt))
instance : ToString (Capped b) := ⟨fun x => toString x.toInt⟩

def floorZero (x : Capped b) : Capped b := if 0 ≤ x.toInt then x else 0

@[simp] theorem toInt_ofInt (n : Int) : (ofInt b n).toInt = cap b n := rfl
@[simp] theorem toInt_add (x y : Capped b) : (x + y).toInt = cap b (x.toInt + y.toInt) := rfl
@[simp] theorem toInt_sub (x y : Capped b) : (x - y).toInt = cap b (x.toInt - y.toInt) := rfl
theorem le_iff {x y : Capped b} : x ≤ y ↔ x.toInt ≤ y.toInt := Iff.rfl
theorem lt_iff {x y : Capped b} : x < y ↔ x.toInt < y.toInt := Iff.rfl

@[simp] theorem ofInt_toInt (x : Capped b) : ofInt b x.toInt = x :=
  Capped.ext (cap_eq_self x.ge x.lt)

theorem toInt_ofNat {n : Nat} (h : (n : Int) < span b) : (OfNat.ofNat n : Capped b).toInt = n := by
  have := span_pos b
  exact cap_eq_self (by omega) h

@[simp] theorem toInt_zero : (0 : Capped b).toInt = 0 := toInt_ofNat (span_pos b)

@[simp] theorem toInt_floorZero (x : Capped b) : x.floorZero.toInt = max 0 x.toInt := by
  unfold floorZero
  split
  · omega
  · rw [toInt_zero]; omega

theorem floorZero_nonneg (x : Capped b) : 0 ≤ x.floorZero.toInt := by
  rw [toInt_floorZero]
  exact Int.le_max_left 0 _

theorem ofInt?_eq_some {n : Int} {x : Capped b} : ofInt? b n = some x ↔ x.toInt = n := by
  unfold ofInt?
  constructor
  · intro h
    split at h
    · cases h; rfl
    · contradiction
  · rintro rfl
    simp [x.ge, x.lt]

theorem natAbs_le (x : Capped b) : x.toInt.natAbs ≤ Nat.pow 2 b := by
  have := x.ge
  have := x.lt
  unfold span at *
  omega

theorem natAbs_mul_lt (x y : Capped b) : ((x.toInt * y.toInt).natAbs : Int) < span (2 * b + 1) := by
  have h := Nat.mul_le_mul x.natAbs_le y.natAbs_le
  rw [← Int.natAbs_mul] at h
  have hp : Nat.pow 2 b * Nat.pow 2 b = Nat.pow 2 (2 * b) := by
    rw [Nat.two_mul]; exact (Nat.pow_add 2 b b).symm
  have h' : Nat.pow 2 (2 * b) < Nat.pow 2 (2 * b + 1) :=
    Nat.pow_lt_pow_right (by decide) (by omega)
  unfold span
  omega

/-- The exact product, in twice as many digits. -/
def times (x y : Capped b) : Capped (2 * b + 1) where
  toInt := x.toInt * y.toInt
  ge := by have := natAbs_mul_lt x y; omega
  lt := by have := natAbs_mul_lt x y; omega

@[simp] theorem toInt_times (x y : Capped b) : (x.times y).toInt = x.toInt * y.toInt := rfl

end Capped
end NodeRank
