import NodeRank.Capped

/-! # Quantities

A quantity keeps the text that it was written as and the amount that the text says, in billionths
of a unit. Whole units and thousandths are read off rounded up, so a positive quantity never reads
as zero.
-/
namespace NodeRank

/-- The least integer that is at least `n / d`, for a positive `d`. -/
def ceilDiv (n : Int) (d : Nat) : Int := -(-n / d)

theorem ceilDiv_le_iff {n : Int} {d : Nat} (hd : 0 < d) (k : Int) :
    ceilDiv n d ≤ k ↔ n ≤ k * d := by
  have hd' : (0 : Int) < d := by omega
  have h : -k ≤ -n / d ↔ -k * d ≤ -n := Int.le_ediv_iff_mul_le hd'
  rw [Int.neg_mul] at h
  unfold ceilDiv
  omega

theorem ceilDiv_mono {m n : Int} {d : Nat} (hd : 0 < d) (h : m ≤ n) : ceilDiv m d ≤ ceilDiv n d :=
  (ceilDiv_le_iff hd _).2 (Int.le_trans h ((ceilDiv_le_iff hd _).1 (Int.le_refl _)))

theorem ceilDiv_nonneg {n : Int} {d : Nat} (hd : 0 < d) (h : 0 ≤ n) : 0 ≤ ceilDiv n d := by
  have h0 : ceilDiv 0 d ≤ ceilDiv n d := ceilDiv_mono hd h
  rwa [show ceilDiv 0 d = 0 by simp [ceilDiv]] at h0

/-- An amount with the text that it was written as. -/
structure Quantity where
  text : String
  nanos : Int
deriving DecidableEq, Inhabited

namespace Quantity

def nanosPerUnit : Nat := 1000000000
def nanosPerMilli : Nat := 1000000

/-- The amount in whole units, rounded up. -/
def value (q : Quantity) : Amount := .ofInt 63 (ceilDiv q.nanos nanosPerUnit)

/-- The amount in thousandths of a unit, rounded up. -/
def milliValue (q : Quantity) : Amount := .ofInt 63 (ceilDiv q.nanos nanosPerMilli)

theorem value_nonneg {q : Quantity} (h : 0 ≤ q.nanos) : 0 ≤ q.value.toInt :=
  Capped.cap_nonneg (ceilDiv_nonneg (by decide) h)

theorem milliValue_nonneg {q : Quantity} (h : 0 ≤ q.nanos) : 0 ≤ q.milliValue.toInt :=
  Capped.cap_nonneg (ceilDiv_nonneg (by decide) h)

def ofMilli (m : Amount) : Quantity := ⟨toString m ++ "m",m.toInt * nanosPerMilli⟩

/-- Whether two quantities say the same amount, in whatever notation. -/
def sameAmount (p q : Quantity) : Bool := p.nanos == q.nanos

end Quantity
end NodeRank
