import NodeRank.Proofs.ReadBack
import NodeRank.Proofs.Scoring.Reading

/-! # From a usage document to a share

A document tells the processor time and the memory in use by quantities. Zero stands for a reading
that is not to be trusted; since amounts are rounded up from the text on, it comes of no entry and
of an entry that says zero, and of no positive amount however small.
-/
namespace NodeRank

/-- A resource that a usage document is read for. -/
inductive Gauge where
  | cpu
  | memory
deriving DecidableEq

namespace Gauge

def name : Gauge → String
  | cpu => ResourceName.cpu
  | memory => ResourceName.memory

/-- In how many parts of a unit the resource is counted. -/
def perUnit : Gauge → ℚ
  | cpu => 1000
  | memory => 1

def amount : Gauge → Quantity → Amount
  | cpu => Quantity.milliValue
  | memory => Quantity.value

/-- What a reading tells of the resource. -/
def told : Gauge → Usage → Amount
  | cpu => Usage.cpuMillis
  | memory => Usage.memoryBytes

theorem told_reading (g : Gauge) (m : NodeMetrics) :
    g.told m.reading = ((m.usage.get? g.name).map g.amount).getD 0 := by
  cases g <;> rfl

theorem cost?_name (g : Gauge) (u : Usage) : u.cost? g.name = Usage.nonzero (g.told u) := by
  cases g with
  | cpu => exact if_pos rfl
  | memory => exact (if_neg (by decide)).trans (if_pos rfl)

theorem toInt_amount (g : Gauge) {q : Quantity} {x : ℚ} (hx : 0 ≤ x)
    (h : q.nanos = ⌈x * 10 ^ 9⌉) : (g.amount q).toInt = min (2 ^ 63 - 1) ⌈g.perUnit * x⌉ := by
  obtain ⟨hvalue,hmilli⟩ := Quantity.value_ceil hx h
  cases g with
  | cpu => exact hmilli
  | memory => rwa [perUnit, one_mul]

/-- A positive amount is told as one at least. -/
theorem one_le_min_ceil (g : Gauge) {x : ℚ} (hx : 0 < x) :
    1 ≤ min (2 ^ 63 - 1) ⌈g.perUnit * x⌉ := by
  have hper : 0 < g.perUnit := by cases g <;> norm_num [perUnit]
  exact le_min (by norm_num) (Int.one_le_ceil_iff.mpr (mul_pos hper hx))

end Gauge

namespace NodeState
variable (s : NodeState) (g : Gauge) {u : Usage}

theorem share_of_told_eq_zero (h : g.told u = 0) :
    s.share g.name (some u) = s.requestedShare g.name := by
  rw [share_some, measuredShare, g.cost?_name, Usage.nonzero, if_pos h]
  rfl

theorem share_of_told_ne_zero (h : g.told u ≠ 0) :
    s.share g.name (some u) = { s.requestedShare g.name with cost := g.told u } := by
  rw [share_some, measuredShare, g.cost?_name, Usage.nonzero, if_neg h]
  rfl

end NodeState

namespace NodeMetrics

/-- The quantities of a document that has been read were read themselves. -/
theorem made_of_ofJson? {j : Json} {m : NodeMetrics} (h : ofJson? j = some m) {name : String}
    {q : Quantity} (hq : m.usage.get? name = some q) : q.Made := by
  have husage := (lawful.good_of_read j m h).usage
  exact husage (name, q) (NameMap.get?_eq_some_iff.mp hq)

/-- The share of a resource by a usage document. No entry, and an entry that says zero, leave the
share by requests. An entry that says a positive amount becomes the cost, rounded up to the parts
that the resource is counted in, and is never zero. -/
theorem share_of_payload (m : NodeMetrics) (s : NodeState) (g : Gauge)
    (hmade : ∀ q, m.usage.get? g.name = some q → q.Made) :
    (m.usage.get? g.name = none → s.share g.name (some m.reading) = s.requestedShare g.name) ∧
    ∀ q, m.usage.get? g.name = some q →
      ∃ x, (∀ y, Quantity.Denotes q.text.toList y ↔ y = x) ∧
        (x = 0 → s.share g.name (some m.reading) = s.requestedShare g.name) ∧
        (0 < x → 1 ≤ (g.told m.reading).toInt ∧
          (g.told m.reading).toInt = min (2 ^ 63 - 1) ⌈g.perUnit * x⌉ ∧
          s.share g.name (some m.reading) =
            { s.requestedShare g.name with cost := g.told m.reading }) := by
  refine ⟨fun hnone => ?_,fun q hq => ?_⟩
  · apply s.share_of_told_eq_zero
    rw [g.told_reading, hnone]
    rfl
  obtain ⟨x,hx,hnanos⟩ := (hmade q hq).denotes
  have htold : g.told m.reading = g.amount q := by
    rw [g.told_reading, hq]
    rfl
  refine ⟨x,fun y => ⟨fun hy => hy.unique hx,fun hy => hy ▸ hx⟩,fun hzero => ?_,fun hpos => ?_⟩
  · have hceil : q.nanos = ⌈x * 10 ^ 9⌉ := by
      rw [hnanos, hzero]
      simp
    have htoInt := g.toInt_amount hzero.ge hceil
    apply s.share_of_told_eq_zero
    apply Capped.ext
    rw [htold, htoInt, hzero, mul_zero, Int.ceil_zero]
    rfl
  · have hceil : q.nanos = ⌈x * 10 ^ 9⌉ := by
      rw [hnanos, sign_pos hpos, abs_of_pos hpos]
      simp
    have htoInt := g.toInt_amount hpos.le hceil
    have hone := g.one_le_min_ceil hpos
    rw [← htoInt, ← htold] at hone
    refine ⟨hone,htold ▸ htoInt,s.share_of_told_ne_zero g fun hzero => ?_⟩
    rw [hzero] at hone
    exact absurd hone (by decide)

/-- A document with as small a positive amount as there is a text for. -/
def tiny : NodeMetrics where
  name := "n1"
  createdAt := none
  timestamp := none
  window := none
  usage := .ofList [(ResourceName.cpu, ⟨"0.00000000000000000000001e-64",1⟩)]

/-- So little processor time is a thousandth, and is taken for the cost. -/
theorem share_of_tiny :
    Quantity.Denotes "0.00000000000000000000001e-64".toList (1 / 10 ^ 87) ∧
    (tiny.reading.cpuMillis = 1 ∧
      NodeState.blank.share ResourceName.cpu (some tiny.reading) = ⟨0,1⟩) := by
  have hdenotes : Quantity.Denotes "0.00000000000000000000001e-64".toList (1 / 10 ^ 87) := by
    have hs : Quantity.Spelled "0.00000000000000000000001e-64".toList
        ⟨false,'0' :: '.' :: (List.replicate 22 '0' ++ ['1']),['e', '-', '6', '4']⟩ :=
      Quantity.spelled_iff.mpr (by decide)
    have hnum : Quantity.Pointed ('0' :: '.' :: (List.replicate 22 '0' ++ ['1'])) ['0']
        (List.replicate 22 '0' ++ ['1']) :=
      @Quantity.Pointed.point ['0'] _ (by simp) (by simp) (by simp)
    have hsuffix : Quantity.Suffix ['e', '-', '6', '4'] ⟨1,-64⟩ :=
      .exponent (.inl rfl) (Text.int?_eq_some_iff.mp rfl) (by norm_num) (by norm_num)
    have hx : Quantity.signed false
        (Quantity.magnitude ['0'] (List.replicate 22 '0' ++ ['1']) ⟨1,-64⟩) = 1 / 10 ^ 87 := by
      unfold Quantity.signed Quantity.magnitude
      rw [show Text.decimal ['0'] = 0 from rfl,
        show Text.decimal (List.replicate 22 '0' ++ ['1']) = 1 by decide +kernel]
      norm_num
    exact hx ▸ .intro hs hnum hsuffix
  have hget : tiny.usage.get? Gauge.cpu.name = some ⟨"0.00000000000000000000001e-64",1⟩ := by decide
  have hread : ofJson? tiny.toJson = some tiny := by decide
  obtain ⟨_,hentry⟩ := share_of_payload tiny .blank .cpu fun _ hq => made_of_ofJson? hread hq
  obtain ⟨x,hx,_,hpositive⟩ := hentry _ hget
  obtain rfl := (hx _).mp hdenotes
  obtain ⟨_,_,hshare⟩ := hpositive (by positivity)
  exact ⟨hdenotes,by decide,hshare.trans (by decide)⟩

end NodeMetrics
end NodeRank
