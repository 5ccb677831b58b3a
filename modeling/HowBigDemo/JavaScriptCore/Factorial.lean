import Mathlib.Data.Nat.Factorial.Basic

namespace HowBigDemo
namespace JavaScriptCore

/-!
# The factorial of the JavaScript bridge

A page passes a number to `handleFactorialCalculateWithNumber:`, which has
its factorial calculated by recursion and hands the result back to the page.
The recursion multiplies in `NSInteger`, so it calculates the factorial modulo
`2 ^ 64`, read with a sign.  `calculatesFactorial_iff` gives the last number
whose factorial fits.
-/

/-- `NSInteger` of a 64-bit device. -/
abbrev NSInteger := Int64

/-- The largest `NSInteger`. -/
def NSIntegerMax : Nat := 9223372036854775807

/-- `NSNumber`, as far as `integerValue` reads it. -/
structure NSNumber where
  integerValue : NSInteger
  deriving DecidableEq

def numberWithInteger (value : NSInteger) : NSNumber :=
  ⟨value⟩

/-- The recursion goes down to zero. -/
theorem toNat_sub_one_lt {i : NSInteger} (notNegative : ¬ i < 0) (notZero : ¬ i = 0) :
    (i - 1).toInt.toNat < i.toInt.toNat := by
  have zero : (0 : Int64).toInt = 0 := rfl
  have one : (1 : Int64).toInt = 1 := rfl
  have positive : 0 < i.toInt := by
    rw [Int64.lt_iff_toInt_lt, zero] at notNegative
    have nonzero : i.toInt ≠ 0 := fun same => notZero (Int64.toInt_inj.mp same)
    omega
  have bound := i.toInt_lt
  have decreased : (i - 1).toInt = i.toInt - 1 := by
    rw [Int64.toInt_sub, one]
    exact Int.bmod_eq_of_le (by omega) (by omega)
  rw [decreased]
  omega

/-- `calculateFactorialOfNumber:`. -/
def calculateFactorialOfNumber (number : NSNumber) : NSNumber :=
  let i := number.integerValue
  if i < 0 then numberWithInteger 0
  else if i = 0 then numberWithInteger 1
  else
    let r := i * (calculateFactorialOfNumber (numberWithInteger (i - 1))).integerValue
    numberWithInteger r
termination_by number.integerValue.toInt.toNat
decreasing_by
  rename_i notNegative notZero
  exact toNat_sub_one_lt notNegative notZero

/-- The products that the recursion forms, as integers before they are cut
to `NSInteger`, the innermost first. -/
def productsFormed (number : NSNumber) : List Int :=
  let i := number.integerValue
  if i < 0 then []
  else if i = 0 then []
  else
    let previous := numberWithInteger (i - 1)
    productsFormed previous ++
      [i.toInt * (calculateFactorialOfNumber previous).integerValue.toInt]
termination_by number.integerValue.toInt.toNat
decreasing_by
  rename_i notNegative notZero
  exact toNat_sub_one_lt notNegative notZero

/-- An integer that `NSInteger` can hold. -/
def FitsNSInteger (value : Int) : Prop :=
  -(NSIntegerMax : Int) - 1 ≤ value ∧ value ≤ NSIntegerMax

/-- The result is the mathematical factorial, and no product on the way
leaves the range of `NSInteger`. -/
structure CalculatesFactorial (n : Nat) : Prop where
  result : (calculateFactorialOfNumber ⟨Int64.ofNat n⟩).integerValue.toInt = n.factorial
  productsFit : forall product, product ∈ productsFormed ⟨Int64.ofNat n⟩ -> FitsNSInteger product

/-! ## What the recursion computes -/

theorem toInt_ofNat_of_fits {n : Nat} (fits : n ≤ NSIntegerMax) : (Int64.ofNat n).toInt = n :=
  Int64.toInt_ofNat_of_lt (Nat.lt_succ_of_le fits)

/-- A positive number is neither negative nor zero, and its predecessor is
passed on. -/
theorem ofNat_succ_cases {n : Nat} (fits : n + 1 ≤ NSIntegerMax) :
    ¬ Int64.ofNat (n + 1) < 0 ∧ ¬ Int64.ofNat (n + 1) = 0 ∧
      Int64.ofNat (n + 1) - 1 = Int64.ofNat n := by
  have value := toInt_ofNat_of_fits fits
  have zero : (0 : Int64).toInt = 0 := rfl
  refine ⟨?_, ?_, ?_⟩
  · rw [Int64.lt_iff_toInt_lt, value, zero]
    omega
  · intro same
    rw [same, zero] at value
    omega
  · rw [Int64.ofNat_add]
    exact Int64.add_sub_cancel (Int64.ofNat n) 1

theorem calculateFactorialOfNumber_zero :
    calculateFactorialOfNumber ⟨Int64.ofNat 0⟩ = ⟨1⟩ := by
  rw [calculateFactorialOfNumber]
  rfl

theorem calculateFactorialOfNumber_succ {n : Nat} (fits : n + 1 ≤ NSIntegerMax) :
    calculateFactorialOfNumber ⟨Int64.ofNat (n + 1)⟩ =
      ⟨Int64.ofNat (n + 1) * (calculateFactorialOfNumber ⟨Int64.ofNat n⟩).integerValue⟩ := by
  have cases := ofNat_succ_cases fits
  rw [calculateFactorialOfNumber]
  change (if Int64.ofNat (n + 1) < 0 then _ else _) = _
  rw [if_neg cases.1, if_neg cases.2.1]
  change numberWithInteger (Int64.ofNat (n + 1) *
    (calculateFactorialOfNumber ⟨Int64.ofNat (n + 1) - 1⟩).integerValue) = _
  rw [cases.2.2]
  rfl

/-- For every number that is not negative, the recursion calculates the
factorial cut to `NSInteger`. -/
theorem calculateFactorialOfNumber_eq {n : Nat} (fits : n ≤ NSIntegerMax) :
    calculateFactorialOfNumber ⟨Int64.ofNat n⟩ = ⟨Int64.ofNat n.factorial⟩ := by
  induction n with
  | zero => exact calculateFactorialOfNumber_zero
  | succ n inductionHypothesis =>
      rw [calculateFactorialOfNumber_succ fits, inductionHypothesis (Nat.le_of_succ_le fits),
        Nat.factorial_succ, Int64.ofNat_mul]

theorem productsFormed_succ {n : Nat} (fits : n + 1 ≤ NSIntegerMax) :
    productsFormed ⟨Int64.ofNat (n + 1)⟩ =
      productsFormed ⟨Int64.ofNat n⟩ ++ [((n + 1 : Nat) : Int) * (Int64.ofNat n.factorial).toInt] := by
  have cases := ofNat_succ_cases fits
  rw [productsFormed]
  change (if Int64.ofNat (n + 1) < 0 then _ else _) = _
  rw [if_neg cases.1, if_neg cases.2.1]
  change productsFormed ⟨Int64.ofNat (n + 1) - 1⟩ ++ [(Int64.ofNat (n + 1)).toInt *
    (calculateFactorialOfNumber ⟨Int64.ofNat (n + 1) - 1⟩).integerValue.toInt] = _
  rw [cases.2.2, calculateFactorialOfNumber_eq (Nat.le_of_succ_le fits), toInt_ofNat_of_fits fits]

/-! ## The last factorial that fits -/

theorem factorial_fits_iff (n : Nat) : n.factorial ≤ NSIntegerMax ↔ n ≤ 20 := by
  constructor
  · intro fits
    apply Nat.le_of_not_lt
    intro large
    have grows : (21).factorial ≤ n.factorial := Nat.factorial_le large
    have tooLarge : ¬ (21).factorial ≤ NSIntegerMax := by decide +kernel
    exact tooLarge (Nat.le_trans grows fits)
  · intro small
    have grows : n.factorial ≤ (20).factorial := Nat.factorial_le small
    have fits : (20).factorial ≤ NSIntegerMax := by decide +kernel
    exact Nat.le_trans grows fits

/-- Up to the last factorial that fits, the products are the factorials. -/
theorem productsFormed_fit {n : Nat} (small : n ≤ 20) :
    forall product, product ∈ productsFormed ⟨Int64.ofNat n⟩ -> FitsNSInteger product := by
  have inRange : n ≤ NSIntegerMax := Nat.le_trans small (by decide)
  induction n with
  | zero =>
      intro product listed
      rw [productsFormed] at listed
      cases listed
  | succ n inductionHypothesis =>
      intro product listed
      rw [productsFormed_succ inRange] at listed
      rcases List.mem_append.mp listed with earlier | last
      · exact inductionHypothesis (Nat.le_of_succ_le small) (Nat.le_of_succ_le inRange) product earlier
      · have previousFits := (factorial_fits_iff n).mpr (Nat.le_of_succ_le small)
        have fits := (factorial_fits_iff (n + 1)).mpr small
        have value : product = ((n + 1).factorial : Int) := by
          rw [List.mem_singleton.mp last, toInt_ofNat_of_fits previousFits, Nat.factorial_succ,
            Int.natCast_mul]
        rw [value]
        constructor
        · have nonneg : (0 : Int) ≤ ((n + 1).factorial : Int) := Int.natCast_nonneg _
          omega
        · exact Int.ofNat_le.mpr fits

/-- For every number that is not negative and fits `NSInteger`, the factorial
is calculated without leaving the range exactly up to twenty. -/
theorem calculatesFactorial_iff (n : Nat) (fits : n ≤ NSIntegerMax) :
    CalculatesFactorial n ↔ n ≤ 20 := by
  constructor
  · intro calculates
    rw [← factorial_fits_iff]
    have shown := calculates.result
    rw [calculateFactorialOfNumber_eq fits] at shown
    have bound : (Int64.ofNat n.factorial).toInt ≤ NSIntegerMax :=
      Int.le_of_lt_add_one (Int64.ofNat n.factorial).toInt_lt
    change (Int64.ofNat n.factorial).toInt = _ at shown
    rw [shown] at bound
    exact Int.ofNat_le.mp bound
  · intro small
    refine ⟨?_, productsFormed_fit small⟩
    rw [calculateFactorialOfNumber_eq fits]
    exact toInt_ofNat_of_fits ((factorial_fits_iff n).mpr small)

theorem calculatesFactorial_twenty : CalculatesFactorial 20 :=
  (calculatesFactorial_iff 20 (by decide)).mpr (Nat.le_refl 20)

/-- The factorial of twenty-one comes out negative. -/
theorem twenty_one_overflows : ¬ CalculatesFactorial 21 := by
  intro calculates
  have shown := calculates.result
  rw [calculateFactorialOfNumber_eq (by decide)] at shown
  have differ : (Int64.ofNat (21).factorial).toInt ≠ ((21).factorial : Int) := by decide +kernel
  exact differ shown

end JavaScriptCore
end HowBigDemo
