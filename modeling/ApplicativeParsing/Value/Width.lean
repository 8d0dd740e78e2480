/-!
# Integer widths

The ranges of integers that elements and functions know: bytes, 64-bit integers with and without a
sign, and the signed 128-bit range in which functions compute.

## Main statements

* `reduce128_mem_range`, `reduce128_eq_self`: results lie in the signed 128-bit range, and those
  that lie there already are not changed.
-/

namespace ApplicativeParsing

/-- Whether an integer is a byte. -/
def fitsByte (n : Int) : Bool := 0 ≤ n && n ≤ 0xff

/-- Whether an integer is an unsigned 64-bit integer. -/
def fitsUnsigned64 (n : Int) : Bool := 0 ≤ n && n ≤ 0xffffffffffffffff

/-- Whether an integer is a signed 64-bit integer. -/
def fitsSigned64 (n : Int) : Bool := -0x8000000000000000 ≤ n && n ≤ 0x7fffffffffffffff

/-- The signed 128-bit integer that is congruent to `n`. -/
def reduce128 (n : Int) : Int := n.bmod 0x100000000000000000000000000000000

/-- A reduced integer is a signed 128-bit integer. -/
theorem reduce128_mem_range (n : Int) :
    -0x80000000000000000000000000000000 ≤ reduce128 n ∧
      reduce128 n < 0x80000000000000000000000000000000 := by
  constructor
  · exact Int.le_bmod (by decide)
  · exact Int.bmod_lt (by decide)

/-- A signed 128-bit integer is not changed. -/
theorem reduce128_eq_self {n : Int} (hl : -0x80000000000000000000000000000000 ≤ n)
    (hu : n < 0x80000000000000000000000000000000) : reduce128 n = n :=
  Int.bmod_eq_of_le hl hu

end ApplicativeParsing
