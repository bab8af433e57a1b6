import Pybmpmon.Models.Route

/-!
# Column types of `route_updates`

What the columns of the migration accept: `INTEGER` and `INTEGER[]` hold signed
32-bit numbers, `CIDR` a prefix whose host bits are zero. The other columns take
every value a record can have.
-/
namespace Pybmpmon.Database.Schema

open Pybmpmon.Python Pybmpmon.Models.Route

/-- The range of an `INTEGER`. -/
def fitsInteger (n : Int) : Bool := -2147483648 ≤ n && n ≤ 2147483647

def fitsIntegerColumn (value : Option Nat) : Bool := value.all fun n => fitsInteger n

def fitsIntegerArray (value : Option (List Nat)) : Bool :=
  value.all fun ns => ns.all fun n => fitsInteger n

def fitsCidr (value : Option Cidr) : Bool := value.all Cidr.hostBitsZero

theorem fitsInteger_natCast (n : Nat) : fitsInteger n = decide (n < 2 ^ 31) := by
  simp only [fitsInteger]
  by_cases h : n < 2 ^ 31
  · rw [decide_eq_true h, Bool.and_eq_true, decide_eq_true_iff, decide_eq_true_iff]
    omega
  · rw [decide_eq_false h, Bool.and_eq_false_iff, decide_eq_false_iff_not, decide_eq_false_iff_not]
    omega

end Pybmpmon.Database.Schema
