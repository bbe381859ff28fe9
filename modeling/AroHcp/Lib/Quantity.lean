import Mathlib.Order.Lattice
import Mathlib.Order.MinMax

/-! Kubernetes quantities: exact decimal numbers with at most nine digits after the point, here in
billionths. Reading one as a whole number rounds away from zero. -/

namespace Quantity

def one : Int := 1000000000

def ofInt (n : Int) : Int := n * one

/-- The quantity in multiples of `unit`, rounded away from zero. -/
def scaled (unit q : Int) : Int :=
  if 0 ≤ q then (q + (unit - 1)) / unit else -((-q + (unit - 1)) / unit)

def value (q : Int) : Int := scaled one q

def milliValue (q : Int) : Int := scaled 1000000 q

/-- `resource.NewMilliQuantity` -/
def ofMilli (n : Int) : Int := n * 1000000

def IsWhole (q : Int) : Prop := q % one = 0

instance (q : Int) : Decidable (IsWhole q) := inferInstanceAs (Decidable (_ = _))

theorem isWhole_sub {p q : Int} (hp : IsWhole p) (hq : IsWhole q) : IsWhole (p - q) := by
  unfold IsWhole one at *
  omega

theorem isWhole_ofInt (n : Int) : IsWhole (ofInt n) := by
  unfold IsWhole ofInt one
  omega

theorem isWhole_max {p q : Int} (hp : IsWhole p) (hq : IsWhole q) : IsWhole (max p q) := by
  rcases max_choice p q with h | h
  · rwa [h]
  · rwa [h]

theorem ofInt_value {q : Int} (h : IsWhole q) : ofInt (value q) = q := by
  unfold IsWhole one at h
  unfold ofInt value scaled one
  split_ifs <;> omega

end Quantity
