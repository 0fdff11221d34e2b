import Mathlib.Tactic.TypeStar

/-!
# Map positions

`struct Position` of `position.h`: 16-bit map coordinates and a floor.
-/

namespace Bruxo

structure Position where
  x : UInt16
  y : UInt16
  z : UInt8
  deriving DecidableEq, Repr

end Bruxo
