/-!
# Windows of whole seconds

The part of a formula's time axis that is played: from one whole second to a later one.
-/

set_option autoImplicit false

namespace Tonegraph

/-- Why two bounds are no window. -/
inductive WindowError where
  | empty (start stop : Int32)
deriving DecidableEq, Repr

/-- What a window error says. -/
def WindowError.message : WindowError → String
  | .empty start stop =>
    "empty window: end " ++ toString stop.toInt ++ " must be after start " ++ toString start.toInt

/-- A window of whole seconds, never empty. -/
structure Window where
  start : Int32
  stop : Int32
  start_lt_stop : start < stop

namespace Window

/-- The window between two bounds. -/
def ofBounds (start stop : Int32) : Except WindowError Window :=
  if ordered : start < stop then .ok ⟨start, stop, ordered⟩ else .error (.empty start stop)

/-- The length of a window in seconds. -/
def runTime (w : Window) : Nat := (w.stop.toInt - w.start.toInt).toNat

end Window

end Tonegraph
