import Formulary.Number

/-! # The order of numbers

Numbers are compared in the kind at which they meet, and as doubles when one of them has no decimal
form. What is no number compares with nothing. -/

namespace Formulary.Number

def compareFloat (x y : Float) : Option Ordering :=
  if x < y then some .lt else if x > y then some .gt else if x == y then some .eq else none

def compareFloat32 (x y : Float32) : Option Ordering :=
  if x < y then some .lt else if x > y then some .gt else if x == y then some .eq else none

def compare (preference : Preference) (a b : Number) : Option Ordering :=
  match coerce preference a b with
  | .ok (.int x y) => some (Ord.compare x.toInt y.toInt)
  | .ok (.long x y) => some (Ord.compare x.toInt y.toInt)
  | .ok (.float x y) => compareFloat32 x y
  | .ok (.double x y) => compareFloat x y
  | .ok (.decimal x y) => some (x.compare y)
  | .error _ => compareFloat a.toFloat b.toFloat

/-- The greater (`keep = .gt`) or the smaller (`keep = .lt`) of two numbers, in the kind at which they
meet; the first one if they do not compare. -/
def pick (preference : Preference) (keep : Ordering) (a b : Number) : Except Failure Number := do
  let pair ← coerce preference a b
  let chosen :=
    if compare preference pair.left pair.right = some keep.swap then pair.right else pair.left
  return chosen

end Formulary.Number
