import Formulary.Real.Shortest

/-! # Written floats

The digits of a float are always the shortest that read back; a layout says where the point goes.
Plain text is for results and never uses an exponent. Source text is for trees written back as
formulas: it keeps a fraction or an exponent, so that it reads as a float again. -/

namespace Formulary.Real

structure Layout where
  /-- What follows a number without a fraction. -/
  whole : String
  /-- The least and the greatest exponent of the first digit for which the number is written without
  an exponent; all, if there is no bound. -/
  positional : Option (Int × Int)

/-- `1`, `1000000000000000000000`, `0.00001`. -/
def Layout.plain : Layout := ⟨"", none⟩

/-- `1.0`, `1e21`, `1e-5`. -/
def Layout.source : Layout := ⟨".0", some (-4, 15)⟩

def zeros (n : Nat) : String := "".pushn '0' n

/-- The digits `ds` times `10 ^ k`, without an exponent. -/
def Layout.withoutExponent (layout : Layout) (ds : String) (k : Int) : String :=
  let point := (ds.length : Int) + k
  if 0 ≤ k then ds ++ zeros k.toNat ++ layout.whole
  else if 0 < point then
    String.ofList (ds.toList.take point.toNat) ++ "." ++ String.ofList (ds.toList.drop point.toNat)
  else "0." ++ zeros (-point).toNat ++ ds

/-- The first of the digits, a point before the others, and the exponent of the first. -/
def withExponent (ds : String) (k : Int) : String :=
  let rest := String.ofList (ds.toList.drop 1)
  let point := if rest.isEmpty then "" else "."
  String.ofList (ds.toList.take 1) ++ point ++ rest ++ s!"e{(ds.length : Int) + k - 1}"

def Layout.digits (layout : Layout) (d : Nat) (k : Int) : String :=
  let ds := toString d
  let first := (ds.length : Int) + k - 1
  match layout.positional with
  | some (least, greatest) =>
      if least ≤ first ∧ first ≤ greatest then layout.withoutExponent ds k else withExponent ds k
  | none => layout.withoutExponent ds k

def Layout.write (layout : Layout) (f : Binary.Format) : Binary → String
  | .nan => "NaN"
  | .infinity negative => sign negative ++ "inf"
  | .finite negative 0 _ => sign negative ++ "0" ++ layout.whole
  | .finite negative m e =>
      let (d, k) := Binary.shortest f m e
      sign negative ++ layout.digits d k
where
  sign (negative : Bool) : String := if negative then "-" else ""

def toText (x : Float) : String := Layout.plain.write .double (.ofFloat x)

def toText32 (x : Float32) : String := Layout.plain.write .single (.ofFloat32 x)

def toSource (x : Float) : String := Layout.source.write .double (.ofFloat x)

def toSource32 (x : Float32) : String := Layout.source.write .single (.ofFloat32 x)

end Formulary.Real
