/-!
# Logarithms of binary64 numbers

The logarithms come from the platform, and no text says which of two neighbouring numbers a
platform gives. What its documentation does say is how large they are: the logarithm of 1 is zero,
and other positive numbers are at least `2 ^ -53` away from 1 and lie between `2 ^ -1074` and
`2 ^ 1024`, so that their logarithms to the bases that are used here, rounded in whatever way, are
not below `2 ^ -61` and not above `2 ^ 10` in magnitude.

So the logarithms are a parameter (`Logarithms`) that comes with these bounds, and whatever is said
of the library holds of all such logarithms. A program runs with those of its platform
(`Logarithms.platform`). No bound can be looked up in these, so that a number beyond the bounds,
which no platform gives, is replaced there.
-/

namespace TypedFormula.Binary64

open Float.Model Float.Model.UnpackedFloat

/-- Whether a number is at least `2 ^ -61` and below `2 ^ 10` in magnitude. -/
def isLogarithm (y : Float) : Bool :=
  match y.toModel.unpack with
  | .finite _ m e _ => decide (-60 ≤ totalExponent m e ∧ totalExponent m e ≤ 10)
  | _ => false

/-- A number is as large as a logarithm of another one can be. -/
def HasSizeOfLogarithm (x y : Float) : Prop :=
  if Float.beq x 1 then y = 0 else isLogarithm y = true

/-- The logarithms of a platform. -/
class Logarithms where
  /-- The natural logarithm. -/
  natural : Float → Float
  /-- The logarithm to base 10. -/
  decimal : Float → Float
  /-- The natural logarithm of a positive number is of its size. -/
  natural_hasSize : ∀ x : Float, x.isFinite = true → ¬ x ≤ 0 → HasSizeOfLogarithm x (natural x)
  /-- The logarithm of a positive number to base 10 is of its size. -/
  decimal_hasSize : ∀ x : Float, x.isFinite = true → ¬ x ≤ 0 → HasSizeOfLogarithm x (decimal x)

/-- A logarithm that keeps to the bounds for finite numbers, whatever it is made of. -/
def bounded (logarithm : Float → Float) (x : Float) : Float :=
  if Float.beq x 1 then 0
  else
    let y := logarithm x
    if x.isFinite && !isLogarithm y then 1 else y

private theorem hasSizeOfLogarithm_bounded (logarithm : Float → Float) {x : Float}
    (h : x.isFinite = true) : HasSizeOfLogarithm x (bounded logarithm x) := by
  unfold HasSizeOfLogarithm bounded
  split
  · rfl
  · extract_lets y
    split
    · decide
    · rename_i hbounds
      simpa [h] using hbounds

/-- The logarithms that programs run with. -/
instance Logarithms.platform : Logarithms where
  natural := bounded Float.log
  decimal := bounded Float.log10
  natural_hasSize _ h _ := hasSizeOfLogarithm_bounded _ h
  decimal_hasSize _ h _ := hasSizeOfLogarithm_bounded _ h

end TypedFormula.Binary64
