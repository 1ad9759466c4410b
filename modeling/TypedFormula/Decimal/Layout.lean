import TypedFormula.Decimal.Shortest

/-!
# Decimal notation of binary64 numbers

Two notations for the shortest decimal of a number:

* `floatText` — positional throughout, however long, without a point for integral numbers;
* `jsonFloat?` — positional with at least one decimal from `1e-5` up to below `1e16`, scientific
  outside, and nothing for NaN and infinities, which JSON cannot write.
-/

namespace TypedFormula.Decimal

open Float.Model Float.Model.UnpackedFloat

/-! ### Layouts -/

/-- A run of zero digits. -/
def zeros (n : Nat) : List Char := List.replicate n '0'

/-- The digits of a decimal. -/
def digitChars (d : Decimal) : List Char := (toString d.digits).toList

/-- The power of ten of the first digit. -/
def leadingPower (d : Decimal) : Int := d.digitChars.length - 1 + d.exponent

/-- The positional notation of a decimal; `whole` is written after an integral one. -/
def positional (whole : List Char) (d : Decimal) : List Char :=
  let digits := d.digitChars
  let point := (digits.length : Int) + d.exponent
  if 0 ≤ d.exponent then digits ++ zeros d.exponent.toNat ++ whole
  else if 0 < point then digits.take point.toNat ++ '.' :: digits.drop point.toNat
  else '0' :: '.' :: zeros (-point).toNat ++ digits

/-- The scientific notation of a decimal: one digit, the others after a point, and the exponent
with its sign. -/
def scientific (d : Decimal) : List Char :=
  let power := d.leadingPower
  let exponent := (if power < 0 then ['e', '-'] else ['e', '+']) ++ (toString power.natAbs).toList
  match d.digitChars with
  | [] => exponent
  | [digit] => digit :: exponent
  | digit :: more => digit :: '.' :: more ++ exponent

/-- A notation with the sign of the number in front. -/
def signed (sign : Sign) (text : List Char) : String :=
  match sign with
  | .negative => String.ofList ('-' :: text)
  | .positive => String.ofList text

/-! ### Texts of numbers -/

/-- The positional text of a number: the shortest digits that read back, a tie going up. -/
def floatText (x : Float) : String :=
  match x.toModel.unpack with
  | .notANumber => "NaN"
  | .infinity sign => signed sign ['i', 'n', 'f']
  | .zero sign => signed sign ['0']
  | .finite sign m q _ => signed sign (positional [] (shortest .up ⟨m, q⟩))

/-- The JSON text of a finite number: the shortest digits that read back, a tie going to the even
one. -/
def jsonFloat? (x : Float) : Option String :=
  match x.toModel.unpack with
  | .notANumber | .infinity _ => none
  | .zero sign => some (signed sign ['0', '.', '0'])
  | .finite sign m q _ =>
    let d := shortest .even ⟨m, q⟩
    let text := if -5 ≤ d.leadingPower ∧ d.leadingPower < 16 then positional ['.', '0'] d
      else scientific d
    some (signed sign text)

end TypedFormula.Decimal
