import InvisibleString.Lib.Json

/- # `Text` — JavaScript's operations on strings

`trim`, `includes` and `join` on lists of code units, and decimal numbers as text.
-/

namespace Json

/-- The white space and line terminators that `trim` removes. -/
def isWhite (c : CodeUnit) : Bool :=
  (0x09 ≤ c && c ≤ 0x0D) || c == 0x20 || c == 0xA0 || c == 0x1680 ||
    (0x2000 ≤ c && c ≤ 0x200A) || c == 0x2028 || c == 0x2029 || c == 0x202F || c == 0x205F ||
    c == 0x3000 || c == 0xFEFF

/-- `s.trim()`. -/
def trim (s : JsString) : JsString := ((s.dropWhile isWhite).reverse.dropWhile isWhite).reverse

/-- `s.includes(part)`. -/
def includes (part s : JsString) : Bool := s.tails.any fun t => part.isPrefixOf t

/-- `parts.join(sep)`. -/
def join (sep : JsString) : List JsString → JsString
  | [] => []
  | [part] => part
  | part :: parts => part ++ sep ++ join sep parts

def isDigit (c : CodeUnit) : Bool := unit '0' ≤ c && c ≤ unit '9'

/-- `Number(text)` of a text of digits. -/
def numberOf (text : JsString) : Nat := text.foldl (fun n c => n * 10 + (c.toNat - 48)) 0

/-- `/^\d+$/`. -/
def digits? (text : JsString) : Option Nat :=
  if text ≠ [] ∧ text.all isDigit then some (numberOf text) else none

/-- No white space among the characters that print. -/
theorem isWhite_eq_false {c : CodeUnit} (hlow : 0x21 ≤ c.toNat) (hhigh : c.toNat ≤ 0x7E) :
    isWhite c = false := by
  have hne : ∀ d : CodeUnit, 0x7E < d.toNat ∨ d.toNat < 0x21 → (c == d) = false := by
    intro d hd
    refine beq_eq_false_iff_ne.mpr ?_
    rintro rfl
    omega
  have hbetween : ∀ low high : CodeUnit, 0x7E < low.toNat ∨ high.toNat < 0x21 →
      (low ≤ c && c ≤ high) = false := by
    intro low high hout
    refine Bool.eq_false_iff.mpr fun hin => ?_
    rw [Bool.and_eq_true, decide_eq_true_eq, decide_eq_true_eq, UInt16.le_iff_toNat_le,
      UInt16.le_iff_toNat_le] at hin
    omega
  rw [isWhite, hbetween 0x09 0x0D (.inr (by decide)), hbetween 0x2000 0x200A (.inl (by decide)),
    hne 0x20 (.inr (by decide)), hne 0xA0 (.inl (by decide)), hne 0x1680 (.inl (by decide)),
    hne 0x2028 (.inl (by decide)), hne 0x2029 (.inl (by decide)), hne 0x202F (.inl (by decide)),
    hne 0x205F (.inl (by decide)), hne 0x3000 (.inl (by decide)), hne 0xFEFF (.inl (by decide))]
  rfl

end Json
