import Mathlib.Data.List.Basic
import Mathlib.Data.Nat.Digits.Defs
import UiMarkdown.Number.Decimal

/-!
# Characters of numbers

The text of a number is made of digits, signs, a point and the mark of an exponent,
however it is laid out.
-/

namespace UiMarkdown

namespace FloatLayout

def isNumeral (c : Char) : Bool :=
  c.isDigit || c == '-' || c == '+' || c == '.' || c == 'e'

theorem isNumeral_of_mem_toDigits (n : Nat) : ∀ c ∈ Nat.toDigits 10 n, isNumeral c = true := by
  intro c mem
  rw [isNumeral, Nat.isDigit_of_mem_toDigits (by decide) (by decide) mem]
  rfl

theorem isNumeral_of_mem_integer (i : Int) :
    ∀ c ∈ integer i, isNumeral c = true := by
  have digits := isNumeral_of_mem_toDigits i.natAbs
  rw [integer]
  split
  · exact List.forall_mem_cons.2 ⟨rfl, digits⟩
  · exact digits

theorem isNumeral_of_mem_withPoint {digits : List Char}
    (numeral : ∀ c ∈ digits, isNumeral c = true) (k : Nat) :
    ∀ c ∈ withPoint digits k, isNumeral c = true := by
  rw [withPoint, List.forall_mem_append, List.forall_mem_cons]
  exact ⟨fun c mem => numeral c (List.mem_of_mem_take mem), rfl,
    fun c mem => numeral c (List.mem_of_mem_drop mem)⟩

theorem isNumeral_of_mem_decimal (layout : FloatLayout) (d : Decimal) :
    ∀ c ∈ layout.decimal d, isNumeral c = true := by
  have digits := isNumeral_of_mem_toDigits d.digits
  have zeros (n : Nat) : ∀ c ∈ List.replicate n '0', isNumeral c = true := by
    intro c mem
    rw [List.eq_of_mem_replicate mem]
    rfl
  have point : ∀ c ∈ ['.', '0'], isNumeral c = true :=
    List.forall_iff_forall_mem.1 (by decide)
  have zeroPoint : ∀ c ∈ ['0', '.'], isNumeral c = true :=
    List.forall_iff_forall_mem.1 (by decide)
  rw [decimal]
  dsimp only
  split
  · split
    · simp only [List.forall_mem_append]
      exact ⟨⟨digits, zeros _⟩, point⟩
    · split
      · exact isNumeral_of_mem_withPoint digits _
      · simp only [List.forall_mem_append]
        exact ⟨⟨zeroPoint, zeros _⟩, digits⟩
  · have mantissa : ∀ c ∈ (if (Nat.toDigits 10 d.digits).length == 1 then Nat.toDigits 10 d.digits
        else withPoint (Nat.toDigits 10 d.digits) 1), isNumeral c = true := by
      split
      · exact digits
      · exact isNumeral_of_mem_withPoint digits 1
    have sign (b : Bool) : ∀ c ∈ (if b then ['+'] else []), isNumeral c = true := by
      cases b <;> exact List.forall_iff_forall_mem.1 (by decide)
    simp only [List.forall_mem_append, List.forall_mem_cons]
    exact ⟨⟨mantissa, rfl, sign _⟩, isNumeral_of_mem_integer _⟩

/-- The text of a number, in whatever layout, has characters of numbers only. -/
theorem isNumeral_of_mem_render (layout : FloatLayout) (x : Binary64) :
    ∀ c ∈ layout.render x, isNumeral c = true := by
  have body : ∀ c ∈ (if x.significand == 0 then ['0', '.', '0']
      else layout.decimal x.shortest), isNumeral c = true := by
    split
    · exact List.forall_iff_forall_mem.1 (by decide)
    · exact isNumeral_of_mem_decimal _ _
  rw [render]
  split
  · exact List.forall_mem_cons.2 ⟨rfl, body⟩
  · exact body

end FloatLayout

end UiMarkdown
