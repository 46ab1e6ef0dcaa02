import Mathlib.Data.Int.Cast.Lemmas
import Mathlib.Tactic.Linarith

/-! Terms over 64-bit machine words, their wrapped and their exact value. A term does not
wrap if the machine gets the exact value for it and for everything it computes on the way.
-/

namespace ShmFrame.Foundation

/-- A term over 64-bit words. -/
inductive WordTerm
  | word (value : UInt64)
  | add (left right : WordTerm)
  | sub (left right : WordTerm)
  | mul (left right : WordTerm)
  | div (left right : WordTerm)

namespace WordTerm

/-- The value in the arithmetic of the machine. -/
def eval : WordTerm → UInt64
  | word value => value
  | add left right => left.eval + right.eval
  | sub left right => left.eval - right.eval
  | mul left right => left.eval * right.eval
  | div left right => left.eval / right.eval

/-- The value in unbounded arithmetic. -/
def exact : WordTerm → Int
  | word value => value.toNat
  | add left right => left.exact + right.exact
  | sub left right => left.exact - right.exact
  | mul left right => left.exact * right.exact
  | div left right => left.exact / right.exact

/-- The term and all terms it is computed from. -/
def parts : WordTerm → List WordTerm
  | word value => [word value]
  | add left right => add left right :: (left.parts ++ right.parts)
  | sub left right => sub left right :: (left.parts ++ right.parts)
  | mul left right => mul left right :: (left.parts ++ right.parts)
  | div left right => div left right :: (left.parts ++ right.parts)

/-- No intermediate value wraps. -/
def NoWrap (term : WordTerm) : Prop :=
  ∀ part ∈ term.parts, (part.eval.toNat : Int) = part.exact

variable {left right term : WordTerm}

/-- A term is a part of itself. -/
theorem mem_parts_self (term : WordTerm) : term ∈ term.parts := by
  cases term <;> simp [parts]

/-- Without wrapping the machine computes the exact value. -/
theorem NoWrap.eval (noWrap : term.NoWrap) : (term.eval.toNat : Int) = term.exact :=
  noWrap term term.mem_parts_self

/-- A word is what it is. -/
theorem noWrap_word (value : UInt64) : (word value).NoWrap := by
  intro part member
  obtain rfl := List.mem_singleton.mp member
  rfl

/-- A term of two parts does not wrap if neither part does and its own value is exact. -/
theorem noWrap_of_parts {whole : WordTerm}
    (made : whole.parts = whole :: (left.parts ++ right.parts)) (first : left.NoWrap)
    (second : right.NoWrap) (here : (whole.eval.toNat : Int) = whole.exact)
    : whole.NoWrap := by
  intro part member
  rw [made] at member
  rcases List.mem_cons.mp member with rfl | inner
  · exact here
  · rcases List.mem_append.mp inner with inLeft | inRight
    · exact first part inLeft
    · exact second part inRight

/-- A sum does not wrap below `2 ^ 64`. -/
theorem NoWrap.add (first : left.NoWrap) (second : right.NoWrap)
    (small : left.exact + right.exact < 2 ^ 64)
    : (WordTerm.add left right).NoWrap := by
  refine noWrap_of_parts rfl first second ?_
  rw [WordTerm.eval, WordTerm.exact, UInt64.toNat_add, ← first.eval, ← second.eval]
  rw [← first.eval, ← second.eval] at small
  omega

/-- A difference does not wrap if it is not negative. -/
theorem NoWrap.sub (first : left.NoWrap) (second : right.NoWrap)
    (ordered : right.exact ≤ left.exact)
    : (WordTerm.sub left right).NoWrap := by
  refine noWrap_of_parts rfl first second ?_
  have range := left.eval.toNat_lt
  rw [WordTerm.eval, WordTerm.exact, UInt64.toNat_sub, ← first.eval, ← second.eval]
  rw [← first.eval, ← second.eval] at ordered
  omega

/-- A product does not wrap below `2 ^ 64`. -/
theorem NoWrap.mul (first : left.NoWrap) (second : right.NoWrap)
    (small : left.exact * right.exact < 2 ^ 64)
    : (WordTerm.mul left right).NoWrap := by
  refine noWrap_of_parts rfl first second ?_
  rw [WordTerm.eval, WordTerm.exact, UInt64.toNat_mul, ← first.eval, ← second.eval]
  rw [← first.eval, ← second.eval] at small
  rw [Nat.mod_eq_of_lt (by exact_mod_cast small)]
  exact Int.natCast_mul _ _

/-- A quotient never wraps. -/
theorem NoWrap.div (first : left.NoWrap) (second : right.NoWrap)
    : (WordTerm.div left right).NoWrap := by
  refine noWrap_of_parts rfl first second ?_
  rw [WordTerm.eval, WordTerm.exact, UInt64.toNat_div, ← first.eval, ← second.eval]
  exact Int.natCast_div _ _

end WordTerm
end ShmFrame.Foundation
