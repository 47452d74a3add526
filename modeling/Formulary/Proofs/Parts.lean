import Formulary.Proofs.Finite
import Formulary.Proofs.Stages

/-!
The parts of an expression that is evaluated. Each of them has a value then, and a finite one:
numbers are finite as they are written, and what an operation gives is checked. The value of a
variable is not checked, nor is a sign before it, so that one that is not finite shows in the parts
that are this variable and nothing more.
-/

namespace Formulary

section

open Float.Model
open Float.Model.Format (binary64)

theorem isFinite_neg_iff {x : Float} : (-x).isFinite = true ↔ x.isFinite = true := by
  refine ⟨fun finite => ?_, isFinite_neg⟩
  change (UnpackedFloat.unpack binary64
    (UnpackedFloat.pack binary64 x.toModel.unpack.neg)).isFinite = true at finite
  change x.toModel.unpack.isFinite = true
  cases unpacked : x.toModel.unpack with
  | notANumber =>
      rw [unpacked] at finite
      exact absurd finite (by decide)
  | infinity sign =>
      rw [unpacked] at finite
      cases sign <;> exact absurd finite (by decide)
  | zero sign => rfl
  | finite sign mantissa exponent positive => rfl

end

namespace Expression

def parts : Expression → List Expression
  | number value span => [number value span]
  | reference target span => [reference target span]
  | signed sign operand span => signed sign operand span :: operand.parts
  | binary operator left right span =>
    binary operator left right span :: (left.parts ++ right.parts)

def bare? : Expression → Option Int
  | number _ _ => none
  | reference target _ => some target.id
  | signed _ operand _ => operand.bare?
  | binary _ _ _ _ => none

/-- Whether all parts of an expression have a value, which is finite unless the part is a variable,
behind signs or not, whose value is not. -/
def FiniteUnlessBare (tree : Expression) (bindings : Bindings) : Prop :=
  ∀ part ∈ tree.parts, ∃ value, part.evaluate bindings = .ok value ∧
    (value.isFinite = false ↔ ∃ id bound, part.bare? = some id ∧
      bindings.lookup id = some bound ∧ bound.isFinite = false)

theorem isFinite_apply (sign : Sign) (x : Float) : (sign.apply x).isFinite = x.isFinite := by
  cases sign with
  | plus => rfl
  | minus => exact Bool.eq_iff_iff.2 isFinite_neg_iff

theorem isFinite_of_binary {operator : Operator} {left right : Expression} {span : Span}
    {bindings : Bindings} {value : Float}
    (evaluated : (binary operator left right span).evaluate bindings = .ok value) :
    (∃ x, left.evaluate bindings = .ok x) ∧ (∃ y, right.evaluate bindings = .ok y) ∧
      value.isFinite = true := by
  obtain ⟨x, leftValue, evaluated⟩ := except_bind_eq_ok.1 evaluated
  obtain ⟨y, rightValue, evaluated⟩ := except_bind_eq_ok.1 evaluated
  refine ⟨⟨x, leftValue⟩, ⟨y, rightValue⟩, ?_⟩
  split at evaluated
  · cases evaluated
  · rename_i result _
    cases solid : result.isFinite with
    | false => simp [solid] at evaluated
    | true =>
        simp only [solid, if_true] at evaluated
        cases evaluated
        exact solid

variable {tree : Expression} {bindings : Bindings} {value : Float}

theorem isFinite_eq_false_iff (finite : tree.Finite)
    (evaluated : tree.evaluate bindings = .ok value) :
    value.isFinite = false ↔ ∃ id bound, tree.bare? = some id ∧
      bindings.lookup id = some bound ∧ bound.isFinite = false := by
  induction tree generalizing value with
  | number written _ =>
      cases evaluated
      simp only [bare?, reduceCtorEq, false_and, exists_false, iff_false, Bool.not_eq_false]
      exact finite
  | reference target _ =>
      simp only [evaluate] at evaluated
      split at evaluated
      · rename_i found
        cases evaluated
        simp [bare?, found]
      · cases evaluated
  | signed sign operand _ ih =>
      obtain ⟨inner, computed, same⟩ := except_bind_eq_ok.1 evaluated
      cases same
      rw [isFinite_apply]
      exact ih finite computed
  | binary operator left right span _ _ =>
      simp [bare?, (isFinite_of_binary evaluated).2.2]

theorem finiteUnlessBare_of_evaluate (finite : tree.Finite)
    (evaluated : tree.evaluate bindings = .ok value) : tree.FiniteUnlessBare bindings := by
  -- What is evaluated has evaluated its operands before.
  induction tree generalizing value with
  | number written span =>
      intro part inside
      rw [List.mem_singleton.1 inside]
      exact ⟨value, evaluated, isFinite_eq_false_iff finite evaluated⟩
  | reference target span =>
      intro part inside
      rw [List.mem_singleton.1 inside]
      exact ⟨value, evaluated, isFinite_eq_false_iff finite evaluated⟩
  | signed sign operand span ih =>
      intro part inside
      rcases List.mem_cons.1 inside with rfl | inside
      · exact ⟨value, evaluated, isFinite_eq_false_iff finite evaluated⟩
      · obtain ⟨inner, computed, _⟩ := except_bind_eq_ok.1 evaluated
        exact ih finite computed part inside
  | binary operator left right span leftIh rightIh =>
      intro part inside
      obtain ⟨⟨x, leftValue⟩, ⟨y, rightValue⟩, _⟩ := isFinite_of_binary evaluated
      rcases List.mem_cons.1 inside with rfl | inside
      · exact ⟨value, evaluated, isFinite_eq_false_iff finite evaluated⟩
      · rcases List.mem_append.1 inside with inside | inside
        · exact leftIh finite.1 leftValue part inside
        · exact rightIh finite.2 rightValue part inside

/-- A text is evaluated to a finite number, and so are all parts of it, apart from variables, behind
signs or not, whose value is not finite. This holds of evaluation over given values and of the one
that looks the values up first. -/
theorem finite_unless_bare {text : String} (parsed : parse text = .ok tree) :
    (∀ bindings value, tree.evaluate bindings = .ok value → tree.FiniteUnlessBare bindings) ∧
    ∀ {ε : Type} (lookup : Int → Except ε (Option Float)) (fault : ExpressionFault → ε) value,
      evaluateText lookup fault text = .ok value →
        ∃ bindings, tree.evaluate bindings = .ok value ∧ tree.FiniteUnlessBare bindings ∧
          ∀ id ∈ tree.mentions, ∃ bound, lookup id = .ok (some bound) ∧
            bindings.lookup id = some bound := by
  have finite := finite_of_parse parsed
  refine ⟨fun bindings value => finiteUnlessBare_of_evaluate finite, ?_⟩
  intro ε lookup fault value evaluated
  rw [evaluateText_of_parse parsed, except_bind_eq_ok] at evaluated
  obtain ⟨bindings, bound, evaluated⟩ := evaluated
  have computed := mapError_eq_ok.1 evaluated
  obtain ⟨ids, values⟩ := bind_eq_ok_iff.1 bound
  refine ⟨bindings, computed, finiteUnlessBare_of_evaluate finite computed, ?_⟩
  intro id mentioned
  obtain ⟨found, present⟩ := lookup_of_ids ids mentioned
  obtain ⟨binding, first, rfl⟩ := Option.map_eq_some_iff.1 present
  have same : binding.1 = id := by simpa using List.find?_some first
  refine ⟨binding.2, ?_, present⟩
  rw [← same]
  exact values binding (List.mem_of_find?_eq_some first)

def unbounded : Bindings := [(1, 1 / 0)]

theorem finite_unless_bare_unbounded :
    ∃ tree value, parse "1 / -\x7bid:1\x7d" = .ok tree ∧ tree.evaluate unbounded = .ok value ∧
      value.isFinite = true ∧ tree.FiniteUnlessBare unbounded := by
  have computed : ((parse "1 / -\x7bid:1\x7d").toOption.bind fun tree =>
      (tree.evaluate unbounded).toOption).map (·.isFinite) = some true := by
    decide +kernel
  obtain ⟨value, found, finite⟩ := Option.map_eq_some_iff.1 computed
  obtain ⟨tree, read, evaluated⟩ := Option.bind_eq_some_iff.1 found
  have parsed := toOption_eq_some.1 read
  have valued := toOption_eq_some.1 evaluated
  exact ⟨tree, value, parsed, valued, finite,
    (finite_unless_bare parsed).1 unbounded value valued⟩

/-- A variable behind a sign is evaluated to its value, also to one that is not finite. -/
theorem evaluate_unbounded :
    ∃ tree value, parse "-\x7bid:1\x7d" = .ok tree ∧ tree.evaluate unbounded = .ok value ∧
      unbounded.evaluate "-\x7bid:1\x7d" = .ok value ∧ value.isFinite = false := by
  have computed : ((parse "-\x7bid:1\x7d").toOption.bind fun tree =>
      (tree.evaluate unbounded).toOption) = some (-1 / 0) := by
    decide +kernel
  have whole : (unbounded.evaluate "-\x7bid:1\x7d").toOption = some (-1 / 0) := by
    decide +kernel
  obtain ⟨tree, read, evaluated⟩ := Option.bind_eq_some_iff.1 computed
  exact ⟨tree, _, toOption_eq_some.1 read, toOption_eq_some.1 evaluated,
    toOption_eq_some.1 whole, by decide⟩

end Expression

end Formulary
