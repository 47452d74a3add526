import Formulary.Expression.Evaluation
import Formulary.Proofs.Recalculation
import Formulary.Proofs.Tiling

/-!
Finite numbers. What a text is parsed to has no other numbers in it, and what it is evaluated to over
finite values is finite again; so is what a cell holds of it.
-/

namespace Formulary

section Binary

open Float.Model
open Float.Model.Format (binary64)

theorem isFinite_unpack {spec : Format} (bits : BitVec spec.numBits) :
    (UnpackedFloat.unpack spec bits).isFinite = true ↔ UnpackedFloat.unpackExponent bits ≠ -1#_ := by
  unfold UnpackedFloat.unpack
  dsimp only
  by_cases top : UnpackedFloat.unpackExponent bits = -1#_
  · rw [if_pos top]
    refine iff_of_false ?_ (not_not_intro top)
    split <;> exact Bool.false_ne_true
  · rw [if_neg top]
    refine iff_of_true ?_ top
    by_cases low : UnpackedFloat.unpackExponent bits = 0#_
    · rw [if_pos low]
      by_cases zero : UnpackedFloat.unpackMantissa bits = 0#_
      · rw [dif_pos zero]
        rfl
      · rw [dif_neg zero]
        rfl
    · rw [if_neg low]
      rfl

theorem unpackExponent_pack {sign : UnpackedFloat.Sign} {mantissa : Nat} {exponent : Int}
    {positive : 0 < mantissa} (inRange : exponent + 1023 + 52 < 2047) :
    UnpackedFloat.unpackExponent
      (UnpackedFloat.pack binary64 (.finite sign mantissa exponent positive)) ≠ -1#11 := by
  have small : (exponent + 1023 + 52).toNat < 2047 := by omega
  unfold UnpackedFloat.pack
  dsimp only
  rw [if_neg (by simp [Format.exponentBias]; omega)]
  split
  · rw [UnpackedFloat.unpackExponent_packComponents]
    intro same
    have value := congrArg BitVec.toNat same
    simp [Format.exponentBias] at value
    omega
  · rw [UnpackedFloat.unpackExponent_packComponents]
    decide

theorem isFinite_neg {x : Float} (finite : x.isFinite = true) : (-x).isFinite = true := by
  have solid : (UnpackedFloat.unpack binary64 x.toModel.toBits.toBitVec).isFinite = true := finite
  change (UnpackedFloat.unpack binary64 (UnpackedFloat.pack binary64
    (UnpackedFloat.unpack binary64 x.toModel.toBits.toBitVec).neg)).isFinite = true
  generalize x.toModel.toBits.toBitVec = bits at solid ⊢
  rw [isFinite_unpack] at solid ⊢
  have below : (@UnpackedFloat.unpackExponent binary64 bits).toNat < 2048 :=
    (@UnpackedFloat.unpackExponent binary64 bits).isLt
  have bound : (@UnpackedFloat.unpackExponent binary64 bits).toNat ≠ 2047 := by
    intro top
    exact solid (BitVec.eq_of_toNat_eq top)
  unfold UnpackedFloat.unpack
  dsimp only
  rw [if_neg solid]
  by_cases low : @UnpackedFloat.unpackExponent binary64 bits = 0#_
  · rw [if_pos low]
    by_cases zero : @UnpackedFloat.unpackMantissa binary64 bits = 0#_
    · rw [dif_pos zero]
      change UnpackedFloat.unpackExponent (UnpackedFloat.packComponents binary64 _ 0 0) ≠ -1#11
      rw [UnpackedFloat.unpackExponent_packComponents]
      decide
    · rw [dif_neg zero]
      apply unpackExponent_pack
      simp [low, Format.exponentBias]
  · rw [if_neg low]
    apply unpackExponent_pack
    simp only [Format.exponentBias]
    omega

end Binary

theorem Database.cell_of_finite {x : Float} (finite : x.isFinite = true) :
    ∃ y, cell x = some y ∧ y.isFinite = true := by
  unfold cell
  simp only [Recalculation.isNaN_of_isFinite finite, Bool.false_eq_true, if_false]
  split
  · exact ⟨0, rfl, by decide⟩
  · exact ⟨x, rfl, finite⟩

namespace Expression

def Finite : Expression → Prop
  | number value _ => value.isFinite = true
  | reference _ _ => True
  | signed _ operand _ => operand.Finite
  | binary _ left right _ => left.Finite ∧ right.Finite

theorem finite_within {tree : Expression} (bounds : Span) (finite : tree.Finite) :
    (tree.within bounds).Finite := by
  cases tree <;> exact finite

end Expression

theorem Derives.finite {category : Category} {tokens : List Token} {tree : Expression} {nesting : Nat}
    (derives : Derives category tokens tree nesting)
    (written : ∀ token ∈ tokens, ∀ value, token.symbol = .number value → value.isFinite = true) :
    tree.Finite := by
  induction derives with
  | sum _ ih => exact ih written
  | product _ ih => exact ih written
  | operand _ ih => exact ih written
  | sumMore _ _ _ front next | productMore _ _ _ front next =>
      refine ⟨front fun token inside => ?_, next fun token inside => ?_⟩
      · exact written token (List.mem_append_left _ inside)
      · exact written token (List.mem_append_right _ (List.mem_cons_of_mem _ inside))
  | signed _ _ ih => exact ih fun token inside => written token (List.mem_cons_of_mem _ inside)
  | number read => exact written _ List.mem_cons_self _ read
  | reference => exact trivial
  | parenthesized _ _ _ ih =>
      refine Expression.finite_within _ (ih fun token inside => written token ?_)
      exact List.mem_append_left _ (List.mem_cons_of_mem _ inside)

theorem Lexeme.isFinite_ofLiteral {offset : Nat} {number : Decimal.Literal} {value : Float}
    (read : ofLiteral offset number = .token (.number value)) : value.isFinite = true := by
  unfold ofLiteral at read
  cases denoted : number.value? with
  | none => simp [denoted] at read
  | some other =>
      cases finite : other.isFinite with
      | false => simp [denoted, finite] at read
      | true =>
          simp only [denoted, finite, if_true, Lexeme.token.injEq, Symbol.number.injEq] at read
          rw [← read, finite]

theorem Segment.isFinite_token? {segment : Segment} {offset : Nat} {token : Token} {value : Float}
    (found : segment.token? offset = some token) (number : token.symbol = .number value) :
    value.isFinite = true := by
  obtain ⟨symbol, read, rfl⟩ := token?_eq_some_iff.1 found
  cases number
  cases segment with
  | blank c => cases read
  | braced inside =>
      simp only [lexeme?] at read
      split at read <;> cases Option.some.inj read
  | literal literal => exact Lexeme.isFinite_ofLiteral (Option.some.inj read)
  | single c =>
      simp only [lexeme?] at read
      split at read
      · rename_i known
        unfold Symbol.ofChar? at known
        split at known <;> cases known <;> cases Option.some.inj read
      · cases Option.some.inj read

theorem Tiled.isFinite {offset : Nat} {text : List Char} {tokens : List Token}
    (tiled : Tiled offset text tokens) : ∀ token ∈ tokens, ∀ value,
      token.symbol = .number value → value.isFinite = true := by
  induction tiled with
  | nil => exact List.forall_mem_nil _
  | blank white later ih => exact ih
  | token stands read later ih =>
      exact List.forall_mem_cons.2 ⟨fun _ number => Segment.isFinite_token? read number, ih⟩

namespace Expression

theorem finite_of_parse {text : String} {tree : Expression} (parsed : parse text = .ok tree) :
    tree.Finite := by
  obtain ⟨tokens, nesting, composed⟩ := exists_composed parsed
  exact composed.derived.finite composed.tiled.isFinite

theorem isFinite_evaluate {tree : Expression} {bindings : Bindings} {value : Float}
    (finite : tree.Finite) (bound : ∀ id bound, bindings.lookup id = some bound → bound.isFinite = true)
    (evaluated : tree.evaluate bindings = .ok value) : value.isFinite = true := by
  induction tree generalizing value with
  | number written _ =>
      cases evaluated
      exact finite
  | reference target _ =>
      simp only [evaluate] at evaluated
      split at evaluated
      · rename_i found
        cases evaluated
        exact bound target.id _ found
      · cases evaluated
  | signed sign operand _ ih =>
      obtain ⟨inner, computed, same⟩ := except_bind_eq_ok.1 evaluated
      cases same
      have solid := ih finite computed
      cases sign with
      | plus => exact solid
      | minus => exact isFinite_neg solid
  | binary operator left right span _ _ =>
      obtain ⟨x, _, evaluated⟩ := except_bind_eq_ok.1 evaluated
      obtain ⟨y, _, evaluated⟩ := except_bind_eq_ok.1 evaluated
      split at evaluated
      · cases evaluated
      · rename_i result _
        cases solid : result.isFinite with
        | false => simp [solid] at evaluated
        | true =>
            simp only [solid, if_true] at evaluated
            cases evaluated
            exact solid

theorem isFinite_lookup {bindings : Bindings} (solid : ∀ pair ∈ bindings, pair.2.isFinite = true)
    {id : Int} {value : Float} (found : bindings.lookup id = some value) : value.isFinite = true := by
  obtain ⟨pair, present, rfl⟩ := Option.map_eq_some_iff.1 found
  exact solid pair (List.mem_of_find?_eq_some present)

theorem isFinite_bind {ε : Type} {lookup : Int → Except ε (Option Float)} {fault : ExpressionFault → ε}
    (finite : ∀ id value, lookup id = .ok (some value) → value.isFinite = true) {ids : List Int}
    {bindings : Bindings} (bound : bind lookup fault ids = .ok bindings) :
    ∀ pair ∈ bindings, pair.2.isFinite = true := by
  induction ids generalizing bindings with
  | nil =>
      cases bound
      simp
  | cons id rest ih =>
      obtain ⟨found, looked, bound⟩ := except_bind_eq_ok.1 bound
      cases found with
      | none => cases bound
      | some value =>
          obtain ⟨later, further, same⟩ := except_bind_eq_ok.1 bound
          cases same
          intro pair inside
          rcases List.mem_cons.1 inside with rfl | inside
          · exact finite id value looked
          · exact ih further pair inside

theorem isFinite_evaluateWith {ε : Type} {lookup : Int → Except ε (Option Float)}
    {fault : ExpressionFault → ε} {tree : Expression} {value : Float} (finite : tree.Finite)
    (solid : ∀ id value, lookup id = .ok (some value) → value.isFinite = true)
    (evaluated : tree.evaluateWith lookup fault = .ok value) : value.isFinite = true := by
  obtain ⟨bindings, bound, evaluated⟩ := except_bind_eq_ok.1 evaluated
  split at evaluated
  · rename_i result computed
    cases evaluated
    exact isFinite_evaluate finite (fun _ _ found => isFinite_lookup (isFinite_bind solid bound) found)
      computed
  · cases evaluated

end Expression

end Formulary
