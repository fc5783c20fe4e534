/-
The shapes of lowered forms.

Lowering keeps the form of an expression.  It succeeds exactly when the parts
lower, those of a map's transform with the map's name inside all other names.
-/
import StagedResolver.Expression.Lowering
import StagedResolver.Proofs.Success

namespace StagedResolver

namespace Draft

variable {scope : List BindingName} {expression : Expression}

theorem lowerIn_read_eq_ok {origin : Origin} {segments : List PathStep}
    {expected : ValueType} :
    lowerIn scope (.read origin segments expected) = .ok expression ↔
      ∃ start, lowerRead scope origin segments = .ok start ∧
        expression = .read ⟨start.1, start.2, expected⟩ := by
  simp only [lowerIn, bind_eq_ok, pure_eq_ok]

theorem lowerIn_binary_eq_ok {operator : BinaryOperator} {left right : Draft} :
    lowerIn scope (.binary operator left right) = .ok expression ↔
      ∃ first, left.lowerIn scope = .ok first ∧
        ∃ second, right.lowerIn scope = .ok second ∧
          expression = .binary operator first second := by
  simp only [lowerIn, bind_eq_ok, pure_eq_ok]

theorem lowerIn_unary_eq_ok {operator : UnaryOperator} {operand : Draft} :
    lowerIn scope (.unary operator operand) = .ok expression ↔
      ∃ lowered, operand.lowerIn scope = .ok lowered ∧
        expression = .unary operator lowered := by
  simp only [lowerIn, bind_eq_ok, pure_eq_ok]

theorem lowerIn_map_eq_ok {source transform : Draft} {name : BindingName} :
    lowerIn scope (.map source name transform) = .ok expression ↔
      ∃ first, source.lowerIn scope = .ok first ∧
        ∃ second, transform.lowerIn (name :: scope) = .ok second ∧
          expression = .map first second := by
  simp only [lowerIn, bind_eq_ok, pure_eq_ok]

theorem lowerIn_flatten_eq_ok {source : Draft} :
    lowerIn scope (.flatten source) = .ok expression ↔
      ∃ lowered, source.lowerIn scope = .ok lowered ∧
        expression = .flatten lowered := by
  simp only [lowerIn, bind_eq_ok, pure_eq_ok]

theorem lowerIn_debug_eq_ok {label : String} {source : Draft} :
    lowerIn scope (.debug label source) = .ok expression ↔
      ∃ lowered, source.lowerIn scope = .ok lowered ∧
        expression = .debug label lowered := by
  simp only [lowerIn, bind_eq_ok, pure_eq_ok]

end Draft

end StagedResolver
