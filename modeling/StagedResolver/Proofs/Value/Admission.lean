/-
Which values a type admits.

Outer optional layers of a type matter for what is nothing only, and present layers of
a value for no type at all.
-/
import StagedResolver.Proofs.Value.Layers
import StagedResolver.Value.Type

namespace StagedResolver

namespace ValueType

theorem withoutOptional_ne_optional (type inner : ValueType) :
    type.withoutOptional ≠ .optional inner := by
  induction type with
  | optional content ih => exact ih
  | _ => exact nofun

theorem admits_stripped {type : ValueType} (plain : ∀ inner, type ≠ .optional inner)
    (value : Value) : type.admits value.stripped = type.admits value := by
  cases type with
  | any => rfl
  | optional inner => exact absurd rfl (plain inner)
  | _ => simp only [admits, Value.stripped_stripped]

theorem admits_of_something (type : ValueType) {value : Value}
    (something : value.stripped.isNothing = false) :
    type.admits value = type.withoutOptional.admits value := by
  induction type generalizing value with
  | optional inner ih =>
      cases value with
      | null => cases something
      | absent => cases something
      | present content =>
          have plain := inner.withoutOptional_ne_optional
          calc inner.admits content
            _ = inner.withoutOptional.admits content := ih something
            _ = inner.withoutOptional.admits content.stripped :=
                (admits_stripped plain content).symm
            _ = inner.withoutOptional.admits (.present content) :=
                admits_stripped plain (.present content)
      | _ => exact ih something
  | _ => rfl

end ValueType

end StagedResolver
