/-
The total order of values.

Values of different kinds are ordered by kind, and values of one kind by what
they hold: strings by their bytes, which is the order of their code points,
numbers by their own order, records and sequences entry by entry with a proper
beginning first, and absent before everything present.
-/
import StagedResolver.Value.Basic

namespace StagedResolver

namespace Value

def rank : Value → Nat
  | .null => 0
  | .bool _ => 1
  | .int _ => 2
  | .float _ => 3
  | .string _ => 4
  | .record _ => 5
  | .sequence _ => 6
  | .absent => 7
  | .present _ => 7

mutual

def compare : Value → Value → Ordering
  | .bool left, .bool right => Ord.compare left right
  | .int left, .int right => Ord.compare left.toInt right.toInt
  | .float left, .float right => Binary64.compare left right
  | .string left, .string right => Ord.compare left right
  | .record left, .record right => compareEntries left right
  | .sequence left, .sequence right => compareItems left right
  | .absent, .present _ => .lt
  | .present _, .absent => .gt
  | .present left, .present right => compare left right
  | left, right => Ord.compare left.rank right.rank

def compareItems : List Value → List Value → Ordering
  | [], [] => .eq
  | [], _ :: _ => .lt
  | _ :: _, [] => .gt
  | left :: lefts, right :: rights =>
      match compare left right with
      | .eq => compareItems lefts rights
      | decided => decided

def compareEntries : List (String × Value) → List (String × Value) → Ordering
  | [], [] => .eq
  | [], _ :: _ => .lt
  | _ :: _, [] => .gt
  | (leftKey, left) :: lefts, (rightKey, right) :: rights =>
      match Ord.compare leftKey rightKey with
      | .eq =>
          match compare left right with
          | .eq => compareEntries lefts rights
          | decided => decided
      | decided => decided

end

instance : Ord Value := ⟨compare⟩

instance : BEq Value := ⟨fun left right => compare left right == .eq⟩

def sort (values : List Value) : List Value :=
  values.mergeSort fun left right => compare left right != .gt

end Value

def Record.compare (left right : Record) : Ordering :=
  Value.compareEntries left right

end StagedResolver
