/-
What an expression can read while it is evaluated.

A context holds the current value, the arguments of the field, the environment
and the map elements that are already bound.  A value resolved in a context
gets a child context, so that ancestors lead up through the selection.
-/
import StagedResolver.Value.Basic

namespace StagedResolver

structure Context where
  current : Value
  parent : Option Context
  arguments : Record
  environment : Record
  elements : List Value
deriving Inhabited

namespace Context

def root (current : Value) (environment : Record) : Context :=
  ⟨current, none, [], environment, []⟩

/-- The context of a value that was resolved in `parent`.  The environment is
shared; arguments and elements are not. -/
def child (parent : Context) (current : Value) : Context :=
  ⟨current, some parent, [], parent.environment, []⟩

def withArguments (context : Context) (arguments : Record) : Context :=
  { context with arguments := arguments }

def withElement (context : Context) (element : Value) : Context :=
  { context with elements := element :: context.elements }

def ancestor? : Nat → Context → Option Context
  | 0, context => some context
  | depth + 1, context =>
      match context.parent with
      | none => none
      | some parent => ancestor? depth parent

end Context

end StagedResolver
