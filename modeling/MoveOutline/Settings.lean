/-!
# Analysis settings
-/
namespace MoveOutline

/-- Which module names the scope where several modules enclose a point. -/
inductive NamePolicy where
  /-- The one closest to the root. -/
  | outermost
  /-- The one closest to the point. -/
  | nearest
  deriving DecidableEq, Repr

/-- Which functions are reported as native. -/
inductive NativePolicy where
  /-- The ones with a native definition. -/
  | byDeclarationKind
  /-- All of them. -/
  | alwaysNative
  deriving DecidableEq, Repr

/-- Whether a function is reported as native, given whether its definition is. -/
def NativePolicy.isNative : NativePolicy → Bool → Bool
  | byDeclarationKind, nativeDefinition => nativeDefinition
  | alwaysNative, _ => true

/-- What a user can set. -/
structure Settings where
  namePolicy : NamePolicy := .outermost
  nativePolicy : NativePolicy := .byDeclarationKind
  /-- How many nodes one walk may visit; `none` sets no limit. -/
  nodeBudget : Option Nat := none
  /-- Whether a function definition is a context of its own around its body and arguments. -/
  functionContexts : Bool := false
  deriving DecidableEq, Repr

end MoveOutline
