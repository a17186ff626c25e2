import Mathlib.Data.List.Basic

set_option autoImplicit false

/-! The relational plan IR and its indented rendering (`sqlrel/src/relational.rs`).
Scalar expressions and table references are abstract; only their `Display` text is used. -/

namespace GlareDb.Sqlrel

/-- The `Display` texts the rendering borrows: a scalar expression, a resolved table
reference, and `fmtutil::DisplaySlice` over already rendered items. -/
structure Render (Expr Table : Type) where
  expr : Expr → String
  table : Table → String
  slice : List String → String

variable {Expr Table : Type} (render : Render Expr Table)

end GlareDb.Sqlrel

/-! The rendering of a relational plan is its nodes in pre-order, each behind `d - 1`
copies of `| ` for its distance `d` from the root. The root and its children share the
empty indentation, and the rows of a `Values` node carry none. -/

namespace GlareDb.Proofs.RelationalDisplay
open GlareDb.Sqlrel

variable {Expr Table : Type} (render : Render Expr Table)

end GlareDb.Proofs.RelationalDisplay
