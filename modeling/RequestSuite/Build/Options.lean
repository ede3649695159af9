/-
The choices of a build.

* `Options`: what is generated, and where.
-/
namespace RequestSuite

/-- The choices of a build. -/
structure Options where
  /-- All test files go to the root. -/
  flatten : Bool := false
  /-- The shared module is written. -/
  emitSetup : Bool := true
  /-- Tests measure time, check for success and report errors. -/
  enhanced : Bool := false
  deriving DecidableEq, Repr

end RequestSuite
