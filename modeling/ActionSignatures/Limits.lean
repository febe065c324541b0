/-
**Limits.**

Every bound that keeps a computation finite on degenerate input.

Main definitions:

* `ActionSignatures.Limits.maxDefaultParameters`, `ActionSignatures.Limits.defaultParametersCeiling`
  — how many parameters of one action may have default values;
* `ActionSignatures.Limits.maxAncestorEdges` — how many super-type references one walk follows.
-/

set_option relaxedAutoImplicit false
set_option autoImplicit false

namespace ActionSignatures.Limits

/-- How many parameters of one action may have default values unless the options say otherwise.
Sixteen of them already give 65535 overloads. -/
def maxDefaultParameters : UInt32 := 16

/-- The ceiling for options that ask for more: subsets of the defaults are enumerated by the bits of
a 32-bit word. -/
def defaultParametersCeiling : UInt32 := 24

/-- How many super-type references one walk over the ancestors of a type follows.  Cycles are cut by
the set of visited declarations; this bounds hierarchies that never end. -/
def maxAncestorEdges : Nat := 100000

/-- How many references the queue of a walk has room for from the start. -/
def ancestorQueueCapacity : Nat := 16

end ActionSignatures.Limits
