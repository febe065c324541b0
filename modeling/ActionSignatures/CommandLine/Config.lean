/-
**Configuration.**

A configuration file sets what the command line leaves open.  Unless it asks for the root of the
class hierarchy, the root is passed over like any other excluded ancestor.

Main definitions:

* `ActionSignatures.Config` — configurations;
* `ActionSignatures.Config.parse` — **reading a configuration**;
* `ActionSignatures.Config.resolverOptions` — the options of the walk that are in force.
-/

import ActionSignatures.Codec.Inheritance
import ActionSignatures.CommandLine.Arguments
import ActionSignatures.Json.Reader

set_option relaxedAutoImplicit false
set_option autoImplicit false

namespace ActionSignatures

/-- **A configuration.** -/
structure Config where
  format : Option OutputFormat := none
  includeObject : Bool := false
  resolver : ResolverOptions := {}
  synthesis : SynthesisOptions := {}

namespace Config

/-- The name of the configuration file that is looked for where none is given. -/
def fileName : String := "sarlz.json"

/-- The configuration that a value writes. -/
def ofJson (j : Json) : Decoded Config := do
  let fields ← j.record ["format", "includeObject", "resolver", "synthesis"]
  return {
    format :=
      ← Json.optional fields "format" none (Json.nullable (Json.oneOf .outside OutputFormat.all (·.name)))
    includeObject := ← Json.optional fields "includeObject" false Json.truth
    resolver := ← Json.optional fields "resolver" {} ResolverOptions.ofJson
    synthesis := ← Json.optional fields "synthesis" {} SynthesisOptions.ofJson }

/-- **Reading a configuration**: the configuration that a text writes. -/
def parse (text : String) : Option Config :=
  (Json.parse text).bind fun j => (ofJson j).toOption

/-- What is said about a text that writes no configuration. -/
def parseFailure : String := "failed to parse " ++ fileName

/-- The options of the walk that are in force: the root of the class hierarchy is passed over unless
it is asked for. -/
def resolverOptions (c : Config) : ResolverOptions :=
  if c.includeObject then c.resolver
  else
    { c.resolver with
      excludedAncestors := c.resolver.excludedAncestors.insert WellKnown.object }

/-- Whether the configuration sets nothing. -/
def isDefault (c : Config) : Bool :=
  c.format.isNone && !c.includeObject && c.resolver.excludedAncestors.isEmpty &&
    c.resolver.skipSynthetic && c.synthesis = {}

end Config

end ActionSignatures
