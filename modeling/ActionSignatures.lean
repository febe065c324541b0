import ActionSignatures.AncestorGraph
import ActionSignatures.Codec.Basic
import ActionSignatures.Codec.Declaration
import ActionSignatures.Codec.Inheritance
import ActionSignatures.Codec.Signature
import ActionSignatures.Codec.TypeRef
import ActionSignatures.Collections.FirstMap
import ActionSignatures.Collections.IdSet
import ActionSignatures.Collections.Queue
import ActionSignatures.CommandLine.Arguments
import ActionSignatures.CommandLine.Config
import ActionSignatures.CommandLine.LogFormat
import ActionSignatures.CommandLine.Program
import ActionSignatures.CommandLine.Report
import ActionSignatures.CommandLine.Run
import ActionSignatures.Declaration.Basic
import ActionSignatures.Declaration.Flags
import ActionSignatures.Declaration.Store
import ActionSignatures.DefaultExpression
import ActionSignatures.Diagnostic
import ActionSignatures.Expr
import ActionSignatures.Inheritance.Context
import ActionSignatures.Inheritance.Walk
import ActionSignatures.Json.Basic
import ActionSignatures.Json.Number
import ActionSignatures.Json.Reader
import ActionSignatures.Json.Token
import ActionSignatures.Json.Writer
import ActionSignatures.Limits
import ActionSignatures.Main
import ActionSignatures.Overload.Basic
import ActionSignatures.Overload.Synthesis
import ActionSignatures.ParameterTypes
import ActionSignatures.Primitive
import ActionSignatures.Proofs.Codec.Declarations
import ActionSignatures.Proofs.Codec.Modifiers
import ActionSignatures.Proofs.Codec.Records
import ActionSignatures.Proofs.Codec.Types
import ActionSignatures.Proofs.Collections.BitSets
import ActionSignatures.Proofs.CommandLine.Accounting
import ActionSignatures.Proofs.Declaration.Registration
import ActionSignatures.Proofs.Diagnostic.Verbatim
import ActionSignatures.Proofs.Inheritance.Classification
import ActionSignatures.Proofs.Inheritance.Closed
import ActionSignatures.Proofs.Inheritance.Exclusion
import ActionSignatures.Proofs.Inheritance.Extent
import ActionSignatures.Proofs.Inheritance.Findings
import ActionSignatures.Proofs.Inheritance.HiddenMembers
import ActionSignatures.Proofs.Inheritance.Levels
import ActionSignatures.Proofs.Inheritance.Members
import ActionSignatures.Proofs.Inheritance.MirroredConstructors
import ActionSignatures.Proofs.Inheritance.MostDerived
import ActionSignatures.Proofs.Inheritance.Narrowing
import ActionSignatures.Proofs.Inheritance.Paths
import ActionSignatures.Proofs.Inheritance.Reordering
import ActionSignatures.Proofs.Inheritance.Standing
import ActionSignatures.Proofs.Inheritance.Trail
import ActionSignatures.Proofs.Inheritance.Truncation
import ActionSignatures.Proofs.Inheritance.Unresolved
import ActionSignatures.Proofs.Inheritance.VisitedBits
import ActionSignatures.Proofs.Inheritance.WellFormed
import ActionSignatures.Proofs.Overload.Collisions
import ActionSignatures.Proofs.Overload.DefaultMembers
import ActionSignatures.Proofs.Overload.Delegation
import ActionSignatures.Proofs.Overload.DistinctDefaults
import ActionSignatures.Proofs.Overload.Enumeration
import ActionSignatures.Proofs.Overload.Naming
import ActionSignatures.Proofs.Overload.Omissions
import ActionSignatures.Proofs.Overload.Rewriting
import ActionSignatures.Proofs.Overload.Run
import ActionSignatures.Proofs.Overload.SameDefaults
import ActionSignatures.Proofs.Overload.WordArithmetic
import ActionSignatures.Proofs.Prototype.FirstOffence
import ActionSignatures.Proofs.Prototype.MemberKeys
import ActionSignatures.Proofs.Prototype.Order
import ActionSignatures.Proofs.Prototype.Spacing
import ActionSignatures.Proofs.Prototype.WrittenForm
import ActionSignatures.Proofs.Prototype.WrittenNames
import ActionSignatures.Proofs.Signature.DefaultExpressions
import ActionSignatures.Proofs.Signature.FirstVariadic
import ActionSignatures.Proofs.Signature.Validity
import ActionSignatures.Proofs.Substitution.Acyclic
import ActionSignatures.Proofs.Substitution.Bounds
import ActionSignatures.Proofs.Substitution.Chain
import ActionSignatures.Proofs.Substitution.Chase
import ActionSignatures.Proofs.Substitution.Expansion
import ActionSignatures.Proofs.Substitution.ExtensionPoint
import ActionSignatures.Proofs.Substitution.Growth
import ActionSignatures.Proofs.Substitution.Parameters
import ActionSignatures.Proofs.Substitution.Scope
import ActionSignatures.Proofs.Substitution.Supplied
import ActionSignatures.Proofs.Text.Filling
import ActionSignatures.Proofs.Text.Replacing
import ActionSignatures.Proofs.Text.Trimming
import ActionSignatures.Prototype
import ActionSignatures.Signature
import ActionSignatures.Substitution.Bindings
import ActionSignatures.Substitution.Hierarchy
import ActionSignatures.Text.Blank
import ActionSignatures.Text.Pieces
import ActionSignatures.Text.Styled
import ActionSignatures.Text.Template
import ActionSignatures.Text.Upper
import ActionSignatures.TypeRef
