import FixedWidth.Schema.Registry

/-!
# Schema/Audit — references that lead nowhere

The audit looks at every reference of a registry, whether or not a type is ever compiled from it,
and reports those whose identifier is not registered together with all replaced identifiers.
-/

namespace FixedWidth.Schema

/-- A reference to an identifier that is not registered. -/
structure DanglingReference where
  /-- The identifier. -/
  reference : String
  /-- The place of the reference. -/
  place : Provenance
  deriving DecidableEq, Repr

/-- The findings on a registry. -/
structure Audit where
  /-- Number of references. -/
  references : Nat
  /-- Those that lead nowhere, in the order of the forest. -/
  dangling : List DanglingReference
  /-- Identifiers that passed to another node. -/
  overrides : List Override
  deriving DecidableEq, Repr

/-- The references of a forest with their places, in order. -/
def referencesOf (roots : List Node) : List DanglingReference :=
  (occurrences roots).filterMap fun (_, node) =>
    if node.kind = .reference then node.refId.map (⟨·, node.place⟩) else none

/-- Looks at all references of a registry. -/
def Registry.audit (registry : Registry) : Audit :=
  let references := referencesOf registry.roots
  ⟨references.length, references.filter fun r => !registry.contains r.reference,
    registry.overrides⟩

/-- Whether there is nothing to report. -/
def Audit.isClean (audit : Audit) : Bool := audit.dangling.isEmpty && audit.overrides.isEmpty

end FixedWidth.Schema
