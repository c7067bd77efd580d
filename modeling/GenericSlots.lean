import GenericSlots.Ident
import GenericSlots.Ty.Basic
import GenericSlots.Ty.Subst
import GenericSlots.Ty.Printer
import GenericSlots.Hierarchy.Basic
import GenericSlots.Hierarchy.Edit
import GenericSlots.Hierarchy.Ladder
import GenericSlots.Failure
import GenericSlots.Log.Event
import GenericSlots.Log.Run
import GenericSlots.Derivation
import GenericSlots.Projection
import GenericSlots.Slot.Policy
import GenericSlots.Slot.Error
import GenericSlots.Slot.Layout
import GenericSlots.Slot.Table
import GenericSlots.Slot.Construction
import GenericSlots.Slot.Mapping
import GenericSlots.Slot.Mappings
import GenericSlots.Proofs.Slot.Placement
import GenericSlots.Proofs.Slot.Recursion
import GenericSlots.Proofs.Slot.Queries
import GenericSlots.Proofs.Slot.Construction
import GenericSlots.Proofs.Slot.Specification
import GenericSlots.Proofs.Slot.Validity
import GenericSlots.Proofs.Derivation.PrimaryPath
import GenericSlots.Proofs.Projection.Primary
import GenericSlots.Proofs.Slot.Mapping
import GenericSlots.Proofs.Slot.Demand
import GenericSlots.Proofs.Slot.Access
import GenericSlots.Proofs.Derivation.FirstPath
import GenericSlots.Proofs.Hierarchy.Reachable
import GenericSlots.Proofs.Hierarchy.Growth
import GenericSlots.Proofs.Hierarchy.Names
import GenericSlots.Proofs.Hierarchy.History
import GenericSlots.Proofs.Slot.Outline
import GenericSlots.Proofs.Log.Legible
import GenericSlots.Proofs.Slot.Validation
import GenericSlots.Proofs.Slot.Blame
import GenericSlots.Proofs.Slot.Origins
import GenericSlots.Proofs.Slot.Compression
import GenericSlots.Proofs.Slot.Correspondence
import GenericSlots.Proofs.Slot.Profile
import GenericSlots.Proofs.Slot.Survival
import GenericSlots.Proofs.Slot.Elsewhere
import GenericSlots.Proofs.Slot.Closed
import GenericSlots.Proofs.Slot.Sequence
import GenericSlots.Proofs.Ty.Text
import GenericSlots.Proofs.Ty.Writing
import GenericSlots.Proofs.Ty.Locality
import GenericSlots.Proofs.Log.Observed
import GenericSlots.Proofs.Derivation.Routes
import GenericSlots.Proofs.Projection.Instantiation
import GenericSlots.Proofs.Projection.Outcome
import GenericSlots.Proofs.Projection.Substitution
import GenericSlots.Proofs.Projection.Variables
import GenericSlots.Proofs.Projection.Faults
import GenericSlots.Proofs.Projection.Chain
import GenericSlots.Proofs.Ty.Composition
import GenericSlots.Proofs.Ty.Occurrence
import GenericSlots.Proofs.Hierarchy.Effects
import GenericSlots.Proofs.Hierarchy.Numbering
import GenericSlots.Proofs.Slot.Agreement
import GenericSlots.Proofs.Slot.Extension
import GenericSlots.Proofs.Ladder.Construction
import GenericSlots.Proofs.Ladder.Derivation
import GenericSlots.Proofs.Ladder.Slots
import GenericSlots.Proofs.Ladder.Acceptance
import GenericSlots.Proofs.Hierarchy.Allocation
import GenericSlots.Proofs.Slot.Coverage
