import Declarations.Kind
import Declarations.Lineage
import Declarations.Handle
import Declarations.Reference
import Declarations.Scope
import Declarations.Record.Attribute
import Declarations.Record.Declaration
import Declarations.Session
import Declarations.Proofs.Lineage.Ancestors
import Declarations.Proofs.Lineage.Calls
import Declarations.Proofs.Lineage.Acyclicity
import Declarations.Proofs.Lineage.Search
import Declarations.Proofs.Lineage.Linking
import Declarations.Proofs.Lineage.LinkOrder
import Declarations.Proofs.Lineage.Growth
import Declarations.Proofs.Record.View
import Declarations.Proofs.Lineage.Mirrors
import Declarations.Proofs.Lineage.Renaming
import Declarations.Proofs.Record.Declaring
import Declarations.Proofs.Record.Naming
import Declarations.Proofs.Record.Revision
import Declarations.Proofs.Reference.Positions
import Declarations.Proofs.Reference.Equality
import Declarations.Proofs.Reference.Handles
import Declarations.Proofs.Reference.Renaming
import Declarations.Proofs.Record.References
import Declarations.Proofs.Record.Surface
import Declarations.Proofs.Record.Handles
import Declarations.Proofs.Record.Equality
import Declarations.Proofs.Record.Renaming
import Declarations.Proofs.Scope.Resolution
import Declarations.Proofs.Scope.Frames
import Declarations.Proofs.Scope.Binding
import Declarations.Proofs.Scope.Minting
import Declarations.Proofs.Scope.TypeParameters
import Declarations.Proofs.Scope.Dependence
import Declarations.Proofs.Session.Advance
import Declarations.Proofs.Session.Registration
import Declarations.Proofs.Session.Containment
import Declarations.Proofs.Session.Places
import Declarations.Proofs.Session.Ancestry
import Declarations.Proofs.Session.Scoping
import Declarations.Proofs.Session.Resolution
import Declarations.Proofs.Session.Effects
import Declarations.Proofs.Session.Persistence
import Declarations.Proofs.Session.Readings
import Declarations.Proofs.Record.Collections
import Declarations.Proofs.Session.Enrolment
import Declarations.Proofs.Session.Provenance
import Declarations.Proofs.Session.Sites
import Declarations.Proofs.Session.Integrity
import Declarations.Proofs.Session.Lockstep
import Declarations.Proofs.Session.Bodies
import Declarations.Proofs.Session.Openings
import Declarations.Proofs.Session.InStep
import Declarations.Proofs.Session.Interleaving
import Declarations.Proofs.Session.EntryPoints
import Declarations.Proofs.Session.Noninterference
import Declarations.Proofs.Process.Calls
import Declarations.Proofs.Process.Identity
import Declarations.Proofs.Record.Parameters
import Declarations.Proofs.Record.Attributes
import Declarations.Proofs.Session.History
import Declarations.Proofs.Session.Setters
import Declarations.Proofs.Session.Batches
import Declarations.Proofs.Session.Finality
import Declarations.Proofs.Session.Accumulation
import Declarations.Proofs.Session.ParameterCalls
import Declarations.Proofs.Session.Constructors
import Declarations.Proofs.Session.Chains
import Declarations.Proofs.Record.Links
import Declarations.Proofs.Session.Bookkeeping
