import FunctionAdapters.CommandLine.Folder
import FunctionAdapters.Main
import FunctionAdapters.Proofs.Plan.Resolver
import FunctionAdapters.Proofs.Plan.Run
import FunctionAdapters.Proofs.Order
import FunctionAdapters.Proofs.Plan.Discovery
import FunctionAdapters.Proofs.TypeVar.Reach
import FunctionAdapters.Proofs.Except
import FunctionAdapters.Proofs.Signature.Pieces
import FunctionAdapters.Proofs.TypeVar.Names
import FunctionAdapters.Proofs.Adapter.Marks
import FunctionAdapters.Proofs.Adapter.Scoping
import FunctionAdapters.Proofs.Plan.Fates
import FunctionAdapters.Proofs.Naming.Disambiguated
import FunctionAdapters.Proofs.Naming.RootMethods
import FunctionAdapters.Proofs.Plan.Collision
import FunctionAdapters.Proofs.Signature.Parts
import FunctionAdapters.Proofs.Adapter.Void
import FunctionAdapters.Proofs.TypeVar.Renaming
import FunctionAdapters.Proofs.Signature.Renaming
import FunctionAdapters.Proofs.Adapter.Renaming
import FunctionAdapters.Proofs.Plan.Renaming
import FunctionAdapters.Proofs.Parted
import FunctionAdapters.Proofs.Plan.Removal
import FunctionAdapters.Proofs.Plan.Exclusion
import FunctionAdapters.Proofs.Plan.Groups
import FunctionAdapters.Proofs.Plan.Policies
import FunctionAdapters.Proofs.Adapter.Owner
import FunctionAdapters.Proofs.Codec.ReadBack
import FunctionAdapters.Proofs.TypeVar.Distance
import FunctionAdapters.Proofs.TypeVar.Numbering
import FunctionAdapters.Proofs.Plan.Trace
import FunctionAdapters.Proofs.CommandLine.Isolation
import FunctionAdapters.Proofs.Signature.History
import FunctionAdapters.Proofs.Signature.Writer
import FunctionAdapters.Proofs.Adapter.Afresh
import FunctionAdapters.Proofs.Signature.Placement
import FunctionAdapters.Proofs.Signature.Spelling
import FunctionAdapters.Proofs.Plan.AppendOnly
import FunctionAdapters.Proofs.StableOrder
import FunctionAdapters.Proofs.Adapter.Arguments
import FunctionAdapters.Proofs.Signature.DeclaredNames
import FunctionAdapters.Proofs.Adapter.DeclaredNames
import FunctionAdapters.Proofs.Erasure
import FunctionAdapters.Proofs.Signature.Intersection
import FunctionAdapters.Proofs.Adapter.StaticDeclarations
import FunctionAdapters.Proofs.DocComment
import FunctionAdapters.Proofs.Naming.Qualified
import FunctionAdapters.Proofs.Config.Resolution
