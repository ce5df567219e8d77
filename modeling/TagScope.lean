import TagScope.Session.Step
import TagScope.Proofs.Forest.Lifetime
import TagScope.Proofs.Forest.Construction
import TagScope.Proofs.Forest.Growth
import TagScope.Proofs.Session.Progress
import TagScope.Proofs.Forest.Search
import TagScope.Proofs.Session.Visibility
import TagScope.Proofs.Session.Lifetimes
import TagScope.Proofs.Session.Links
import TagScope.Proofs.Forest.Resolution
import TagScope.Proofs.Session.Globals
import TagScope.Proofs.Session.Effects
import TagScope.Proofs.Session.Traces
import TagScope.Proofs.Session.Requests
import TagScope.Proofs.Session.LifeCycle
import TagScope.Proofs.Session.Verdicts
import TagScope.Proofs.Session.Units
import TagScope.Proofs.Session.Stability
import TagScope.Proofs.Forest.Traversal
import TagScope.Proofs.Session.Occurrences
import TagScope.Proofs.Value.Essence
import TagScope.Proofs.Value.Fields
import TagScope.Proofs.Value.Hashing
import TagScope.Proofs.Value.Firsts
import TagScope.Proofs.Reading.Reader
import TagScope.Proofs.Reading.Inverse
import TagScope.Proofs.Reference.LeftEnd
import TagScope.Proofs.Policy.Schema
import TagScope.Proofs.Value.Renaming
import TagScope.Proofs.Forest.Shape
import TagScope.Proofs.Session.Declarations
import TagScope.Proofs.Forest.Renaming
import TagScope.Proofs.Forest.RenamedResolution
import TagScope.Proofs.Session.Renaming
import TagScope.Proofs.Session.Commutation
import TagScope.Proofs.Forest.Faults
import TagScope.Proofs.Session.Admission
import TagScope.Proofs.Forest.Walks
import TagScope.Proofs.Session.Depths
import TagScope.Proofs.Value.Rebuilding
import TagScope.Proofs.Value.NameTree
import TagScope.Proofs.Value.Validation
import TagScope.Proofs.Reference.Separators
import TagScope.Proofs.Session.NameSets
import TagScope.Proofs.Diagnostic.Lines
