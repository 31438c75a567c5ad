import Runlist.Project
import Runlist.Proofs.Acyclicity
import Runlist.Proofs.Ancestry
import Runlist.Proofs.DependencyOrder
import Runlist.Proofs.Directives
import Runlist.Proofs.Evaluation
import Runlist.Proofs.Failures
import Runlist.Proofs.Forest
import Runlist.Proofs.Listing
import Runlist.Proofs.LoadedOnce
import Runlist.Proofs.Locations
import Runlist.Proofs.Lookup
import Runlist.Proofs.Opened
import Runlist.Proofs.Ownership
import Runlist.Proofs.Permanence
import Runlist.Proofs.Playbooks
import Runlist.Proofs.Plays
import Runlist.Proofs.Precedence
import Runlist.Proofs.Primitive
import Runlist.Proofs.Ranges
import Runlist.Proofs.Reentry
import Runlist.Proofs.Rendering
import Runlist.Proofs.Refinement
import Runlist.Proofs.Resolution
import Runlist.Proofs.Selected
import Runlist.Proofs.Spelling
import Runlist.Proofs.Strictness
import Runlist.Proofs.Termination
import Runlist.Proofs.Unrendered
import Runlist.Proofs.Statements
