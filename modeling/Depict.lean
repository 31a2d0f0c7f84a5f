import Depict.Guard
import Depict.Heap.Action
import Depict.Proofs.Settings.Pairs
import Depict.Proofs.Text.Trim
import Depict.Proofs.Text.Utf8
import Depict.Session
import Depict.Proofs.Settings.Declarations
import Depict.Proofs.Settings.Printing
import Depict.Proofs.Settings.Precedence
import Depict.Proofs.Heap.Steps
import Depict.Proofs.Description.Calls
import Depict.Proofs.Description.Writing
import Depict.Proofs.Logging.Views
import Depict.Proofs.Logging.Setup
import Depict.Proofs.Settings.Merging
import Depict.Proofs.Settings.Keeping
import Depict.Proofs.Logging.Resolving
import Depict.Proofs.Logging.Refusal
import Depict.Proofs.Session.Defaults
import Depict.Proofs.Heap.Independence
import Depict.Proofs.Description.Interleaving
import Depict.Proofs.Heap.Labels
import Depict.Proofs.Description.Growth
import Depict.Proofs.TypeName.Collapse
import Depict.Proofs.TypeName.Segments
import Depict.Proofs.Description.Recording
import Depict.Proofs.Logging.Spelling
import Depict.Proofs.Settings.Failures
import Depict.Proofs.Settings.Marks
import Depict.Proofs.Settings.Layout
import Depict.Proofs.Show.Reach
import Depict.Proofs.TypeName.Reduction
import Depict.Proofs.Description.Nesting
import Depict.Proofs.Description.Faults
import Depict.Proofs.Description.Appending
import Depict.Proofs.Logging.Routes
import Depict.Proofs.Logging.Configuration
import Depict.Proofs.Text.Casing
import Depict.Proofs.Logging.Renewal
import Depict.Proofs.Settings.Truth
import Depict.Proofs.Description.Conversion
import Depict.Proofs.Decimal.Format
import Depict.Proofs.Decimal.Nearest
import Depict.Proofs.Decimal.Shortest
import Depict.Proofs.Decimal.Written
import Depict.Proofs.Decimal.RoundTrip
import Depict.Proofs.Settings.Exports
import Depict.Proofs.TypeName.Indexes
import Depict.Proofs.TypeName.Modules
import Depict.Proofs.Show.Outcomes
import Depict.Proofs.Show.Ending
