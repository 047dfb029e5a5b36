import ViewBinding.Filer.Tree
import ViewBinding.Main
import ViewBinding.Proofs.Verdict
import ViewBinding.Proofs.History
import ViewBinding.Proofs.Denotation
import ViewBinding.Proofs.Wiring
import ViewBinding.Proofs.Course
import ViewBinding.Proofs.Tally
import ViewBinding.Proofs.Deposit
import ViewBinding.Proofs.Attempts
import ViewBinding.Proofs.Limits
import ViewBinding.Proofs.Survivors
import ViewBinding.Proofs.Independence
import ViewBinding.Proofs.RoundTrip
import ViewBinding.Proofs.Strictness
import ViewBinding.Proofs.Meaning
import ViewBinding.Proofs.Transcript
import ViewBinding.Proofs.Evidence
import ViewBinding.Proofs.Reach
import ViewBinding.Proofs.Capture
import ViewBinding.Proofs.Declared
import ViewBinding.Proofs.Naming
import ViewBinding.Proofs.Filing
import ViewBinding.Proofs.Attribution
import ViewBinding.Proofs.Casts
import ViewBinding.Proofs.Grounds
import ViewBinding.Proofs.Qualified
import ViewBinding.Proofs.Suffixes
import ViewBinding.Proofs.Handlers
import ViewBinding.Proofs.Mentions
import ViewBinding.Proofs.Keeping
import ViewBinding.Proofs.Enclosure
import ViewBinding.Proofs.Precedence
import ViewBinding.Proofs.Outline
import ViewBinding.Proofs.Merging
import ViewBinding.Proofs.Ending
import ViewBinding.Proofs.Colors
import ViewBinding.Proofs.Nesting
import ViewBinding.Proofs.Growth
