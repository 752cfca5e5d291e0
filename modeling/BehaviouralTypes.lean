import BehaviouralTypes.CommandLine.Directory
import BehaviouralTypes.Main
import BehaviouralTypes.Simplify.Annotation
import BehaviouralTypes.Pattern.Fault
import BehaviouralTypes.Pattern.Tree
import BehaviouralTypes.Text.Letters
import BehaviouralTypes.Pattern.Bracket
import BehaviouralTypes.Pattern.Reader
import BehaviouralTypes.Pattern.Basic
import BehaviouralTypes.Pattern.Footprint
import BehaviouralTypes.Pattern.Meaning
import BehaviouralTypes.Pattern.Occurrence
import BehaviouralTypes.Pattern.Text
import BehaviouralTypes.Proofs.Idempotence
import BehaviouralTypes.Proofs.Preservation
import BehaviouralTypes.Proofs.Reflection
import BehaviouralTypes.Proofs.Scheduling
import BehaviouralTypes.Proofs.Grammar
import BehaviouralTypes.Proofs.RoundTrip
import BehaviouralTypes.Proofs.FixedText
import BehaviouralTypes.Proofs.Json.Escape
import BehaviouralTypes.Proofs.Json.Token
import BehaviouralTypes.Proofs.Spelling
import BehaviouralTypes.Proofs.Json.Program
import BehaviouralTypes.Proofs.Consistency
import BehaviouralTypes.Proofs.Rewriting
import BehaviouralTypes.Proofs.Delivery
import BehaviouralTypes.Proofs.Session
import BehaviouralTypes.Proofs.Agreement
import BehaviouralTypes.Proofs.Feeding
import BehaviouralTypes.Proofs.Search
import BehaviouralTypes.Proofs.Joining
import BehaviouralTypes.Proofs.Viability
import BehaviouralTypes.Proofs.Validity
import BehaviouralTypes.Proofs.Rounds
import BehaviouralTypes.Proofs.Overflow
import BehaviouralTypes.Proofs.Annotation
