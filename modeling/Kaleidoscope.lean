import Kaleidoscope.Main
import Kaleidoscope.Session.Transcript
import Kaleidoscope.Proofs.Scanner.Tokenization
import Kaleidoscope.Proofs.Scanner.Joining
import Kaleidoscope.Proofs.Scanner.Spelling
import Kaleidoscope.Proofs.Parser.Operations
import Kaleidoscope.Proofs.Parser.Climbing
import Kaleidoscope.Proofs.Grammar.Diagnosis
import Kaleidoscope.Proofs.Session.RoundTrip
import Kaleidoscope.Proofs.Session.Rounds
import Kaleidoscope.Proofs.Session.Resynchronisation
import Kaleidoscope.Proofs.Session.Layout
import Kaleidoscope.Proofs.Session.ReadAhead
import Kaleidoscope.Proofs.Session.Segments
import Kaleidoscope.Proofs.Session.Interruption
import Kaleidoscope.Proofs.CommandLine.Inputs
import Kaleidoscope.Proofs.CommandLine.Printed
import Kaleidoscope.Proofs.CommandLine.Conversation
import Kaleidoscope.Proofs.Session.Errors
import Kaleidoscope.Proofs.Snippet.Caret
import Kaleidoscope.Proofs.Tree.ReadBack
import Kaleidoscope.Proofs.Scanner.Insertion
import Kaleidoscope.Proofs.Parser.Locality
import Kaleidoscope.Proofs.Parser.ReadAhead
import Kaleidoscope.Proofs.Parser.Precedences
import Kaleidoscope.Proofs.Parser.Termination
import Kaleidoscope.Proofs.Tree.WellFormed
import Kaleidoscope.Proofs.Snippet.Places
import Kaleidoscope.Proofs.Decimal.Leading
