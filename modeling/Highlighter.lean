import Highlighter.FileTree
import Highlighter.Json.Printer
import Highlighter.Live.Worker
import Highlighter.Main
import Highlighter.Proofs.Line.Candidate
import Highlighter.Proofs.Line.Moves
import Highlighter.Proofs.Line.Termination
import Highlighter.Proofs.Grammar.Compilation
import Highlighter.Proofs.Line.Agreement
import Highlighter.Proofs.Line.Lockstep
import Highlighter.Proofs.Line.Coverage
import Highlighter.Proofs.Line.Depth
import Highlighter.Proofs.Line.Endless
import Highlighter.Proofs.Line.Congruence
import Highlighter.Proofs.Live.Afresh
import Highlighter.Proofs.Live.Knowledge
import Highlighter.Proofs.Live.Convergence
import Highlighter.Proofs.Live.Supersession
import Highlighter.Proofs.Registry.Coherence
import Highlighter.Proofs.Line.Unison
import Highlighter.Proofs.Line.Packing
import Highlighter.Proofs.Live.Interleaving
import Highlighter.Proofs.Live.LineRange
import Highlighter.Proofs.Live.Storing
import Highlighter.Proofs.Live.Notices
import Highlighter.Proofs.Live.SingleEdit
import Highlighter.Proofs.Line.WellFormed
import Highlighter.Proofs.Line.Styling
import Highlighter.Proofs.Line.Metadata
import Highlighter.Proofs.Selector.Parsing
import Highlighter.Proofs.Line.Session
import Highlighter.Proofs.Line.Selection
import Highlighter.Proofs.Grammar.Searching
import Highlighter.Proofs.Pattern.Resolving
import Highlighter.Proofs.Grammar.Resolution
import Highlighter.Proofs.Line.EarlyStop
import Highlighter.Proofs.Line.Conditions
import Highlighter.Proofs.Line.Captures
import Highlighter.Proofs.Grammar.Holders
import Highlighter.Proofs.Line.Enclosing
import Highlighter.Proofs.Selector.Embedding
import Highlighter.Proofs.Theme.Specificity
import Highlighter.Proofs.Line.Ties
import Highlighter.Proofs.Selector.Legibility
import Highlighter.Proofs.Theme.Classes
import Highlighter.Proofs.Theme.Defaults
import Highlighter.Proofs.Metadata.Fields
import Highlighter.Proofs.Live.Alignment
import Highlighter.Proofs.Live.Priors
import Highlighter.Proofs.Live.LongLines
import Highlighter.Proofs.Grammar.Tables
import Highlighter.Proofs.Grammar.Flattening
import Highlighter.Proofs.Grammar.Formation
import Highlighter.Proofs.Grammar.Dropping
import Highlighter.Proofs.Grammar.Validation
import Highlighter.Proofs.Registry.Injectors
import Highlighter.Proofs.Registry.Tidiness
import Highlighter.Proofs.Metadata.Languages
import Highlighter.Proofs.Pattern.Anchors
import Highlighter.Proofs.Live.MaximalRuns
