import SelectorXPath.Main
import SelectorXPath.Selector.Agreement
import SelectorXPath.Proofs.Selector.Completeness
import SelectorXPath.Proofs.Selector.Soundness
import SelectorXPath.Proofs.Token.Recognized
import SelectorXPath.Proofs.Selector.Acceptance
import SelectorXPath.Proofs.Selector.Agreement
import SelectorXPath.Proofs.Selector.WellFormed
import SelectorXPath.Proofs.Text.Spelling
import SelectorXPath.Proofs.Token.Passage
import SelectorXPath.Proofs.Selector.Pieces
import SelectorXPath.Proofs.Selector.Image
import SelectorXPath.Proofs.Document.Tree
import SelectorXPath.Proofs.XPath.Value
import SelectorXPath.Proofs.XPath.Shape
import SelectorXPath.Proofs.XPath.Syntax
import SelectorXPath.Proofs.XPath.Legible
import SelectorXPath.Proofs.Translate.Shape
import SelectorXPath.Proofs.Translate.Cases
import SelectorXPath.Proofs.Translate.Chain
import SelectorXPath.Proofs.Text.Stops
import SelectorXPath.Proofs.Translate.Reversal
import SelectorXPath.Proofs.Token.Local
import SelectorXPath.Proofs.Selector.Respaced
import SelectorXPath.Proofs.Translate.Unplaced
import SelectorXPath.Proofs.Translate.Complement
import SelectorXPath.Proofs.Token.Lossless
import SelectorXPath.Proofs.Nesting
import SelectorXPath.Proofs.Token.Stack
import SelectorXPath.Proofs.Translate.Faults
import SelectorXPath.Proofs.Check
import SelectorXPath.Proofs.XPath.Brackets
import SelectorXPath.Proofs.XPath.Sources
import SelectorXPath.Proofs.Selector.Separators
import SelectorXPath.Proofs.Translate.Sources
import SelectorXPath.Proofs.Translate.Output
import SelectorXPath.Proofs.Text.Endings
import SelectorXPath.Proofs.Token.Seams
import SelectorXPath.Proofs.Token.Moved
import SelectorXPath.Proofs.Token.Joined
import SelectorXPath.Proofs.Token.Respaced
import SelectorXPath.Proofs.Token.Spaces
import SelectorXPath.Proofs.Selector.Composition
import SelectorXPath.Proofs.Selector.Enclosing
import SelectorXPath.Proofs.Selector.Parallel
import SelectorXPath.Proofs.Selector.Limit
import SelectorXPath.Proofs.Selector.Faults
import SelectorXPath.Proofs.Selector.Compounds
import SelectorXPath.Proofs.Token.Faults
import SelectorXPath.Proofs.Selector.Comments
import SelectorXPath.Proofs.Selector.Joined
import SelectorXPath.Proofs.Translate.Moved
import SelectorXPath.Proofs.Translate.Joined
import SelectorXPath.Proofs.Translate.Prefixes
import SelectorXPath.Proofs.Errors
import SelectorXPath.Proofs.Checked.Text
import SelectorXPath.Proofs.Checked.Names
import SelectorXPath.Proofs.Checked.Positions
import SelectorXPath.Proofs.Checked.Scan
import SelectorXPath.Proofs.Checked.Reading
import SelectorXPath.Proofs.Checked.Parts
import SelectorXPath.Proofs.Checked.Parser
import SelectorXPath.Proofs.Checked.Translation
import SelectorXPath.Proofs.Checked.Runs
import SelectorXPath.Proofs.Checked.Loops
import SelectorXPath.Proofs.Checked.Stopping
import SelectorXPath.Proofs.Checked.Groups
import SelectorXPath.Proofs.Checked.Calls
import SelectorXPath.Proofs.XPath.Quoted
import SelectorXPath.Proofs.XPath.Siblings
import SelectorXPath.Proofs.Translate.Counting
import SelectorXPath.Proofs.Namespace.Bindings
import SelectorXPath.Proofs.Namespace.Registry
import SelectorXPath.Proofs.Token.Arguments
import SelectorXPath.Proofs.Selector.Positions
import SelectorXPath.Proofs.XPath.Words
import SelectorXPath.Proofs.XPath.Names
import SelectorXPath.Proofs.Translate.Attributes
import SelectorXPath.Proofs.Translate.Classes
import SelectorXPath.Proofs.Translate.OfType
import SelectorXPath.Proofs.Translate.FirstFault
import SelectorXPath.Proofs.Text.Strings
import SelectorXPath.Proofs.Text.Decoding
import SelectorXPath.Proofs.Selector.Strings
import SelectorXPath.Proofs.PositionLanguage
import SelectorXPath.Proofs.XPath.BareNames
import SelectorXPath.Proofs.Token.Maximal
import SelectorXPath.Proofs.Token.Completed
import SelectorXPath.Proofs.Locations
import SelectorXPath.Proofs.Selector.LeftOpen
import SelectorXPath.Proofs.Selector.Reuse
