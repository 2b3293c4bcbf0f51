import Recast.Chain.Run
import Recast.Chain.Split
import Recast.Command.Reference
import Recast.Json.Reformat
import Recast.Main
import Recast.Menu.Basic
import Recast.Shell.Program
import Recast.Text.Words
import Recast.Uri.Decode
import Recast.Regex.Basic
import Recast.Regex.Reader
import Recast.Proofs.Regex.Spelling
import Recast.Proofs.Chain.Pattern
import Recast.Proofs.Chain.Grammar
import Recast.Proofs.Chain.Typed
import Recast.Proofs.Chain.Scan
import Recast.Proofs.Text.Occurrences
import Recast.Proofs.Chain.Run
import Recast.Proofs.Chain.Split
import Recast.Proofs.Command.Builtin
import Recast.Proofs.Menu.Chain
import Recast.Proofs.Chain.Tokenization
import Recast.Proofs.Text.Utf8
import Recast.Proofs.Uri.Escape
import Recast.Proofs.Uri.RoundTrip
import Recast.Proofs.Chain.Canonical
import Recast.Proofs.Chain.Agreement
import Recast.Proofs.Chain.Known
import Recast.Proofs.Menu.Reading
import Recast.Proofs.Menu.Continued
import Recast.Proofs.Menu.Order
import Recast.Proofs.Menu.Preview
import Recast.Proofs.Menu.Hidden
import Recast.Proofs.Json.Reformat
import Recast.Proofs.Json.Stability
import Recast.Proofs.Chain.Fallback
import Recast.Proofs.Uri.Delimiter
import Recast.Proofs.Uri.Fault
import Recast.Proofs.Json.Layout
import Recast.Proofs.Menu.Document
import Recast.Proofs.Command.Listing
import Recast.Proofs.Letter.Ascii
import Recast.Proofs.Letter.WordCase
import Recast.Proofs.Text.Words
import Recast.Proofs.Text.Slug
import Recast.Proofs.Text.Identifier
import Recast.Proofs.Menu.Output
import Recast.Proofs.Json.Grammar
import Recast.Proofs.Text.Trim
import Recast.Proofs.Json.Indent
import Recast.Proofs.Uri.Cursor
import Recast.Proofs.Menu.Settings
