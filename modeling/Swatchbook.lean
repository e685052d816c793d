import Swatchbook.Main
import Swatchbook.Files.Tree
import Swatchbook.Proofs.Resolution.Invariant
import Swatchbook.Proofs.Resolution.Outcome
import Swatchbook.Proofs.Files.View
import Swatchbook.Proofs.Files.Walk
import Swatchbook.Proofs.Files.Effects
import Swatchbook.Proofs.Files.Spelling
import Swatchbook.Proofs.Files.Execution
import Swatchbook.Proofs.Generation.Staging
import Swatchbook.Proofs.Generation.Output
import Swatchbook.Proofs.Generation.Replacement
import Swatchbook.Proofs.Source.Lines
import Swatchbook.Proofs.Source.Literal
import Swatchbook.Proofs.Source.Reader
import Swatchbook.Proofs.Source.Names
import Swatchbook.Proofs.Source.Settled
import Swatchbook.Proofs.Source.Unbroken
import Swatchbook.Proofs.Source.Registry
import Swatchbook.Proofs.Source.Colors
import Swatchbook.Proofs.Source.Decoded
import Swatchbook.Proofs.Coherence
import Swatchbook.Proofs.Source.Legal
import Swatchbook.Proofs.ThemeFile.Record
import Swatchbook.Proofs.ThemeFile.Skipped
import Swatchbook.Proofs.ThemeFile.Leaves
import Swatchbook.Proofs.ThemeFile.Flattening
import Swatchbook.Proofs.Json.Sorted
import Swatchbook.Proofs.Resolution.Values
import Swatchbook.Proofs.Generation.Decided
import Swatchbook.Proofs.Files.Moving
import Swatchbook.Proofs.Files.Making
import Swatchbook.Proofs.Generation.Contents
import Swatchbook.Proofs.Generation.Result
import Swatchbook.Proofs.ThemeFolder
import Swatchbook.Proofs.Generation.Again
import Swatchbook.Proofs.Generation.Repetition
import Swatchbook.Proofs.Consistency
import Swatchbook.Proofs.Source.Usable
import Swatchbook.Proofs.Source.Emittable
import Swatchbook.Proofs.Source.LineCount
import Swatchbook.Proofs.Dict
import Swatchbook.Proofs.Alike
import Swatchbook.Proofs.Json.Grammar
import Swatchbook.Proofs.Json.Scanning
import Swatchbook.Proofs.Json.Printed
import Swatchbook.Proofs.Json.Reordered
import Swatchbook.Proofs.Json.Fields
import Swatchbook.Proofs.ThemeFile.RoundTrip
import Swatchbook.Proofs.ThemeFile.Reordering
import Swatchbook.Proofs.Resolution.Origin
import Swatchbook.Proofs.Resolution.Inlining
import Swatchbook.Proofs.ThemeFile.Entries
import Swatchbook.Proofs.ThemeFile.Removal
import Swatchbook.Proofs.ThemeFile.OtherKinds
import Swatchbook.Proofs.Resolution.Locality
import Swatchbook.Proofs.Resolution.Journal
import Swatchbook.Proofs.Resolution.Leniency
import Swatchbook.Proofs.Offenders
import Swatchbook.Proofs.Naming
import Swatchbook.Proofs.Source.Synthesized
import Swatchbook.Proofs.Text.UpperCase
import Swatchbook.Proofs.Color.Encoding
import Swatchbook.Proofs.Source.Respelled
import Swatchbook.Proofs.Source.ModulePath
import Swatchbook.Proofs.ThemeFolder.Listing
import Swatchbook.Proofs.ThemeFolder.Order
import Swatchbook.Proofs.ThemeFile.Declared
import Swatchbook.Proofs.Decimal.Rounding
import Swatchbook.Proofs.Decimal.Binary
import Swatchbook.Proofs.Decimal.Nearest
import Swatchbook.Proofs.Decimal.Amount
import Swatchbook.Proofs.Json.Numeral
import Swatchbook.Proofs.ThemeFile.StandardKeys
import Swatchbook.Proofs.ThemeFile.Amounts
import Swatchbook.Proofs.Resolution.Whitening
import Swatchbook.Proofs.Color.Settled
import Swatchbook.Proofs.Resolution.MarkedSearch
import Swatchbook.Proofs.Resolution.Marks
import Swatchbook.Proofs.Resolution.Lockstep
