import FreeBody.Compact.Writer
import FreeBody.Diagram.Storage
import FreeBody.Inline.Extraction
import FreeBody.Main
import FreeBody.Measure
import FreeBody.Proofs.Compact.Reimport
import FreeBody.Proofs.Drawing.WellFormed
import FreeBody.Proofs.Inline.Lossless
import FreeBody.Proofs.Inline.Cut
import FreeBody.Proofs.Inline.Numbering
import FreeBody.Proofs.Json.Scalar
import FreeBody.Proofs.Json.Scan
import FreeBody.Proofs.Json.Number
import FreeBody.Proofs.Json.Codec
import FreeBody.Proofs.Json.Record
import FreeBody.Proofs.Diagram.Storage
import FreeBody.Proofs.Markup.Reflow
import FreeBody.Proofs.Markup.Reading
import FreeBody.Proofs.Drawing.Attributes
import FreeBody.Proofs.Markup.Coordinate
import FreeBody.Proofs.Markup.Root
import FreeBody.Proofs.Drawing.Art
import FreeBody.Proofs.Composition.Nesting
import FreeBody.Proofs.Diagram.Plain
import FreeBody.Proofs.Preset.Builtin
import FreeBody.Proofs.Markup.Names
import FreeBody.Proofs.Drawing.Names
import FreeBody.Proofs.Compact.Plain
import FreeBody.Proofs.Composition.Names
import FreeBody.Proofs.Inline.Names
import FreeBody.Proofs.Compact.Coverage
import FreeBody.Proofs.Composition.Account
import FreeBody.Proofs.Composition.Apart
import FreeBody.Proofs.Composition.Extent
import FreeBody.Proofs.Inline.Rescan
import FreeBody.Proofs.Inline.Checking
import FreeBody.Proofs.Compact.Recovery
import FreeBody.Proofs.Compact.Recognition
import FreeBody.Proofs.Drawing.Marks
import FreeBody.Proofs.Sheet.Gallery
import FreeBody.Proofs.Sheet.Agreement
import FreeBody.Proofs.Composition.Gaps
import FreeBody.Proofs.Composition.Connectors
import FreeBody.Proofs.Composition.Calls
import FreeBody.Proofs.Composition.Quoting
import FreeBody.Proofs.Preset.Written
import FreeBody.Proofs.Inline.Segments
import FreeBody.Proofs.Label.Markup
import FreeBody.Proofs.Diagram.Building
import FreeBody.Proofs.Decimal.Arithmetic
import FreeBody.Proofs.Json.Real
import FreeBody.Proofs.Json.Loading
import FreeBody.Proofs.Diagram.Loading
import FreeBody.Proofs.Preset.Finite
import FreeBody.Proofs.Compact.Storing
import FreeBody.Proofs.Markup.Selector
import FreeBody.Proofs.Markup.Document
import FreeBody.Proofs.Drawing.Grid
import FreeBody.Proofs.Compact.Scanning
import FreeBody.Proofs.Markup.Escaping
import FreeBody.Proofs.Composition.Numbers
