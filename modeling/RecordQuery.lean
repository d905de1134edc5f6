import RecordQuery.Clause.Outline
import RecordQuery.Clause.SearchBody
import RecordQuery.Command.Run
import RecordQuery.Files.Tree
import RecordQuery.Json.Printer
import RecordQuery.Main
import RecordQuery.Proofs.Canonical.Alike
import RecordQuery.Proofs.Canonical.Heading
import RecordQuery.Proofs.Meaning.Filter
import RecordQuery.Region.Set
import RecordQuery.Schema.Registry
import RecordQuery.Settings.Rendering
import RecordQuery.Proofs.Decimal.ReadBack
import RecordQuery.Proofs.Json.Numeral
import RecordQuery.Proofs.Text.Splitting
import RecordQuery.Proofs.Geometry.Drawing
import RecordQuery.Proofs.Query.WellFormed
import RecordQuery.Proofs.Canonical.Coordinates
import RecordQuery.Proofs.Meaning.Agreement
import RecordQuery.Proofs.Canonical.Legible
import RecordQuery.Proofs.Canonical.Soundness
import RecordQuery.Proofs.Command.Answer
import RecordQuery.Proofs.Command.Line
import RecordQuery.Proofs.Clause.Reordering
import RecordQuery.Proofs.Query.Reordering
import RecordQuery.Proofs.Settings.Discovery
import RecordQuery.Proofs.Command.Boundaries
import RecordQuery.Proofs.Clause.NormalForm
import RecordQuery.Proofs.Region.Loading
import RecordQuery.Proofs.Query.NormalForm
import RecordQuery.Proofs.Clause.Members
import RecordQuery.Proofs.Clause.SearchBody
import RecordQuery.Proofs.Meaning.SearchBody
import RecordQuery.Proofs.Query.Reading
import RecordQuery.Proofs.Canonical.Printed
import RecordQuery.Proofs.Schema.Versions
import RecordQuery.Proofs.Path.Components
import RecordQuery.Proofs.Schema.Registration
import RecordQuery.Proofs.Settings.Isolation
import RecordQuery.Proofs.Settings.Merging
import RecordQuery.Proofs.Settings.Reloading
import RecordQuery.Proofs.Geometry.Equality
import RecordQuery.Proofs.Query.Faults
import RecordQuery.Proofs.Command.Hashing
import RecordQuery.Proofs.Command.Listing
import RecordQuery.Proofs.Schema.Numbering
import RecordQuery.Proofs.Clause.Renaming
import RecordQuery.Proofs.Query.Naming
import RecordQuery.Proofs.Json.Printing
import RecordQuery.Proofs.Canonical.Numeric
import RecordQuery.Proofs.Geometry.Defects
import RecordQuery.Proofs.Region.Sources
import RecordQuery.Proofs.Settings.HomePaths
import RecordQuery.Proofs.Text.Recapitalizing
import RecordQuery.Proofs.Region.Relabelling
import RecordQuery.Proofs.Region.Respelling
