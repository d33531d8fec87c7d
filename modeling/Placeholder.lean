import Placeholder.Binary64.Bits
import Placeholder.Main
import Placeholder.Proofs.Resolver.Outcome
import Placeholder.Proofs.Directive.Printing
import Placeholder.Proofs.Options.Named
import Placeholder.Value.Reading
import Placeholder.Proofs.Directive.Forms
import Placeholder.Proofs.Association
import Placeholder.Proofs.Options.Naming
import Placeholder.Proofs.Generator.Options
import Placeholder.Proofs.Resolver.Forms
import Placeholder.Proofs.Registry.History
import Placeholder.Proofs.Registry.Schema
import Placeholder.Proofs.Resolver.Fallback
import Placeholder.Proofs.Resolver.Names
import Placeholder.Proofs.Calendar.Scan
import Placeholder.Proofs.Calendar.Format
import Placeholder.Proofs.Binary64.Order
import Placeholder.Proofs.Checked.Basic
import Placeholder.Proofs.Checked.Bytes
import Placeholder.Proofs.Checked.Argument
import Placeholder.Proofs.Checked.Generator
import Placeholder.Proofs.Checked.Pattern
import Placeholder.Proofs.Checked.Builtin
import Placeholder.Proofs.Checked.Directive
import Placeholder.Proofs.Checked.Resolver
import Placeholder.Proofs.Calendar.Gregorian
import Placeholder.Proofs.Text.Columns
import Placeholder.Proofs.Calendar.Stamp
import Placeholder.Proofs.Command.Outcome
import Placeholder.Proofs.Command.Lines
import Placeholder.Proofs.Generator.Floats
import Placeholder.Proofs.Text.Runs
import Placeholder.Proofs.Decimal.Shortest
import Placeholder.Proofs.Value.Strings
import Placeholder.Proofs.Arg.Written
import Placeholder.Proofs.Resolver.Written
import Placeholder.Proofs.Decimal.Product
import Placeholder.Proofs.Value.Numerals
import Placeholder.Proofs.Value.Floats
import Placeholder.Proofs.Value.Parts
import Placeholder.Proofs.Value.Json
import Placeholder.Proofs.Decimal.Nearest
import Placeholder.Proofs.Decimal.Enough
import Placeholder.Proofs.Value.Exact
import Placeholder.Proofs.Value.Printed
import Placeholder.Proofs.Command.Framing
import Placeholder.Proofs.Random.Results
import Placeholder.Proofs.Command.Typed
import Placeholder.Proofs.Random.Taking
import Placeholder.Proofs.Generator.Spending
import Placeholder.Proofs.Yaml.Resolving
import Placeholder.Proofs.Yaml.Tags
import Placeholder.Proofs.Schema.Configured
import Placeholder.Proofs.Arg.Leading
import Placeholder.Proofs.Generator.Lengths
import Placeholder.Proofs.Random.Reaching
import Placeholder.Proofs.Resolver.Picking
import Placeholder.Proofs.Binary64.Between
import Placeholder.Proofs.Generator.Overflow
import Placeholder.Proofs.Generator.Identifiers
import Placeholder.Proofs.Options.Filing
import Placeholder.Proofs.Yaml.Shape
import Placeholder.Proofs.Binary64.Nearest
import Placeholder.Proofs.Value.Mirroring
import Placeholder.Proofs.Decimal.Trimmed
import Placeholder.Proofs.Value.Plain
import Placeholder.Proofs.Calendar.Composition
import Placeholder.Proofs.Generator.Moments
import Placeholder.Proofs.Arg.Digits
import Placeholder.Proofs.Resolver.Ordered
