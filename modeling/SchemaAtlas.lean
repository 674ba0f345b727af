import SchemaAtlas.Graph.Dot
import SchemaAtlas.Main
import SchemaAtlas.Release
import SchemaAtlas.Proofs.Fluent.Schema
import SchemaAtlas.Proofs.Blocks.Model
import SchemaAtlas.Proofs.Fluent.Scan
import SchemaAtlas.Proofs.Blocks.Schema
import SchemaAtlas.Proofs.Blocks.Scan
import SchemaAtlas.Proofs.Extraction.Ends
import SchemaAtlas.Proofs.Extraction.Results
import SchemaAtlas.Proofs.Extraction.Modes
import SchemaAtlas.Proofs.Repeats
import SchemaAtlas.Proofs.Extraction.Merging
import SchemaAtlas.Proofs.Drawing
import SchemaAtlas.Proofs.Headings
import SchemaAtlas.Proofs.Fluent.Headings
import SchemaAtlas.Proofs.Blocks.Headings
import SchemaAtlas.Proofs.Extraction.Columns
import SchemaAtlas.Proofs.Extraction.Positions
import SchemaAtlas.Blocks.Written
import SchemaAtlas.Fluent.Written
import SchemaAtlas.Proofs.Blocks.Built
import SchemaAtlas.Proofs.Blocks.Plain
import SchemaAtlas.Proofs.Blocks.RoundTrip
import SchemaAtlas.Proofs.Blocks.Tiers
import SchemaAtlas.Proofs.Edges
import SchemaAtlas.Proofs.Connections
import SchemaAtlas.Proofs.Fluent.Declared
import SchemaAtlas.Proofs.Fluent.Texts
import SchemaAtlas.Proofs.Blocks.Feeds
import SchemaAtlas.Proofs.Blocks.Locality
import SchemaAtlas.Proofs.Blocks.Order
import SchemaAtlas.Proofs.Fluent.Enums
import SchemaAtlas.Proofs.Fluent.Skimmed
import SchemaAtlas.Proofs.Fluent.Tiers
import SchemaAtlas.Proofs.Fluent.Order
import SchemaAtlas.Proofs.Fluent.Chains
import SchemaAtlas.Proofs.Fluent.Spreads
import SchemaAtlas.Proofs.Extraction.Detected
import SchemaAtlas.Proofs.Extraction.Draws
import SchemaAtlas.Proofs.Blocks.Settings
import SchemaAtlas.Proofs.History
import SchemaAtlas.Proofs.Extraction.Handover
import SchemaAtlas.Proofs.Extraction.Refusals
import SchemaAtlas.Proofs.Extraction.Respelled
import SchemaAtlas.Proofs.Text.WellNested
import SchemaAtlas.Proofs.Text.Comments
import SchemaAtlas.Proofs.Cli.Answers
import SchemaAtlas.Proofs.Blocks.Numbered
import SchemaAtlas.Proofs.Text.Pieces
import SchemaAtlas.Proofs.Extraction.Coarse
import SchemaAtlas.Proofs.Blocks.Scalars
import SchemaAtlas.Proofs.Blocks.Mapped
import SchemaAtlas.Proofs.Blocks.Modes
import SchemaAtlas.Proofs.Blocks.Inferred
import SchemaAtlas.Proofs.Blocks.Defaults
import SchemaAtlas.Proofs.Blocks.Named
import SchemaAtlas.Proofs.Fluent.Modifiers
import SchemaAtlas.Proofs.Fluent.Trailing
import SchemaAtlas.Proofs.Settling
import SchemaAtlas.Proofs.Dot
import SchemaAtlas.Proofs.Lossless
import SchemaAtlas.Proofs.Blocks.Enclosed
import SchemaAtlas.Proofs.Extraction.Gates
import SchemaAtlas.Proofs.Blocks.Naming
import SchemaAtlas.Proofs.Overrides
