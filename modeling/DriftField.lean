import DriftField.Canvas.Access
import DriftField.Colour
import DriftField.Command.Run
import DriftField.Decimal.Text
import DriftField.Engine
import DriftField.Engine.Operation
import DriftField.Exposure
import DriftField.Expr.Nesting
import DriftField.Expr.Source
import DriftField.Grammar.Synthesis
import DriftField.Json.Printer
import DriftField.Json.Reader
import DriftField.Library
import DriftField.Main
import DriftField.Noise.Field
import DriftField.Png
import DriftField.Proofs.Canvas.Painting
import DriftField.Proofs.Canvas.Stroke
import DriftField.Proofs.Canvas.Translucency
import DriftField.Proofs.Colour
import DriftField.Proofs.Command.Disk
import DriftField.Proofs.Command.Library
import DriftField.Proofs.Command.Replay
import DriftField.Proofs.Decimal.Exact
import DriftField.Proofs.Decimal.Reading
import DriftField.Proofs.Dictionary
import DriftField.Proofs.Draw
import DriftField.Proofs.Engine.Coherence
import DriftField.Proofs.Engine.Operation
import DriftField.Proofs.Engine.Run
import DriftField.Proofs.Engine.Sources
import DriftField.Proofs.Exposure
import DriftField.Proofs.Expr.Completeness
import DriftField.Proofs.Expr.Grammar
import DriftField.Proofs.Expr.Lexemes
import DriftField.Proofs.Expr.Lexing
import DriftField.Proofs.Expr.Lines
import DriftField.Proofs.Expr.Nesting
import DriftField.Proofs.Expr.Parentheses
import DriftField.Proofs.Expr.Places
import DriftField.Proofs.Expr.RightSides
import DriftField.Proofs.Expr.RoundTrip
import DriftField.Proofs.Expr.Source
import DriftField.Proofs.Expr.Tokens
import DriftField.Proofs.Flow
import DriftField.Proofs.Grammar.Draws
import DriftField.Proofs.Grammar.Expansion
import DriftField.Proofs.Grammar.Selection
import DriftField.Proofs.Grammar.Shape
import DriftField.Proofs.Grid
import DriftField.Proofs.Json.Written
import DriftField.Proofs.Library.Desk
import DriftField.Proofs.Library.Text
import DriftField.Proofs.Noise.Coordinate
import DriftField.Proofs.Scalar.Bits
import DriftField.Proofs.Scalar.Clamp
import DriftField.Proofs.Scalar.Nearest
import DriftField.Proofs.Scalar.Order
import DriftField.Proofs.Scalar.Part
import DriftField.Proofs.Scalar.Plus
import DriftField.Proofs.Scalar.Product
import DriftField.Proofs.Scalar.Quotient
import DriftField.Proofs.Scalar.Remainder
import DriftField.Proofs.Scalar.Sum
import DriftField.Proofs.Scalar.Whole
import DriftField.Proofs.Scalar.Zero
import DriftField.Proofs.Settings.Assignment
import DriftField.Proofs.Settings.Lens
import DriftField.Proofs.Settings.Parameter
import DriftField.Proofs.Settings.Schema
import DriftField.Proofs.Share
import DriftField.Proofs.Share.Format
import DriftField.Proofs.Stream
import DriftField.Proofs.Swarm.Draws
import DriftField.Proofs.Swarm.History
import DriftField.Proofs.Swarm.Population
import DriftField.Proofs.Swarm.Rest
import DriftField.Proofs.Swarm.Run
import DriftField.Proofs.Swarm.Steps
import DriftField.Proofs.Swarm.Tally
import DriftField.Proofs.Swarm.Trails
import DriftField.Proofs.Swarm.Vitality
import DriftField.Proofs.Text.Boundary
import DriftField.Proofs.Text.Bytes
import DriftField.Proofs.Text.Fields
import DriftField.Proofs.Text.Number
import DriftField.Proofs.Viewport
import DriftField.Settings.Override
import DriftField.Settings.Preset
import DriftField.Share
