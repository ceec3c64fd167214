import GridRules.Shape
import GridRules.Text.Blank
import GridRules.Text.Hidden
import GridRules.Text.Numeral
import GridRules.Text.Quoted
import GridRules.Grid.Fault
import GridRules.Grid.Basic
import GridRules.Orientation
import GridRules.Grid.Search
import GridRules.Grid.Mask
import GridRules.Symbol
import GridRules.Symbol.Table
import GridRules.Rule.Fault
import GridRules.Rule.Basic
import GridRules.Rule.Progress
import GridRules.Rule.Search
import GridRules.Random.ChaCha
import GridRules.Random.Uniform
import GridRules.Random.Generator
import GridRules.RuleSet
import GridRules.RuleText.Reader
import GridRules.RuleText.Writer
import GridRules.Script
import GridRules.Config
import GridRules.Engine
import GridRules.Session
import GridRules.Json.Basic
import GridRules.Json.Token
import GridRules.Json.Reader
import GridRules.Json.Writer
import GridRules.Saved
import GridRules.Proofs.Coordinates
import GridRules.Proofs.CellCounts
import GridRules.Proofs.CellOrder
import GridRules.Proofs.Words
import GridRules.Proofs.Orientations
import GridRules.Proofs.Walks
import GridRules.Proofs.Bases
import GridRules.Proofs.PatternSearch
import GridRules.Proofs.WordSearch
import GridRules.Proofs.Multiplicity
import GridRules.Proofs.Enumeration
import GridRules.Proofs.Turning
import GridRules.Proofs.TurnedGrids
import GridRules.Proofs.UnitAxes
import GridRules.Proofs.TurnedPatterns
import GridRules.Proofs.Rows
import GridRules.Proofs.Diagonals
import GridRules.Proofs.Leaves
import GridRules.Proofs.Candidates
import GridRules.Proofs.FairPicks
import GridRules.Proofs.Pieces
import GridRules.Proofs.Grammar
import GridRules.Proofs.Reading
import GridRules.Proofs.Documents
import GridRules.Proofs.FirstFaults
import GridRules.Proofs.LineNumbers
import GridRules.Proofs.Tables
import GridRules.Proofs.TableHistories
import GridRules.Proofs.Layout
import GridRules.Proofs.Writing
import GridRules.Proofs.RoundTrip
import GridRules.Proofs.PlainForms
import GridRules.Proofs.CanonicalText
import GridRules.Proofs.Reached
import GridRules.Proofs.Proposals
import GridRules.Proofs.Steps
import GridRules.Proofs.FixedPoints
import GridRules.Proofs.Rewriting
import GridRules.Proofs.Undoing
import GridRules.Proofs.Carving
import GridRules.Proofs.Charges
import GridRules.Proofs.RepeatCaps
import GridRules.Proofs.Runs
import GridRules.Proofs.Counters
import GridRules.Proofs.Visits
import GridRules.Proofs.Deliveries
import GridRules.Proofs.Sequences
import GridRules.Proofs.Repairs
import GridRules.Proofs.Allowances
import GridRules.Proofs.Mazes
import GridRules.Proofs.Checkerboards
import GridRules.Proofs.Playing
import GridRules.Proofs.Halting
import GridRules.Proofs.Changes
import GridRules.Proofs.Addressing
