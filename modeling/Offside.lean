import Offside.Layout.Render
import Offside.Program.Chain
import Offside.Program.OfParseTree
import Offside.Decimal.Shortest
import Offside.Text.Quoted
import Offside.Json.Printer
import Offside.Json.Draft
import Offside.Json.Scan
import Offside.Json.Decode
import Offside.ParseTree.Json
import Offside.Program.Json
import Offside.Path.Basic
import Offside.Files.Tree
import Offside.Convert
import Offside.Config.Load
import Offside.Main
import Offside.Proofs.Layout.Outline
import Offside.Proofs.Reading.Walk
import Offside.Proofs.Reading.Image
import Offside.Proofs.Reading.Prune
import Offside.Proofs.Reading.Formula
import Offside.Proofs.Layout.Erasure
import Offside.Proofs.Layout.Endings
import Offside.Proofs.Layout.Suites
import Offside.Proofs.Layout.Passages
import Offside.Proofs.Layout.SingleLine
import Offside.Proofs.Program.Json
import Offside.Proofs.ParseTree.Json
import Offside.Proofs.Files.Lawful
import Offside.Proofs.Convert.Effects
import Offside.Proofs.Layout.Flattening
import Offside.Proofs.Layout.Clauses
import Offside.Proofs.Layout.CallSites
import Offside.Proofs.Layout.Filling
import Offside.Proofs.Reading.Respelling
import Offside.Proofs.Layout.Sketch
import Offside.Proofs.Convert.Outputs
import Offside.Proofs.Files.Places
import Offside.Proofs.Convert.Order
import Offside.Proofs.CommandLine.Settings
