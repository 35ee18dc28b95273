import PointDriver.Text.Utf8
import PointDriver.Text.Blank
import PointDriver.Text.Similarity
import PointDriver.Double.Literal
import PointDriver.Double.Fixed
import PointDriver.Double.Shortest
import PointDriver.Json.Reader
import PointDriver.Json.Printer
import PointDriver.Declaration.Json
import PointDriver.Files.Path
import PointDriver.CommandLine.Scan
import PointDriver.Schema.Basic
import PointDriver.SweepPoint
import PointDriver.Declaration.Yaml
import PointDriver.Template.Render
import PointDriver.Generator.Config
import PointDriver.Generator.DeclarationFile
import PointDriver.Package.Scaffold
import PointDriver.Main
import PointDriver.Proofs.Text.Decoding
import PointDriver.Proofs.Text.Literals
import PointDriver.Proofs.Text.Lines
import PointDriver.Proofs.CommandLine.Words
import PointDriver.Proofs.CommandLine.NumberShape
import PointDriver.Proofs.CommandLine.Settling
import PointDriver.Proofs.Schema.Names
import PointDriver.Proofs.Schema.Entries
import PointDriver.Proofs.Schema.Items
import PointDriver.Proofs.Schema.ItemReading
import PointDriver.Proofs.Schema.Presence
import PointDriver.Proofs.Schema.ArgumentGrammar
import PointDriver.Proofs.Schema.Repetition
import PointDriver.Proofs.Schema.NumberSpelling
import PointDriver.Proofs.Output.Texts
import PointDriver.Proofs.Driver.FailFast
import PointDriver.Proofs.Lifecycle.Guard
import PointDriver.Proofs.Lifecycle.Release
import PointDriver.Proofs.Driver.Runs
import PointDriver.Proofs.Driver.Extraction
import PointDriver.Proofs.Driver.HelpFirst
import PointDriver.Proofs.Driver.MissingValues
import PointDriver.Proofs.Driver.DashValues
import PointDriver.Proofs.Double.Rounding
import PointDriver.Proofs.Double.PlainNumbers
import PointDriver.Proofs.Driver.PrintedValues
import PointDriver.Proofs.Template.Marks
import PointDriver.Proofs.Template.Cutting
import PointDriver.Proofs.Template.Parts
import PointDriver.Proofs.Package.DriverText
import PointDriver.Proofs.Package.ManifestText
import PointDriver.Proofs.Emitted.Syntax
import PointDriver.Proofs.Emitted.Evaluation
import PointDriver.Proofs.Emitted.DriverCode
import PointDriver.Proofs.Emitted.SourceReading
import PointDriver.Proofs.Package.NameLiterals
import PointDriver.Proofs.Emitted.Simulation
import PointDriver.Proofs.Emitted.Agreement
import PointDriver.Proofs.Emitted.Mentions
import PointDriver.Proofs.Emitted.RefusedWrites
import PointDriver.Proofs.Yaml.Words
import PointDriver.Proofs.Yaml.Brackets
import PointDriver.Proofs.Yaml.Blocks
import PointDriver.Proofs.Yaml.Sequences
import PointDriver.Proofs.Json.Texts
import PointDriver.Proofs.Json.Layouts
import PointDriver.Proofs.Declaration.Faults
import PointDriver.Proofs.Declaration.Acceptance
import PointDriver.Proofs.Files.Writing
import PointDriver.Proofs.Files.Routes
import PointDriver.Proofs.Files.Writable
import PointDriver.Proofs.Files.Directories
import PointDriver.Proofs.Files.Reading
import PointDriver.Proofs.Files.Answers
import PointDriver.Proofs.Package.Scaffolding
import PointDriver.Proofs.Package.KeptFiles
import PointDriver.Proofs.Package.AllOrNothing
import PointDriver.Proofs.Package.FailedReplacement
import PointDriver.Proofs.Declaration.RoundTrip
import PointDriver.Proofs.CommandLine.Scanning
import PointDriver.Proofs.CommandLine.Uses
import PointDriver.Proofs.Generator.Configuration
import PointDriver.Proofs.Generator.Loading
import PointDriver.Proofs.Generator.Escape
import PointDriver.Proofs.Generator.RunCommand
import PointDriver.Proofs.Generator.Lines
import PointDriver.Proofs.Generator.StoredNames
import PointDriver.Proofs.Generator.Surroundings
import PointDriver.Proofs.Generator.NameCuts
import PointDriver.Proofs.Generator.GenerateCommand
import PointDriver.Proofs.Schema.Description
import PointDriver.Proofs.Generator.SchemaCommand
