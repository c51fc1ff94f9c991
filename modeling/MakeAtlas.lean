import MakeAtlas.Command.Run
import MakeAtlas.Document.Variables
import MakeAtlas.Graph.Build
import MakeAtlas.Graph.Focus
import MakeAtlas.Graph.Tree
import MakeAtlas.Load
import MakeAtlas.Machine
import MakeAtlas.Main
import MakeAtlas.Pattern.Reader
import MakeAtlas.Pattern.Search
import MakeAtlas.Proofs.Command.Checking
import MakeAtlas.Proofs.Command.Gate
import MakeAtlas.Proofs.Command.Redefinition
import MakeAtlas.Proofs.Document.References
import MakeAtlas.Proofs.Document.Shape
import MakeAtlas.Proofs.Graph.Alongside
import MakeAtlas.Proofs.Graph.Border
import MakeAtlas.Proofs.Graph.Critical
import MakeAtlas.Proofs.Graph.Drawing
import MakeAtlas.Proofs.Graph.Faithful
import MakeAtlas.Proofs.Graph.Levels
import MakeAtlas.Proofs.Graph.Outline
import MakeAtlas.Proofs.Graph.Parts
import MakeAtlas.Proofs.Graph.Reading
import MakeAtlas.Proofs.Graph.Refocus
import MakeAtlas.Proofs.Graph.Reordering
import MakeAtlas.Proofs.Graph.Unwinding
import MakeAtlas.Proofs.Makefile.Blocks
import MakeAtlas.Proofs.Makefile.Comments
import MakeAtlas.Proofs.Makefile.Cuts
import MakeAtlas.Proofs.Makefile.Documentation
import MakeAtlas.Proofs.Makefile.Load
import MakeAtlas.Proofs.Makefile.Sound
import MakeAtlas.Proofs.Pattern.Replacing
import MakeAtlas.Proofs.Report.Json
import MakeAtlas.Proofs.Safety.Activation
import MakeAtlas.Proofs.Safety.Judgement
import MakeAtlas.Proofs.Safety.Relative
import MakeAtlas.Proofs.Safety.Verdicts
import MakeAtlas.Proofs.Safety.Widening
import MakeAtlas.Proofs.Safety.Words
import MakeAtlas.Proofs.Settings.ActiveRules
import MakeAtlas.Proofs.Settings.Layers
import MakeAtlas.Proofs.Settings.Shared
import MakeAtlas.Proofs.Workspace.Spelling
import MakeAtlas.Report
import MakeAtlas.Safety.Catalog
import MakeAtlas.Safety.Checker
import MakeAtlas.Settings.Basic
import MakeAtlas.Workspace.Host
import MakeAtlas.Yaml.Value
