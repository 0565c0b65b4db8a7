import EntityScaffold.Main
import EntityScaffold.Proofs.Angular.Application
import EntityScaffold.Proofs.Angular.Imports
import EntityScaffold.Proofs.Angular.Interface
import EntityScaffold.Proofs.Document.Classification
import EntityScaffold.Proofs.Document.CommentLine
import EntityScaffold.Proofs.Document.FaultPlace
import EntityScaffold.Proofs.Document.RoundTrip
import EntityScaffold.Proofs.FileTree
import EntityScaffold.Proofs.Angular.Layout
import EntityScaffold.Proofs.Angular.Output
import EntityScaffold.Proofs.Html.Reading
import EntityScaffold.Proofs.TypeScript.Block
import EntityScaffold.Proofs.Angular.Pages
import EntityScaffold.Proofs.Angular.Properties
import EntityScaffold.Proofs.Text.Lower
import EntityScaffold.Proofs.Angular.Options
import EntityScaffold.Proofs.Angular.Dates
import EntityScaffold.Generation.Assembly
import EntityScaffold.Proofs.Generation.Assembly
import EntityScaffold.Angular.Session
import EntityScaffold.Proofs.Angular.Session
import EntityScaffold.Proofs.Run.Generate
import EntityScaffold.Proofs.Document.LineMap
import EntityScaffold.Proofs.Document.LineEnds
import EntityScaffold.Proofs.Document.Cleaning
import EntityScaffold.Proofs.Document.Chain
import EntityScaffold.Proofs.Document.Redeclaration
import EntityScaffold.Proofs.Document.EnumText
import EntityScaffold.Proofs.Document.FieldLine
import EntityScaffold.Proofs.Document.BodyLines
import EntityScaffold.Proofs.Run.Prediction
import EntityScaffold.Proofs.Run.Inspect
