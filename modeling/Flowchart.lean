import Flowchart.Main
import Flowchart.Proofs.Command.Agreement
import Flowchart.Proofs.Command.Data
import Flowchart.Proofs.Command.Effects
import Flowchart.Proofs.Document.Coverage
import Flowchart.Proofs.Document.Formation
import Flowchart.Proofs.Document.Scan
import Flowchart.Proofs.Flow.Checkpoints
import Flowchart.Proofs.Flow.Connection
import Flowchart.Proofs.Flow.ContractFlow
import Flowchart.Proofs.Flow.Correspondence
import Flowchart.Proofs.Flow.Cycles
import Flowchart.Proofs.Flow.Locality
import Flowchart.Proofs.Flow.Nodes
import Flowchart.Proofs.Flow.ScenarioFlow
import Flowchart.Proofs.Flow.Spelling
import Flowchart.Proofs.Flow.StraightLine
import Flowchart.Proofs.Flow.Variables
import Flowchart.Proofs.Graph.Reordering
import Flowchart.Proofs.Source.Location
import Flowchart.Proofs.Tree.Captions
import Flowchart.Proofs.Tree.FailureTags
