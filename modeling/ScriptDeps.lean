import ScriptDeps.Main
import ScriptDeps.Proofs.Analysis.Classification
import ScriptDeps.Proofs.Analysis.Stability
import ScriptDeps.Proofs.Analysis.Failure
import ScriptDeps.Proofs.Analysis.Widening
import ScriptDeps.Proofs.Block.RoundTrip
import ScriptDeps.Proofs.Block.Code
import ScriptDeps.Proofs.Block.Reading
import ScriptDeps.Proofs.Block.Spacing
import ScriptDeps.Proofs.CommandLine.Arrangement
import ScriptDeps.Proofs.Report.RoundTrip
import ScriptDeps.Proofs.Import.Occurrences
import ScriptDeps.Proofs.Import.Slices
import ScriptDeps.Proofs.Import.OldStatements
import ScriptDeps.Proofs.Import.Paths
import ScriptDeps.Proofs.Command.Frame
import ScriptDeps.Proofs.Command.Verbosity
import ScriptDeps.Proofs.Source.Computed.Leads
import ScriptDeps.Proofs.Source.Computed.States
import ScriptDeps.Proofs.Source.Sketch
import ScriptDeps.Proofs.ImportScript.Sketch
import ScriptDeps.Proofs.Source.Spelling
import ScriptDeps.Proofs.Source.Balance
import ScriptDeps.Proofs.ImportScript.Basic
import ScriptDeps.Proofs.ImportScript.Spelling
import ScriptDeps.Proofs.ImportScript.Reading
import ScriptDeps.Proofs.ImportScript.Depth
import ScriptDeps.Proofs.ImportScript.Imports
import ScriptDeps.Proofs.ImportScript.Extraction
import ScriptDeps.Proofs.Address.Recognition
import ScriptDeps.Proofs.Modules.Probing
import ScriptDeps.Proofs.Report.Packages
import ScriptDeps.Proofs.Command.Copies
