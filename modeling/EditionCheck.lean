import EditionCheck.Main
import EditionCheck.Files.Tree
import EditionCheck.Proofs.Versions
import EditionCheck.Proofs.Run
import EditionCheck.Proofs.FirstFailure
import EditionCheck.Proofs.ExitStatus
import EditionCheck.Proofs.Destructuring
import EditionCheck.Proofs.ObjectRest
import EditionCheck.Proofs.TrailingCommas
import EditionCheck.Proofs.CodePoints
import EditionCheck.Proofs.SourceOrder
import EditionCheck.Proofs.HiddenNames
import EditionCheck.Proofs.SelectedOnce
import EditionCheck.Proofs.ConsoleOutput
import EditionCheck.Proofs.NoColor
import EditionCheck.Proofs.PropertyEscapes
import EditionCheck.Proofs.Separators
import EditionCheck.Proofs.BrokenStreams
import EditionCheck.Proofs.Overrides
import EditionCheck.Proofs.BrokenPaths
import EditionCheck.Proofs.OptionValues
import EditionCheck.Proofs.Layering
import EditionCheck.Proofs.Paint
import EditionCheck.Proofs.FailureSummary
import EditionCheck.Proofs.Backing
import EditionCheck.Proofs.ModuleSyntax
import EditionCheck.Proofs.RegExps
import EditionCheck.Proofs.CodePointLoop
import EditionCheck.Proofs.PatternLoop
