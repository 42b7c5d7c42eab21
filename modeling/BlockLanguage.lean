import BlockLanguage.Dump
import BlockLanguage.Report
import BlockLanguage.Options.Reader
import BlockLanguage.Proofs.EarliestError
import BlockLanguage.Proofs.RoundTrip
import BlockLanguage.Proofs.Appearance
import BlockLanguage.Proofs.Building
import BlockLanguage.Proofs.Concatenation
import BlockLanguage.Proofs.ErrorPlace
import BlockLanguage.Proofs.NestingLimit
import BlockLanguage.Proofs.RefusedNames
import BlockLanguage.Proofs.Caret
import BlockLanguage.Proofs.MachineRuns
import BlockLanguage.Proofs.Moves
import BlockLanguage.Proofs.Requirements
import BlockLanguage.Proofs.Conservation
import BlockLanguage.Proofs.Definitions
import BlockLanguage.Proofs.Indentation
import BlockLanguage.Proofs.Inverses
import BlockLanguage.Proofs.Decoding
import BlockLanguage.Proofs.OptionsReading
import BlockLanguage.Proofs.Vocabulary
