import BrightScript.Main
import BrightScript.Proofs.Cancellation
import BrightScript.Proofs.CrashBreaks
import BrightScript.Proofs.ReservedNames
import BrightScript.Proofs.CaseInsensitivity
import BrightScript.Proofs.OutputColumn
import BrightScript.Proofs.Compositionality
import BrightScript.Proofs.SharedRequests
import BrightScript.Proofs.CountingLoops
import BrightScript.Proofs.WellTypedReceivers
import BrightScript.Proofs.ForEachResumption
import BrightScript.Proofs.Overloads
import BrightScript.Proofs.Declarations
import BrightScript.Proofs.ReturnedValues
import BrightScript.Proofs.Precedence
import BrightScript.Proofs.Placement.Statement
import BrightScript.Proofs.Rethrowing
import BrightScript.Proofs.AssocHistories
import BrightScript.Proofs.IndexedStores
import BrightScript.Proofs.ConditionalForms
import BrightScript.Proofs.CoercionLaws
import BrightScript.Proofs.Shifts
import BrightScript.Proofs.Observers
import BrightScript.Proofs.ScopeHistories
import BrightScript.Proofs.Backtraces
import BrightScript.Proofs.StepsOfOne
import BrightScript.Proofs.SubstringSearch
import BrightScript.Proofs.RadixTexts
import BrightScript.Proofs.SplitJoin
