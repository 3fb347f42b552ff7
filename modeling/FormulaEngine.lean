import FormulaEngine.Workspace
import FormulaEngine.Proofs.Immediate
import FormulaEngine.Proofs.Journal
import FormulaEngine.Proofs.Randomness
import FormulaEngine.Proofs.Staleness
import FormulaEngine.Proofs.Infinity
import FormulaEngine.Proofs.Trap
import FormulaEngine.Proofs.Soundness
import FormulaEngine.Proofs.ErrorValues
import FormulaEngine.Proofs.Discovery
import FormulaEngine.Proofs.Recorder
import FormulaEngine.Proofs.History
import FormulaEngine.Proofs.Delivery
import FormulaEngine.Proofs.Events
import FormulaEngine.Proofs.Rejection
import FormulaEngine.Proofs.Reporting
import FormulaEngine.Proofs.Steps
import FormulaEngine.Proofs.Bookkeeping
import FormulaEngine.Proofs.Aggregates
import FormulaEngine.Proofs.Recompilation
import FormulaEngine.Proofs.Sharing
import FormulaEngine.Proofs.Ownership
import FormulaEngine.Proofs.Inputs
import FormulaEngine.Proofs.Strictness
import FormulaEngine.Proofs.Logic
import FormulaEngine.Proofs.Concatenation
import FormulaEngine.Proofs.Catalogue
import FormulaEngine.Proofs.Registration
import FormulaEngine.Proofs.RegistrationOrder
import FormulaEngine.Proofs.Announcements
import FormulaEngine.Proofs.Brackets
import FormulaEngine.Proofs.IntegerRange
import FormulaEngine.Proofs.Months
