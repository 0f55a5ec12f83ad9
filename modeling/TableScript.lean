import TableScript.Main
import TableScript.Session
import TableScript.Proofs.Reproduction
import TableScript.Proofs.Interference
import TableScript.Proofs.Consistency
import TableScript.Proofs.Saving
import TableScript.Proofs.Failures
import TableScript.Proofs.Safety
import TableScript.Proofs.Indexes
import TableScript.Proofs.Written
import TableScript.Proofs.CsvFrames
import TableScript.Proofs.Sessions
import TableScript.Proofs.Captures
import TableScript.Proofs.Contents
import TableScript.Proofs.Literals
import TableScript.Proofs.Quoting
import TableScript.Proofs.Reconciling
import TableScript.Proofs.Meanings
import TableScript.Proofs.FreshNames
import TableScript.Proofs.Refusals
import TableScript.Proofs.WholeNumbers
import TableScript.Proofs.Suggestions
import TableScript.Proofs.SavedAnalyses
import TableScript.Proofs.Weakening
import TableScript.Proofs.Headers
