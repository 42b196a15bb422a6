import DocBase.Main
import DocBase.Proofs.CommandLine.Dialogue
import DocBase.Proofs.Document.Rewriting
import DocBase.Proofs.Engine.AllColumns
import DocBase.Proofs.Engine.Consistency
import DocBase.Proofs.Engine.Definitions
import DocBase.Proofs.Engine.Failure
import DocBase.Proofs.Engine.History
import DocBase.Proofs.Engine.Recall
import DocBase.Proofs.Engine.Separation
import DocBase.Proofs.Engine.Warnings
import DocBase.Proofs.Engine.Writing
import DocBase.Proofs.Query.Agreement
import DocBase.Proofs.Query.Integers
import DocBase.Proofs.Query.Select
import DocBase.Proofs.Query.Selection
import DocBase.Proofs.Query.Stability
import DocBase.Proofs.Query.Truth
import DocBase.Proofs.ResultSet
import DocBase.Proofs.Sql.FirstFault
import DocBase.Proofs.Sql.Printing
import DocBase.Proofs.Sql.Quoting
import DocBase.Proofs.Sql.Reserved
import DocBase.Proofs.Sql.RoundTrip
import DocBase.Proofs.Sql.WholeNumbers
import DocBase.Proofs.Store.CatalogFile
import DocBase.Proofs.Store.Contract
import DocBase.Proofs.Value.Number
