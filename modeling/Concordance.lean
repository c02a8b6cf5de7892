import Concordance.Main
import Concordance.Text.Moment
import Concordance.Index.Archive
import Concordance.Proofs.Answers
import Concordance.Proofs.Arrangement
import Concordance.Proofs.Backends
import Concordance.Proofs.BadLines
import Concordance.Proofs.Chains
import Concordance.Proofs.Cleaning
import Concordance.Proofs.CommonDocuments
import Concordance.Proofs.Conjunction
import Concordance.Proofs.Expressions
import Concordance.Proofs.FailedDataset
import Concordance.Proofs.FailedLoad
import Concordance.Proofs.FoldedTokens
import Concordance.Proofs.FreshCli
import Concordance.Proofs.GroupExtent
import Concordance.Proofs.Groups
import Concordance.Proofs.IndexedWords
import Concordance.Proofs.Interchange
import Concordance.Proofs.LowFrequencies
import Concordance.Proofs.MadeFolders
import Concordance.Proofs.Nesting
import Concordance.Proofs.OwnText
import Concordance.Proofs.Pointwise
import Concordance.Proofs.RankedHits
import Concordance.Proofs.Reload
import Concordance.Proofs.RestoredTables
import Concordance.Proofs.RoundTrip
import Concordance.Proofs.Safety
import Concordance.Proofs.Scan
import Concordance.Proofs.Shelf
import Concordance.Proofs.StoredIndexes
import Concordance.Proofs.StrandedDatabase
import Concordance.Proofs.Substitution
import Concordance.Proofs.TornLoad
import Concordance.Proofs.WrittenValues
