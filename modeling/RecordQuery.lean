import RecordQuery.Connection.Document
import RecordQuery.Filter.Document
import RecordQuery.Main
import RecordQuery.Record.Document
import RecordQuery.Stream.Parking
import RecordQuery.Proofs.Engine.IndexAgreement
import RecordQuery.Proofs.Engine.Limit
import RecordQuery.Proofs.Engine.Offset
import RecordQuery.Proofs.Stream.Ending
import RecordQuery.Proofs.Stream.Listening
import RecordQuery.Proofs.Stream.Stranding
import RecordQuery.Proofs.Engine.Exchange
import RecordQuery.Proofs.Engine.Interleaving
import RecordQuery.Proofs.Engine.Cancelling
import RecordQuery.Proofs.Engine.Counting
import RecordQuery.Proofs.Store.Puts
import RecordQuery.Proofs.Connection.Url
import RecordQuery.Proofs.Query.Document
import RecordQuery.Proofs.Engine.Projection
import RecordQuery.Proofs.Predicate.Conjunctions
import RecordQuery.Proofs.Cursor.Replay
import RecordQuery.Proofs.Seed.Loading
import RecordQuery.Proofs.Command.Printing
import RecordQuery.Proofs.Index.Choice
import RecordQuery.Proofs.Engine.IndexQuery
import RecordQuery.Proofs.Engine.Explaining
import RecordQuery.Proofs.Cursor.Reading
import RecordQuery.Proofs.Connection.Effective
import RecordQuery.Proofs.Address.Preimage
import RecordQuery.Proofs.Predicate.Reordering
import RecordQuery.Proofs.Value.MixedOrder
import RecordQuery.Proofs.Predicate.Bins
