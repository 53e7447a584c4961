import ElasticNet.Arrays
import ElasticNet.Log
import ElasticNet.Proofs.Fista.Backtracking
import ElasticNet.Proofs.Fista.EmptyModel
import ElasticNet.Proofs.Fista.Stopping
import ElasticNet.Proofs.Groups.Interleaving
import ElasticNet.Proofs.Run.Budget
import ElasticNet.Proofs.Run.FailedCalls
import ElasticNet.Proofs.Train.LogLikelihood
import ElasticNet.Proofs.Train.Rows
import ElasticNet.Proofs.Train.Separate
import ElasticNet.Proofs.Train.UnitChange
import ElasticNet.Proofs.Train.Unordered
import ElasticNet.Proofs.Decimal.Order
import ElasticNet.Proofs.Ordered
import ElasticNet.Proofs.Path.Checked
import ElasticNet.Proofs.Path.Generated
import ElasticNet.Proofs.Path.EqualRatios
import ElasticNet.Proofs.Path.Accepted
import ElasticNet.Proofs.Path.Written
import ElasticNet.Proofs.Store.Accepted
import ElasticNet.Proofs.Log.Limit
import ElasticNet.Proofs.Igd.Averages
import ElasticNet.Proofs.Data.Complete
import ElasticNet.Proofs.Data.Selections
import ElasticNet.Proofs.Scales.Shares
import ElasticNet.Proofs.Scales.Standard
import ElasticNet.Proofs.Shares
import ElasticNet.Proofs.EmptyPartitions
import ElasticNet.Proofs.Fista.Bookkeeping
import ElasticNet.Proofs.Train.Shares
import ElasticNet.Proofs.Train.Incomplete
import ElasticNet.Proofs.Train.Counted
import ElasticNet.Proofs.Train.Parameters
import ElasticNet.Proofs.Params.Unordered
import ElasticNet.Proofs.Igd.Dual
import ElasticNet.Proofs.Groups.FailedTicks
import ElasticNet.Proofs.Predict
import ElasticNet.Proofs.Igd.StepSizes
import ElasticNet.Proofs.Fields
import ElasticNet.Proofs.FlatStates
import ElasticNet.Proofs.Igd.Sparsity
import ElasticNet.Proofs.StateKey.Text
