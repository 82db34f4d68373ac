import OptionResearch.PartialEffects
import OptionResearch.KeyedGroups
import OptionResearch.AuditTrail
import OptionResearch.OptionPayoff
import OptionResearch.DatedSum
import OptionResearch.StableSort
import OptionResearch.GreedyAdmission
import OptionResearch.InsertionDict
import OptionResearch.NamedLists
import OptionResearch.BranchedLogs
import OptionResearch.PythonValues
import OptionResearch.BacktestModels
import OptionResearch.NoLookAheadGuard
import OptionResearch.EquityCurve
import OptionResearch.BacktestingEngine
import OptionResearch.EngineSteps
import OptionResearch.EngineAtomicity
import OptionResearch.EngineInformation
import OptionResearch.TradeReconstruction
import OptionResearch.EngineLedger
import OptionResearch.EnginePnl
import OptionResearch.StrategyStateMachine
import OptionResearch.HeldPosition
import OptionResearch.SettlementEngine
import OptionResearch.SettlementValue
import OptionResearch.PortfolioAccounts
import OptionResearch.CashLedger
import OptionResearch.MarginPolicy
import OptionResearch.MarginCalls
import OptionResearch.MarginAddOns
import OptionResearch.MarginCoverage
import OptionResearch.AccountReconciliation
import OptionResearch.Arbitration
import OptionResearch.ArbitrationGuarantees
import OptionResearch.EventClock
import OptionResearch.EventStream
import OptionResearch.ReplayEngine
import OptionResearch.ReplayNavigation
import OptionResearch.ReplayOutcomes
import OptionResearch.ReplayBranches
import OptionResearch.ReplaySnapshots
import OptionResearch.WhileTrue
import OptionResearch.WalkForward
import OptionResearch.ResearchFills
import OptionResearch.FillReconciliation
import OptionResearch.ProviderReconciliation
import OptionResearch.ProviderConsensus
import OptionResearch.CacheManager
import OptionResearch.CacheCorruption
import OptionResearch.CacheRoundTrip
import OptionResearch.UpdatePlanner
import OptionResearch.DownloadManager
import OptionResearch.TimedRows
import OptionResearch.AsOfQueries
import OptionResearch.PositionHistory
import OptionResearch.AllocationRevisions
import OptionResearch.ReplayJson
import OptionResearch.ReplayComparison
import OptionResearch.OptimizationModels
import OptionResearch.ParameterSpaces
import OptionResearch.CandidateEvaluation
import OptionResearch.UnbeatenItems
import OptionResearch.ParetoFront
import OptionResearch.OptimizationEngine
import OptionResearch.ObjectiveScores
import OptionResearch.OptimizationWinners
import OptionResearch.SearchAdapters
import OptionResearch.ParameterGrid
import OptionResearch.GeneticSearch
import OptionResearch.SearchOptimum
import OptionResearch.GeneticGuarantees
import OptionResearch.ExecutionAdapters
import OptionResearch.ExecutionRefinement
import OptionResearch.RecombiningTree
import OptionResearch.SortedSearch
import OptionResearch.HermiteCell
import OptionResearch.SmileInterpolation
import OptionResearch.SmileShape
import OptionResearch.BinomialTree
import OptionResearch.TreeGuarantees
import OptionResearch.NameClaims
import OptionResearch.StrategyTemplateRegistry
import OptionResearch.TemplateResolution
import OptionResearch.RollPolicyRegistry
import OptionResearch.RegistryAtomicity
import OptionResearch.RankedValues
import OptionResearch.MultipleTesting
import OptionResearch.CorrectedPValues
import OptionResearch.DealtGroups
import OptionResearch.CpcvSplits
import OptionResearch.CpcvGuarantees
import OptionResearch.CountedLoop
import OptionResearch.SignChange
import OptionResearch.VolatilitySolvers
import OptionResearch.BracketingSolvers
import OptionResearch.BinomialExpectation
import OptionResearch.EuropeanTree
import OptionResearch.ClosedFormModels
import OptionResearch.PutCallParity
import OptionResearch.PriceValidation
import OptionResearch.ModelPriceBounds
import OptionResearch.NewtonRaphson
import OptionResearch.StalledSolvers
import OptionResearch.VolatilityEngine
import OptionResearch.FallbackGuarantees
import OptionResearch.BatchIsolation
import OptionResearch.OratsSync
import OptionResearch.PagedLoop
import OptionResearch.SiftedRows
import OptionResearch.RowValues
import OptionResearch.OratsAdapter
import OptionResearch.DatabentoAdapter
import OptionResearch.PagedTermination
import OptionResearch.DatabentoAccounting
import OptionResearch.IsoTimestamps
import OptionResearch.DatabentoNormalizer
import OptionResearch.DatabentoOrder
import OptionResearch.OratsNormalizer
import OptionResearch.CsvReader
import OptionResearch.LocalIngestion
import OptionResearch.RowIsolation
import OptionResearch.MultiLegExecution
import OptionResearch.LeggingExposure
import OptionResearch.MigrationManager
import OptionResearch.EarlyExit
import OptionResearch.RecordValidation
import OptionResearch.KeyedTables
import OptionResearch.IngestionTables
import OptionResearch.BulkIngestion
import OptionResearch.IngestionGuarantees
import OptionResearch.OrderFreeFolds
import OptionResearch.ActionKnowledge
import OptionResearch.PiecewiseLinear
import OptionResearch.AdjustedViews
import OptionResearch.SplitJumps
import OptionResearch.RunPerformance
import OptionResearch.JsonNormalForm
import OptionResearch.TemplateStorage
import OptionResearch.StrategyPayoffs
import OptionResearch.PayoffExtremes
import OptionResearch.Breakevens
import OptionResearch.FillCosts
import OptionResearch.QuoteSelection
import OptionResearch.RationedDraws
import OptionResearch.LiquidationEngine
import OptionResearch.LiquidationGuarantees
import OptionResearch.LatestEntries
import OptionResearch.PortfolioCandidates
import OptionResearch.PositionSizer
import OptionResearch.PortfolioAllocator
import OptionResearch.PortfolioConstraints
import OptionResearch.ConcentrationLimits
import OptionResearch.TradeConservation
import OptionResearch.ModularStrides
import OptionResearch.RoundedNumbers
import OptionResearch.FirstOccurrences
import OptionResearch.ParameterEquality
import OptionResearch.LowDiscrepancy
import OptionResearch.ConditionalGrid
import OptionResearch.ExhaustiveExactness
import OptionResearch.ParameterRefinement
import OptionResearch.FloatDomains
import OptionResearch.RefinementAlignment
import OptionResearch.GridRefinement
import OptionResearch.RunningPeak
import OptionResearch.MaximumDrawdown
import OptionResearch.LegSelection
import OptionResearch.LegFilters
import OptionResearch.InterestAccrual
import OptionResearch.RiskScenarios
import OptionResearch.ExecutionStress
import OptionResearch.TreeResolution
import OptionResearch.ModelSimulation
import OptionResearch.CalendarTime
import OptionResearch.RobustnessConfidence
import OptionResearch.OverfittingEvidence
import OptionResearch.PartitionedSums
import OptionResearch.ScoreCalibration
import OptionResearch.SiftedKeys
import OptionResearch.TabularIngestion
import OptionResearch.TabularRecords
import OptionResearch.TabularGuarantees
import OptionResearch.LockOrder
import OptionResearch.SidecarSupervisor
import OptionResearch.SidecarProcesses
import OptionResearch.VolatilityCube
import OptionResearch.SmileConstruction
import OptionResearch.NeighbouringItems
import OptionResearch.LognormalOptions
import OptionResearch.GreeksEngine
import OptionResearch.GreeksGuarantees
import OptionResearch.GreeksBatches
import OptionResearch.ProviderRecords
import OptionResearch.CutPrograms
import OptionResearch.ReleaseOperations
import OptionResearch.ProbabilityReports
import OptionResearch.CorrelationMatrix
import OptionResearch.Rebalancing
import OptionResearch.RealizedVolatility
