import OptionResearch.LatestEntries
import OptionResearch.PythonValues

/-!
# Candidates and allocations of a portfolio

The records of `models.py` in the portfolio package, with the fields that sizing, allocation,
constraints and exposures read.
-/

namespace OptionResearch.Portfolio

inductive ConstraintSeverity where
  | hard
  | soft
  deriving DecidableEq, Repr

inductive SizingPolicy where
  | equalWeight
  | equalRisk
  | volatilityTargeting
  | expectedShortfallTargeting
  | marginalRiskContribution
  | inverseVolatility
  | robustnessWeighted
  | expectedValueWeighted
  | kellyFractional
  | fixedContract
  | capitalPerStrategy
  deriving DecidableEq, Repr

inductive ConstructionMethod where
  | rankedGreedy
  | constrainedGreedy
  | equalRisk
  | minimumVariance
  | maximumDiversification
  | riskParityInterface
  | meanVarianceInterface
  | paretoSelection
  | clusterAware
  deriving DecidableEq, Repr

structure CandidateValidationSnapshot where
  robustnessScore : ℚ

structure CandidateExposure where
  delta : ℚ
  gamma : ℚ
  theta : ℚ
  vega : ℚ
  rho : ℚ
  vanna : Option ℚ
  charm : Option ℚ
  sector : String
  symbol : String
  expirationBucket : String
  strategyFamily : String
  volatilityRegime : String
  termStructureRegime : String
  eventExposure : ℚ
  earningsExposure : ℚ
  capitalRequirement : ℚ
  expectedShortfall : ℚ
  maximumDrawdown : ℚ
  liquidityScore : ℚ
  modelRiskScore : ℚ

structure CandidateStats where
  expectedReturn : ℚ
  expectedValue : ℚ
  volatility : ℚ
  expectedShortfall : ℚ
  maximumDrawdown : ℚ
  liquidityRisk : ℚ
  modelRisk : ℚ

structure CandidateInput where
  candidateId : String
  validation : CandidateValidationSnapshot
  exposure : CandidateExposure
  stats : CandidateStats

structure ConstraintDefinition where
  name : String
  metricKey : String
  operator : String
  threshold : ℚ
  severity : ConstraintSeverity
  penalty : ℚ := 0

structure ConstraintViolation where
  name : String
  severity : ConstraintSeverity
  observed : ℚ
  threshold : ℚ
  passed : Bool
  reason : String
  candidateId : Option String

/-- Of the policy of diversification, the entries that are read are numbers. -/
structure AllocationProblem where
  availableCapital : ℚ
  reserveCash : ℚ
  diversificationPolicy : List (String × ℚ)

structure PortfolioAllocation where
  candidateId : String
  weight : ℚ
  capital : ℚ
  contracts : Int
  score : ℚ

end OptionResearch.Portfolio
