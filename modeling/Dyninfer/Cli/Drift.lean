/-
Drift of one row of logits against another (`dyninfer-cli/src/drift.rs`) and
the check of a reference row in `run_logit_drift` (`dyninfer-cli/src/logits.rs`).
Errors and norms are doubles; the argmax and the top k come from a sort of the
row's indices by the total order of `f32`, ties by index, where a trace records
the first maximum by `>`. The two orders part only the zeros.
-/
import Dyninfer.Cli.LogitTraceFacts
import Dyninfer.Lib.FirstMax
import Dyninfer.Lib.Sorting
import Dyninfer.Runtime.Session
import Mathlib.Data.Prod.Lex

namespace Dyninfer

open Effect FirstMax

instance : HostFloat Binary32 where
  gt := Binary32.gt
  negInfinity := Binary32.negInfinity
  zero := Binary32.zero
  masked := ⟨0xcb189680⟩
  masked_ne_zero := by decide

namespace Drift

structure TokenLogit where
  tokenId : TokenId
  logit : Binary32

structure TokenDelta where
  tokenId : TokenId
  reference : Binary32
  dyninfer : Binary32
  delta : Float
  absoluteDelta : Float

structure RowMetrics where
  maxAbsoluteError : Float
  meanAbsoluteError : Float
  rmse : Float
  meanSignedDelta : Float
  relativeL2Error : Float
  cosineSimilarity : Float
  centeredRmse : Float
  referenceArgmax : TokenId
  dyninferArgmax : TokenId
  argmaxMatch : Bool
  topK : Nat
  topKOverlap : Nat
  topKOverlapFraction : Float
  softmaxKlReferenceDyninfer : Float
  maxProbabilityDelta : Float
  largestDeltas : List TokenDelta
  referenceTop : List TokenLogit
  dyninferTop : List TokenLogit

/-! ## Doubles -/

/-- `f64::max`, which ignores a NaN. -/
def f64Max (x y : Float) : Float := if x.isNaN then y else if y.isNaN then x else if x < y then y else x

/-- `f64::clamp` -/
def f64Clamp (x low high : Float) : Float := if x < low then low else if high < x then high else x

def f64Epsilon : Float := Float.ofBits 0x3cb0000000000000

def f64NegInfinity : Float := Float.ofBits 0xfff0000000000000

def sum (xs : List Float) : Float := xs.foldl (· + ·) 0

/-- The place of a double in its total order. -/
def f64TotalPlace (x : Float) : Int :=
  if 2 ^ 63 ≤ x.toBits.toNat then -((x.toBits.toNat - 2 ^ 63 : Nat) : Int) - 1 else x.toBits.toNat

def logsumexp (values : List Binary32) : Float :=
  let maximum := (values.map Binary32.toFloat).foldl f64Max f64NegInfinity
  maximum + (sum (values.map fun value => (value.toFloat - maximum).exp)).log

/-! ## Indices in descending order -/

/-- The indices by falling value, ties by index; the keys are distinct, so a stable sort is as good as any. -/
def descendingIndices (values : List Binary32) : List Nat :=
  (Sorting.sortByKey (fun v => toLex (-v.1.totalPlace, v.2)) values.zipIdx).map (·.2)

/-- The first index of a sorted list as a token. -/
def firstIndex (indices : List Nat) : Except String TokenId :=
  if indices.headD 0 < 2 ^ 32 then .ok (UInt32.ofNat (indices.headD 0)) else .error "vocabulary exceeds u32"

def tokenLogits (values : List Binary32) (indices : List Nat) : List TokenLogit :=
  indices.map fun index => { tokenId := UInt32.ofNat index, logit := values.getD index Binary32.zero }

/-! ## The comparison -/

def checkFinite (engine : String) (values : List Binary32) : Except String Unit :=
  match LogitTrace.firstNonFinite values with
  | some (value, index) => .error s!"{engine} logit {index} is non-finite: {value.nonFiniteText}"
  | none => .ok ()

/-- What the loop over the pairs of logits adds up. -/
structure RowSums where
  maxAbsoluteError : Float := 0
  absoluteError : Float := 0
  squaredError : Float := 0
  delta : Float := 0
  referenceSquaredNorm : Float := 0
  dyninferSquaredNorm : Float := 0
  dot : Float := 0

def RowSums.add (sums : RowSums) (pair : Float × Float) : RowSums :=
  let (reference, dyninfer) := pair
  let delta := dyninfer - reference
  let absolute := delta.abs
  { maxAbsoluteError := f64Max sums.maxAbsoluteError absolute
    absoluteError := sums.absoluteError + absolute
    squaredError := sums.squaredError + delta * delta
    delta := sums.delta + delta
    referenceSquaredNorm := sums.referenceSquaredNorm + reference * reference
    dyninferSquaredNorm := sums.dyninferSquaredNorm + dyninfer * dyninfer
    dot := sums.dot + reference * dyninfer }

/-- Two zero rows are alike, a zero row and another are not. -/
def cosineSimilarity (dot referenceNorm dyninferNorm : Float) : Float :=
  if referenceNorm == 0 || dyninferNorm == 0 then
    if referenceNorm == 0 && dyninferNorm == 0 then 1 else 0
  else f64Clamp (dot / (referenceNorm * dyninferNorm)) (-1) 1

/-- The divergence of the softmax of the pairs, and the greatest difference of a probability. -/
def softmaxDrift (pairs : List (Float × Float)) (referenceLogsumexp dyninferLogsumexp : Float) : Float × Float :=
  let (kl, maxDelta) := pairs.foldl (fun acc pair =>
    let referenceLog := pair.1 - referenceLogsumexp
    let dyninferLog := pair.2 - dyninferLogsumexp
    (acc.1 + referenceLog.exp * (referenceLog - dyninferLog), f64Max acc.2 (referenceLog.exp - dyninferLog.exp).abs))
    ((0 : Float), (0 : Float))
  (if kl < 0 && kl > -1.0e-12 then 0 else kl, maxDelta)

/-- The indices by falling absolute delta, ties by index. -/
def deltaIndices (pairs : List (Float × Float)) : List Nat :=
  (Sorting.sortByKey (fun v => toLex (-f64TotalPlace (v.1.2 - v.1.1).abs, v.2)) pairs.zipIdx).map (·.2)

def tokenDelta (reference dyninfer : List Binary32) (index : Nat) : TokenDelta :=
  let r := reference.getD index Binary32.zero
  let d := dyninfer.getD index Binary32.zero
  let delta := d.toFloat - r.toFloat
  { tokenId := UInt32.ofNat index, reference := r, dyninfer := d, delta, absoluteDelta := delta.abs }

def compare (reference dyninfer : List Binary32) (requestedTopK : Nat) : Except String RowMetrics := do
  if reference = [] then throw "cannot compare empty logit rows"
  if reference.length ≠ dyninfer.length then
    throw s!"logit row width mismatch: reference {reference.length}, dyninfer {dyninfer.length}"
  if requestedTopK = 0 then throw "top-k must be greater than zero"
  checkFinite "reference" reference
  checkFinite "dyninfer" dyninfer
  let n := Float.ofNat reference.length
  let pairs := (reference.zip dyninfer).map fun v => (v.1.toFloat, v.2.toFloat)
  let sums := pairs.foldl RowSums.add {}
  let meanSignedDelta := sums.delta / n
  let centeredSquaredError := sum (pairs.map fun v =>
    (v.2 - v.1 - meanSignedDelta) * (v.2 - v.1 - meanSignedDelta))
  let referenceNorm := sums.referenceSquaredNorm.sqrt
  let dyninferNorm := sums.dyninferSquaredNorm.sqrt
  let topK := min requestedTopK reference.length
  let referenceIndices := descendingIndices reference
  let dyninferIndices := descendingIndices dyninfer
  let referenceArgmax ← firstIndex referenceIndices
  let dyninferArgmax ← firstIndex dyninferIndices
  let topKOverlap := ((dyninferIndices.take topK).filter (referenceIndices.take topK).contains).length
  let (kl, maxProbabilityDelta) := softmaxDrift pairs (logsumexp reference) (logsumexp dyninfer)
  return {
    maxAbsoluteError := sums.maxAbsoluteError
    meanAbsoluteError := sums.absoluteError / n
    rmse := (sums.squaredError / n).sqrt
    meanSignedDelta
    relativeL2Error := sums.squaredError.sqrt / f64Max referenceNorm f64Epsilon
    cosineSimilarity := cosineSimilarity sums.dot referenceNorm dyninferNorm
    centeredRmse := (centeredSquaredError / n).sqrt
    referenceArgmax
    dyninferArgmax
    argmaxMatch := referenceArgmax == dyninferArgmax
    topK
    topKOverlap
    topKOverlapFraction := Float.ofNat topKOverlap / Float.ofNat topK
    softmaxKlReferenceDyninfer := kl
    maxProbabilityDelta
    largestDeltas := ((deltaIndices pairs).take topK).map (tokenDelta reference dyninfer)
    referenceTop := tokenLogits reference (referenceIndices.take topK)
    dyninferTop := tokenLogits dyninfer (dyninferIndices.take topK) }

/-- The check of a row of the reference trace, behind the comparison with the session's row. -/
def compareRow (topK step : Nat) (traceRow : TraceRow) (reference dyninfer : List Binary32) :
    Except String RowMetrics := do
  let metrics ← compare reference dyninfer topK
  if metrics.referenceArgmax ≠ traceRow.argmax then throw s!"reference row {step} metadata/logit argmax mismatch"
  return metrics

end Drift

end Dyninfer
