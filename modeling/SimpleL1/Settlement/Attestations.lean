import SimpleL1.Lib.Quorum
import Mathlib

/-!
# The quorum of the attestation engine

The threshold is the rounded-up share of the validators, and the engine gives out
what is left over as the number of faults it tolerates. Counts of validators are
lengths of arrays, so the products and quotients below are exact as doubles and
only the rounding up is left of the arithmetic.
-/

namespace SimpleL1.Settlement

open SimpleL1.Lib

structure LocalValidator where
  validator_id : String
  weight : Nat
  privateKey : String
  public_key : String
  deriving DecidableEq, Repr

structure AttestationEngine where
  quorumNumerator : Nat
  quorumDenominator : Nat
  validators : List LocalValidator

structure QuorumParams where
  validator_count : Nat
  quorum_numerator : Nat
  quorum_denominator : Nat
  required_threshold : Nat
  fault_tolerance : Nat
  deriving DecidableEq, Repr

/-- `validator-${String.fromCharCode(65 + i)}`. -/
def validatorId (i : Nat) : String := "validator-" ++ String.singleton (Char.ofNat ((65 + i) % 65536))

namespace AttestationEngine

/-- `new AttestationEngine({ validatorCount, quorumNumerator, quorumDenominator })`, with the key
pairs the validators generate. -/
def create (keys : Nat → String × String) (validatorCount quorumNumerator quorumDenominator : Nat) :
    AttestationEngine where
  quorumNumerator := quorumNumerator
  quorumDenominator := quorumDenominator
  validators := (List.range validatorCount).map fun i =>
    ⟨validatorId i, 1, (keys i).1, (keys i).2⟩

/-- `Math.ceil(total * this.quorumNumerator / this.quorumDenominator)`. -/
def required (engine : AttestationEngine) (total : Nat) : Nat :=
  (total * engine.quorumNumerator) ⌈/⌉ engine.quorumDenominator

def getQuorumParams (engine : AttestationEngine) : QuorumParams :=
  let total := engine.validators.length
  let required := engine.required total
  { validator_count := total
    quorum_numerator := engine.quorumNumerator
    quorum_denominator := engine.quorumDenominator
    required_threshold := required
    fault_tolerance := total - required }

/-- An engine with the default quorum of two thirds. -/
def ofCount (keys : Nat → String × String) (validatorCount : Nat) : AttestationEngine :=
  create keys validatorCount 2 3

end AttestationEngine

section
variable (keys : Nat → String × String) (n : Nat)

@[simp] theorem length_ofCount : (AttestationEngine.ofCount keys n).validators.length = n := by
  simp [AttestationEngine.ofCount, AttestationEngine.create]

theorem required_ofCount (total : Nat) :
    (AttestationEngine.ofCount keys n).required total = (total * 2 + 2) / 3 := rfl

theorem required_threshold_ofCount :
    (AttestationEngine.ofCount keys n).getQuorumParams.required_threshold = (n * 2 + 2) / 3 := by
  show (AttestationEngine.ofCount keys n).required _ = _
  rw [length_ofCount, required_ofCount]

theorem fault_tolerance_ofCount :
    (AttestationEngine.ofCount keys n).getQuorumParams.fault_tolerance = n - (n * 2 + 2) / 3 := by
  show _ - (AttestationEngine.ofCount keys n).required _ = _
  rw [length_ofCount, required_ofCount]

end

/-- Two quorums always share more validators than the engine says may vote twice. -/
def AttestationEngine.Tolerates (engine : AttestationEngine) : Prop :=
  Quorum.Overlap (Fin engine.validators.length) engine.getQuorumParams.required_threshold
    engine.getQuorumParams.fault_tolerance

theorem tolerates_iff (keys : Nat → String × String) (n : Nat) :
    (AttestationEngine.ofCount keys n).Tolerates ↔ ¬ 3 ∣ n := by
  have hle : (n * 2 + 2) / 3 ≤ n := by omega
  unfold AttestationEngine.Tolerates
  rw [Quorum.overlap_iff (by simpa [required_threshold_ofCount] using hle),
    required_threshold_ofCount, fault_tolerance_ofCount, Fintype.card_fin, length_ofCount]
  omega

/-- Of the three validators the node runs with, two quorums may share a single one, and one is what
the engine tolerates. -/
theorem three_do_not_tolerate : ¬ (AttestationEngine.ofCount (fun _ => ("", "")) 3).Tolerates := by
  intro h
  have h : Quorum.Overlap (Fin 3) 2 1 := h
  exact absurd (h {0, 1} {1, 2} (by decide) (by decide)) (by decide)

end SimpleL1.Settlement
