import SimpleL1.Kernel.Conservation

/-!
# Runs of intents

The nonce of an account counts the intents of the account that were applied. So
in a run every account's intents are executed in the order of their nonces, one
after the other, and none of them twice.
-/

namespace SimpleL1.Kernel

open SimpleL1.Lib SimpleL1.Lib.Effect

/-- The intents that are executed when all are applied in turn, and the state they leave; a panic
ends the run. -/
def run (p : Primitives) : List Intent → State → List Intent × State
  | [], s => ([], s)
  | intent :: intents, s =>
    match apply p intent s with
    | .ok _ s' => ((intent :: (run p intents s').1), (run p intents s').2)
    | .error (.err _) s' => run p intents s'
    | .error (.panic _) s' => ([], s')

/-- The nonces of the account's intents. -/
def noncesOf (intents : List Intent) (a : Address) : List Nat :=
  (intents.filter (·.signer = a)).map (·.nonce.toNat)

section
variable {p : Primitives} {s : State} {intents : List Intent} {a : Address}

theorem noncesOf_cons (intent : Intent) :
    noncesOf (intent :: intents) a =
      if intent.signer = a then intent.nonce.toNat :: noncesOf intents a else noncesOf intents a := by
  unfold noncesOf
  rw [List.filter_cons]
  split <;> simp_all

theorem noncesOf_run :
    noncesOf (run p intents s).1 a =
      List.range' (s.getNonce a).toNat (noncesOf (run p intents s).1 a).length := by
  induction intents generalizing s with
  | nil => rfl
  | cons intent intents ih =>
    unfold run
    split
    · next root s' happly =>
      obtain ⟨-, hnonce, args, -, happlied⟩ := apply_eq_ok happly
      rw [noncesOf_cons]
      split
      · next hsigner =>
        -- The nonce is the count, and goes up for the rest.
        subst hsigner
        rw [List.length_cons, List.range'_succ, hnonce, ← happlied.nonce, ← ih]
      · next hother =>
        rw [← happlied.nonces a (Ne.symm hother)]
        exact ih
    · next e s' happly =>
      rw [apply_eq_err happly]
      exact ih
    · rfl

theorem nonce_ge_of_mem_run {intent : Intent} (h : intent ∈ (run p intents s).1) :
    (s.getNonce intent.signer).toNat ≤ intent.nonce.toNat := by
  have hmem : intent.nonce.toNat ∈ noncesOf (run p intents s).1 intent.signer :=
    List.mem_map_of_mem (List.mem_filter.mpr ⟨h, decide_eq_true rfl⟩)
  rw [noncesOf_run] at hmem
  exact (List.mem_range'_1.mp hmem).1

theorem nodup_run : ((run p intents s).1.map fun i => (i.signer, i.nonce)).Nodup := by
  induction intents generalizing s with
  | nil => exact .nil
  | cons intent intents ih =>
    unfold run
    split
    · next root s' happly =>
      obtain ⟨-, hnonce, args, -, happlied⟩ := apply_eq_ok happly
      refine List.nodup_cons.mpr ⟨fun hmem => ?_, ih⟩
      obtain ⟨later, hlater, heq⟩ := List.mem_map.mp hmem
      obtain ⟨hsigner, hsame⟩ := Prod.mk.inj heq
      have hge := nonce_ge_of_mem_run hlater
      rw [hsigner, hsame, hnonce, happlied.nonce] at hge
      omega
    · next e s' happly =>
      rw [apply_eq_err happly]
      exact ih
    · exact .nil

end

/-- No intent executes twice, and every account's intents execute in the order of their nonces. -/
theorem no_intent_twice (p : Primitives) (s : State) (intents : List Intent) :
    ((run p intents s).1.map fun i => (i.signer, i.nonce)).Nodup ∧
      ∀ a, noncesOf (run p intents s).1 a =
        List.range' (s.getNonce a).toNat (noncesOf (run p intents s).1 a).length :=
  ⟨nodup_run, fun _ => noncesOf_run⟩

end SimpleL1.Kernel
